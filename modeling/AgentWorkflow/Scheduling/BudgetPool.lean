import AgentWorkflow.Lib.Run
import AgentWorkflow.Queue.Worker
import AgentWorkflow.Scheduling.BudgetQuota

/-!
# Budget managers over one store

Any number of budget managers over one store and one log.

* `BudgetPool` — the store, the log and each manager's own set of emitted events; a step is a call
  of one of them.
* `Change` — what a step does to one task.
* `Becomes`, `Announced` — the task has a level in the run; an event was appended by a step that
  reached it.
* `Account` — the invariant of a level of a task: **a key in any manager's set, and an event in the
  log, say that the level was reached**.
* **`budgets_account_once`** — over every sequence of calls the status is the computed one and never
  falls, and each level is announced once, when it is reached.
-/

namespace AgentWorkflow

open Fallible BudgetManager

/-! ## Managers over one store -/

/-- The store and the log, and the set of emitted events of each manager. -/
structure BudgetPool where
  world : World
  emitted : String → List String

/-- A call, with its manager and its surroundings. -/
structure BudgetLabel where
  manager : String
  call : BudgetCall
  env : Env

/-- The deltas are not negative, and no append throws. -/
structure BudgetLabel.Allowed (l : BudgetLabel) : Prop where
  nonNegative : l.call.NonNegative
  appends : l.env.Appends

namespace BudgetPool

/-- The world as a manager sees it. -/
def load (s : BudgetPool) (manager : String) : World where
  core := s.world.core
  backend := { s.world.backend with emitted := s.emitted manager }

/-- The pool after a manager has left the world as given. -/
def store (s : BudgetPool) (manager : String) (world : World) : BudgetPool where
  world := world
  emitted := Function.update s.emitted manager world.backend.emitted

/-- One call, of a manager of the project `projectId manager`. -/
def step (projectId : String → String) (s : BudgetPool) (l : BudgetLabel) : BudgetPool :=
  match l.call.run (projectId l.manager) l.env (s.load l.manager) with
  | .ok _ world => s.store l.manager world
  | .error _ world => s.store l.manager world

/-- The step relation. -/
def Step (projectId : String → String) (s : BudgetPool) (l : BudgetLabel) (s' : BudgetPool) :
    Prop := s.step projectId l = s'

/-- The budget of a task. -/
def budget (s : BudgetPool) (t : String) : Option BudgetState := s.world.core.budget t

/-- The log. -/
def events (s : BudgetPool) : List EventEnvelope := s.world.backend.events

/-- The events of a level about a task. -/
def quotaEvents (s : BudgetPool) (level : BudgetStatus) (t : String) : List EventEnvelope :=
  s.events.filter fun e => e.eventType = level.eventType ∧ e.taskId = some t

/-- An empty store, a log without quota events of a task, and managers that have emitted none. -/
structure Initial (s : BudgetPool) : Prop where
  budget : ∀ t, s.budget t = none
  events : ∀ level t, s.quotaEvents level t = []
  emitted : ∀ manager, s.emitted manager = []

variable {projectId : String → String} {s₀ s s' : BudgetPool} {l : BudgetLabel}
  {ls : List BudgetLabel} {t : String}

/-- **What a step does**: what its call does, and nothing to the other managers. -/
theorem step_spec (h : Step projectId s l s') (hl : l.Allowed) : ∃ v,
    QuotaStep (projectId l.manager) l.call.taskId (s.load l.manager).quota v ∧
      s'.budget = v.budget ∧ s'.events = v.events ∧
      s'.emitted = Function.update s.emitted l.manager v.emitted := by
  have hspec : OnQuota (l.call.run (projectId l.manager)) l.env (s.load l.manager).quota
      (fun _ v => QuotaStep (projectId l.manager) l.call.taskId (s.load l.manager).quota v)
      fun _ v => QuotaStep (projectId l.manager) l.call.taskId (s.load l.manager).quota v :=
    BudgetCall.run_spec hl.nonNegative hl.appends _
  cases h
  unfold step
  cases hrun : l.call.run (projectId l.manager) l.env (s.load l.manager) with
  | ok b world => exact ⟨_, hspec.of_ok hrun, rfl, rfl, rfl⟩
  | error e world => exact ⟨_, hspec.of_error hrun, rfl, rfl, rfl⟩

/-! ## One task -/

/-- What a step of a manager, with its set of emitted events, does to a task. -/
inductive Change (projectId t : String) (emitted : List String) (s s' : BudgetPool) : Prop
  | quiet (hbudget : s'.budget t = s.budget t)
    (hevents : ∀ level, s'.quotaEvents level t = s.quotaEvents level t)
  | opened {b : BudgetState} (hnone : s.budget t = none) (hb' : s'.budget t = some b)
    (hb : b.Consistent) (hok : b.status = .ok)
    (hevents : ∀ level, s'.quotaEvents level t = s.quotaEvents level t)
  | silent {b b' : BudgetState} (hb : s.budget t = some b) (hb' : s'.budget t = some b')
    (hcharge : Charge b b') (hkey : b.status.rank < b'.status.rank → b'.status.key t ∈ emitted)
    (hevents : ∀ level, s'.quotaEvents level t = s.quotaEvents level t)
  | announced {b b' : BudgetState} {id : String} {createdAt : ℕ} (hb : s.budget t = some b)
    (hb' : s'.budget t = some b') (hcharge : Charge b b')
    (hrank : b.status.rank < b'.status.rank) (hkey : b'.status.key t ∉ emitted)
    (hevents : s'.events = s.events ++ [quotaEvent projectId t b' id createdAt])

/-- One more event of a task is one more event of its level. -/
theorem quotaEvents_append {u pid id : String} {b : BudgetState} {createdAt : ℕ}
    {level : BudgetStatus} (h : s'.events = s.events ++ [quotaEvent pid u b id createdAt]) :
    s'.quotaEvents level t = s.quotaEvents level t ++
      if b.status.eventType = level.eventType ∧ u = t then [quotaEvent pid u b id createdAt]
      else [] := by
  unfold quotaEvents
  rw [h, List.filter_append]
  congr 1
  simp only [List.filter_cons, List.filter_nil, quotaEvent, Option.some.injEq, decide_eq_true_eq]

theorem quotaEvents_congr {level : BudgetStatus} (h : s'.events = s.events) :
    s'.quotaEvents level t = s.quotaEvents level t := by
  unfold quotaEvents
  rw [h]

theorem change_of_step (h : Step projectId s l s') (hl : l.Allowed) (t : String) :
    Change (projectId l.manager) t (s.emitted l.manager) s s' := by
  obtain ⟨v, hstep, hbudget, hevents, -⟩ := step_spec h hl
  by_cases ht : t = l.call.taskId
  · subst ht
    cases hstep with
    | same => exact .quiet (congrFun hbudget _) fun _ => quotaEvents_congr hevents
    | opened hnone hb hok =>
      refine .opened hnone ?_ hb hok fun _ => quotaEvents_congr hevents
      rw [hbudget]
      exact QuotaView.budget_write_self _ _ _
    | synced hb h => exact .quiet (congrFun hbudget _) fun _ => quotaEvents_congr hevents
    | silent hb hcharge hkey =>
      refine .silent hb ?_ hcharge hkey fun _ => quotaEvents_congr hevents
      rw [hbudget]
      exact QuotaView.budget_write_self _ _ _
    | announced hb hcharge hrank hkey =>
      refine .announced hb ?_ hcharge hrank hkey hevents
      rw [hbudget]
      exact QuotaView.budget_write_self _ _ _
  · have hwrite : ∀ b : BudgetState,
        ((s.load l.manager).quota.write l.call.taskId b).budget t = s.budget t := fun b => by
      rw [QuotaView.budget_write, if_neg ht]
      rfl
    cases hstep with
    | same => exact .quiet (congrFun hbudget _) fun _ => quotaEvents_congr hevents
    | opened hnone hb hok =>
      refine .quiet ?_ fun _ => quotaEvents_congr hevents
      rw [hbudget]
      exact hwrite _
    | synced hb h => exact .quiet (congrFun hbudget _) fun _ => quotaEvents_congr hevents
    | silent hb hcharge hkey =>
      refine .quiet ?_ fun _ => quotaEvents_congr hevents
      rw [hbudget]
      exact hwrite _
    | announced hb hcharge hrank hkey =>
      refine .quiet ?_ fun level => ?_
      · rw [hbudget]
        exact hwrite _
      · rw [quotaEvents_append hevents, if_neg fun h => ht h.2.symm, List.append_nil]

/-- A key of a task in a manager's set was there, or the task has reached the level. -/
theorem key_of_step (h : Step projectId s l s') (hl : l.Allowed) {level : BudgetStatus}
    (hlevel : 0 < level.rank) {manager : String} (hkey : level.key t ∈ s'.emitted manager) :
    level.key t ∈ s.emitted manager ∨
      ∃ b, s'.budget t = some b ∧ level.rank ≤ b.status.rank := by
  obtain ⟨v, hstep, hbudget, -, hemitted⟩ := step_spec h hl
  rw [hemitted, Function.update_apply] at hkey
  split at hkey
  next hmanager =>
    subst hmanager
    cases hstep with
    | same => exact Or.inl hkey
    | opened hnone hb hok => exact Or.inl hkey
    | silent hb hcharge hkey' => exact Or.inl hkey
    | synced hb h =>
      rcases h _ hkey with hkey | ⟨level', hlevel', hle, hkey⟩
      · exact Or.inl hkey
      · obtain ⟨rfl, rfl⟩ := BudgetStatus.key_injective hlevel hlevel' hkey
        refine Or.inr ⟨_, ?_, hle⟩
        rw [hbudget]
        exact hb
    | announced hb hcharge hrank hkey' =>
      rcases List.mem_cons.mp hkey with hkey | hkey
      · obtain ⟨rfl, rfl⟩ := BudgetStatus.key_injective hlevel (by omega) hkey
        refine Or.inr ⟨_, ?_, le_rfl⟩
        rw [hbudget]
        exact QuotaView.budget_write_self _ _ _
      · exact Or.inl hkey
  next => exact Or.inl hkey

/-! ## Histories -/

/-- The task has the status in some state of the run. -/
def Becomes (projectId : String → String) (s₀ : BudgetPool) (ls : List BudgetLabel) (t : String)
    (level : BudgetStatus) : Prop :=
  ∃ pre s b, pre <+: ls ∧ Run (Step projectId) s₀ pre s ∧ s.budget t = some b ∧ b.status = level

/-- An event announces the level of a budget: it names an axis of the highest share, and the share
has reached the level. -/
structure Announces (level : BudgetStatus) (b : BudgetState) (e : EventEnvelope) : Prop where
  status : b.status = level
  axis : ∃ axis : BudgetAxis, e.payload.lookup "axis" = some (.str axis.text) ∧
    e.payload.lookup "ratio" = some (.num (b.ratio axis)) ∧ (∀ a, b.ratio a ≤ b.ratio axis) ∧
    level.threshold ≤ b.ratio axis

/-- The event was appended by a step of the run, and announces the budget that step left. -/
def Announced (projectId : String → String) (s₀ : BudgetPool) (ls : List BudgetLabel) (t : String)
    (level : BudgetStatus) (e : EventEnvelope) : Prop :=
  ∃ pre l s₁ s₂ b, pre ++ [l] <+: ls ∧ Run (Step projectId) s₀ pre s₁ ∧ Step projectId s₁ l s₂ ∧
    s₂.events = s₁.events ++ [e] ∧ s₂.budget t = some b ∧ Announces level b e

/-- One event of a level when the task has it in the run, and none otherwise. -/
structure Once (projectId : String → String) (s₀ : BudgetPool) (ls : List BudgetLabel)
    (s : BudgetPool) (t : String) (level : BudgetStatus) : Prop where
  once : Becomes projectId s₀ ls t level →
    ∃ e, s.quotaEvents level t = [e] ∧ Announced projectId s₀ ls t level e
  never : ¬ Becomes projectId s₀ ls t level → s.quotaEvents level t = []

/-- What the managers know of a level of a task. -/
structure Account (projectId : String → String) (s₀ : BudgetPool) (ls : List BudgetLabel)
    (s : BudgetPool) (t : String) (level : BudgetStatus) : Prop
    extends Once projectId s₀ ls s t level where
  key : ∀ manager, level.key t ∈ s.emitted manager →
    ∃ b, s.budget t = some b ∧ level.rank ≤ b.status.rank
  reached : Becomes projectId s₀ ls t level →
    ∃ b, s.budget t = some b ∧ level.rank ≤ b.status.rank

/-- The steps are a function of the labels. -/
theorem run_iff : Run (Step projectId) s₀ ls s ↔ ls.foldl (step projectId) s₀ = s := Run.foldl_iff

theorem becomes_snoc {level : BudgetStatus} (h : Run (Step projectId) s₀ ls s)
    (hstep : Step projectId s l s') : Becomes projectId s₀ (ls ++ [l]) t level ↔
      Becomes projectId s₀ ls t level ∨ ∃ b, s'.budget t = some b ∧ b.status = level := by
  have hrun : Run (Step projectId) s₀ (ls ++ [l]) s' := Run.snoc_iff.mpr ⟨s, h, hstep⟩
  constructor
  · rintro ⟨pre, s₁, b, hpre, hs₁, hb, hlevel⟩
    rcases List.prefix_concat_iff.mp hpre with rfl | hpre
    · obtain rfl : s₁ = s' := (run_iff.mp hs₁).symm.trans (run_iff.mp hrun)
      exact Or.inr ⟨b, hb, hlevel⟩
    · exact Or.inl ⟨pre, s₁, b, hpre, hs₁, hb, hlevel⟩
  · rintro (⟨pre, s₁, b, hpre, hs₁, hb, hlevel⟩ | ⟨b, hb, hlevel⟩)
    · exact ⟨pre, s₁, b, hpre.trans (List.prefix_append _ _), hs₁, hb, hlevel⟩
    · exact ⟨_, s', b, List.prefix_rfl, hrun, hb, hlevel⟩

/-- A longer run keeps the announcements. -/
theorem Announced.snoc {level : BudgetStatus} {e : EventEnvelope}
    (h : Announced projectId s₀ ls t level e) : Announced projectId s₀ (ls ++ [l]) t level e := by
  obtain ⟨pre, l', s₁, s₂, b, hpre, hrest⟩ := h
  exact ⟨pre, l', s₁, s₂, b, hpre.trans (List.prefix_append _ _), hrest⟩

/-- Every budget is consistent. -/
def Consistent (s : BudgetPool) : Prop := ∀ t b, s.budget t = some b → b.Consistent

theorem consistent_step (h : Step projectId s l s') (hl : l.Allowed) (hs : s.Consistent) :
    s'.Consistent := by
  intro t b hb
  cases change_of_step h hl t with
  | quiet hbudget hevents => exact hs t b (hbudget ▸ hb)
  | opened hnone hb' hcons hok hevents =>
    rw [hb'] at hb
    exact Option.some.inj hb ▸ hcons
  | silent hb₀ hb' hcharge hkey hevents =>
    rw [hb'] at hb
    exact Option.some.inj hb ▸ hcharge.consistent (hs t _ hb₀)
  | announced hb₀ hb' hcharge hrank hkey hevents =>
    rw [hb'] at hb
    exact Option.some.inj hb ▸ hcharge.consistent (hs t _ hb₀)

/-- **No status falls.** -/
theorem rank_le_step (h : Step projectId s l s') (hl : l.Allowed) (hs : s.Consistent)
    {b : BudgetState} (hb : s.budget t = some b) :
    ∃ b', s'.budget t = some b' ∧ b.status.rank ≤ b'.status.rank := by
  cases change_of_step h hl t with
  | quiet hbudget hevents => exact ⟨b, hbudget.trans hb, le_rfl⟩
  | opened hnone hb' hcons hok hevents =>
    rw [hnone] at hb
    cases hb
  | silent hb₀ hb' hcharge hkey hevents =>
    obtain rfl := Option.some.inj (hb₀.symm.trans hb)
    exact ⟨_, hb', hcharge.rank_le (hs t _ hb)⟩
  | announced hb₀ hb' hcharge hrank hkey hevents =>
    obtain rfl := Option.some.inj (hb₀.symm.trans hb)
    exact ⟨_, hb', hrank.le⟩

/-- The event of a rise announces the level reached. -/
theorem announces_quotaEvent {pid id : String} {b : BudgetState} {createdAt : ℕ}
    (hb : b.Consistent) (hlevel : 0 < b.status.rank) :
    Announces b.status b (quotaEvent pid t b id createdAt) := by
  obtain ⟨axis, hpick, hmax⟩ := pickAxis_spec b
  obtain ⟨a, ha⟩ := (hb.reaches_iff hlevel).mp le_rfl
  refine ⟨rfl, axis, ?_, ?_, hmax, ha.trans (hmax a)⟩
  · show some (Json.str (pickAxis b).1) = _
    rw [hpick]
  · show some (Json.num (pickAxis b).2) = _
    rw [hpick]

/-- A step without an event of the level keeps its account, when the task does not have it anew. -/
theorem Once.keep {level : BudgetStatus} (h : Once projectId s₀ ls s t level)
    (hrun : Run (Step projectId) s₀ ls s) (hstep : Step projectId s l s')
    (hevents : s'.quotaEvents level t = s.quotaEvents level t)
    (hold : ∀ b, s'.budget t = some b → b.status = level → Becomes projectId s₀ ls t level) :
    Once projectId s₀ (ls ++ [l]) s' t level := by
  have hiff : Becomes projectId s₀ (ls ++ [l]) t level ↔ Becomes projectId s₀ ls t level := by
    rw [becomes_snoc hrun hstep]
    refine ⟨?_, Or.inl⟩
    rintro (h | ⟨b, hb, hlevel⟩)
    · exact h
    · exact hold b hb hlevel
  refine ⟨fun hbecomes => ?_, fun hnever => ?_⟩
  · obtain ⟨e, he, hannounced⟩ := h.once (hiff.mp hbecomes)
    exact ⟨e, hevents.trans he, hannounced.snoc⟩
  · exact hevents.trans (h.never fun hbecomes => hnever (hiff.mpr hbecomes))

theorem Account.once_step {level : BudgetStatus} (hlevel : 0 < level.rank)
    (h : Account projectId s₀ ls s t level) (hrun : Run (Step projectId) s₀ ls s)
    (hs : s.Consistent) (hstep : Step projectId s l s') (hl : l.Allowed) :
    Once projectId s₀ (ls ++ [l]) s' t level := by
  have hnow : ∀ b, s.budget t = some b → b.status = level → Becomes projectId s₀ ls t level :=
    fun b hb hstatus => ⟨ls, s, b, List.prefix_rfl, hrun, hb, hstatus⟩
  cases change_of_step hstep hl t with
  | quiet hbudget hevents =>
    exact h.toOnce.keep hrun hstep (hevents level) fun b hb => hnow b (hbudget ▸ hb)
  | @opened b hnone hb' hcons hok hevents =>
    refine h.toOnce.keep hrun hstep (hevents level) fun b₁ hb₁ hstatus => ?_
    obtain rfl := Option.some.inj (hb'.symm.trans hb₁)
    rw [← hstatus, hok] at hlevel
    exact absurd hlevel (lt_irrefl 0)
  | @silent b b' hb hb' hcharge hkey hevents =>
    refine h.toOnce.keep hrun hstep (hevents level) fun b₁ hb₁ hstatus => ?_
    obtain rfl := Option.some.inj (hb'.symm.trans hb₁)
    subst hstatus
    have hle := hcharge.rank_le (hs t b hb)
    -- A remembered key says that the level was reached before.
    have hsame : ¬ b.status.rank < b'.status.rank := by
      intro hrise
      obtain ⟨b₂, hb₂, hreached⟩ := h.key _ (hkey hrise)
      obtain rfl := Option.some.inj (hb.symm.trans hb₂)
      omega
    exact hnow b hb (BudgetStatus.rank_injective (by omega))
  | @announced b b' id createdAt hb hb' hcharge hrank hkey hevents =>
    by_cases hstatus : b'.status = level
    · subst hstatus
      have hfirst : ¬ Becomes projectId s₀ ls t b'.status := by
        intro hbecomes
        obtain ⟨b₂, hb₂, hreached⟩ := h.reached hbecomes
        obtain rfl := Option.some.inj (hb.symm.trans hb₂)
        omega
      have hnew : s'.quotaEvents b'.status t =
          [quotaEvent (projectId l.manager) t b' id createdAt] := by
        rw [quotaEvents_append hevents, h.never hfirst, if_pos ⟨rfl, rfl⟩, List.nil_append]
      refine ⟨fun _ => ⟨_, hnew, ls, l, s, s', b', List.prefix_rfl, hrun, hstep, hevents, hb',
        announces_quotaEvent (hcharge.consistent (hs t b hb)) hlevel⟩, fun hnever => ?_⟩
      exact absurd ((becomes_snoc hrun hstep).mpr (Or.inr ⟨b', hb', rfl⟩)) hnever
    · refine h.toOnce.keep hrun hstep ?_ fun b₁ hb₁ hstatus' => ?_
      · have htype : b'.status.eventType ≠ level.eventType := fun heq =>
          hstatus (BudgetStatus.eventType_injective (by omega) hlevel heq)
        rw [quotaEvents_append hevents, if_neg fun hboth => htype hboth.1, List.append_nil]
      · obtain rfl := Option.some.inj (hb'.symm.trans hb₁)
        exact absurd hstatus' hstatus

/-- **The account of a level survives a step.** -/
theorem Account.step {level : BudgetStatus} (hlevel : 0 < level.rank)
    (h : Account projectId s₀ ls s t level) (hrun : Run (Step projectId) s₀ ls s)
    (hs : s.Consistent) (hstep : Step projectId s l s') (hl : l.Allowed) :
    Account projectId s₀ (ls ++ [l]) s' t level := by
  have hrise : (∃ b, s.budget t = some b ∧ level.rank ≤ b.status.rank) →
      ∃ b, s'.budget t = some b ∧ level.rank ≤ b.status.rank := by
    rintro ⟨b, hb, hle⟩
    obtain ⟨b', hb', hle'⟩ := rank_le_step hstep hl hs hb
    exact ⟨b', hb', hle.trans hle'⟩
  refine ⟨h.once_step hlevel hrun hs hstep hl, fun manager hkey => ?_, fun hbecomes => ?_⟩
  · rcases key_of_step hstep hl hlevel hkey with hkey | hreached
    · exact hrise (h.key manager hkey)
    · exact hreached
  · rcases (becomes_snoc hrun hstep).mp hbecomes with hbecomes | ⟨b, hb, hstatus⟩
    · exact hrise (h.reached hbecomes)
    · exact ⟨b, hb, by rw [hstatus]⟩

theorem Account.initial {level : BudgetStatus} (h₀ : s₀.Initial) :
    Account projectId s₀ [] s₀ t level := by
  have hnever : ¬ Becomes projectId s₀ [] t level := by
    rintro ⟨pre, s, b, hpre, hs, hb, -⟩
    rw [List.prefix_nil.mp hpre, Run.nil_iff] at hs
    rw [← hs, h₀.budget] at hb
    cases hb
  refine ⟨⟨fun h => absurd h hnever, fun _ => h₀.events level t⟩, fun manager hkey => ?_,
    fun h => absurd h hnever⟩
  rw [h₀.emitted] at hkey
  cases hkey

theorem consistent_of_run (h₀ : s₀.Initial) (h : Run (Step projectId) s₀ ls s)
    (hls : ∀ l ∈ ls, l.Allowed) : s.Consistent := by
  refine (h.guarded_of_labels hls).invariant_of_guard (fun t b hb => ?_)
    fun s l s' hl hstep hs => consistent_step hstep hl hs
  rw [h₀.budget] at hb
  cases hb

/-- Every run of allowed calls keeps the accounts. -/
theorem account_of_run {level : BudgetStatus} (hlevel : 0 < level.rank) (h₀ : s₀.Initial)
    (h : Run (Step projectId) s₀ ls s) (hls : ∀ l ∈ ls, l.Allowed) :
    Account projectId s₀ ls s t level := by
  induction ls using List.reverseRecOn generalizing s with
  | nil =>
    obtain rfl := Run.nil_iff.mp h
    exact .initial h₀
  | append_singleton ls l ih =>
    obtain ⟨s₁, hrun, hstep⟩ := Run.snoc_iff.mp h
    have hpre : ∀ l' ∈ ls, l'.Allowed := fun l' hl' => hls l' (List.mem_append_left _ hl')
    have hl : l.Allowed := hls l (List.mem_append_right _ (List.mem_singleton_self l))
    exact (ih hrun hpre).step hlevel hrun (consistent_of_run h₀ hrun hpre) hstep hl

/-- The status is the computed one. -/
def StatusComputed (s : BudgetPool) (t : String) : Prop :=
  ∀ b, s.budget t = some b →
    b.status = computeStatus b.runsUsed b.wallTimeMsUsed b.costUnitsUsed b.caps

/-- No later state of the run has a lower status. -/
def StatusRises (projectId : String → String) (s₀ : BudgetPool) (ls : List BudgetLabel)
    (t : String) : Prop :=
  ∀ pre mid s₁ s₂ b₁, pre ++ mid <+: ls → Run (Step projectId) s₀ pre s₁ →
    Run (Step projectId) s₁ mid s₂ → s₁.budget t = some b₁ →
    ∃ b₂, s₂.budget t = some b₂ ∧ b₁.status.rank ≤ b₂.status.rank

theorem rank_le_run (h : Run (Step projectId) s ls s') (hls : ∀ l ∈ ls, l.Allowed)
    (hs : s.Consistent) {b : BudgetState} (hb : s.budget t = some b) :
    ∃ b', s'.budget t = some b' ∧ b.status.rank ≤ b'.status.rank := by
  have hinv := (h.guarded_of_labels hls).invariant_of_guard
    (I := fun s₁ => s₁.Consistent ∧ ∃ b', s₁.budget t = some b' ∧ b.status.rank ≤ b'.status.rank)
    ⟨hs, b, hb, le_rfl⟩ ?_
  · exact hinv.2
  · rintro s₁ l s₂ hl hstep ⟨hcons, b₁, hb₁, hle⟩
    obtain ⟨b₂, hb₂, hle₂⟩ := rank_le_step hstep hl hcons hb₁
    exact ⟨consistent_step hstep hl hcons, b₂, hb₂, hle.trans hle₂⟩

/-- **Over every sequence of calls of any number of managers** the status of a task is the computed
one and never falls; `quota.low` and `quota.exhausted` are each appended once when the task has the
level in the run, and not at all when it does not, with an axis of the highest share. -/
theorem budgets_account_once (h₀ : s₀.Initial) (h : Run (Step projectId) s₀ ls s)
    (hls : ∀ l ∈ ls, l.Allowed) (t : String) :
    s.StatusComputed t ∧ StatusRises projectId s₀ ls t ∧
      Once projectId s₀ ls s t .softWarning ∧ Once projectId s₀ ls s t .exhausted := by
  have hsoft : Account projectId s₀ ls s t .softWarning := account_of_run (by decide) h₀ h hls
  have hexhausted : Account projectId s₀ ls s t .exhausted := account_of_run (by decide) h₀ h hls
  have hcons : s.Consistent := consistent_of_run h₀ h hls
  refine ⟨fun b hb => (hcons t b hb).status_eq, ?_, hsoft.toOnce, hexhausted.toOnce⟩
  intro pre mid s₁ s₂ b₁ hpre hs₁ hs₂ hb₁
  have hall : ∀ l ∈ pre ++ mid, l.Allowed := fun l hl => hls l (hpre.subset hl)
  have hcons₁ : s₁.Consistent :=
    consistent_of_run h₀ hs₁ fun l hl => hall l (List.mem_append_left _ hl)
  exact rank_le_run hs₂ (fun l hl => hall l (List.mem_append_right _ hl)) hcons₁ hb₁

/-- Two managers: the first one charges the task up to the warning, the second one exhausts it. -/
def twoManagers : List BudgetLabel :=
  [⟨"m1", .init Sample.workOrder, Sample.env⟩, ⟨"m1", .postRun "T-1" 1000 none 8, Sample.env⟩,
    ⟨"m2", .init Sample.workOrder, Sample.env⟩, ⟨"m2", .preLaunch "T-1", Sample.env⟩,
    ⟨"m2", .postRun "T-1" 1000 (some 2) 8, Sample.env⟩, ⟨"m1", .preLaunch "T-1", Sample.env⟩]

/-- The pool before the first call. -/
def fresh : BudgetPool := ⟨Sample.system.world, fun _ => []⟩

theorem initial_fresh : fresh.Initial := ⟨fun _ => rfl, fun _ _ => rfl, fun _ => rfl⟩

theorem allowed_twoManagers : ∀ l ∈ twoManagers, l.Allowed := by
  have hnonNegative : ∀ l ∈ twoManagers, l.call.NonNegative := by
    simp [twoManagers, BudgetCall.NonNegative]
  have henv : ∀ l ∈ twoManagers, l.env = Sample.env := by
    simp [twoManagers]
  intro l hl
  refine ⟨hnonNegative l hl, ?_⟩
  rw [henv l hl]
  exact fun _ _ => rfl

theorem budgets_account_once_two : ∃ s, Run (Step fun _ => "default") fresh twoManagers s ∧
    s.StatusComputed "T-1" ∧ StatusRises (fun _ => "default") fresh twoManagers "T-1" ∧
    Once (fun _ => "default") fresh twoManagers s "T-1" .softWarning ∧
    Once (fun _ => "default") fresh twoManagers s "T-1" .exhausted :=
  ⟨_, run_iff.mpr rfl, budgets_account_once initial_fresh (run_iff.mpr rfl) allowed_twoManagers "T-1"⟩

/-- There each level is announced. -/
example : (((twoManagers.foldl (step fun _ => "default") fresh).events.map
    EventEnvelope.eventType)) = [.quotaLow, .quotaExhausted] := by
  decide +kernel

end BudgetPool

end AgentWorkflow
