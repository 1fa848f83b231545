import AgentWorkflow.Lib.Run
import AgentWorkflow.Queue.Worker
import AgentWorkflow.Scheduling.SharedHealth

/-!
# Registries over one map

Any number of registries that share one map of quota healths, one log and one metrics store.

* `RegistryPool` — what they share, and the entries of each; a step is a call of one of them.
* `step_spec` — what a step does to the map and the log; **every registry stays synced**, since a
  key once in the map stays there.
* `agentQuotaEvents` — the quota events of an agent; `upTo` — the most there can be of them at a
  health.
* **`registries_agree`** — over every sequence of calls a health only rises, every registry reports
  the one of the map, each level is announced at most once and in order, and an exhausted agent is
  never picked.
-/

namespace AgentWorkflow

open Fallible

/-- What the registries share, and the entries of each. -/
structure RegistryPool where
  /-- Its registry is the one of the last call. -/
  backend : Backend
  registry : String → Table InternalEntry.agentId

/-- A call, with its registry and its surroundings. -/
structure RegistryLabel where
  owner : String
  call : RegistryCall
  env : Env

namespace RegistryPool

/-- The backend as a registry sees it. -/
def load (s : RegistryPool) (owner : String) : Backend :=
  { s.backend with registry := s.registry owner }

/-- The pool after a registry has left the backend as given. -/
def store (s : RegistryPool) (owner : String) (backend : Backend) : RegistryPool where
  backend := backend
  registry := Function.update s.registry owner backend.registry

/-- One call, of a registry with the options `options owner`. -/
def step (options : String → AgentRegistry.Options) (s : RegistryPool) (l : RegistryLabel) :
    RegistryPool :=
  match l.call.run (options l.owner) l.env (s.load l.owner) with
  | .ok _ backend => s.store l.owner backend
  | .error _ backend => s.store l.owner backend

/-- The step relation. -/
def Step (options : String → AgentRegistry.Options) (s : RegistryPool) (l : RegistryLabel)
    (s' : RegistryPool) : Prop := s.step options l = s'

/-- The health of an agent. -/
def health (s : RegistryPool) (a : String) : QuotaHealth := healthOf s.backend.sharedQuotaHealth a

/-- The quota events of an agent. -/
def agentQuotaEvents (s : RegistryPool) (a : String) : List EventType :=
  (s.backend.events.filter fun e =>
    e.eventType ∈ [EventType.quotaLow, .quotaExhausted] ∧ e.taskId = none ∧ e.agentId = some a).map
    EventEnvelope.eventType

/-- Nothing is loaded, the map is empty, and the log has no quota event of an agent. -/
structure Initial (s : RegistryPool) : Prop where
  registry : ∀ owner, s.registry owner = Table.empty
  shared : s.backend.sharedQuotaHealth = []
  events : ∀ a, s.agentQuotaEvents a = []

/-- Every registry is synced. -/
def AllSynced (s : RegistryPool) : Prop :=
  ∀ owner, Synced s.backend.sharedQuotaHealth (s.registry owner)

variable {options : String → AgentRegistry.Options} {s₀ s s' : RegistryPool} {l : RegistryLabel}
  {ls : List RegistryLabel} {a : String}

/-- What a step does to the map and the log. -/
inductive Change (s s' : RegistryPool) : Prop
  | quiet (hhealth : ∀ k, s'.health k = s.health k) (hevents : s'.backend.events = s.backend.events)
  | raised {a : String} {h : QuotaHealth} (hlt : (s.health a).rank < h.rank)
    (hhealth : ∀ k, s'.health k = if k = a then h else s.health k)
    (hevents : s'.backend.events = s.backend.events)
  | announced {a : String} {h : QuotaHealth} {e : EventEnvelope}
    (hlt : (s.health a).rank < h.rank) (he : AgentQuota a h e)
    (hhealth : ∀ k, s'.health k = if k = a then h else s.health k)
    (hevents : s'.backend.events = s.backend.events ++ [e])

/-- The other registries stay synced with a map that grows. -/
theorem allSynced_store {owner : String} {b : Backend} (hs : s.AllSynced)
    (hothers : ∀ registry, Synced s.backend.sharedQuotaHealth registry →
      Synced b.sharedQuotaHealth registry)
    (hb : Synced b.sharedQuotaHealth b.registry) : (s.store owner b).AllSynced := by
  intro k
  show Synced b.sharedQuotaHealth (Function.update s.registry owner b.registry k)
  rw [Function.update_apply]
  split
  · exact hb
  · exact hothers _ (hs k)

theorem store_spec {owner : String} {b : Backend} (hs : s.AllSynced)
    (h : HealthStep s.backend.sharedQuotaHealth s.backend.events b.healthView) :
    (s.store owner b).AllSynced ∧ Change s (s.store owner b) := by
  obtain ⟨v, hv⟩ : ∃ v, v = b.healthView := ⟨_, rfl⟩
  rw [← hv] at h
  have hshared : b.sharedQuotaHealth = v.shared := congrArg HealthView.shared hv.symm
  have hevents : b.events = v.events := congrArg HealthView.events hv.symm
  have hregistry : b.registry = v.registry := congrArg HealthView.registry hv.symm
  have hhealth : ∀ k, (s.store owner b).health k = healthOf v.shared k := fun k => by
    rw [← hshared]
    rfl
  cases h with
  | quiet hsynced =>
    refine ⟨allSynced_store hs (fun registry h => ?_) ?_, .quiet hhealth hevents⟩
    · rw [hshared]
      exact h
    · rw [hshared, hregistry]
      exact hsynced
  | raised hlt hsynced =>
    refine ⟨allSynced_store hs (fun registry h => ?_) ?_, .raised hlt (fun k => ?_) hevents⟩
    · rw [hshared]
      exact h.cons
    · rw [hshared, hregistry]
      exact hsynced
    · rw [hhealth]
      exact healthOf_cons _ _ _ k
  | announced hlt he hsynced =>
    refine ⟨allSynced_store hs (fun registry h => ?_) ?_, .announced hlt he (fun k => ?_) hevents⟩
    · rw [hshared]
      exact h.cons
    · rw [hshared, hregistry]
      exact hsynced
    · rw [hhealth]
      exact healthOf_cons _ _ _ k

/-- **A step keeps every registry synced, and raises at most one health.** -/
theorem step_spec (hs : s.AllSynced) (h : Step options s l s') : s'.AllSynced ∧ Change s s' := by
  have hspec : OnHealth (l.call.run (options l.owner)) l.env (s.load l.owner).healthView
      (fun _ v => HealthStep s.backend.sharedQuotaHealth s.backend.events v)
      fun _ v => HealthStep s.backend.sharedQuotaHealth s.backend.events v :=
    RegistryCall.run_spec (hs l.owner)
  cases h
  unfold step
  cases hrun : l.call.run (options l.owner) l.env (s.load l.owner) with
  | ok u b => exact store_spec hs (hspec.of_ok hrun)
  | error e b => exact store_spec hs (hspec.of_error hrun)

theorem allSynced_run (h : Run (Step options) s ls s') (hs : s.AllSynced) : s'.AllSynced :=
  h.invariant hs fun _ _ _ hstep hs => (step_spec hs hstep).1

/-! ## Healths only rise -/

theorem rank_le_step (hs : s.AllSynced) (h : Step options s l s') (a : String) :
    (s.health a).rank ≤ (s'.health a).rank := by
  cases (step_spec hs h).2 with
  | quiet hhealth hevents => rw [hhealth]
  | raised hlt hhealth hevents =>
    rw [hhealth]
    split
    next heq => exact heq ▸ hlt.le
    next => exact le_rfl
  | announced hlt he hhealth hevents =>
    rw [hhealth]
    split
    next heq => exact heq ▸ hlt.le
    next => exact le_rfl

/-- **No health falls.** -/
theorem rank_le_run (hs : s.AllSynced) (h : Run (Step options) s ls s') (a : String) :
    (s.health a).rank ≤ (s'.health a).rank := by
  induction h with
  | nil s => exact le_rfl
  | cons hstep _ ih => exact (rank_le_step hs hstep a).trans (ih (step_spec hs hstep).1)

/-! ## The events of an agent -/

/-- The most quota events an agent can have at a health. -/
def upTo : QuotaHealth → List EventType
  | .healthy => []
  | .low => [.quotaLow]
  | .exhausted => [.quotaLow, .quotaExhausted]

theorem upTo_mono {h h' : QuotaHealth} (hle : h.rank ≤ h'.rank) : (upTo h).Sublist (upTo h') := by
  cases h <;> cases h' <;> first | exact absurd hle (by decide) | decide

/-- The event of a risen health is one more. -/
theorem upTo_announced {h h' : QuotaHealth} (hlt : h.rank < h'.rank) {types : List EventType}
    (htypes : types.Sublist (upTo h)) : (types ++ [h'.eventType]).Sublist (upTo h') := by
  refine (htypes.append_right _).trans ?_
  cases h <;> cases h' <;> first | exact absurd hlt (by decide) | decide

theorem agentQuotaEvents_congr (h : s'.backend.events = s.backend.events) :
    s'.agentQuotaEvents a = s.agentQuotaEvents a := by
  unfold agentQuotaEvents
  rw [h]

/-- One more event of an agent. -/
theorem agentQuotaEvents_append {k : String} {health : QuotaHealth} {e : EventEnvelope}
    (he : AgentQuota k health e) (h : s'.backend.events = s.backend.events ++ [e]) :
    s'.agentQuotaEvents a = s.agentQuotaEvents a ++ if a = k then [health.eventType] else [] := by
  have htype : e.eventType ∈ [EventType.quotaLow, .quotaExhausted] := by
    rw [he.eventType]
    cases health <;> decide
  unfold agentQuotaEvents
  rw [h, List.filter_append, List.map_append]
  congr 1
  by_cases hk : a = k
  · rw [if_pos hk, List.filter_cons_of_pos (by
      rw [decide_eq_true_eq]
      exact ⟨htype, he.taskId, hk ▸ he.agentId⟩)]
    exact congrArg (fun x => [x]) he.eventType
  · rw [if_neg hk, List.filter_cons_of_neg (by
      rw [decide_eq_true_eq]
      rintro ⟨-, -, hid⟩
      exact hk (Option.some.inj (hid.symm.trans he.agentId)))]
    rfl

/-- **There are no more events than the health allows.** -/
theorem sublist_step (hs : s.AllSynced) (h : Step options s l s')
    (ha : (s.agentQuotaEvents a).Sublist (upTo (s.health a))) :
    (s'.agentQuotaEvents a).Sublist (upTo (s'.health a)) := by
  have hrank := rank_le_step hs h a
  cases (step_spec hs h).2 with
  | quiet hhealth hevents =>
    rw [agentQuotaEvents_congr hevents]
    exact ha.trans (upTo_mono hrank)
  | raised hlt hhealth hevents =>
    rw [agentQuotaEvents_congr hevents]
    exact ha.trans (upTo_mono hrank)
  | announced hlt he hhealth hevents =>
    rw [agentQuotaEvents_append he hevents]
    split
    next heq =>
      subst heq
      rw [hhealth, if_pos rfl]
      exact upTo_announced hlt ha
    next =>
      rw [List.append_nil]
      exact ha.trans (upTo_mono hrank)

/-! ## Every sequence of calls -/

/-- No later state of the run has a lower health. -/
def HealthRises (options : String → AgentRegistry.Options) (s₀ : RegistryPool)
    (ls : List RegistryLabel) (a : String) : Prop :=
  ∀ pre mid s₁ s₂, pre ++ mid <+: ls → Run (Step options) s₀ pre s₁ →
    Run (Step options) s₁ mid s₂ → (s₁.health a).rank ≤ (s₂.health a).rank

/-- Whatever a registry is asked, it reports the healths of the map. -/
structure Reports (s : RegistryPool) (owner : String) : Prop where
  list : ∀ env, Ensures AgentRegistry.list env (s.load owner)
    (fun entries _ => AgentRegistry.Reported s.backend.sharedQuotaHealth entries)
    fun _ _ => False
  get : ∀ env agentId, Ensures (AgentRegistry.get agentId) env (s.load owner)
    (fun found _ => AgentRegistry.Reported s.backend.sharedQuotaHealth found.toList ∧
      (found.isSome = true ↔ ((s.registry owner).find? agentId).isSome = true))
    fun _ _ => False
  candidatesFor : ∀ env coll requiredCapabilities role excludeAgentIds,
    Ensures (AgentRegistry.candidatesFor coll requiredCapabilities role excludeAgentIds) env
      (s.load owner)
      (fun entries _ => AgentRegistry.Reported s.backend.sharedQuotaHealth entries ∧
        ∀ entry ∈ entries, entry.quotaHealth ≠ .exhausted)
      fun _ _ => False

/-- From a state of the run in which the agent is exhausted on, no registry's scheduler picks it. -/
def NeverPicked (options : String → AgentRegistry.Options) (s₀ : RegistryPool)
    (ls : List RegistryLabel) (s : RegistryPool) (a : String) : Prop :=
  ∀ pre s₁, pre <+: ls → Run (Step options) s₀ pre s₁ → s₁.health a = .exhausted →
    ∀ owner env coll workOrder role excludeAgentIds budget implementer,
      Ensures (Scheduler.decide coll workOrder role excludeAgentIds budget implementer) env
        (s.load owner) (fun d _ => d.pickedAgentId ≠ some a) fun _ _ => True

theorem allSynced_initial (h₀ : s₀.Initial) : s₀.AllSynced := by
  intro owner e he
  rw [h₀.registry] at he
  cases he

theorem sublist_run (h₀ : s₀.Initial) (h : Run (Step options) s₀ ls s) (a : String) :
    (s.agentQuotaEvents a).Sublist (upTo (s.health a)) := by
  refine (h.invariant (I := fun s => s.AllSynced ∧
    (s.agentQuotaEvents a).Sublist (upTo (s.health a))) ⟨allSynced_initial h₀, ?_⟩ ?_).2
  · rw [h₀.events]
    exact List.nil_sublist _
  · rintro s l s' hstep ⟨hs, ha⟩
    exact ⟨(step_spec hs hstep).1, sublist_step hs hstep ha⟩

/-- **Over every sequence of calls of any number of registries**, whatever each of them has loaded:
a health only rises; every registry reports the health of the map; the quota events of an agent are
at most one `quota.low` and then at most one `quota.exhausted`; and once an agent is exhausted no
scheduler over any of the registries picks it. -/
theorem registries_agree (h₀ : s₀.Initial) (h : Run (Step options) s₀ ls s) (a : String) :
    HealthRises options s₀ ls a ∧ (∀ owner, s.Reports owner) ∧
      (s.agentQuotaEvents a).Sublist [.quotaLow, .quotaExhausted] ∧
      NeverPicked options s₀ ls s a := by
  have hsynced : s.AllSynced := allSynced_run h (allSynced_initial h₀)
  refine ⟨fun pre mid s₁ s₂ _ hs₁ hs₂ => ?_, fun owner => ?_, ?_, ?_⟩
  · exact rank_le_run (allSynced_run hs₁ (allSynced_initial h₀)) hs₂ a
  · exact
      { list := fun _ => AgentRegistry.list_reports (hsynced owner)
        get := fun _ _ => AgentRegistry.get_reports (hsynced owner)
        candidatesFor := fun _ _ _ _ _ => AgentRegistry.candidatesFor_reports (hsynced owner) }
  · refine (sublist_run h₀ h a).trans ?_
    cases s.health a <;> decide
  · intro pre s₁ hpre hs₁ hexhausted owner env coll workOrder role excludeAgentIds budget implementer
    obtain ⟨mid, rfl⟩ := hpre
    obtain ⟨s₁', hs₁', hs⟩ := Run.append_iff.mp h
    obtain rfl : s₁ = s₁' := (Run.foldl_iff.mp hs₁).symm.trans (Run.foldl_iff.mp hs₁')
    have hrank := rank_le_run (allSynced_run hs₁ (allSynced_initial h₀)) hs a
    have hlast : s.health a = .exhausted := by
      rw [hexhausted] at hrank
      cases hhealth : s.health a with
      | exhausted => rfl
      | healthy =>
        rw [hhealth] at hrank
        exact absurd hrank (by decide)
      | low =>
        rw [hhealth] at hrank
        exact absurd hrank (by decide)
    refine Ensures.mono (Scheduler.decide_not_exhausted (v := (s.load owner).healthView)
      (hsynced owner) _ rfl) (fun d _ hd hpicked => ?_) fun _ _ _ => trivial
    exact hd.1 a hpicked hlast

theorem alice_min : "alice" ≠ "" := by decide

/-- The profile of an agent. -/
def profile : AgentProfileV1 := (Sample.agent "alice" alice_min .implementer).profile

/-- Two registries of one agent: a rate limit is seen by both, then the quota is exhausted. -/
def twoRegistries : List RegistryLabel :=
  [⟨"w1", .loadFile "/agents/alice.json" profile, Sample.env⟩,
    ⟨"w2", .loadFile "/agents/alice.json" profile, Sample.env⟩,
    ⟨"w1", .recordOutcome "alice" "R-1" false 10 none (some .providerRateLimited), Sample.env⟩,
    ⟨"w2", .recordOutcome "alice" "R-2" false 10 none (some .providerRateLimited), Sample.env⟩,
    ⟨"w2", .recordOutcome "alice" "R-3" false 10 none (some .providerAuthFailed), Sample.env⟩,
    ⟨"w1", .recordOutcome "alice" "R-4" false 10 none (some .providerQuotaExhausted), Sample.env⟩,
    ⟨"w1", .list, Sample.env⟩]

/-- The pool before the first call. -/
def fresh : RegistryPool := ⟨Sample.system.world.backend, fun _ => Table.empty⟩

theorem initial_fresh : fresh.Initial := ⟨fun _ => rfl, rfl, fun _ => rfl⟩

theorem registries_agree_two : ∃ s, Run (Step fun _ => {}) fresh twoRegistries s ∧
    HealthRises (fun _ => {}) fresh twoRegistries "alice" ∧ (∀ owner, s.Reports owner) ∧
    (s.agentQuotaEvents "alice").Sublist [.quotaLow, .quotaExhausted] ∧
    NeverPicked (fun _ => {}) fresh twoRegistries s "alice" :=
  ⟨_, Run.foldl_iff.mpr rfl, registries_agree initial_fresh (Run.foldl_iff.mpr rfl) "alice"⟩

/-- There both levels are announced, once. -/
example : (twoRegistries.foldl (step fun _ => {}) fresh).agentQuotaEvents "alice" =
    [.quotaLow, .quotaExhausted] := by
  decide +kernel

end RegistryPool

end AgentWorkflow
