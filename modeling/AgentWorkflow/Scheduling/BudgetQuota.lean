import AgentWorkflow.Scheduling.BudgetManager
import Mathlib.Logic.Function.Basic

/-!
# Levels of a budget, and the calls that raise them

One call of a budget manager: what it does to a task's budget, to the log and to the manager's set
of emitted events.

* `BudgetState.ratio` — the share of a cap that is used. `pickAxis_spec`: **the picked axis has the
  highest share**; `Consistent.reaches_iff`: the status is the level a share has reached.
* `Charge` — what a charge does: no share falls, so no status does.
* `QuotaStep`, **`BudgetCall.run_spec`** — everything one call does, also when it throws.
-/

namespace AgentWorkflow

open Fallible BudgetManager

/-! ## Levels -/

/-- Source: `budget-manager.ts` `BudgetAxis`. -/
inductive BudgetAxis
  | runs
  | wallTimeMs
  | costUnits
  deriving DecidableEq, Repr

/-- Source: `budget-manager.ts` `BudgetAxis`. -/
def BudgetAxis.text : BudgetAxis → String
  | .runs => "runs"
  | .wallTimeMs => "wall_time_ms"
  | .costUnits => "cost_units"

/-- The share of an axis that is used. -/
def BudgetState.ratio (b : BudgetState) : BudgetAxis → ℚ
  | .runs => capRatio b.runsUsed b.caps.maxRuns
  | .wallTimeMs => capRatio b.wallTimeMsUsed b.caps.maxWallTimeMs
  | .costUnits => capRatio b.costUnitsUsed b.caps.maxTotalCostUnits

/-- The order of the statuses. -/
def BudgetStatus.rank : BudgetStatus → ℕ
  | .ok => 0
  | .softWarning => 1
  | .exhausted => 2

/-- The share from which a budget has a status. -/
def BudgetStatus.threshold : BudgetStatus → ℚ
  | .ok => 0
  | .softWarning => 4 / 5
  | .exhausted => 1

/-- The event that announces a status. -/
def BudgetStatus.eventType : BudgetStatus → EventType
  | .exhausted => .quotaExhausted
  | .ok | .softWarning => .quotaLow

/-- The key under which a task's announcement is remembered. -/
def BudgetStatus.key (status : BudgetStatus) (taskId : String) : String :=
  match status with
  | .exhausted => exhaustedKey taskId
  | .ok | .softWarning => lowKey taskId

theorem BudgetStatus.rank_injective {s s' : BudgetStatus} (h : s.rank = s'.rank) : s = s' := by
  cases s <;> cases s' <;> simp [rank] at h ⊢

/-- Two levels have two events. -/
theorem BudgetStatus.eventType_injective {s s' : BudgetStatus} (hs : 0 < s.rank)
    (hs' : 0 < s'.rank) (h : s.eventType = s'.eventType) : s = s' := by
  cases s <;> cases s' <;> simp [rank, eventType] at hs hs' h ⊢

theorem BudgetManager.lowKey_injective {t t' : String} (h : lowKey t = lowKey t') : t = t' := by
  have hlist := congrArg String.toList h
  simp only [lowKey, String.toList_append] at hlist
  exact String.toList_inj.mp (List.append_cancel_right hlist)

theorem BudgetManager.exhaustedKey_injective {t t' : String}
    (h : exhaustedKey t = exhaustedKey t') : t = t' := by
  have hlist := congrArg String.toList h
  simp only [exhaustedKey, String.toList_append] at hlist
  exact String.toList_inj.mp (List.append_cancel_right hlist)

/-- The keys of the two levels end in different letters. -/
theorem BudgetManager.lowKey_ne_exhaustedKey (t t' : String) : lowKey t ≠ exhaustedKey t' := by
  intro h
  have hlast := congrArg (fun x : String => x.toList.getLast?) h
  simp [lowKey, exhaustedKey, String.toList_append, List.getLast?_append] at hlast

/-- Two tasks have two keys, and so have two levels. -/
theorem BudgetStatus.key_injective {s s' : BudgetStatus} {t t' : String} (hs : 0 < s.rank)
    (hs' : 0 < s'.rank) (h : s.key t = s'.key t') : s = s' ∧ t = t' := by
  cases s with
  | ok => exact absurd hs (lt_irrefl 0)
  | softWarning =>
    cases s' with
    | ok => exact absurd hs' (lt_irrefl 0)
    | softWarning => exact ⟨rfl, lowKey_injective h⟩
    | exhausted => exact absurd h (lowKey_ne_exhaustedKey t t')
  | exhausted =>
    cases s' with
    | ok => exact absurd hs' (lt_irrefl 0)
    | softWarning => exact absurd h.symm (lowKey_ne_exhaustedKey t' t)
    | exhausted => exact ⟨rfl, exhaustedKey_injective h⟩

/-! ## The picked axis -/

/-- **The picked axis is one of the highest share.** -/
theorem BudgetManager.pickAxis_spec (b : BudgetState) : ∃ axis : BudgetAxis,
    pickAxis b = (axis.text, b.ratio axis) ∧ ∀ a, b.ratio a ≤ b.ratio axis := by
  unfold pickAxis
  dsimp only
  by_cases hruns : capRatio b.wallTimeMsUsed b.caps.maxWallTimeMs ≤
      capRatio b.runsUsed b.caps.maxRuns ∧
    capRatio b.costUnitsUsed b.caps.maxTotalCostUnits ≤ capRatio b.runsUsed b.caps.maxRuns
  · rw [if_pos hruns]
    refine ⟨.runs, rfl, fun a => ?_⟩
    cases a with
    | runs => exact le_rfl
    | wallTimeMs => exact hruns.1
    | costUnits => exact hruns.2
  rw [if_neg hruns]
  rw [not_and_or, not_le, not_le] at hruns
  by_cases hwall : capRatio b.costUnitsUsed b.caps.maxTotalCostUnits ≤
      capRatio b.wallTimeMsUsed b.caps.maxWallTimeMs
  · rw [if_pos hwall]
    refine ⟨.wallTimeMs, rfl, fun a => ?_⟩
    cases a with
    | runs => exact hruns.elim le_of_lt fun h => h.le.trans hwall
    | wallTimeMs => exact le_rfl
    | costUnits => exact hwall
  · rw [if_neg hwall]
    rw [not_le] at hwall
    refine ⟨.costUnits, rfl, fun a => ?_⟩
    cases a with
    | runs => exact hruns.elim (fun h => h.le.trans hwall.le) le_of_lt
    | wallTimeMs => exact hwall.le
    | costUnits => exact le_rfl

theorem exists_ratio_iff {b : BudgetState} {x : ℚ} : (∃ a, x ≤ b.ratio a) ↔
    x ≤ b.ratio .runs ∨ x ≤ b.ratio .wallTimeMs ∨ x ≤ b.ratio .costUnits := by
  constructor
  · rintro ⟨a, ha⟩
    cases a with
    | runs => exact Or.inl ha
    | wallTimeMs => exact Or.inr (Or.inl ha)
    | costUnits => exact Or.inr (Or.inr ha)
  · rintro (h | h | h)
    · exact ⟨_, h⟩
    · exact ⟨_, h⟩
    · exact ⟨_, h⟩

/-- **The status is the level a share has reached.** -/
theorem BudgetState.Consistent.reaches_iff {b : BudgetState} (h : b.Consistent)
    {level : BudgetStatus} (hlevel : 0 < level.rank) :
    level.rank ≤ b.status.rank ↔ ∃ a, level.threshold ≤ b.ratio a := by
  have hstatus := h.status_eq
  unfold computeStatus at hstatus
  dsimp only at hstatus
  have hfour : (4 / 5 : ℚ) ≤ 1 := by norm_num
  rw [exists_ratio_iff]
  by_cases hone : 1 ≤ b.ratio .runs ∨ 1 ≤ b.ratio .wallTimeMs ∨ 1 ≤ b.ratio .costUnits
  · have hall : level.threshold ≤ 1 := by
      cases level with
      | ok => exact zero_le_one
      | softWarning => exact hfour
      | exhausted => exact le_rfl
    rw [if_pos (show 1 ≤ capRatio _ _ ∨ 1 ≤ capRatio _ _ ∨ 1 ≤ capRatio _ _ from hone)] at hstatus
    rw [hstatus]
    refine iff_of_true (by cases level <;> decide) ?_
    exact hone.imp hall.trans (Or.imp hall.trans hall.trans)
  rw [if_neg (show ¬ (1 ≤ capRatio _ _ ∨ 1 ≤ capRatio _ _ ∨ 1 ≤ capRatio _ _) from hone)] at hstatus
  by_cases hsoft : 4 / 5 ≤ b.ratio .runs ∨ 4 / 5 ≤ b.ratio .wallTimeMs ∨ 4 / 5 ≤ b.ratio .costUnits
  · rw [if_pos (show 4 / 5 ≤ capRatio _ _ ∨ 4 / 5 ≤ capRatio _ _ ∨ 4 / 5 ≤ capRatio _ _
      from hsoft)] at hstatus
    rw [hstatus]
    cases level with
    | ok => exact absurd hlevel (lt_irrefl 0)
    | softWarning => exact iff_of_true le_rfl hsoft
    | exhausted => exact iff_of_false (by decide) hone
  · rw [if_neg (show ¬ (4 / 5 ≤ capRatio _ _ ∨ 4 / 5 ≤ capRatio _ _ ∨ 4 / 5 ≤ capRatio _ _)
      from hsoft)] at hstatus
    rw [hstatus]
    cases level with
    | ok => exact absurd hlevel (lt_irrefl 0)
    | softWarning => exact iff_of_false (by decide) hsoft
    | exhausted => exact iff_of_false (by decide) hone

/-! ## Charges -/

/-- What a charge does to a budget. -/
inductive Charge (b : BudgetState) : BudgetState → Prop
  | run : Charge b b.chargeRun
  | usage {deltaWallMs deltaCostUnits : ℚ} (hwall : 0 ≤ deltaWallMs) (hcost : 0 ≤ deltaCostUnits) :
    Charge b (b.chargeUsage deltaWallMs deltaCostUnits)

namespace Charge

variable {b b' : BudgetState}

theorem consistent (h : Charge b b') (hb : b.Consistent) : b'.Consistent := by
  cases h with
  | run => exact hb.chargeRun
  | usage hwall hcost => exact hb.chargeUsage hwall hcost

theorem capRatio_mono {used used' cap : ℚ} (h : used ≤ used') :
    capRatio used cap ≤ capRatio used' cap := by
  unfold capRatio
  by_cases hcap : 0 < cap
  · rw [if_pos hcap, if_pos hcap]
    exact div_le_div_of_nonneg_right h hcap.le
  · rw [if_neg hcap, if_neg hcap]

/-- No share falls. -/
theorem ratio_le (h : Charge b b') (a : BudgetAxis) : b.ratio a ≤ b'.ratio a := by
  cases h with
  | run =>
    cases a with
    | runs =>
      refine capRatio_mono ?_
      have hle : b.runsUsed ≤ b.runsUsed + 1 := Nat.le_succ _
      exact_mod_cast hle
    | wallTimeMs => exact le_rfl
    | costUnits => exact le_rfl
  | usage hwall hcost =>
    cases a with
    | runs => exact le_rfl
    | wallTimeMs => exact capRatio_mono (le_add_of_nonneg_right hwall)
    | costUnits => exact capRatio_mono (le_add_of_nonneg_right hcost)

/-- **No status falls.** -/
theorem rank_le (h : Charge b b') (hb : b.Consistent) : b.status.rank ≤ b'.status.rank := by
  rcases Nat.eq_zero_or_pos b.status.rank with hzero | hpos
  · omega
  · obtain ⟨a, ha⟩ := (hb.reaches_iff hpos).mp le_rfl
    exact ((h.consistent hb).reaches_iff hpos).mpr ⟨a, ha.trans (h.ratio_le a)⟩

end Charge

/-! ## One call -/

/-- What the budget managers share, and one manager's set of emitted events. -/
structure QuotaView where
  budget : String → Option BudgetState
  events : List EventEnvelope
  emitted : List String

/-- The part of the world a manager sees. -/
def World.quota (w : World) : QuotaView := ⟨w.core.budget, w.backend.events, w.backend.emitted⟩

/-- A task's budget is written. -/
def QuotaView.write (v : QuotaView) (t : String) (b : BudgetState) : QuotaView :=
  { v with budget := Function.update v.budget t (some b) }

theorem QuotaView.budget_write (v : QuotaView) (t : String) (b : BudgetState) (k : String) :
    (v.write t b).budget k = if k = t then some b else v.budget k := Function.update_apply _ _ _ _

@[simp] theorem QuotaView.budget_write_self (v : QuotaView) (t : String) (b : BudgetState) :
    (v.write t b).budget t = some b := Function.update_self _ _ _

/-- The event of a level. -/
def quotaEvent (projectId taskId : String) (state : BudgetState) (id : String) (createdAt : ℕ) :
    EventEnvelope where
  eventId := "E-" ++ id
  eventType := state.status.eventType
  projectId := projectId
  taskId := some taskId
  runId := none
  agentId := none
  skipOnReplay := true
  payload := [("scope", .str "task"), ("task_id", .str taskId),
    ("axis", .str (pickAxis state).1), ("ratio", .num (pickAxis state).2)]
  createdAt := createdAt

/-- Everything a call about a task does to what the managers share and to its manager's set. -/
inductive QuotaStep (projectId t : String) (v : QuotaView) : QuotaView → Prop
  | same : QuotaStep projectId t v v
  | opened {b : BudgetState} (hnone : v.budget t = none) (hb : b.Consistent)
    (hok : b.status = .ok) :
    QuotaStep projectId t v (v.write t b)
  | synced {b : BudgetState} {emitted : List String} (hb : v.budget t = some b)
    (h : ∀ key ∈ emitted, key ∈ v.emitted ∨
      ∃ level : BudgetStatus, 0 < level.rank ∧ level.rank ≤ b.status.rank ∧ key = level.key t) :
    QuotaStep projectId t v { v with emitted }
  | silent {b b' : BudgetState} (hb : v.budget t = some b) (hcharge : Charge b b')
    (hkey : b.status.rank < b'.status.rank → b'.status.key t ∈ v.emitted) :
    QuotaStep projectId t v (v.write t b')
  | announced {b b' : BudgetState} {id : String} {createdAt : ℕ} (hb : v.budget t = some b)
    (hcharge : Charge b b') (hrank : b.status.rank < b'.status.rank)
    (hkey : b'.status.key t ∉ v.emitted) :
    QuotaStep projectId t v
      { v.write t b' with
        events := v.events ++ [quotaEvent projectId t b' id createdAt]
        emitted := b'.status.key t :: v.emitted }

/-- The specification of a program by what a manager sees. -/
abbrev OnQuota {α : Type} (m : WorldM α) (env : Env) (v : QuotaView) (Q : α → QuotaView → Prop)
    (E : Err → QuotaView → Prop) : Prop :=
  EnsuresVia World.quota m env v Q E

section specs

variable {env : Env} {v : QuotaView} {t projectId : String} {E : Err → QuotaView → Prop}

theorem onQuota_current {Q : BudgetState → QuotaView → Prop}
    (hQ : ∀ b, v.budget t = some b → b.taskId = t → Q b v) (hE : ∀ e, E e v) :
    OnQuota (BudgetStore.current t) env v Q E := by
  rintro w rfl
  simp only [BudgetStore.current, ensures_bind, ensures_onBackend, ensures_storageCall_iff, getCore,
    ensures_get, ensures_pure]
  refine ⟨fun _ => hE _, fun _ => ?_⟩
  split
  next b hb => exact hQ b hb (Table.key_of_find? hb)
  next => exact hE _

theorem onQuota_apply {f : BudgetState → BudgetState} {hf : ∀ b, (f b).taskId = b.taskId}
    {Q : BudgetState → QuotaView → Prop}
    (hQ : ∀ b, v.budget t = some b → Q (f b) (v.write t (f b))) (hE : ∀ e, E e v) :
    OnQuota (BudgetStore.apply t f hf) env v Q E := by
  refine .bind (onQuota_current (fun b hb _ => ?_) hE)
  rintro w rfl
  simp only [ensures_bind, ensures_onBackend, ensures_storageCall_iff, ensures_modifyCore,
    ensures_pure]
  refine ⟨fun _ => hE _, fun _ => ?_⟩
  have hwrite : World.quota ⟨w.core.updateBudget t f hf,
      { w.backend with calls := w.backend.calls + 1 }⟩ = w.quota.write t (f b) := by
    unfold World.quota QuotaView.write
    congr 1
    funext k
    rw [budget_updateBudget, Function.update_apply]
    by_cases hk : k = t
    · rw [if_pos hk, if_pos hk, hk]
      show Option.map f (w.quota.budget t) = _
      rw [hb]
      rfl
    · rw [if_neg hk, if_neg hk]
  rw [hwrite]
  exact hQ b hb

/-- A rise is announced, and nothing else is. -/
theorem emitTransitionEvents_eq {before after : BudgetStatus} {state : BudgetState} :
    emitTransitionEvents projectId t before after state =
      if before.rank < after.rank then emitQuota projectId after.eventType (after.key t) t state
      else pure () := by
  cases before <;> cases after <;> rfl

/-- No append throws. -/
def Env.Appends (env : Env) : Prop := ∀ n eventType, env.throws n (.appendEvent eventType) = false

theorem onQuota_emitQuota (happends : env.Appends) {state : BudgetState}
    {Q : Unit → QuotaView → Prop}
    (hold : state.status.key t ∈ v.emitted → Q () v)
    (hnew : state.status.key t ∉ v.emitted → ∀ id createdAt, Q ()
      { v with
        events := v.events ++ [quotaEvent projectId t state id createdAt]
        emitted := state.status.key t :: v.emitted }) :
    OnQuota (onBackend (emitQuota projectId state.status.eventType (state.status.key t) t state))
      env v Q E := by
  rintro w rfl
  simp only [emitQuota, ensures_onBackend, ensures_bind, ensures_get, ensures_ite, ensures_pure,
    ensures_uuid8, ensures_dateNow, EventLog.ensures_append_iff, ensures_modify]
  refine ⟨hold, fun hkey => ⟨fun hthrows => ?_, fun _ => hnew hkey _ _⟩⟩
  rw [happends] at hthrows
  cases hthrows

/-- The emissions of a charge complete its step. -/
theorem onQuota_emitTransitionEvents (happends : env.Appends) {b b' : BudgetState}
    (hb : v.budget t = some b) (hcharge : Charge b b') :
    OnQuota (onBackend (emitTransitionEvents projectId t b.status b'.status b')) env (v.write t b')
      (fun _ v' => QuotaStep projectId t v v') E := by
  rw [emitTransitionEvents_eq]
  by_cases hrank : b.status.rank < b'.status.rank
  · rw [if_pos hrank]
    exact onQuota_emitQuota happends (fun hkey => .silent hb hcharge fun _ => hkey)
      fun hkey id createdAt => .announced hb hcharge hrank hkey
  · rw [if_neg hrank]
    intro w hw
    refine ensures_onBackend.mpr ?_
    show QuotaStep projectId t v w.quota
    rw [hw]
    exact .silent hb hcharge fun h => absurd h hrank

/-- `syncEmitted` adds the keys of the levels the budget has reached. -/
theorem onQuota_syncEmitted {b : BudgetState} (hid : b.taskId = t) (hb : v.budget t = some b) :
    OnQuota (onBackend (syncEmitted b)) env v (fun _ v' => QuotaStep projectId t v v') E := by
  subst hid
  rintro w rfl
  have hlow : 0 < b.status.rank → ∀ key ∈ lowKey b.taskId :: w.backend.emitted,
      key ∈ w.backend.emitted ∨ ∃ level : BudgetStatus, 0 < level.rank ∧
        level.rank ≤ b.status.rank ∧ key = level.key b.taskId := by
    intro hrank key hkey
    rcases List.mem_cons.mp hkey with rfl | hkey
    · exact Or.inr ⟨.softWarning, Nat.one_pos, hrank, rfl⟩
    · exact Or.inl hkey
  unfold syncEmitted
  simp only [ensures_onBackend, ensures_bind, ensures_ite, ensures_pure, ensures_modify]
  cases hstatus : b.status with
  | ok => exact ⟨by simp, fun _ => ⟨by simp, fun _ => .same⟩⟩
  | softWarning =>
    refine ⟨fun _ => ⟨by simp, fun _ => .synced hb ?_⟩, by simp⟩
    exact hlow (by rw [hstatus]; decide)
  | exhausted =>
    refine ⟨fun _ => ⟨fun _ => .synced hb fun key hkey => ?_, by simp⟩, by simp⟩
    rcases List.mem_cons.mp hkey with rfl | hkey
    · exact Or.inr ⟨.exhausted, by decide, by rw [hstatus], rfl⟩
    · exact hlow (by rw [hstatus]; decide) key hkey

/-- A budget without a level adds no key. -/
theorem onQuota_syncEmitted_ok {b : BudgetState} {Q : Unit → QuotaView → Prop}
    (hok : b.status = .ok) (hQ : Q () v) : OnQuota (onBackend (syncEmitted b)) env v Q E := by
  rintro w rfl
  simp only [syncEmitted, ensures_onBackend, ensures_bind, ensures_ite, ensures_pure, hok]
  exact ⟨by simp, fun _ => ⟨by simp, fun _ => hQ⟩⟩

theorem onQuota_init {caps : BudgetCaps} {Q : Unit → QuotaView → Prop}
    (hsome : ∀ b, v.budget t = some b → Q () v)
    (hnone : v.budget t = none → Q () (v.write t (BudgetState.fresh t caps)))
    (hE : ∀ e, E e v) : OnQuota (BudgetStore.init t caps) env v Q E := by
  rintro w rfl
  simp only [BudgetStore.init, ensures_bind, ensures_onBackend, ensures_storageCall_iff, getCore,
    ensures_get, ensures_pure, ensures_ite]
  refine ⟨fun _ => hE _, fun _ => ⟨fun h => ?_, fun h => ⟨fun _ => hE _, fun _ => ?_⟩⟩⟩
  · obtain ⟨b, hb⟩ := Option.isSome_iff_exists.mp h
    exact hsome b hb
  · have hfree : w.core.budget t = none := by simpa using h
    split
    next q hq =>
      have hwrite : World.quota ⟨{ w.core with taskBudget := q },
          { w.backend with calls := w.backend.calls + 1 + 1 }⟩ =
          w.quota.write t (BudgetState.fresh t caps) := by
        unfold World.quota QuotaView.write
        congr 1
        funext k
        rw [Function.update_apply]
        exact Table.find?_insert hq k
      refine ensures_modifyCore.mpr ?_
      rw [hwrite]
      exact hnone hfree
    next => exact hE _

end specs

/-- A call of a manager. -/
inductive BudgetCall
  | init (workOrder : ParsedWorkOrderV1)
  | preLaunch (taskId : String)
  | postRun (taskId : String) (runDurationMs : ℚ) (actualCostUnits : Option ℚ)
      (estimatedCostUnits : ℚ)

/-- The task a call is about. -/
def BudgetCall.taskId : BudgetCall → String
  | .init workOrder => workOrder.taskId
  | .preLaunch taskId => taskId
  | .postRun taskId .. => taskId

/-- The call of a manager of the project. -/
def BudgetCall.run (projectId : String) : BudgetCall → WorldM BudgetState
  | .init workOrder => BudgetManager.init workOrder
  | .preLaunch taskId => BudgetManager.preLaunch projectId taskId
  | .postRun taskId runDurationMs actualCostUnits estimatedCostUnits =>
    BudgetManager.postRun projectId taskId runDurationMs actualCostUnits estimatedCostUnits

/-- The deltas of the call are not negative. -/
def BudgetCall.NonNegative : BudgetCall → Prop
  | .init _ | .preLaunch _ => True
  | .postRun _ runDurationMs actualCostUnits estimatedCostUnits =>
    0 ≤ runDurationMs ∧ 0 ≤ actualCostUnits.getD estimatedCostUnits

/-- **What a call does**, also when it throws. -/
theorem BudgetCall.run_spec {env : Env} {projectId : String} {call : BudgetCall}
    (hcall : call.NonNegative) (happends : env.Appends) (v : QuotaView) :
    OnQuota (call.run projectId) env v (fun _ v' => QuotaStep projectId call.taskId v v')
      fun _ v' => QuotaStep projectId call.taskId v v' := by
  cases call with
  | preLaunch t =>
    refine .bind (onQuota_current (fun before hbefore _ => ?_) fun _ => .same)
    refine .bind (onQuota_apply (fun b hb => ?_) fun _ => .same)
    rw [hbefore] at hb
    cases hb
    exact .bind ((onQuota_emitTransitionEvents happends hbefore .run).mono (fun _ _ h => .pure h)
      fun _ _ h => h)
  | postRun t runDurationMs actualCostUnits estimatedCostUnits =>
    refine .bind (onQuota_current (fun before hbefore _ => ?_) fun _ => .same)
    refine .bind (onQuota_apply (fun b hb => ?_) fun _ => .same)
    rw [hbefore] at hb
    cases hb
    have hcharge := Charge.usage (b := before) hcall.1 hcall.2
    exact .bind ((onQuota_emitTransitionEvents happends hbefore hcharge).mono
      (fun _ _ h => .pure h) fun _ _ h => h)
  | init workOrder =>
    have hfresh := fresh_consistent workOrder workOrder.taskId
    refine .bind (onQuota_init (fun b hb => ?_) (fun hnone => ?_) fun _ => .same)
    · refine .bind (onQuota_current (fun b hb hid => ?_) fun _ => .same)
      exact .bind ((onQuota_syncEmitted hid hb).mono (fun _ _ h => .pure h) fun _ _ h => h)
    · refine .bind (onQuota_current (fun b hb hid => ?_) fun _ => .opened hnone hfresh rfl)
      rw [QuotaView.budget_write_self] at hb
      cases hb
      exact .bind (onQuota_syncEmitted_ok rfl (.pure (.opened hnone hfresh rfl)))

end AgentWorkflow
