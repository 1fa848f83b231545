import AgentWorkflow.Storage.BackendStores
import AgentWorkflow.Storage.BudgetStore

/-!
# The budget manager

`DefaultBudgetManager` of `scheduling/budget-manager.ts`: the budget store, with an event the first
time a task gets low or exhausted.

* `init`, `current`, `preLaunch`, `postRun` — the store's operations. A worker remembers which
  events it has emitted in `Backend.emitted`.
* `onCore_init`, `onCore_preLaunch`, `onCore_postRun` — what they do to the core. **The event comes
  after the charge**: when its append throws, the charge stays.
-/

namespace AgentWorkflow

open Fallible

namespace BudgetManager

/-- Source: `budget-manager.ts` `pickAxis`. -/
def pickAxis (state : BudgetState) : String × ℚ :=
  let runRatio := capRatio state.runsUsed state.caps.maxRuns
  let wallRatio := capRatio state.wallTimeMsUsed state.caps.maxWallTimeMs
  let costRatio := capRatio state.costUnitsUsed state.caps.maxTotalCostUnits
  if wallRatio ≤ runRatio ∧ costRatio ≤ runRatio then ("runs", runRatio)
  else if costRatio ≤ wallRatio then ("wall_time_ms", wallRatio)
  else ("cost_units", costRatio)

/-- The key under which a task's low budget is remembered. -/
def lowKey (taskId : String) : String := taskId ++ "::low"

/-- The key under which a task's exhausted budget is remembered. -/
def exhaustedKey (taskId : String) : String := taskId ++ "::exhausted"

/-- Append a quota event of a task, unless its key says it was appended.
Source: `budget-manager.ts` `emitQuotaLow`, `emitQuotaExhausted`. -/
def emitQuota (projectId : String) (eventType : EventType) (key taskId : String)
    (state : BudgetState) : BackendM Unit := do
  let b ← get
  if key ∈ b.emitted then pure ()
  else do
    let id ← uuid8
    let createdAt ← dateNow
    EventLog.append
      { eventId := "E-" ++ id, eventType, projectId, taskId := some taskId, runId := none,
        agentId := none, skipOnReplay := true,
        payload := [("scope", .str "task"), ("task_id", .str taskId),
          ("axis", .str (pickAxis state).1), ("ratio", .num (pickAxis state).2)],
        createdAt }
    modify fun b => { b with emitted := key :: b.emitted }

/-- Source: `budget-manager.ts` `emitTransitionEvents`. -/
def emitTransitionEvents (projectId taskId : String) (fromStatus toStatus : BudgetStatus)
    (state : BudgetState) : BackendM Unit :=
  match fromStatus, toStatus with
  | .ok, .softWarning => emitQuota projectId .quotaLow (lowKey taskId) taskId state
  | .ok, .exhausted | .softWarning, .exhausted =>
    emitQuota projectId .quotaExhausted (exhaustedKey taskId) taskId state
  | _, _ => pure ()

/-- Source: `budget-manager.ts` `syncEmitted`. -/
def syncEmitted (state : BudgetState) : BackendM Unit := do
  if state.status = .softWarning ∨ state.status = .exhausted then
    modify fun b => { b with emitted := lowKey state.taskId :: b.emitted }
  else pure ()
  if state.status = .exhausted then
    modify fun b => { b with emitted := exhaustedKey state.taskId :: b.emitted }
  else pure ()

/-- The caps of a work order. -/
def capsOf (workOrder : ParsedWorkOrderV1) : BudgetCaps where
  maxRuns := workOrder.budget.maxRuns
  maxWallTimeMs := workOrder.budget.maxWallTimeMinutes * 60000
  maxTotalCostUnits := workOrder.budget.maxTotalCostUnits

/-- Source: `budget-manager.ts` `init`. -/
def init (workOrder : ParsedWorkOrderV1) : WorldM BudgetState := do
  BudgetStore.init workOrder.taskId (capsOf workOrder)
  let current ← BudgetStore.current workOrder.taskId
  onBackend (syncEmitted current)
  pure current

/-- Source: `budget-manager.ts` `current`. -/
def current (taskId : String) : WorldM BudgetState := BudgetStore.current taskId

/-- Source: `budget-manager.ts` `preLaunch`. -/
def preLaunch (projectId taskId : String) : WorldM BudgetState := do
  let before ← BudgetStore.current taskId
  let after ← BudgetStore.applyPreLaunch taskId
  onBackend (emitTransitionEvents projectId taskId before.status after.status after)
  pure after

/-- Source: `budget-manager.ts` `postRun`. -/
def postRun (projectId taskId : String) (runDurationMs : ℚ) (actualCostUnits : Option ℚ)
    (estimatedCostUnits : ℚ) : WorldM BudgetState := do
  let costDelta := actualCostUnits.getD estimatedCostUnits
  let before ← BudgetStore.current taskId
  let after ← BudgetStore.applyPostRun taskId runDurationMs costDelta
  onBackend (emitTransitionEvents projectId taskId before.status after.status after)
  pure after

/-! ## What the operations do to the core -/

section specs

variable {env : Env} {c : Core} {taskId projectId : String} {E : Err → Core → Prop}

/-- The caps of a valid work order are positive. -/
theorem fresh_consistent (workOrder : ParsedWorkOrderV1) (taskId : String) :
    (BudgetState.fresh taskId (capsOf workOrder)).Consistent :=
  .fresh workOrder.valid.maxRuns (mul_pos workOrder.valid.maxWallTimeMinutes (by norm_num))
    workOrder.valid.maxTotalCostUnits

/-- `init` gives the task's row, a fresh one when it had none. -/
theorem onCore_init {workOrder : ParsedWorkOrderV1} {Q : BudgetState → Core → Prop}
    (hsome : ∀ b, c.budget workOrder.taskId = some b → Q b c)
    (hnone : ∀ q, c.budget workOrder.taskId = none →
      c.taskBudget.insert (BudgetState.fresh workOrder.taskId (capsOf workOrder)) = some q →
      Q (BudgetState.fresh workOrder.taskId (capsOf workOrder)) { c with taskBudget := q })
    (hE : ∀ e, E e c) (hE' : ∀ e q, c.budget workOrder.taskId = none →
      c.taskBudget.insert (BudgetState.fresh workOrder.taskId (capsOf workOrder)) = some q →
      E e { c with taskBudget := q }) :
    OnCore (init workOrder) env c Q E := by
  refine .bind (BudgetStore.onCore_init (fun b hb => ?_) (fun q hnone' hq => ?_) hE)
  · refine .bind (BudgetStore.onCore_current (fun b' hb' => ?_) hE)
    exact .bind (onCore_onBackend (fun _ => .pure (hsome b' hb')) hE)
  · have hrow : ({ c with taskBudget := q } : Core).budget workOrder.taskId =
        some (BudgetState.fresh workOrder.taskId (capsOf workOrder)) := by
      show q.find? workOrder.taskId = _
      rw [Table.find?_insert hq]
      exact if_pos rfl
    refine .bind (BudgetStore.onCore_current (fun b' hb' => ?_) fun e => hE' e q hnone' hq)
    rw [hrow] at hb'
    cases hb'
    exact .bind (onCore_onBackend (fun _ => .pure (hnone q hnone' hq))
      fun e => hE' e q hnone' hq)

theorem onCore_current {Q : BudgetState → Core → Prop}
    (hQ : ∀ b, c.budget taskId = some b → Q b c) (hE : ∀ e, E e c) :
    OnCore (current taskId) env c Q E :=
  BudgetStore.onCore_current hQ hE

/-- `preLaunch` charges a run, also when it then throws over its event. -/
theorem onCore_preLaunch {Q : BudgetState → Core → Prop}
    (hQ : ∀ b, c.budget taskId = some b →
      Q b.chargeRun
        (c.updateBudget taskId BudgetState.chargeRun BudgetState.taskId_chargeRun))
    (hE : ∀ e, E e c)
    (hE' : ∀ e, E e
      (c.updateBudget taskId BudgetState.chargeRun BudgetState.taskId_chargeRun)) :
    OnCore (preLaunch projectId taskId) env c Q E := by
  refine .bind (BudgetStore.onCore_current (fun before _ => ?_) hE)
  refine .bind (BudgetStore.onCore_apply (fun b hb => ?_) hE)
  exact .bind (onCore_onBackend (fun _ => .pure (hQ b hb)) hE')

/-- `postRun` charges the usage, also when it then throws over its event. -/
theorem onCore_postRun {runDurationMs cost : ℚ} {actual : Option ℚ}
    {Q : BudgetState → Core → Prop}
    (hQ : ∀ b, c.budget taskId = some b →
      Q (b.chargeUsage runDurationMs (actual.getD cost))
        (c.updateBudget taskId (BudgetState.chargeUsage runDurationMs (actual.getD cost))
          (BudgetState.taskId_chargeUsage runDurationMs (actual.getD cost))))
    (hE : ∀ e, E e c)
    (hE' : ∀ e, E e (c.updateBudget taskId
      (BudgetState.chargeUsage runDurationMs (actual.getD cost))
      (BudgetState.taskId_chargeUsage runDurationMs (actual.getD cost)))) :
    OnCore (postRun projectId taskId runDurationMs actual cost) env c Q E := by
  refine .bind (BudgetStore.onCore_current (fun before _ => ?_) hE)
  refine .bind (BudgetStore.onCore_apply (fun b hb => ?_) hE)
  exact .bind (onCore_onBackend (fun _ => .pure (hQ b hb)) hE')

end specs

end BudgetManager

end AgentWorkflow
