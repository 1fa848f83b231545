import AgentWorkflow.Lib.Run
import AgentWorkflow.Queue.WorkerTaskHandler

/-!
# The updates of a task

Everything a handler does to the core, on every path and also when it throws, is a sequence of a few
updates of the one task it handles.

* `Update` — the updates; `Update.apply` performs one, `Update.onRow` is what it does to the row.
* `row_apply`, `budget_apply_of_ne`, … — what an update can be seen to do. **No update is seen under
  another task.**
* `Updates A t c us c'` — the sequence `us` leads from `c` to `c'`, each update allowed by `A` where
  it is made: a run, so that the invariant rule of runs applies.
-/

namespace AgentWorkflow

/-- An update of a task. -/
inductive Update
  /-- Cache the persisted work order, unless one is cached. -/
  | loadWorkOrder
  /-- Insert a fresh budget, unless there is one. -/
  | initBudget (caps : BudgetCaps)
  | chargeRun
  | chargeUsage (wallMs : ℕ) (cost : ℚ)
  /-- The release of a handler: a status, a role and a number of attempts, no owner, no lease. -/
  | release (status : TaskStatus) (nextRole : Role) (attempts updatedAt : ℕ)
  | setReviewContext (context : ReviewContextRecord) (updatedAt : ℕ)
  | setHandoffPacketUri (uri : Option String) (updatedAt : ℕ)
  /-- Extend the exclude list of the row, and cache the work order that has it. -/
  | exclude (agentIds : List String) (updatedAt : ℕ)
  | note (worker : String) (call : Call)

/-- The columns a handler's release writes. -/
def releasedRow (status : TaskStatus) (nextRole : Role) (attempts updatedAt : ℕ) (r : TaskRow) :
    TaskRow :=
  { r with status, nextRole, currentOwnerRunId := none, leaseExpiresAt := none, attempts,
           updatedAt }

/-- The row with its exclude list extended. -/
def excludedRow (agentIds : List String) (updatedAt : ℕ) (r : TaskRow) : TaskRow :=
  match QueueStore.workOrderOf r with
  | some w =>
    QueueStore.withWorkOrderJson (rawWithExcludeAgentIds r.workorderJson
      (dedupeFirstSeen (w.agent.excludeAgentIds ++ agentIds))) updatedAt r
  | none => r

/-- The persisted work order of a task. -/
def Core.persisted (c : Core) (t : String) : Option ParsedWorkOrderV1 :=
  (c.row t).bind QueueStore.workOrderOf

/-- What the database and a queue instance hold of a task. -/
structure Holding where
  row : Option TaskRow
  budget : Option BudgetState
  /-- The queue instance's copy of the work order. -/
  cached : Option ParsedWorkOrderV1

/-- The persisted work order of the row. -/
def Holding.persisted (h : Holding) : Option ParsedWorkOrderV1 :=
  h.row.bind QueueStore.workOrderOf

/-- What a core holds of a task. -/
def Core.holding (c : Core) (t : String) : Holding := ⟨c.row t, c.budget t, c.cached t⟩

namespace Update

/-- What an update does to the row of its task. -/
def onRow : Update → TaskRow → TaskRow
  | release status nextRole attempts u, r => releasedRow status nextRole attempts u r
  | setReviewContext context u, r => QueueStore.withReviewContext context u r
  | setHandoffPacketUri uri u, r => QueueStore.withHandoffPacketUri uri u r
  | exclude agentIds u, r => excludedRow agentIds u r
  | _, r => r

/-- What an update does to the budget of the task `t`. -/
def onBudget (t : String) : Update → Option BudgetState → Option BudgetState
  | initBudget caps, none => some (BudgetState.fresh t caps)
  | chargeRun, b => b.map BudgetState.chargeRun
  | chargeUsage wallMs cost, b => b.map (BudgetState.chargeUsage wallMs cost)
  | _, b => b

/-- What an update does to what is held of the task `t`. -/
def onHolding (t : String) (u : Update) (h : Holding) : Holding where
  row := h.row.map u.onRow
  budget := u.onBudget t h.budget
  cached :=
    match u with
    | loadWorkOrder => h.cached <|> h.persisted
    | exclude .. => (h.row.map u.onRow).bind QueueStore.workOrderOf <|> h.cached
    | _ => h.cached

/-- The calls an update notes. -/
def calls : Update → List (String × Call)
  | note worker call => [(worker, call)]
  | _ => []

@[simp] theorem key_onRow (u : Update) (r : TaskRow) : (u.onRow r).key = r.key := by
  cases u with
  | exclude agentIds updatedAt =>
    simp only [onRow, excludedRow]
    split <;> rfl
  | _ => rfl

/-- Perform an update of the task `t`. -/
def apply (t : String) (c : Core) : Update → Core
  | loadWorkOrder =>
    match c.cached t, c.persisted t with
    | none, some w => c.cache t w
    | _, _ => c
  | initBudget caps =>
    match c.taskBudget.insert (BudgetState.fresh t caps) with
    | some taskBudget => { c with taskBudget }
    | none => c
  | chargeRun => c.updateBudget t BudgetState.chargeRun BudgetState.taskId_chargeRun
  | chargeUsage wallMs cost =>
    c.updateBudget t (BudgetState.chargeUsage wallMs cost) (BudgetState.taskId_chargeUsage _ _)
  | exclude agentIds u =>
    let c' := c.updateRow t (exclude agentIds u).onRow (key_onRow _)
    match c'.persisted t with
    | some w => c'.cache t w
    | none => c'
  | note worker call => c.note worker call
  | release status nextRole attempts u =>
    c.updateRow t (release status nextRole attempts u).onRow (key_onRow _)
  | setReviewContext context u =>
    c.updateRow t (setReviewContext context u).onRow (key_onRow _)
  | setHandoffPacketUri uri u =>
    c.updateRow t (setHandoffPacketUri uri u).onRow (key_onRow _)

@[simp] theorem onRow_loadWorkOrder : loadWorkOrder.onRow = id := rfl

@[simp] theorem onRow_initBudget (caps : BudgetCaps) : (initBudget caps).onRow = id := rfl

@[simp] theorem onRow_chargeRun : chargeRun.onRow = id := rfl

@[simp] theorem onRow_chargeUsage (wallMs : ℕ) (cost : ℚ) : (chargeUsage wallMs cost).onRow = id :=
  rfl

@[simp] theorem onRow_note (worker : String) (call : Call) : (note worker call).onRow = id := rfl

/-! ## What an update is seen to do -/

variable (t : String) (c : Core) (u : Update)

theorem row_apply : (u.apply t c).row t = (c.row t).map u.onRow := by
  have hid : (c.row t).map (fun r => r) = c.row t := by simp
  cases u with
  | loadWorkOrder =>
    refine Eq.trans ?_ hid.symm
    simp only [apply]
    split <;> rfl
  | initBudget caps =>
    refine Eq.trans ?_ hid.symm
    simp only [apply]
    split <;> rfl
  | exclude agentIds updatedAt =>
    simp only [apply]
    split <;> simp
  | chargeRun => exact hid.symm
  | chargeUsage wallMs cost => exact hid.symm
  | note worker call => exact hid.symm
  | release status nextRole attempts updatedAt => simp [apply]
  | setReviewContext context updatedAt => simp [apply]
  | setHandoffPacketUri uri updatedAt => simp [apply]

theorem row_apply_of_ne {k : String} (h : k ≠ t) : (u.apply t c).row k = c.row k := by
  cases u with
  | loadWorkOrder =>
    simp only [apply]
    split <;> rfl
  | initBudget caps =>
    simp only [apply]
    split <;> rfl
  | exclude agentIds updatedAt =>
    simp only [apply]
    split <;> simp [row_updateRow, h]
  | chargeRun => rfl
  | chargeUsage wallMs cost => rfl
  | note worker call => rfl
  | release status nextRole attempts updatedAt => simp [apply, row_updateRow, h]
  | setReviewContext context updatedAt => simp [apply, row_updateRow, h]
  | setHandoffPacketUri uri updatedAt => simp [apply, row_updateRow, h]

theorem budget_apply_of_ne {k : String} (h : k ≠ t) : (u.apply t c).budget k = c.budget k := by
  cases u with
  | initBudget caps =>
    simp only [apply]
    split
    next q hq =>
      exact (Table.find?_insert hq k).trans (if_neg h)
    next => rfl
  | chargeRun => simp [apply, budget_updateBudget, h]
  | chargeUsage wallMs cost => simp [apply, budget_updateBudget, h]
  | loadWorkOrder =>
    simp only [apply]
    split <;> rfl
  | exclude agentIds updatedAt =>
    simp only [apply]
    split <;> rfl
  | note worker call => rfl
  | release status nextRole attempts updatedAt => rfl
  | setReviewContext context updatedAt => rfl
  | setHandoffPacketUri uri updatedAt => rfl

theorem cached_apply_of_ne {k : String} (h : k ≠ t) : (u.apply t c).cached k = c.cached k := by
  cases u with
  | loadWorkOrder =>
    simp only [apply]
    split
    · rw [cached_cache, if_neg h]
    · rfl
  | exclude agentIds updatedAt =>
    simp only [apply]
    split
    · rw [cached_cache, if_neg h, cached_updateRow]
    · rfl
  | initBudget caps =>
    simp only [apply]
    split <;> rfl
  | chargeRun => rfl
  | chargeUsage wallMs cost => rfl
  | note worker call => rfl
  | release status nextRole attempts updatedAt => rfl
  | setReviewContext context updatedAt => rfl
  | setHandoffPacketUri uri updatedAt => rfl

theorem budget_apply : (u.apply t c).budget t = u.onBudget t (c.budget t) := by
  cases u with
  | initBudget caps =>
    cases hb : c.budget t with
    | some b =>
      rw [apply, show c.taskBudget.insert (BudgetState.fresh t caps) = none from
        Table.insert_of_find? hb]
      exact hb
    | none =>
      obtain ⟨q, hq⟩ := Table.exists_insert_of_find? (r := BudgetState.fresh t caps) hb
      rw [apply, hq]
      exact (Table.find?_insert hq t).trans (if_pos rfl)
  | chargeRun => simp [apply, onBudget]
  | chargeUsage wallMs cost => simp [apply, onBudget]
  | loadWorkOrder =>
    simp only [apply]
    split <;> rfl
  | exclude agentIds updatedAt =>
    simp only [apply]
    split <;> rfl
  | note worker call => rfl
  | release status nextRole attempts updatedAt => rfl
  | setReviewContext context updatedAt => rfl
  | setHandoffPacketUri uri updatedAt => rfl

@[simp] theorem persisted_updateRow (f : TaskRow → TaskRow) (hf : ∀ r, (f r).key = r.key) :
    (c.updateRow t f hf).persisted t = ((c.row t).map f).bind QueueStore.workOrderOf := by
  rw [Core.persisted, row_updateRow_self]

/-- **An update is seen in what is held of its task.** -/
theorem holding_apply : (u.apply t c).holding t = u.onHolding t (c.holding t) := by
  have hrow := row_apply t c u
  have hbudget := budget_apply t c u
  have hcached : (u.apply t c).cached t = (u.onHolding t (c.holding t)).cached := by
    cases u with
    | loadWorkOrder =>
      simp only [apply, onHolding, Holding.persisted, Core.holding]
      rw [show (c.row t).bind QueueStore.workOrderOf = c.persisted t from rfl]
      cases hc : c.cached t with
      | some w => simpa using hc
      | none =>
        cases hp : c.persisted t with
        | some w => simp
        | none => simpa using hc
    | exclude agentIds updatedAt =>
      simp only [apply, onHolding, Core.holding, persisted_updateRow]
      cases hp : ((c.row t).map (exclude agentIds updatedAt).onRow).bind
        QueueStore.workOrderOf with
      | some w => simp
      | none => simp
    | initBudget caps =>
      simp only [apply]
      split <;> rfl
    | _ => rfl
  simp only [Core.holding, hrow, hbudget, hcached]
  rfl

theorem trace_apply : (u.apply t c).trace = c.trace ++ u.calls := by
  have hnil : c.trace = c.trace ++ [] := (List.append_nil _).symm
  cases u with
  | note worker call => rfl
  | loadWorkOrder =>
    refine Eq.trans ?_ hnil
    simp only [apply]
    split <;> rfl
  | initBudget caps =>
    refine Eq.trans ?_ hnil
    simp only [apply]
    split <;> rfl
  | exclude agentIds updatedAt =>
    refine Eq.trans ?_ hnil
    simp only [apply]
    split <;> rfl
  | _ => exact hnil

/-- What is held of another task stays. -/
theorem holding_apply_of_ne {k : String} (h : k ≠ t) : (u.apply t c).holding k = c.holding k := by
  simp only [Core.holding, row_apply_of_ne t c u h, budget_apply_of_ne t c u h,
    cached_apply_of_ne t c u h]

/-! ## The operations as updates -/

variable {t c}

theorem apply_loadWorkOrder_of_cached {w : ParsedWorkOrderV1} (h : c.cached t = some w) :
    loadWorkOrder.apply t c = c := by
  simp only [apply, h]

theorem apply_loadWorkOrder_of_persisted {w : ParsedWorkOrderV1} (h : c.cached t = none)
    (hw : c.persisted t = some w) : loadWorkOrder.apply t c = c.cache t w := by
  simp only [apply, h, hw]

theorem apply_initBudget_of_some {caps : BudgetCaps} {b : BudgetState}
    (h : c.budget t = some b) : (initBudget caps).apply t c = c := by
  have : c.taskBudget.insert (BudgetState.fresh t caps) = none := Table.insert_of_find? h
  simp only [apply, this]

theorem apply_initBudget_of_insert {caps : BudgetCaps} {q : Table BudgetState.taskId}
    (h : c.taskBudget.insert (BudgetState.fresh t caps) = some q) :
    (initBudget caps).apply t c = { c with taskBudget := q } := by
  simp only [apply, h]

/-- The exclude list of the row and of the cached work order, extended alike. -/
theorem apply_exclude {r : TaskRow} {w : ParsedWorkOrderV1} {agentIds : List String} {u : ℕ}
    (hr : c.row t = some r) (hw : QueueStore.workOrderOf r = some w) :
    (exclude agentIds u).apply t c =
      (c.updateRow t (QueueStore.withWorkOrderJson (rawWithExcludeAgentIds r.workorderJson
          (dedupeFirstSeen (w.agent.excludeAgentIds ++ agentIds))) u)
        (QueueStore.key_withWorkOrderJson _ _)).cache t
        (w.withExcludeAgentIds (dedupeFirstSeen (w.agent.excludeAgentIds ++ agentIds))) := by
  have hrow : c.updateRow t (exclude agentIds u).onRow (key_onRow _) =
      c.updateRow t (QueueStore.withWorkOrderJson (rawWithExcludeAgentIds r.workorderJson
        (dedupeFirstSeen (w.agent.excludeAgentIds ++ agentIds))) u)
        (QueueStore.key_withWorkOrderJson _ _) := by
    unfold Core.updateRow
    congr 1
    refine Table.update_congr _ _ _ fun r' hr' => ?_
    cases Option.some.inj (hr.symm.trans hr')
    simp only [onRow, excludedRow, hw]
  have hpersisted : (c.updateRow t (exclude agentIds u).onRow (key_onRow _)).persisted t =
      some (w.withExcludeAgentIds (dedupeFirstSeen (w.agent.excludeAgentIds ++ agentIds))) := by
    rw [hrow, persisted_updateRow, hr]
    exact parse_withExcludeAgentIds hw _
  rw [hrow] at hpersisted
  simp only [apply, hrow, hpersisted]

end Update

/-! ## Sequences of updates -/

/-- From `c` the updates `us` of the task `t`, each allowed by what is held where it is made, lead
to `c'`. -/
abbrev Updates (A : Holding → Update → Prop) (t : String) : Core → List Update → Core → Prop :=
  Run fun c u c' => A (c.holding t) u ∧ c' = u.apply t c

end AgentWorkflow
