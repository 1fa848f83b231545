import AgentWorkflow.Storage.QueueStore

/-!
# The budget store

`SqliteBudgetStore` of `storage/budget-store.ts`: the counters of a task, its caps, and the status
computed from both.

* `computeStatus` — exhausted when one axis has reached its cap, a soft warning from 80 % on.
* `init`, `current`, `applyPreLaunch`, `applyPostRun` — the caps are those of the first `init`.
* `BudgetState.Consistent` — the caps are positive, nothing used is negative, and **the stored
  status is the computed one**. Every operation keeps it.
-/

namespace AgentWorkflow

open Fallible

/-- `cap > 0 ? used / cap : 0`. -/
def capRatio (used cap : ℚ) : ℚ := if 0 < cap then used / cap else 0

/-- Source: `budget-store.ts` `computeStatus`. -/
def computeStatus (runs : ℕ) (wallMs cost : ℚ) (caps : BudgetCaps) : BudgetStatus :=
  let runRatio := capRatio runs caps.maxRuns
  let wallRatio := capRatio wallMs caps.maxWallTimeMs
  let costRatio := capRatio cost caps.maxTotalCostUnits
  if 1 ≤ runRatio ∨ 1 ≤ wallRatio ∨ 1 ≤ costRatio then .exhausted
  else if 4 / 5 ≤ runRatio ∨ 4 / 5 ≤ wallRatio ∨ 4 / 5 ≤ costRatio then .softWarning
  else .ok

theorem one_le_capRatio {used cap : ℚ} (h : 0 < cap) : 1 ≤ capRatio used cap ↔ cap ≤ used := by
  rw [capRatio, if_pos h, le_div_iff₀ h, one_mul]

namespace BudgetState

/-- Charge one run. -/
def chargeRun (b : BudgetState) : BudgetState :=
  { b with
    runsUsed := b.runsUsed + 1
    status := computeStatus (b.runsUsed + 1) b.wallTimeMsUsed b.costUnitsUsed b.caps }

/-- Charge the wall time and the cost of a run. -/
def chargeUsage (deltaWallMs deltaCostUnits : ℚ) (b : BudgetState) : BudgetState :=
  { b with
    wallTimeMsUsed := b.wallTimeMsUsed + deltaWallMs
    costUnitsUsed := b.costUnitsUsed + deltaCostUnits
    status := computeStatus b.runsUsed (b.wallTimeMsUsed + deltaWallMs)
      (b.costUnitsUsed + deltaCostUnits) b.caps }

@[simp] theorem taskId_chargeRun (b : BudgetState) : b.chargeRun.taskId = b.taskId := rfl

@[simp] theorem taskId_chargeUsage (deltaWallMs deltaCostUnits : ℚ) (b : BudgetState) :
    (b.chargeUsage deltaWallMs deltaCostUnits).taskId = b.taskId := rfl

/-- The row a first `init` inserts. -/
def fresh (taskId : String) (caps : BudgetCaps) : BudgetState where
  taskId := taskId
  runsUsed := 0
  wallTimeMsUsed := 0
  costUnitsUsed := 0
  caps := caps
  status := .ok

end BudgetState

namespace BudgetStore

/-- Source: `budget-store.ts` `init`: a task that has a row keeps it. -/
def init (taskId : String) (caps : BudgetCaps) : WorldM Unit := do
  onBackend (storageCall .getBudget)
  let c ← getCore
  if (c.budget taskId).isSome = true then pure ()
  else do
    onBackend (storageCall .insertBudget)
    match c.taskBudget.insert (BudgetState.fresh taskId caps) with
    | some taskBudget => modifyCore fun c => { c with taskBudget }
    | none => onBackend (throw (.error "UNIQUE constraint failed: task_budget.task_id"))

/-- Source: `budget-store.ts` `current`. -/
def current (taskId : String) : WorldM BudgetState := do
  onBackend (storageCall .getBudget)
  let c ← getCore
  match c.budget taskId with
  | some b => pure b
  | none => onBackend (throw (.error ("Budget not found for task: " ++ taskId)))

/-- Read the row, write `f` of it and return what was written. -/
def apply (taskId : String) (f : BudgetState → BudgetState)
    (hf : ∀ b, (f b).taskId = b.taskId) : WorldM BudgetState := do
  let state ← current taskId
  onBackend (storageCall .updateBudget)
  modifyCore fun c => c.updateBudget taskId f hf
  pure (f state)

/-- Source: `budget-store.ts` `applyPreLaunch`. -/
def applyPreLaunch (taskId : String) : WorldM BudgetState :=
  apply taskId BudgetState.chargeRun BudgetState.taskId_chargeRun

/-- Source: `budget-store.ts` `applyPostRun`. -/
def applyPostRun (taskId : String) (deltaWallMs deltaCostUnits : ℚ) : WorldM BudgetState :=
  apply taskId (BudgetState.chargeUsage deltaWallMs deltaCostUnits)
    (BudgetState.taskId_chargeUsage deltaWallMs deltaCostUnits)

/-! ## What the statements do to the core -/

section specs

variable {env : Env} {c : Core} {taskId : String} {E : Err → Core → Prop}

/-- The core after `init`: the row that was there, or a fresh one. -/
theorem onCore_init {caps : BudgetCaps} {Q : Unit → Core → Prop}
    (hsome : ∀ b, c.budget taskId = some b → Q () c)
    (hnone : ∀ q, c.budget taskId = none →
      c.taskBudget.insert (BudgetState.fresh taskId caps) = some q →
      Q () { c with taskBudget := q })
    (hE : ∀ e, E e c) : OnCore (init taskId caps) env c Q E := by
  refine .bind (onCore_storageCall ?_ fun _ => hE)
  refine .bind (onCore_getCore ?_)
  refine .ite (fun h => .pure ?_) fun h => ?_
  · obtain ⟨b, hb⟩ := Option.isSome_iff_exists.mp h
    exact hsome b hb
  · have hnone' : c.budget taskId = none := by simpa using h
    refine .bind (onCore_storageCall ?_ fun _ => hE)
    split
    next q hq => exact onCore_modifyCore (hnone q hnone' hq)
    next => exact onCore_throw (hE _)

theorem onCore_current {Q : BudgetState → Core → Prop}
    (hQ : ∀ b, c.budget taskId = some b → Q b c) (hE : ∀ e, E e c) :
    OnCore (current taskId) env c Q E := by
  refine .bind (onCore_storageCall ?_ fun _ => hE)
  refine .bind (onCore_getCore ?_)
  split
  next b h => exact .pure (hQ b h)
  next => exact onCore_throw (hE _)

theorem onCore_apply {f : BudgetState → BudgetState} {hf : ∀ b, (f b).taskId = b.taskId}
    {Q : BudgetState → Core → Prop}
    (hQ : ∀ b, c.budget taskId = some b → Q (f b) (c.updateBudget taskId f hf))
    (hE : ∀ e, E e c) : OnCore (apply taskId f hf) env c Q E := by
  refine .bind (onCore_current (fun b hb => ?_) hE)
  refine .bind (onCore_storageCall ?_ fun _ => hE)
  exact .bind (onCore_modifyCore (.pure (hQ b hb)))

end specs

end BudgetStore

/-! ## Consistent budgets -/

namespace BudgetState

/-- Positive caps, nothing negative, and the stored status is the computed one. -/
structure Consistent (b : BudgetState) : Prop where
  maxRuns_pos : 0 < b.caps.maxRuns
  maxWallTimeMs_pos : 0 < b.caps.maxWallTimeMs
  maxTotalCostUnits_pos : 0 < b.caps.maxTotalCostUnits
  wallTime_nonneg : 0 ≤ b.wallTimeMsUsed
  cost_nonneg : 0 ≤ b.costUnitsUsed
  status_eq : b.status = computeStatus b.runsUsed b.wallTimeMsUsed b.costUnitsUsed b.caps

variable {b : BudgetState}

/-- With positive caps a status is exhausted exactly when an axis has reached its cap. -/
theorem computeStatus_eq_exhausted_iff {runs : ℕ} {wallMs cost : ℚ} {caps : BudgetCaps}
    (hr : 0 < caps.maxRuns) (hw : 0 < caps.maxWallTimeMs) (hc : 0 < caps.maxTotalCostUnits) :
    computeStatus runs wallMs cost caps = .exhausted ↔
      caps.maxRuns ≤ runs ∨ caps.maxWallTimeMs ≤ wallMs ∨ caps.maxTotalCostUnits ≤ cost := by
  have hr' : (0 : ℚ) < caps.maxRuns := by exact_mod_cast hr
  have hcast : (caps.maxRuns : ℚ) ≤ runs ↔ caps.maxRuns ≤ runs := by exact_mod_cast Iff.rfl
  simp only [computeStatus, one_le_capRatio hr', one_le_capRatio hw, one_le_capRatio hc, hcast]
  constructor
  · intro h
    by_contra hne
    rw [if_neg hne] at h
    split at h <;> cases h
  · intro h
    rw [if_pos h]

namespace Consistent

theorem exhausted_iff (h : b.Consistent) :
    b.status = .exhausted ↔ b.caps.maxRuns ≤ b.runsUsed ∨
      b.caps.maxWallTimeMs ≤ b.wallTimeMsUsed ∨ b.caps.maxTotalCostUnits ≤ b.costUnitsUsed := by
  rw [h.status_eq, computeStatus_eq_exhausted_iff h.maxRuns_pos h.maxWallTimeMs_pos
    h.maxTotalCostUnits_pos]

/-- A budget that is not exhausted is strictly below every cap. -/
theorem below_caps (h : b.Consistent) (hne : b.status ≠ .exhausted) :
    b.runsUsed < b.caps.maxRuns ∧ b.wallTimeMsUsed < b.caps.maxWallTimeMs ∧
      b.costUnitsUsed < b.caps.maxTotalCostUnits := by
  rw [Ne, h.exhausted_iff, not_or, not_or, not_le, not_le, not_le] at hne
  exact hne

theorem fresh {taskId : String} {caps : BudgetCaps} (hr : 0 < caps.maxRuns)
    (hw : 0 < caps.maxWallTimeMs) (hc : 0 < caps.maxTotalCostUnits) :
    (BudgetState.fresh taskId caps).Consistent where
  maxRuns_pos := hr
  maxWallTimeMs_pos := hw
  maxTotalCostUnits_pos := hc
  wallTime_nonneg := le_rfl
  cost_nonneg := le_rfl
  status_eq := by
    have hr' : (0 : ℚ) < caps.maxRuns := by exact_mod_cast hr
    have hfour : ¬ (4 / 5 : ℚ) ≤ 0 := by norm_num
    have hone : ¬ (1 : ℚ) ≤ 0 := by norm_num
    simp [BudgetState.fresh, computeStatus, capRatio, hfour, hone]

theorem chargeRun (h : b.Consistent) : b.chargeRun.Consistent :=
  ⟨h.maxRuns_pos, h.maxWallTimeMs_pos, h.maxTotalCostUnits_pos, h.wallTime_nonneg, h.cost_nonneg,
    rfl⟩

theorem chargeUsage (h : b.Consistent) {wallMs cost : ℚ} (hw : 0 ≤ wallMs) (hc : 0 ≤ cost) :
    (b.chargeUsage wallMs cost).Consistent :=
  ⟨h.maxRuns_pos, h.maxWallTimeMs_pos, h.maxTotalCostUnits_pos, add_nonneg h.wallTime_nonneg hw,
    add_nonneg h.cost_nonneg hc, rfl⟩

/-- An exhausted budget stays exhausted when a run is charged. -/
theorem chargeRun_exhausted (h : b.Consistent) (he : b.status = .exhausted) :
    b.chargeRun.status = .exhausted := by
  rw [h.chargeRun.exhausted_iff]
  rcases h.exhausted_iff.mp he with h' | h' | h'
  · exact Or.inl (Nat.le_succ_of_le h')
  · exact Or.inr (Or.inl h')
  · exact Or.inr (Or.inr h')

/-- An exhausted budget stays exhausted when usage is charged. -/
theorem chargeUsage_exhausted (h : b.Consistent) {wallMs cost : ℚ} (hw : 0 ≤ wallMs)
    (hc : 0 ≤ cost) (he : b.status = .exhausted) :
    (b.chargeUsage wallMs cost).status = .exhausted := by
  rw [(h.chargeUsage hw hc).exhausted_iff]
  rcases h.exhausted_iff.mp he with h' | h' | h'
  · exact Or.inl h'
  · exact Or.inr (Or.inl (h'.trans (le_add_of_nonneg_right hw)))
  · exact Or.inr (Or.inr (h'.trans (le_add_of_nonneg_right hc)))

end Consistent

end BudgetState

end AgentWorkflow
