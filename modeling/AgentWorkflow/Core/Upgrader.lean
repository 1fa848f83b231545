import AgentWorkflow.Core.AgentProfiles

/-!
# From the first version of a work order to the second

`core/upgrader.ts`: a work order that names its agent becomes one that is scheduled, without a
review and for one run.

* `upgradeWorkOrderV0ToV1` — the mapping.
* `upgrade_valid` — what passed the first schema passes the second; `upgradeParsed`.
* `upgrade_stored` — so the upgraded work order can be stored, and is read back as itself.
-/

namespace AgentWorkflow

/-- Source: `upgrader.ts` `upgradeWorkOrderV0ToV1`. -/
def upgradeWorkOrderV0ToV1 (v0 : WorkOrderV0) : WorkOrderV1 where
  taskId := v0.taskId
  projectId := v0.projectId
  title := v0.title
  type := v0.type
  goal := v0.goal
  acceptanceCriteria := v0.acceptanceCriteria
  repo := v0.repo
  constraints := v0.constraints
  verification := v0.verification
  agent :=
    { requiredCapabilities := [v0.type.text]
      implementerPool := [v0.agentId]
      reviewerPool := []
      excludeAgentIds := [] }
  review := { enabled := false, maxReviewRuns := 0 }
  budget :=
    { maxWallTimeMinutes := (v0.budget.bind BudgetV0.maxWallTimeMinutes).getD 30
      maxTotalCostUnits := 10
      maxRuns := 1
      maxOutputBytes := v0.budget.bind BudgetV0.maxOutputBytes }

theorem WorkOrderType.text_ne_empty (type : WorkOrderType) : type.text ≠ "" := by
  cases type <;> decide

section upgrade

variable {v0 : WorkOrderV0}

/-- The wall time of an upgraded work order is positive: its own, or the default. -/
theorem upgrade_wallTime (h : v0.Valid) :
    0 < (v0.budget.bind BudgetV0.maxWallTimeMinutes).getD 30 := by
  cases hb : v0.budget.bind BudgetV0.maxWallTimeMinutes with
  | none => exact Nat.ofNat_pos
  | some m =>
    obtain ⟨b, hb, hm⟩ := Option.bind_eq_some_iff.mp hb
    exact h.maxWallTimeMinutes b hb m hm

/-- **What passed the first schema passes the second.** -/
theorem upgrade_valid (h : v0.Valid) : (upgradeWorkOrderV0ToV1 v0).Valid where
  taskId := h.taskId
  projectId := h.projectId
  title := h.title
  goal := h.goal
  acceptanceCriteria := h.acceptanceCriteria
  repoPath := h.repoPath
  maxFilesToTouch := h.maxFilesToTouch
  verification := h.verification
  requiredCapabilities s hs := by
    obtain rfl := List.mem_singleton.mp hs
    exact v0.type.text_ne_empty
  requiredCapabilities_min := List.cons_ne_nil _ _
  maxWallTimeMinutes := upgrade_wallTime h
  maxTotalCostUnits := by
    show (0 : ℚ) < 10
    exact Nat.ofNat_pos
  maxRuns := Nat.one_pos
  maxOutputBytes n hn := by
    obtain ⟨b, hb, hm⟩ := Option.bind_eq_some_iff.mp hn
    exact h.maxOutputBytes b hb n hm
  review_runs_fit henabled := absurd henabled Bool.false_ne_true

end upgrade

/-- The upgrade of a parsed work order is a parsed work order. -/
def upgradeParsed (w : ParsedWorkOrder) : ParsedWorkOrderV1 :=
  ⟨upgradeWorkOrderV0ToV1 w.1, upgrade_valid w.2⟩

/-- What is stored of an upgraded work order is read back as it. -/
theorem upgrade_stored (w : ParsedWorkOrder) :
    parseWorkOrder (upgradeParsed w).toJson = .ok (.inr (upgradeParsed w)) :=
  (parseVersioned_eq_inr_iff WorkOrderV1Schema.tagged).mpr (parse_toJson _)

end AgentWorkflow
