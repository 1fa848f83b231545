import AgentWorkflow.Scheduling.AgentRegistry
import AgentWorkflow.Core.SchemasV1

/-!
# The scheduler

`DefaultScheduler` of `scheduling/scheduler.ts`.

* `analyzeCandidates` — why each agent is or is not eligible.
* `decide` — the refusals in their order, then the best score, ties by agent id.
* **`decide_spec`** — a picked agent was eligible: it is not on the exclude list, it is not the
  implementer under review, and the budget was not exhausted.

Scores are exact. `localeCompare` is a parameter, a total order on the ids.
-/

namespace AgentWorkflow

open Fallible

/-- A total order on strings: what `localeCompare` is assumed to be. -/
structure Collation where
  /-- `a.localeCompare(b) <= 0`. -/
  le : String → String → Bool
  total : ∀ a b, le a b = true ∨ le b a = true
  trans : ∀ a b c, le a b = true → le b c = true → le a c = true
  antisymm : ∀ a b, le a b = true → le b a = true → a = b

namespace Scheduler

/-! ## Scores -/

/-- Source: `scheduler.ts` `clamp`. -/
def clamp (val lo hi : ℚ) : ℚ := max lo (min hi val)

/-- `cost_profile?.estimated_cost_per_run_units ?? 0`. -/
def estimatedCost (profile : AgentProfileV1) : ℚ :=
  (profile.costProfile.map CostProfile.estimatedCostPerRunUnits).getD 0

theorem estimatedCost_nonneg (profile : AgentProfileV1) : 0 ≤ estimatedCost profile := by
  unfold estimatedCost
  cases profile.costProfile with
  | none => exact le_rfl
  | some costProfile => exact costProfile.estimatedCost_nonneg

/-- Source: `scheduler.ts` `computeCostEfficiency`. -/
def computeCostEfficiency (entry : AgentRegistryEntry) (maxCostInPool : ℚ)
    (candidateCount : ℕ) : ℚ :=
  if candidateCount ≤ 1 then 1
  else if maxCostInPool ≤ 0 then 1
  else clamp (1 - estimatedCost entry.profile / maxCostInPool) 0 1

/-- Source: `scheduler.ts` `computeLatencyScore`. -/
def computeLatencyScore (entry : AgentRegistryEntry) : ℚ :=
  if entry.rollingMetrics.avgLatencyMs ≤ 0 then 1 / 2
  else clamp (1 - entry.rollingMetrics.avgLatencyMs / 600000) 0 1

/-- Source: `scheduler.ts` `computeReliability`. -/
def computeReliability (entry : AgentRegistryEntry) : ℚ :=
  if 5 ≤ entry.rollingMetrics.runsObserved then entry.rollingMetrics.successRate
  else entry.profile.initialSuccessRate

/-- Source: `scheduler.ts` `quotaHealthToScore`. -/
def quotaHealthToScore : QuotaHealth → ℚ
  | .healthy => 1
  | .low => 1 / 2
  | .exhausted => 0

/-- Source: `scheduler.ts` `SCHEDULER_WEIGHTS`. -/
def weighted (s : ScoreBreakdown) : ℚ :=
  s.capabilityMatch * (2 / 5) + s.costEfficiency * (1 / 5) + s.quotaHealth * (1 / 5) +
    s.reliability * (1 / 10) + s.latencyScore * (1 / 10)

/-! ## Candidates -/

/-- Source: `scheduler.ts` `CandidateAnalysis`; `excluded` is whether there is a reason. -/
structure CandidateAnalysis where
  entry : AgentRegistryEntry
  capabilityMatch : Bool
  roleMatch : Bool
  excludedReason : Option String
  quotaExhausted : Bool

/-- Source: `scheduler.ts` `CandidateAnalysis.excluded`. -/
def CandidateAnalysis.excluded (a : CandidateAnalysis) : Bool := a.excludedReason.isSome

/-- The id of the analysed agent. -/
def CandidateAnalysis.agentId (a : CandidateAnalysis) : String := a.entry.profile.agentId

/-- The analysis of one agent: the first reason to exclude it. -/
def analyzeCandidate (requiredCaps : List String) (role : Role) (excludeSet : List String)
    (rolePool : Option (List String)) (rolePoolExcludedReason : String)
    (entry : AgentRegistryEntry) : CandidateAnalysis :=
  let agentId := entry.profile.agentId
  let capabilityMatch := requiredCaps.all fun cap => cap ∈ entry.profile.kinds
  let roleMatch : Bool := role ∈ entry.profile.roles
  let quotaExhausted : Bool := entry.quotaHealth = .exhausted
  let inRolePool := match rolePool with
    | none => true
    | some pool => decide (agentId ∈ pool)
  let excludedReason :=
    if agentId ∈ excludeSet then some "excluded_agent"
    else if !capabilityMatch then some "capability_mismatch"
    else if !roleMatch then some "role_mismatch"
    else if !inRolePool then some rolePoolExcludedReason
    else if quotaExhausted then some "quota_exhausted"
    else none
  { entry, capabilityMatch, roleMatch, excludedReason, quotaExhausted }

/-- Source: `scheduler.ts` `analyzeCandidates`, over the registry's list. -/
def analyzeCandidates (coll : Collation) (entries : List AgentRegistryEntry)
    (requiredCaps : List String) (role : Role) (excludeSet : List String)
    (rolePool : Option (List String)) (rolePoolExcludedReason : String) :
    List CandidateAnalysis :=
  (entries.map
    (analyzeCandidate requiredCaps role excludeSet rolePool rolePoolExcludedReason)).insertionSort
      fun a b => coll.le a.agentId b.agentId = true

/-- An eligible agent with its score. -/
structure Scored where
  entry : AgentRegistryEntry
  score : ℚ
  breakdown : ScoreBreakdown

/-- The highest cost among the eligible agents. -/
def maxCost (eligible : List CandidateAnalysis) : ℚ :=
  eligible.foldl (fun m a => if m < estimatedCost a.entry.profile then
    estimatedCost a.entry.profile else m) 0

/-- The score of an eligible agent. -/
def scoreOf (maxCost : ℚ) (candidateCount : ℕ) (a : CandidateAnalysis) : Scored :=
  let breakdown : ScoreBreakdown :=
    { capabilityMatch := if a.capabilityMatch then 1 else 0
      costEfficiency := computeCostEfficiency a.entry maxCost candidateCount
      quotaHealth := quotaHealthToScore a.entry.quotaHealth
      reliability := computeReliability a.entry
      latencyScore := computeLatencyScore a.entry }
  { entry := a.entry, score := weighted breakdown, breakdown }

/-- Highest score first, ties by agent id. -/
def better (coll : Collation) (a b : Scored) : Prop :=
  b.score < a.score ∨
    a.score = b.score ∧ coll.le a.entry.profile.agentId b.entry.profile.agentId = true

instance (coll : Collation) : DecidableRel (better coll) := fun a b =>
  inferInstanceAs (Decidable (b.score < a.score ∨
    a.score = b.score ∧ coll.le a.entry.profile.agentId b.entry.profile.agentId = true))

/-- How a decision lists an agent that was not scored. -/
def unscored (a : CandidateAnalysis) : CandidateScore where
  agentId := a.agentId
  score := 0
  breakdown :=
    { capabilityMatch := if a.capabilityMatch then 1 else 0
      costEfficiency := 0
      quotaHealth := quotaHealthToScore a.entry.quotaHealth
      reliability := computeReliability a.entry
      latencyScore := computeLatencyScore a.entry }
  excluded := a.excluded
  excludedReason := a.excludedReason

/-- How a decision lists an agent, given the scored ones. -/
def candidateScore (scored : List Scored) (a : CandidateAnalysis) : CandidateScore :=
  match scored.find? fun s => s.entry.profile.agentId = a.agentId with
  | some s => { unscored a with score := s.score, breakdown := s.breakdown }
  | none => unscored a

/-- Candidate scores by agent id. -/
def sortScores (coll : Collation) (scores : List CandidateScore) : List CandidateScore :=
  scores.insertionSort fun a b => coll.le a.agentId b.agentId = true

/-! ## Decisions -/

/-- Source: `scheduler.ts` `buildDecision`: a refusal. -/
def buildDecision (coll : Collation) (taskId : String) (role : Role) (reason : RefusalReason)
    (analyses : List CandidateAnalysis) : BackendM ScheduleDecision := do
  let id ← uuid8
  let decidedAt ← dateNow
  pure
    { decisionId := "D-" ++ id, taskId, role, pickedAgentId := none,
      refusalReason := some reason,
      candidateScores := sortScores coll (analyses.map unscored), decidedAt }

/-- The reason to refuse before scoring, in the order of the checks. -/
def refusal (budget : BudgetState) (analyses : List CandidateAnalysis) : Option RefusalReason :=
  let beforeQuota := analyses.filter fun a => a.capabilityMatch && a.roleMatch &&
    (!a.excluded || a.excludedReason = some "quota_exhausted")
  if budget.status = .exhausted then some .taskBudgetExhausted
  else if analyses.any CandidateAnalysis.capabilityMatch = false then
    some .noAgentMatchesCapability
  else if analyses.any (fun a => a.capabilityMatch && a.roleMatch) = false then
    some .noAgentMatchesCapability
  else if beforeQuota.length = 0 then some .allCandidatesExcluded
  else if (beforeQuota.filter fun a => !a.quotaExhausted).length = 0 then
    some .allCandidatesQuotaExhausted
  else none

/-- The effective exclusion set: for a reviewer, the implementer under review as well. -/
def effectiveExcludes (role : Role) (excludeAgentIds : List String)
    (mostRecentImplementerAgentId : Option String) : List String :=
  match role, mostRecentImplementerAgentId with
  | .reviewer, some id => if id = "" then excludeAgentIds else excludeAgentIds ++ [id]
  | _, _ => excludeAgentIds

/-- The pool of a role; an empty pool does not restrict. -/
def rolePool (workOrder : ParsedWorkOrderV1) : Role → Option (List String)
  | .implementer =>
    if workOrder.agent.implementerPool = [] then none else some workOrder.agent.implementerPool
  | .reviewer =>
    if workOrder.agent.reviewerPool = [] then none else some workOrder.agent.reviewerPool

/-- Why an agent outside the role's pool is excluded. -/
def rolePoolExcludedReason : Role → String
  | .implementer => "not_in_implementer_pool"
  | .reviewer => "not_in_reviewer_pool"

/-- Source: `scheduler.ts` `decide`. -/
def decide (coll : Collation) (workOrder : ParsedWorkOrderV1) (role : Role)
    (excludeAgentIds : List String) (budget : BudgetState)
    (mostRecentImplementerAgentId : Option String) : BackendM ScheduleDecision := do
  let entries ← AgentRegistry.list
  let analyses := analyzeCandidates coll entries workOrder.agent.requiredCapabilities role
    (effectiveExcludes role excludeAgentIds mostRecentImplementerAgentId)
    (rolePool workOrder role) (rolePoolExcludedReason role)
  let eligible := analyses.filter fun a => !a.excluded
  match refusal budget analyses with
  | some reason => buildDecision coll workOrder.taskId role reason analyses
  | none => do
    let scored :=
      (eligible.map (scoreOf (maxCost eligible) eligible.length)).insertionSort (better coll)
    match scored.head? with
    | none => throw (.error "Cannot read properties of undefined (reading 'entry')")
    | some best => do
      let id ← uuid8
      let decidedAt ← dateNow
      pure
        { decisionId := "D-" ++ id, taskId := workOrder.taskId, role,
          pickedAgentId := some best.entry.profile.agentId, refusalReason := none,
          candidateScores := sortScores coll (analyses.map (candidateScore scored)), decidedAt }

/-! ## What a decision guarantees -/

section specs

variable {coll : Collation} {workOrder : ParsedWorkOrderV1} {role : Role}
  {excludeAgentIds : List String} {budget : BudgetState} {implementer : Option String}

/-- The analyses are those of the entries. -/
theorem mem_analyzeCandidates {entries : List AgentRegistryEntry} {caps : List String}
    {excludes : List String} {pool : Option (List String)} {reason : String}
    {a : CandidateAnalysis} : a ∈ analyzeCandidates coll entries caps role excludes pool reason ↔
      ∃ entry ∈ entries, analyzeCandidate caps role excludes pool reason entry = a := by
  rw [analyzeCandidates, List.mem_insertionSort, List.mem_map]

/-- The best of the scored agents is an eligible one. -/
theorem eligible_of_best {analyses : List CandidateAnalysis} {cost : ℚ} {n : ℕ} {best : Scored}
    (h : (((analyses.filter fun a => !a.excluded).map (scoreOf cost n)).insertionSort
      (better coll)).head? = some best) :
    ∃ a ∈ analyses, a.excluded = false ∧ scoreOf cost n a = best := by
  have hmem := List.mem_of_mem_head? h
  rw [List.mem_insertionSort, List.mem_map] at hmem
  obtain ⟨a, ha, hbest⟩ := hmem
  obtain ⟨ha, heligible⟩ := List.mem_filter.mp ha
  exact ⟨a, ha, by simpa using heligible, hbest⟩

/-- An eligible agent is not on the effective exclusion set. -/
theorem not_mem_excludes_of_eligible {entries : List AgentRegistryEntry} {caps : List String}
    {excludes : List String} {pool : Option (List String)} {reason : String}
    {a : CandidateAnalysis}
    (h : a ∈ analyzeCandidates coll entries caps role excludes pool reason)
    (he : a.excluded = false) : a.agentId ∉ excludes := by
  obtain ⟨entry, -, rfl⟩ := mem_analyzeCandidates.mp h
  intro hmem
  simp only [CandidateAnalysis.agentId, analyzeCandidate] at hmem
  simp [CandidateAnalysis.excluded, analyzeCandidate, hmem] at he

/-- What `decide` promises of a decision. -/
structure Sound (role : Role) (excludeAgentIds : List String) (budget : BudgetState)
    (implementer : Option String) (d : ScheduleDecision) : Prop where
  not_excluded : ∀ id, d.pickedAgentId = some id → id ∉ excludeAgentIds
  not_implementer : ∀ id, d.pickedAgentId = some id → role = .reviewer → implementer ≠ some id
  not_exhausted : d.pickedAgentId.isSome = true → budget.status ≠ .exhausted
  refused : d.pickedAgentId = none → d.refusalReason.isSome = true

theorem mem_effectiveExcludes {id : String} (h : id ∈ excludeAgentIds) :
    id ∈ effectiveExcludes role excludeAgentIds implementer := by
  unfold effectiveExcludes
  split
  · split
    · exact h
    · exact List.mem_append_left _ h
  · exact h

/-- **A picked agent was eligible.** -/
theorem decide_spec (env : Env) (b : Backend) :
    Ensures (decide coll workOrder role excludeAgentIds budget implementer) env b
      (fun d _ => Sound role excludeAgentIds budget implementer d) (fun _ _ => True) := by
  unfold decide
  refine ensures_bind.mpr ?_
  refine ensures_of_forall (fun entries b' _ => ?_) (fun _ _ _ => trivial)
  dsimp only
  split
  next reason _ =>
    simp only [buildDecision, ensures_bind, ensures_uuid8, ensures_dateNow, ensures_pure]
    exact ⟨by simp, by simp, by simp, by simp⟩
  next hr =>
    have hbudget : budget.status ≠ .exhausted := by
      intro h
      rw [refusal, if_pos h] at hr
      cases hr
    split
    next => exact trivial
    next best hbest =>
      obtain ⟨a, ha, heligible, rfl⟩ := eligible_of_best hbest
      have hnot := not_mem_excludes_of_eligible ha heligible
      simp only [ensures_bind, ensures_uuid8, ensures_dateNow, ensures_pure]
      refine ⟨?_, ?_, fun _ => hbudget, by simp⟩
      · rintro id hid hmem
        cases hid
        exact hnot (mem_effectiveExcludes hmem)
      · rintro id hid rfl rfl
        have hid' : a.agentId = id := Option.some.inj hid
        have hne : id ≠ "" := hid' ▸ a.entry.profile.agentId_min
        rw [effectiveExcludes, if_neg hne] at hnot
        exact hnot (List.mem_append_right _ (List.mem_singleton.mpr hid'))

end specs

end Scheduler

end AgentWorkflow
