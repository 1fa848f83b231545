import AgentWorkflow.Lib.Selection
import AgentWorkflow.Scheduling.SharedHealth

/-!
# What a decision is

The scheduler's decision as a function of who is eligible, stated without its analyses, filters
and sorts.

* `Request` — a work order, a role, and who is excluded; `Capable`, `Admitted`, `Eligible` — the
  agents it asks for.
* `Correct` — what a decision over a registry has to be: the eligible agent with the highest
  score and the least id, or the refusal that applies; and every agent listed once.
* **`decide_correct`** — `decide` returns, and its decision is correct.
-/

namespace AgentWorkflow

open Fallible

/-! ## The registry's list -/

/-- What `AgentRegistry.list` returns. -/
def Backend.listed (b : Backend) : List AgentRegistryEntry :=
  (AgentRegistry.syncAll b.sharedQuotaHealth b.registry).rows.map AgentRegistry.toExternal

/-- The id of a listed agent. -/
def AgentRegistryEntry.agentId (e : AgentRegistryEntry) : String := e.profile.agentId

/-- A registry lists an agent once. -/
theorem Backend.listed_nodup (b : Backend) : (b.listed.map AgentRegistryEntry.agentId).Nodup := by
  unfold listed
  rw [List.map_map]
  exact (AgentRegistry.syncAll b.sharedQuotaHealth b.registry).nodup

namespace Collation

/-- Ids in the order of the collation. -/
def Sorted (coll : Collation) (ids : List String) : Prop :=
  ids.Pairwise fun id id' => coll.le id id' = true

/-- What is sorted by an id has its ids in order. -/
theorem sorted_insertionSort {α : Type} (coll : Collation) (id : α → String) (l : List α) :
    coll.Sorted ((l.insertionSort fun a b => coll.le (id a) (id b) = true).map id) := by
  have : Std.Total fun a b : α => coll.le (id a) (id b) = true := ⟨fun a b => coll.total _ _⟩
  have : IsTrans α fun a b => coll.le (id a) (id b) = true := ⟨fun a b c => coll.trans _ _ _⟩
  exact List.pairwise_map.mpr (List.pairwise_insertionSort _ _)

/-- There is one order of ids. -/
theorem Sorted.eq_of_perm {coll : Collation} {ids ids' : List String} (h : coll.Sorted ids)
    (h' : coll.Sorted ids') (hperm : ids.Perm ids') : ids = ids' :=
  hperm.eq_of_pairwise (fun _ _ _ _ => coll.antisymm _ _) h h'

end Collation

namespace Scheduler

/-! ## Who is asked for -/

/-- The arguments of `decide` that say who may be picked. -/
structure Request where
  workOrder : ParsedWorkOrderV1
  role : Role
  excludeAgentIds : List String
  mostRecentImplementerAgentId : Option String

namespace Request

/-- The pool of the requested role; an empty one does not restrict. -/
def pool (q : Request) : List String :=
  match q.role with
  | .implementer => q.workOrder.agent.implementerPool
  | .reviewer => q.workOrder.agent.reviewerPool

/-- An agent with all required capabilities and the role. -/
def Capable (q : Request) (e : AgentRegistryEntry) : Prop :=
  (∀ cap ∈ q.workOrder.agent.requiredCapabilities, cap ∈ e.profile.kinds) ∧
    q.role ∈ e.profile.roles

/-- An agent in the pool that nothing excludes. -/
def Admitted (q : Request) (e : AgentRegistryEntry) : Prop :=
  (q.pool = [] ∨ e.agentId ∈ q.pool) ∧ e.agentId ∉ q.excludeAgentIds ∧
    (q.role = .reviewer → q.mostRecentImplementerAgentId ≠ some e.agentId)

/-- An agent that may be picked. -/
def Eligible (q : Request) (e : AgentRegistryEntry) : Prop :=
  q.Capable e ∧ q.Admitted e ∧ e.quotaHealth ≠ .exhausted

instance (q : Request) (e : AgentRegistryEntry) : Decidable (q.Capable e) :=
  inferInstanceAs (Decidable (_ ∧ _))

instance (q : Request) (e : AgentRegistryEntry) : Decidable (q.Admitted e) :=
  inferInstanceAs (Decidable (_ ∧ _ ∧ _))

instance (q : Request) (e : AgentRegistryEntry) : Decidable (q.Eligible e) :=
  inferInstanceAs (Decidable (_ ∧ _ ∧ _))

/-- The eligible agents of a list. -/
def eligible (q : Request) (entries : List AgentRegistryEntry) : List AgentRegistryEntry :=
  entries.filter fun e => q.Eligible e

/-- Why nobody is picked, in the order of the refusals. -/
def refusalReason (q : Request) (budget : BudgetState) (entries : List AgentRegistryEntry) :
    RefusalReason :=
  if budget.status = .exhausted then .taskBudgetExhausted
  else if ∀ e ∈ entries, ¬q.Capable e then .noAgentMatchesCapability
  else if ∀ e ∈ entries, q.Capable e → ¬q.Admitted e then .allCandidatesExcluded
  else .allCandidatesQuotaExhausted

end Request

/-- The breakdown of an eligible agent's score, from the highest cost and the number of the
eligible agents. -/
def breakdown (maxCost : ℚ) (candidateCount : ℕ) (e : AgentRegistryEntry) : ScoreBreakdown where
  capabilityMatch := 1
  costEfficiency := computeCostEfficiency e maxCost candidateCount
  quotaHealth := quotaHealthToScore e.quotaHealth
  reliability := computeReliability e
  latencyScore := computeLatencyScore e

/-- The highest cost among agents, at least 0. -/
def highestCost (entries : List AgentRegistryEntry) : ℚ :=
  Selection.highest 0 (fun e => estimatedCost e.profile) entries

/-- The breakdown of an agent among eligible ones. -/
def breakdownAmong (eligible : List AgentRegistryEntry) (e : AgentRegistryEntry) :
    ScoreBreakdown :=
  breakdown (highestCost eligible) eligible.length e

/-- The score of an agent among eligible ones. -/
def scoreAmong (eligible : List AgentRegistryEntry) (e : AgentRegistryEntry) : ℚ :=
  weighted (breakdownAmong eligible e)

/-- The agent to pick: eligible, of maximal score, and of least id among those. -/
def Pick (coll : Collation) (q : Request) (entries : List AgentRegistryEntry) :
    AgentRegistryEntry → Prop :=
  Selection.Best (scoreAmong (q.eligible entries)) (fun id id' => coll.le id id' = true)
    AgentRegistryEntry.agentId fun e => e ∈ entries ∧ q.Eligible e

/-- **What a decision over the listed agents has to be.** -/
structure Correct (coll : Collation) (q : Request) (budget : BudgetState)
    (entries : List AgentRegistryEntry) (d : ScheduleDecision) : Prop where
  /-- An agent is picked exactly when the budget allows it and one is eligible. -/
  picks_iff : d.pickedAgentId.isSome = true ↔
    budget.status ≠ .exhausted ∧ ∃ e ∈ entries, q.Eligible e
  /-- The picked agent is the one to pick, and nothing is refused. -/
  picked : ∀ id, d.pickedAgentId = some id →
    d.refusalReason = none ∧ ∃ e, Pick coll q entries e ∧ e.agentId = id
  /-- Who is not picked is refused for the first reason that applies. -/
  refused : d.pickedAgentId = none → d.refusalReason = some (q.refusalReason budget entries)
  /-- Every agent is listed exactly once. -/
  listed : (d.candidateScores.map CandidateScore.agentId).Perm
    (entries.map AgentRegistryEntry.agentId)
  /-- The list is sorted by id. -/
  sorted : coll.Sorted (d.candidateScores.map CandidateScore.agentId)
  /-- Exactly those outside the eligible are excluded. -/
  excluded : ∀ s ∈ d.candidateScores, ∀ e ∈ entries, e.agentId = s.agentId →
    (s.excluded = true ↔ ¬q.Eligible e)
  /-- A decision that picks lists the eligible agents with the scores they were compared by. -/
  scores : d.pickedAgentId.isSome = true → ∀ s ∈ d.candidateScores, ∀ e ∈ entries,
    e.agentId = s.agentId → q.Eligible e →
    s.score = scoreAmong (q.eligible entries) e ∧
      s.breakdown = breakdownAmong (q.eligible entries) e
  /-- A refusal compares nobody. -/
  uncompared : d.pickedAgentId = none → ∀ s ∈ d.candidateScores, ∀ e ∈ entries,
    e.agentId = s.agentId → q.Eligible e →
    s.score = 0 ∧ s.breakdown = { breakdownAmong (q.eligible entries) e with costEfficiency := 0 }

/-! ## The analyses -/

/-- Scored or not, an agent is listed under its id, excluded as its analysis says. -/
theorem candidateScore_spec (scored : List Scored) (a : CandidateAnalysis) :
    (candidateScore scored a).agentId = a.agentId ∧
      (candidateScore scored a).excluded = a.excluded := by
  unfold candidateScore
  split <;> exact ⟨rfl, rfl⟩

namespace Request

variable (q : Request) {coll : Collation} {budget : BudgetState}
  {entries : List AgentRegistryEntry} {e : AgentRegistryEntry} {a : CandidateAnalysis}

/-- The analysis of an agent for a request. -/
def analyze : AgentRegistryEntry → CandidateAnalysis :=
  analyzeCandidate q.workOrder.agent.requiredCapabilities q.role
    (effectiveExcludes q.role q.excludeAgentIds q.mostRecentImplementerAgentId)
    (rolePool q.workOrder q.role) (rolePoolExcludedReason q.role)

/-- The analyses of the listed agents for a request. -/
def analyses (coll : Collation) (entries : List AgentRegistryEntry) : List CandidateAnalysis :=
  analyzeCandidates coll entries q.workOrder.agent.requiredCapabilities q.role
    (effectiveExcludes q.role q.excludeAgentIds q.mostRecentImplementerAgentId)
    (rolePool q.workOrder q.role) (rolePoolExcludedReason q.role)

@[simp] theorem analyze_entry : (q.analyze e).entry = e := rfl

theorem analyze_quotaExhausted :
    (q.analyze e).quotaExhausted = true ↔ e.quotaHealth = .exhausted := by
  simp [analyze, analyzeCandidate]

theorem analyze_capabilityMatch : (q.analyze e).capabilityMatch = true ↔
    ∀ cap ∈ q.workOrder.agent.requiredCapabilities, cap ∈ e.profile.kinds := by
  simp [analyze, analyzeCandidate]

theorem analyze_roleMatch : (q.analyze e).roleMatch = true ↔ q.role ∈ e.profile.roles := by
  simp [analyze, analyzeCandidate]

theorem capable_iff : ((q.analyze e).capabilityMatch && (q.analyze e).roleMatch) = true ↔
    q.Capable e := by
  rw [Bool.and_eq_true, analyze_capabilityMatch, analyze_roleMatch]
  rfl

/-- The effective exclusions are the excluded ids and, for a reviewer, the implementer. An agent
id is not empty, so the empty id `decide` skips excludes nobody. -/
theorem mem_effectiveExcludes_iff :
    e.agentId ∈ effectiveExcludes q.role q.excludeAgentIds q.mostRecentImplementerAgentId ↔
      e.agentId ∈ q.excludeAgentIds ∨
        q.role = .reviewer ∧ q.mostRecentImplementerAgentId = some e.agentId := by
  have hne : e.agentId ≠ "" := e.profile.agentId_min
  unfold effectiveExcludes
  split
  next id hrole himplementer =>
    rw [hrole, himplementer]
    by_cases hid : id = ""
    · rw [if_pos hid]
      subst hid
      simp [Ne.symm hne]
    · rw [if_neg hid, List.mem_append, List.mem_singleton, Option.some.injEq]
      simp [eq_comm]
  next hnot =>
    refine ⟨.inl, ?_⟩
    rintro (h | ⟨hrole, himplementer⟩)
    · exact h
    · exact absurd himplementer (hnot _ hrole)

/-- The pool `decide` checks is the pool of the role. -/
theorem rolePool_eq : rolePool q.workOrder q.role = if q.pool = [] then none else some q.pool := by
  unfold rolePool pool
  cases q.role <;> rfl

/-- The exclusions and the pool `decide` checks are those of the request. -/
theorem admitted_iff : q.Admitted e ↔
    e.agentId ∉ effectiveExcludes q.role q.excludeAgentIds q.mostRecentImplementerAgentId ∧
      (q.pool = [] ∨ e.agentId ∈ q.pool) := by
  rw [mem_effectiveExcludes_iff, not_or, not_and]
  unfold Admitted
  constructor
  · rintro ⟨hpool, hexclude, himplementer⟩
    exact ⟨⟨hexclude, himplementer⟩, hpool⟩
  · rintro ⟨⟨hexclude, himplementer⟩, hpool⟩
    exact ⟨hpool, hexclude, himplementer⟩

/-- The first reason to exclude an agent, over what is asked for. -/
theorem excludedReason_eq : (q.analyze e).excludedReason =
    if e.agentId ∈ effectiveExcludes q.role q.excludeAgentIds q.mostRecentImplementerAgentId then
      some "excluded_agent"
    else if ¬(q.analyze e).capabilityMatch = true then some "capability_mismatch"
    else if ¬(q.analyze e).roleMatch = true then some "role_mismatch"
    else if ¬(q.pool = [] ∨ e.agentId ∈ q.pool) then some (rolePoolExcludedReason q.role)
    else if e.quotaHealth = .exhausted then some "quota_exhausted"
    else none := by
  unfold analyze analyzeCandidate
  rw [rolePool_eq]
  by_cases hpool : q.pool = []
  · simp [hpool, AgentRegistryEntry.agentId]
  · simp [hpool, AgentRegistryEntry.agentId]

/-- **An agent is not excluded exactly when it is eligible**, and excluded for its quota exactly
when that is its only fault. -/
theorem excludedReason_spec : ((q.analyze e).excluded = false ↔ q.Eligible e) ∧
    ((q.analyze e).excludedReason = some "quota_exhausted" ↔
      q.Capable e ∧ q.Admitted e ∧ e.quotaHealth = .exhausted) := by
  have hreason : rolePoolExcludedReason q.role ≠ "quota_exhausted" := by
    cases q.role <;> decide
  unfold CandidateAnalysis.excluded Eligible
  rw [excludedReason_eq, ← capable_iff, admitted_iff, Bool.and_eq_true]
  split_ifs <;> simp_all

/-! ## The refusals -/

theorem mem_analyses : a ∈ q.analyses coll entries ↔ ∃ e ∈ entries, q.analyze e = a := by
  unfold analyses analyzeCandidates
  rw [List.mem_insertionSort, List.mem_map]
  rfl

/-- What some analysis shows, some agent has. -/
theorem any_analyses {p : CandidateAnalysis → Bool} :
    (q.analyses coll entries).any p = true ↔ ∃ e ∈ entries, p (q.analyze e) = true := by
  rw [List.any_eq_true]
  constructor
  · rintro ⟨a, ha, hp⟩
    obtain ⟨e, he, rfl⟩ := q.mem_analyses.mp ha
    exact ⟨e, he, hp⟩
  · rintro ⟨e, he, hp⟩
    exact ⟨q.analyze e, q.mem_analyses.mpr ⟨e, he, rfl⟩, hp⟩

/-- What no analysis shows, no agent has. -/
theorem any_analyses_false {p : CandidateAnalysis → Bool} :
    (q.analyses coll entries).any p = false ↔ ∀ e ∈ entries, ¬p (q.analyze e) = true := by
  rw [← Bool.not_eq_true, any_analyses]
  simp only [not_exists, not_and]

/-- What no analysis is kept by, keeps no agent. -/
theorem filter_analyses_nil {p : CandidateAnalysis → Bool} :
    ((q.analyses coll entries).filter p).length = 0 ↔
      ∀ e ∈ entries, ¬p (q.analyze e) = true := by
  rw [List.length_eq_zero_iff, List.filter_eq_nil_iff]
  constructor
  · exact fun h e he => h _ (q.mem_analyses.mpr ⟨e, he, rfl⟩)
  · rintro h a ha
    obtain ⟨e, he, rfl⟩ := q.mem_analyses.mp ha
    exact h e he

/-- Who is left before quota: the capable agents nothing else excludes. -/
theorem beforeQuota_iff : ((q.analyze e).capabilityMatch && (q.analyze e).roleMatch &&
    (!(q.analyze e).excluded || (q.analyze e).excludedReason = some "quota_exhausted")) = true ↔
      q.Capable e ∧ q.Admitted e := by
  obtain ⟨heligible, hquota⟩ := q.excludedReason_spec (e := e)
  rw [Bool.and_eq_true, capable_iff, Bool.or_eq_true, Bool.not_eq_true', heligible,
    decide_eq_true_eq, hquota]
  unfold Eligible
  constructor
  · rintro ⟨hcapable, ⟨-, hadmitted, -⟩ | ⟨-, hadmitted, -⟩⟩
    · exact ⟨hcapable, hadmitted⟩
    · exact ⟨hcapable, hadmitted⟩
  · rintro ⟨hcapable, hadmitted⟩
    by_cases hhealth : e.quotaHealth = .exhausted
    · exact ⟨hcapable, .inr ⟨hcapable, hadmitted, hhealth⟩⟩
    · exact ⟨hcapable, .inl ⟨hcapable, hadmitted, hhealth⟩⟩

/-- Who is left after quota: the eligible agents. -/
theorem afterQuota_iff : (!(q.analyze e).quotaExhausted &&
    ((q.analyze e).capabilityMatch && (q.analyze e).roleMatch &&
      (!(q.analyze e).excluded || (q.analyze e).excludedReason = some "quota_exhausted"))) = true ↔
      q.Eligible e := by
  rw [Bool.and_eq_true, beforeQuota_iff, Bool.not_eq_true', ← Bool.not_eq_true,
    analyze_quotaExhausted]
  unfold Eligible
  rw [and_comm, and_assoc]

/-- **The refusals are those of the request, in their order.** -/
theorem refusal_eq : refusal budget (q.analyses coll entries) =
    if budget.status ≠ .exhausted ∧ ∃ e ∈ entries, q.Eligible e then none
    else some (q.refusalReason budget entries) := by
  unfold refusal refusalReason
  dsimp only
  simp only [any_analyses_false, capable_iff, List.filter_filter, filter_analyses_nil,
    beforeQuota_iff, afterQuota_iff]
  by_cases hbudget : budget.status = .exhausted
  · simp only [hbudget, if_true, ne_eq, not_true_eq_false, false_and, if_false]
  simp only [hbudget, if_false, ne_eq, not_false_eq_true, true_and]
  by_cases hcapable : ∀ e ∈ entries, ¬q.Capable e
  · have hnone : ¬∃ e ∈ entries, q.Eligible e := fun ⟨e, he, h⟩ => hcapable e he h.1
    rw [if_pos hcapable, ite_self, if_neg hnone, if_pos hcapable]
  have hmatch : ¬∀ e ∈ entries, ¬(q.analyze e).capabilityMatch = true := fun h =>
    hcapable fun e he hc => h e he (q.analyze_capabilityMatch.mpr hc.1)
  rw [if_neg hmatch, if_neg hcapable, if_neg hcapable]
  by_cases hadmitted : ∀ e ∈ entries, q.Capable e → ¬q.Admitted e
  · have hnone : ¬∃ e ∈ entries, q.Eligible e := fun ⟨e, he, h⟩ => hadmitted e he h.1 h.2.1
    rw [if_pos fun e he h => hadmitted e he h.1 h.2, if_neg hnone, if_pos hadmitted]
  rw [if_neg fun h => hadmitted fun e he hc ha => h e he ⟨hc, ha⟩, if_neg hadmitted]
  by_cases hsome : ∃ e ∈ entries, q.Eligible e
  · rw [if_pos hsome, if_neg fun h => hsome.elim fun e he => h e he.1 he.2]
  · rw [if_neg hsome, if_pos fun e he h => hsome ⟨e, he, h⟩]

/-! ## The lists of a decision -/

/-- The analyses that are not excluded, as `decide` scores them. -/
def eligibleAnalyses (coll : Collation) (entries : List AgentRegistryEntry) :
    List CandidateAnalysis :=
  (q.analyses coll entries).filter fun a => !a.excluded

theorem analyses_perm (coll : Collation) (entries : List AgentRegistryEntry) :
    (q.analyses coll entries).Perm (entries.map q.analyze) :=
  List.perm_insertionSort _ _

theorem mem_eligible : e ∈ q.eligible entries ↔ e ∈ entries ∧ q.Eligible e := by
  unfold eligible
  rw [List.mem_filter, decide_eq_true_eq]

theorem mem_eligibleAnalyses :
    a ∈ q.eligibleAnalyses coll entries ↔ ∃ e ∈ q.eligible entries, q.analyze e = a := by
  unfold eligibleAnalyses
  rw [List.mem_filter, mem_analyses, Bool.not_eq_true']
  constructor
  · rintro ⟨⟨e, he, rfl⟩, heligible⟩
    exact ⟨e, q.mem_eligible.mpr ⟨he, q.excludedReason_spec.1.mp heligible⟩, rfl⟩
  · rintro ⟨e, he, rfl⟩
    obtain ⟨he, heligible⟩ := q.mem_eligible.mp he
    exact ⟨⟨e, he, rfl⟩, q.excludedReason_spec.1.mpr heligible⟩

/-- The agents `decide` scores are the eligible ones. -/
theorem eligibleAnalyses_perm (coll : Collation) (entries : List AgentRegistryEntry) :
    ((q.eligibleAnalyses coll entries).map CandidateAnalysis.entry).Perm (q.eligible entries) := by
  have hfilter : (entries.map q.analyze).filter (fun a => !a.excluded) =
      (q.eligible entries).map q.analyze := by
    rw [List.filter_map, eligible]
    refine congrArg _ (List.filter_congr fun e _ => ?_)
    rw [Bool.eq_iff_iff, decide_eq_true_eq, ← q.excludedReason_spec.1]
    simp
  have hperm := ((q.analyses_perm coll entries).filter
    fun a => !a.excluded).map CandidateAnalysis.entry
  rw [hfilter, List.map_map] at hperm
  exact hperm.trans (.of_eq (List.map_id _))

theorem maxCost_eq : maxCost (q.eligibleAnalyses coll entries) =
    highestCost (q.eligible entries) := by
  unfold highestCost
  rw [← Selection.highest_perm 0 _ (q.eligibleAnalyses_perm coll entries)]
  unfold maxCost Selection.highest
  rw [List.foldl_map, List.foldl_map]
  refine congrArg (fun f => List.foldl f _ _) ?_
  funext m a
  exact (max_def_lt _ _).symm

theorem length_eligibleAnalyses :
    (q.eligibleAnalyses coll entries).length = (q.eligible entries).length := by
  rw [← List.length_map CandidateAnalysis.entry]
  exact (q.eligibleAnalyses_perm coll entries).length_eq

/-- The scored agents, best first. -/
def scored (coll : Collation) (entries : List AgentRegistryEntry) : List Scored :=
  ((q.eligibleAnalyses coll entries).map
    (scoreOf (maxCost (q.eligibleAnalyses coll entries))
      (q.eligibleAnalyses coll entries).length)).insertionSort (better coll)

/-- An eligible agent as it is scored. -/
def scoredEntry (entries : List AgentRegistryEntry) (e : AgentRegistryEntry) : Scored where
  entry := e
  score := scoreAmong (q.eligible entries) e
  breakdown := breakdownAmong (q.eligible entries) e

theorem scoreOf_analyze (he : q.Eligible e) :
    scoreOf (maxCost (q.eligibleAnalyses coll entries)) (q.eligibleAnalyses coll entries).length
      (q.analyze e) = q.scoredEntry entries e := by
  have hmatch : (q.analyze e).capabilityMatch = true := q.analyze_capabilityMatch.mpr he.1.1
  unfold scoreOf scoredEntry scoreAmong breakdownAmong breakdown
  rw [hmatch, maxCost_eq, length_eligibleAnalyses, if_pos rfl, analyze_entry]

theorem mem_scored {x : Scored} : x ∈ q.scored coll entries ↔
    ∃ e, (e ∈ entries ∧ q.Eligible e) ∧ q.scoredEntry entries e = x := by
  unfold scored
  rw [List.mem_insertionSort, List.mem_map]
  constructor
  · rintro ⟨a, ha, rfl⟩
    obtain ⟨e, he, rfl⟩ := q.mem_eligibleAnalyses.mp ha
    have he := q.mem_eligible.mp he
    exact ⟨e, he, (q.scoreOf_analyze he.2).symm⟩
  · rintro ⟨e, he, rfl⟩
    exact ⟨q.analyze e, q.mem_eligibleAnalyses.mpr ⟨e, q.mem_eligible.mpr he, rfl⟩,
      q.scoreOf_analyze he.2⟩

/-- **The first of the scored agents is the one to pick.** -/
theorem pick_of_head? {best : Scored} (h : (q.scored coll entries).head? = some best) :
    Pick coll q entries best.entry := by
  obtain ⟨e, he, rfl⟩ := q.mem_scored.mp (List.mem_of_mem_head? h)
  have hbest : Selection.Best Scored.score (fun id id' => coll.le id id' = true)
      (fun x => x.entry.agentId) (· ∈ _) (q.scoredEntry entries e) :=
    Selection.best_of_head? coll.total coll.trans (r := better coll) (fun _ _ => Iff.rfl) h
  refine ⟨he, fun e' he' => ?_⟩
  have hmem : q.scoredEntry entries e' ∈ q.scored coll entries := q.mem_scored.mpr ⟨e', he', rfl⟩
  exact hbest.ahead _ ((List.mem_insertionSort _).mp hmem)

/-- Somebody eligible is scored. -/
theorem scored_ne_nil (h : ∃ e ∈ entries, q.Eligible e) : q.scored coll entries ≠ [] := by
  obtain ⟨e, he⟩ := h
  exact List.ne_nil_of_mem (q.mem_scored.mpr ⟨e, he, rfl⟩)

/-- An eligible agent is listed with its score. -/
theorem candidateScore_eligible (hnodup : (entries.map AgentRegistryEntry.agentId).Nodup)
    (he : e ∈ entries) (heligible : q.Eligible e) :
    (candidateScore (q.scored coll entries) (q.analyze e)).score =
        scoreAmong (q.eligible entries) e ∧
      (candidateScore (q.scored coll entries) (q.analyze e)).breakdown =
        breakdownAmong (q.eligible entries) e := by
  have hmem : q.scoredEntry entries e ∈ q.scored coll entries :=
    q.mem_scored.mpr ⟨e, ⟨he, heligible⟩, rfl⟩
  unfold candidateScore
  split
  next x hfind =>
    obtain ⟨e', he', rfl⟩ := q.mem_scored.mp (List.mem_of_find?_eq_some hfind)
    have hfound := List.find?_some hfind
    have hid : e'.agentId = e.agentId := of_decide_eq_true hfound
    obtain rfl := List.inj_on_of_nodup_map hnodup he'.1 he hid
    exact ⟨rfl, rfl⟩
  next hfind =>
    exact absurd (decide_eq_true rfl) (List.find?_eq_none.mp hfind _ hmem)

/-! ## Decisions -/

/-- What the list of a decision shows, however its entries are scored. -/
theorem scores_spec (coll : Collation) {f : CandidateAnalysis → CandidateScore}
    (hf : ∀ a, (f a).agentId = a.agentId ∧ (f a).excluded = a.excluded)
    (hnodup : (entries.map AgentRegistryEntry.agentId).Nodup) :
    let scores := sortScores coll ((q.analyses coll entries).map f)
    (scores.map CandidateScore.agentId).Perm (entries.map AgentRegistryEntry.agentId) ∧
      coll.Sorted (scores.map CandidateScore.agentId) ∧
      ∀ s ∈ scores, ∀ e ∈ entries, e.agentId = s.agentId → s = f (q.analyze e) := by
  intro scores
  have hperm : scores.Perm ((entries.map q.analyze).map f) :=
    (List.perm_insertionSort _ _).trans ((q.analyses_perm coll entries).map f)
  have hids : ((entries.map q.analyze).map f).map CandidateScore.agentId =
      entries.map AgentRegistryEntry.agentId := by
    rw [List.map_map, List.map_map]
    exact List.map_congr_left fun e _ => (hf _).1
  refine ⟨hids ▸ hperm.map CandidateScore.agentId, coll.sorted_insertionSort _ _, ?_⟩
  intro s hs e he hid
  obtain ⟨a, ha, rfl⟩ := List.mem_map.mp (hperm.mem_iff.mp hs)
  obtain ⟨e', he', rfl⟩ := List.mem_map.mp ha
  have hid' : e.agentId = e'.agentId := hid.trans (hf _).1
  rw [List.inj_on_of_nodup_map hnodup he he' hid']

end Request

section decisions

variable {coll : Collation} {q : Request} {budget : BudgetState} {entries : List AgentRegistryEntry}

/-- A refusal of the request is correct. -/
theorem Correct.of_refusal {reason : RefusalReason} {d : ScheduleDecision}
    (hnodup : (entries.map AgentRegistryEntry.agentId).Nodup)
    (hrefusal : refusal budget (q.analyses coll entries) = some reason)
    (hpicked : d.pickedAgentId = none) (hreason : d.refusalReason = some reason)
    (hscores : d.candidateScores = sortScores coll ((q.analyses coll entries).map unscored)) :
    Correct coll q budget entries d := by
  obtain ⟨hperm, hsorted, heq⟩ := q.scores_spec coll (f := unscored)
    (fun _ => ⟨rfl, rfl⟩) hnodup
  rw [← hscores] at hperm hsorted heq
  rw [q.refusal_eq] at hrefusal
  have hnot : ¬(budget.status ≠ .exhausted ∧ ∃ e ∈ entries, q.Eligible e) := fun h => by
    rw [if_pos h] at hrefusal
    cases hrefusal
  rw [if_neg hnot] at hrefusal
  refine ⟨?_, ?_, fun _ => hreason.trans hrefusal.symm, hperm, hsorted, ?_, ?_, ?_⟩
  · simp [hpicked, hnot]
  · simp [hpicked]
  · intro s hs e he hid
    rw [heq s hs e he hid, ← q.excludedReason_spec.1, Bool.not_eq_false]
    rfl
  · simp [hpicked]
  · intro _ s hs e he hid heligible
    have hmatch : (q.analyze e).capabilityMatch = true :=
      q.analyze_capabilityMatch.mpr heligible.1.1
    rw [heq s hs e he hid]
    refine ⟨rfl, ?_⟩
    simp only [unscored, hmatch, if_true]
    rfl

/-- A pick of the first scored agent is correct. -/
theorem Correct.of_pick {best : Scored} {d : ScheduleDecision}
    (hnodup : (entries.map AgentRegistryEntry.agentId).Nodup)
    (hrefusal : refusal budget (q.analyses coll entries) = none)
    (hbest : (q.scored coll entries).head? = some best)
    (hpicked : d.pickedAgentId = some best.entry.agentId) (hreason : d.refusalReason = none)
    (hscores : d.candidateScores =
      sortScores coll ((q.analyses coll entries).map (candidateScore (q.scored coll entries)))) :
    Correct coll q budget entries d := by
  obtain ⟨hperm, hsorted, heq⟩ := q.scores_spec coll
    (candidateScore_spec (q.scored coll entries)) hnodup
  rw [← hscores] at hperm hsorted heq
  have hsome : budget.status ≠ .exhausted ∧ ∃ e ∈ entries, q.Eligible e := by
    by_contra h
    rw [q.refusal_eq, if_neg h] at hrefusal
    cases hrefusal
  refine ⟨?_, ?_, ?_, hperm, hsorted, ?_, ?_, ?_⟩
  · simp only [hpicked, Option.isSome_some, true_iff]
    exact hsome
  · rintro id hid
    rw [hpicked, Option.some.injEq] at hid
    exact ⟨hreason, best.entry, q.pick_of_head? hbest, hid⟩
  · simp [hpicked]
  · intro s hs e he hid
    rw [heq s hs e he hid, (candidateScore_spec _ _).2, ← q.excludedReason_spec.1,
      Bool.not_eq_false]
  · intro _ s hs e he hid heligible
    rw [heq s hs e he hid]
    exact q.candidateScore_eligible hnodup he heligible
  · simp [hpicked]

/-- **Every decision is correct**, over whatever the registry lists. -/
theorem decide_correct (coll : Collation) (q : Request) (budget : BudgetState) (env : Env)
    (b : Backend) :
    Ensures (decide coll q.workOrder q.role q.excludeAgentIds budget
        q.mostRecentImplementerAgentId) env b
      (fun d _ => Correct coll q budget b.listed d) fun _ _ => False := by
  unfold decide
  simp only [ensures_bind, AgentRegistry.list, ensures_get, ensures_set, ensures_pure]
  have hnodup := b.listed_nodup
  split
  next reason hreason =>
    have hrefusal : refusal budget (q.analyses coll b.listed) = some reason := hreason
    simp only [buildDecision, ensures_bind, ensures_uuid8, ensures_dateNow, ensures_pure]
    exact .of_refusal hnodup hrefusal rfl rfl rfl
  next hnone =>
    have hrefusal : refusal budget (q.analyses coll b.listed) = none := hnone
    have hsome : budget.status ≠ .exhausted ∧ ∃ e ∈ b.listed, q.Eligible e := by
      by_contra h
      rw [q.refusal_eq, if_neg h] at hrefusal
      cases hrefusal
    split
    next hhead =>
      have hnil : (q.scored coll b.listed).head? = none := hhead
      exact absurd (List.head?_eq_none_iff.mp hnil) (q.scored_ne_nil hsome.2)
    next best hhead =>
      have hbest : (q.scored coll b.listed).head? = some best := hhead
      simp only [ensures_bind, ensures_uuid8, ensures_dateNow, ensures_pure]
      exact .of_pick hnodup hrefusal hbest rfl rfl rfl

end decisions

end Scheduler

end AgentWorkflow
