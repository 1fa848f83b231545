import AgentWorkflow.Scheduling.Decision

/-!
# The registry's candidates and the scheduler's

`AgentRegistry.candidatesFor` and `DefaultScheduler.decide` filter the same registry, each in its
own code: the one syncs the quota healths and walks the entries, the other lists them and analyses
each.

* `candidatesFor_spec` — what `candidatesFor` returns, in terms of the registry's list.
* `Request.inPool` — the candidates the role's pool leaves.
* **`decide_candidatesFor`** — the agents `decide` treats as eligible are these candidates, in this
  order; and it refuses as documented over them.
-/

namespace AgentWorkflow

open Fallible

/-- The agents a decision lists as not excluded. -/
def ScheduleDecision.eligibleIds (d : ScheduleDecision) : List String :=
  (d.candidateScores.filter fun s => !s.excluded).map CandidateScore.agentId

namespace Scheduler

namespace Request

variable (q : Request)

/-- Who is not to be picked: the excluded ids and, for a reviewer, the most recent implementer. -/
def excludes : List String :=
  match q.role with
  | .implementer => q.excludeAgentIds
  | .reviewer => q.excludeAgentIds ++ q.mostRecentImplementerAgentId.toList

/-- The candidates in the role's pool, when there is one. -/
def inPool (candidates : List AgentRegistryEntry) : List AgentRegistryEntry :=
  candidates.filter fun e => q.pool = [] ∨ e.agentId ∈ q.pool

theorem mem_excludes {id : String} : id ∈ q.excludes ↔
    id ∈ q.excludeAgentIds ∨ q.role = .reviewer ∧ q.mostRecentImplementerAgentId = some id := by
  unfold excludes
  cases q.role with
  | implementer => simp
  | reviewer => simp [Option.mem_toList]

/-- An eligible agent is a candidate in the pool. -/
theorem eligible_iff {e : AgentRegistryEntry} : q.Eligible e ↔
    (e.quotaHealth ≠ .exhausted ∧ e.agentId ∉ q.excludes ∧ q.Capable e) ∧
      (q.pool = [] ∨ e.agentId ∈ q.pool) := by
  rw [mem_excludes, not_or, not_and]
  unfold Eligible Admitted
  constructor
  · rintro ⟨hcapable, ⟨hpool, hexclude, himplementer⟩, hhealth⟩
    exact ⟨⟨hhealth, ⟨hexclude, himplementer⟩, hcapable⟩, hpool⟩
  · rintro ⟨⟨hhealth, ⟨hexclude, himplementer⟩, hcapable⟩, hpool⟩
    exact ⟨hcapable, ⟨hpool, hexclude, himplementer⟩, hhealth⟩

/-- Which entries `candidatesFor` keeps. -/
theorem candidate_iff {row : InternalEntry} :
    AgentRegistry.candidate q.workOrder.agent.requiredCapabilities q.role q.excludes row = true ↔
      (AgentRegistry.toExternal row).quotaHealth ≠ .exhausted ∧
        (AgentRegistry.toExternal row).agentId ∉ q.excludes ∧
        q.Capable (AgentRegistry.toExternal row) := by
  unfold AgentRegistry.candidate Capable
  simp only [Bool.and_eq_true, decide_eq_true_eq, List.all_eq_true]
  constructor
  · rintro ⟨⟨⟨hhealth, hexclude⟩, hrole⟩, hcaps⟩
    exact ⟨hhealth, hexclude, hcaps, hrole⟩
  · rintro ⟨hhealth, hexclude, hcaps, hrole⟩
    exact ⟨⟨⟨hhealth, hexclude⟩, hrole⟩, hcaps⟩

end Request

section specs

variable {coll : Collation} {q : Request} {budget : BudgetState} {env : Env} {b : Backend}

/-- **What `candidatesFor` returns**: the listed agents with the capabilities and the role that
are neither excluded nor exhausted, by id. -/
theorem candidatesFor_spec (coll : Collation) (q : Request) (env : Env) (b : Backend) :
    Ensures (AgentRegistry.candidatesFor coll q.workOrder.agent.requiredCapabilities q.role
        q.excludes) env b
      (fun candidates _ => coll.Sorted (candidates.map AgentRegistryEntry.agentId) ∧
        (candidates.map AgentRegistryEntry.agentId).Nodup ∧
        ∀ e, e ∈ candidates ↔ e ∈ b.listed ∧ e.quotaHealth ≠ .exhausted ∧
          e.agentId ∉ q.excludes ∧ q.Capable e)
      fun _ _ => False := by
  simp only [AgentRegistry.candidatesFor, AgentRegistry.refreshQuotaHealth, ensures_bind,
    ensures_modify, ensures_get, ensures_pure]
  have hperm := List.perm_insertionSort
    (fun e e' : InternalEntry => coll.le e.agentId e'.agentId = true)
    ((AgentRegistry.syncAll b.sharedQuotaHealth b.registry).rows.filter
      (AgentRegistry.candidate q.workOrder.agent.requiredCapabilities q.role q.excludes))
  refine ⟨?_, ?_, fun e => ?_⟩
  · rw [List.map_map]
    exact coll.sorted_insertionSort InternalEntry.agentId _
  · rw [List.map_map]
    refine (hperm.map _).nodup_iff.mpr ?_
    exact (AgentRegistry.syncAll b.sharedQuotaHealth b.registry).nodup.sublist
      (List.filter_sublist.map _)
  · rw [(hperm.map _).mem_iff, Backend.listed, List.mem_map, List.mem_map]
    constructor
    · rintro ⟨row, hrow, rfl⟩
      obtain ⟨hrow, hkeep⟩ := List.mem_filter.mp hrow
      exact ⟨⟨row, hrow, rfl⟩, q.candidate_iff.mp hkeep⟩
    · rintro ⟨⟨row, hrow, rfl⟩, hkeep⟩
      exact ⟨row, List.mem_filter.mpr ⟨hrow, q.candidate_iff.mpr hkeep⟩, rfl⟩

/-- What the documents say of a decision, over the candidates in the role's pool. -/
structure Documented (q : Request) (budget : BudgetState) (entries : List AgentRegistryEntry)
    (candidates : List AgentRegistryEntry) (d : ScheduleDecision) : Prop where
  /-- The scheduler's eligible agents are the candidates, in the same order. -/
  eligible : d.eligibleIds = candidates.map AgentRegistryEntry.agentId
  /-- An exhausted budget is refused first. -/
  budgetExhausted : budget.status = .exhausted →
    d.pickedAgentId = none ∧ d.refusalReason = some .taskBudgetExhausted
  /-- There are no candidates, as nobody has the capabilities and the role. -/
  noCapability : budget.status ≠ .exhausted → candidates = [] →
    (∀ e ∈ entries, ¬q.Capable e) →
    d.pickedAgentId = none ∧ d.refusalReason = some .noAgentMatchesCapability
  /-- There are no candidates, as everybody who is capable is excluded. -/
  allExcluded : budget.status ≠ .exhausted → candidates = [] → (∃ e ∈ entries, q.Capable e) →
    (∀ e ∈ entries, q.Capable e → ¬q.Admitted e) →
    d.pickedAgentId = none ∧ d.refusalReason = some .allCandidatesExcluded
  /-- There are no candidates, although somebody capable is not excluded: the quota of all those
  is exhausted. -/
  allExhausted : budget.status ≠ .exhausted → candidates = [] →
    (∃ e ∈ entries, q.Capable e ∧ q.Admitted e) →
    (∀ e ∈ entries, q.Capable e → q.Admitted e → e.quotaHealth = .exhausted) ∧
      d.pickedAgentId = none ∧ d.refusalReason = some .allCandidatesQuotaExhausted
  /-- A candidate is picked when there is one. -/
  picked : budget.status ≠ .exhausted → candidates ≠ [] →
    d.refusalReason = none ∧ ∃ e ∈ candidates, d.pickedAgentId = some e.agentId

/-- The ids a correct decision lists as not excluded are those of the eligible agents. -/
theorem Correct.mem_eligibleIds {entries : List AgentRegistryEntry} {d : ScheduleDecision}
    (h : Correct coll q budget entries d) {id : String} :
    id ∈ d.eligibleIds ↔ ∃ e ∈ entries, q.Eligible e ∧ e.agentId = id := by
  unfold ScheduleDecision.eligibleIds
  rw [List.mem_map]
  constructor
  · rintro ⟨s, hs, rfl⟩
    obtain ⟨hs, hexcluded⟩ := List.mem_filter.mp hs
    obtain ⟨e, he, hid⟩ := List.mem_map.mp (h.listed.mem_iff.mp (List.mem_map_of_mem hs))
    refine ⟨e, he, ?_, hid⟩
    by_contra hnot
    rw [(h.excluded s hs e he hid).mpr hnot] at hexcluded
    cases hexcluded
  · rintro ⟨e, he, heligible, rfl⟩
    obtain ⟨s, hs, hid⟩ := List.mem_map.mp (h.listed.mem_iff.mpr (List.mem_map_of_mem he))
    refine ⟨s, List.mem_filter.mpr ⟨hs, ?_⟩, hid⟩
    rw [Bool.not_eq_true', ← Bool.not_eq_true]
    exact fun hexcluded => (h.excluded s hs e he hid.symm).mp hexcluded heligible

/-- A correct decision is as documented over the eligible agents by id. -/
theorem Documented.of_correct {entries candidates : List AgentRegistryEntry}
    {d : ScheduleDecision} (h : Correct coll q budget entries d)
    (hnodup : (entries.map AgentRegistryEntry.agentId).Nodup)
    (hmem : ∀ e, e ∈ candidates ↔ e ∈ entries ∧ q.Eligible e)
    (hids : (candidates.map AgentRegistryEntry.agentId).Nodup)
    (hsorted : coll.Sorted (candidates.map AgentRegistryEntry.agentId)) :
    Documented q budget entries candidates d := by
  have hscores : (d.candidateScores.map CandidateScore.agentId).Nodup :=
    h.listed.nodup_iff.mpr hnodup
  have hnone : candidates = [] → d.pickedAgentId = none ∧
      d.refusalReason = some (q.refusalReason budget entries) := by
    intro hnil
    have hpicked : d.pickedAgentId = none := by
      rw [← Option.not_isSome_iff_eq_none, h.picks_iff]
      rintro ⟨-, e, he⟩
      exact List.not_mem_nil (hnil ▸ (hmem e).mpr he)
    exact ⟨hpicked, h.refused hpicked⟩
  refine ⟨?_, fun hbudget => ?_, fun hbudget hnil hcapable => ?_,
    fun hbudget hnil ⟨e, he, hcapable⟩ hadmitted => ?_,
    fun hbudget hnil ⟨e, he, hcapable, hadmitted⟩ => ?_, fun hbudget hne => ?_⟩
  · -- both lists are sorted by id and name the eligible agents once
    have hsub : d.eligibleIds.Sublist (d.candidateScores.map CandidateScore.agentId) :=
      List.filter_sublist.map _
    have hids' : coll.Sorted d.eligibleIds := h.sorted.sublist hsub
    refine hids'.eq_of_perm hsorted
      ((List.perm_ext_iff_of_nodup (hscores.sublist hsub) hids).mpr fun id => ?_)
    exact h.mem_eligibleIds.trans (by simp only [List.mem_map, hmem, and_assoc])
  · have hpicked : d.pickedAgentId = none := by
      rw [← Option.not_isSome_iff_eq_none, h.picks_iff]
      exact fun hsome => hsome.1 hbudget
    exact ⟨hpicked, (h.refused hpicked).trans (by rw [Request.refusalReason, if_pos hbudget])⟩
  · obtain ⟨hpicked, hreason⟩ := hnone hnil
    rw [Request.refusalReason, if_neg hbudget, if_pos hcapable] at hreason
    exact ⟨hpicked, hreason⟩
  · obtain ⟨hpicked, hreason⟩ := hnone hnil
    rw [Request.refusalReason, if_neg hbudget, if_neg fun hall => hall e he hcapable,
      if_pos hadmitted] at hreason
    exact ⟨hpicked, hreason⟩
  · obtain ⟨hpicked, hreason⟩ := hnone hnil
    rw [Request.refusalReason, if_neg hbudget, if_neg fun hall => hall e he hcapable,
      if_neg fun hall => hall e he hcapable hadmitted] at hreason
    refine ⟨fun e' he' hcapable' hadmitted' => ?_, hpicked, hreason⟩
    by_contra hhealth
    exact List.not_mem_nil (hnil ▸ (hmem e').mpr ⟨he', hcapable', hadmitted', hhealth⟩)
  · obtain ⟨e, he⟩ := List.exists_mem_of_ne_nil _ hne
    obtain ⟨id, hid⟩ := Option.isSome_iff_exists.mp
      (h.picks_iff.mpr ⟨hbudget, e, (hmem e).mp he⟩)
    obtain ⟨hreason, e', hpick, rfl⟩ := h.picked id hid
    exact ⟨hreason, e', (hmem e').mpr hpick.mem, hid⟩

/-- **The scheduler's filter is the registry's**, run over the same backend, whatever quota
healths are still to be synced. -/
theorem decide_candidatesFor (coll : Collation) (q : Request) (budget : BudgetState) (env : Env)
    (b : Backend) :
    Ensures (AgentRegistry.candidatesFor coll q.workOrder.agent.requiredCapabilities q.role
        q.excludes) env b
      (fun candidates _ =>
        Ensures (decide coll q.workOrder q.role q.excludeAgentIds budget
            q.mostRecentImplementerAgentId) env b
          (fun d _ => Documented q budget b.listed (q.inPool candidates) d) fun _ _ => False)
      fun _ _ => False := by
  refine (candidatesFor_spec coll q env b).mono ?_ fun _ _ h => h
  rintro candidates - ⟨hsorted, hnodup, hmem⟩
  refine (decide_correct coll q budget env b).mono (fun d _ hd => ?_) fun _ _ h => h
  have hsub : ((q.inPool candidates).map AgentRegistryEntry.agentId).Sublist
      (candidates.map AgentRegistryEntry.agentId) := List.filter_sublist.map _
  refine .of_correct hd b.listed_nodup (fun e => ?_) (hnodup.sublist hsub) (hsorted.sublist hsub)
  unfold Request.inPool
  rw [List.mem_filter, decide_eq_true_eq, hmem, q.eligible_iff, and_assoc]

end specs

end Scheduler

end AgentWorkflow
