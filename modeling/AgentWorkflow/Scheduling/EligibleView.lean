import AgentWorkflow.Queue.Worker
import AgentWorkflow.Scheduling.Decision

/-!
# A decision sees the eligible agents only

Two registries whose eligible agents are the same for a request: the same profiles, metrics and
quota healths, loaded in whatever order, from wherever, and among whatever other agents.

* `AgentRegistryEntry.view` — what a decision sees of an agent: not the file it was loaded from and
  not when its metrics were refreshed.
* `eligible_perm` — the views of the eligible agents of the two registries are a permutation of
  each other, as neither registry lists an agent twice.
* `breakdownAmong_congr` — so an agent scores the same among them.
* **`decide_eligible_only`** — the two decisions pick the same agent, and list every eligible agent
  once, with the same score and breakdown.
-/

namespace AgentWorkflow

open Fallible

/-- What a decision sees of an agent. -/
structure AgentView where
  profile : AgentProfileV1
  rollingMetrics : RollingMetrics
  quotaHealth : QuotaHealth
  deriving DecidableEq

/-- The view of a listed agent, whenever its metrics were refreshed. -/
def AgentRegistryEntry.view (e : AgentRegistryEntry) : AgentView where
  profile := e.profile
  rollingMetrics := { e.rollingMetrics with lastUpdatedAt := 0 }
  quotaHealth := e.quotaHealth

/-- How a decision lists the agents with an id. -/
def ScheduleDecision.scoresOf (d : ScheduleDecision) (agentId : String) :
    List (ℚ × ScoreBreakdown) :=
  (d.candidateScores.filter fun s => s.agentId = agentId).map fun s => (s.score, s.breakdown)

namespace Scheduler

/-- Two backends whose eligible agents look the same. -/
def SameEligible (q : Request) (b b' : Backend) : Prop :=
  ∀ v, (∃ e ∈ b.listed, q.Eligible e ∧ e.view = v) ↔ ∃ e ∈ b'.listed, q.Eligible e ∧ e.view = v

section views

variable {e e' : AgentRegistryEntry}

theorem agentId_of_view (h : e.view = e'.view) : e.agentId = e'.agentId :=
  congrArg (fun v => v.profile.agentId) h

/-- The parts of a score are read off the view. -/
theorem breakdown_of_view (h : e.view = e'.view) (maxCost : ℚ) (candidateCount : ℕ) :
    breakdown maxCost candidateCount e = breakdown maxCost candidateCount e' := by
  have hprofile : e.profile = e'.profile := congrArg AgentView.profile h
  have hhealth : e.quotaHealth = e'.quotaHealth := congrArg AgentView.quotaHealth h
  have hlatency : e.rollingMetrics.avgLatencyMs = e'.rollingMetrics.avgLatencyMs :=
    congrArg (fun v => v.rollingMetrics.avgLatencyMs) h
  have hruns : e.rollingMetrics.runsObserved = e'.rollingMetrics.runsObserved :=
    congrArg (fun v => v.rollingMetrics.runsObserved) h
  have hsuccess : e.rollingMetrics.successRate = e'.rollingMetrics.successRate :=
    congrArg (fun v => v.rollingMetrics.successRate) h
  unfold breakdown computeCostEfficiency computeReliability computeLatencyScore
  rw [hprofile, hhealth, hlatency, hruns, hsuccess]

end views

section two

variable {coll : Collation} {q : Request} {budget : BudgetState} {b b' : Backend}

theorem SameEligible.symm (h : SameEligible q b b') : SameEligible q b' b := fun v => (h v).symm

/-- An eligible agent of one registry is seen in the other. -/
theorem SameEligible.exists (h : SameEligible q b b') {e : AgentRegistryEntry}
    (he : e ∈ b.listed) (heligible : q.Eligible e) :
    ∃ e' ∈ b'.listed, q.Eligible e' ∧ e'.view = e.view :=
  (h e.view).mp ⟨e, he, heligible, rfl⟩

/-- The eligible agents of a registry look different. -/
theorem nodup_eligible (q : Request) (b : Backend) :
    ((q.eligible b.listed).map AgentRegistryEntry.view).Nodup := by
  have hids : ((q.eligible b.listed).map AgentRegistryEntry.agentId).Nodup :=
    b.listed_nodup.sublist (List.filter_sublist.map _)
  rw [List.Nodup, List.pairwise_map] at hids ⊢
  exact hids.imp fun hne hview => hne (agentId_of_view hview)

/-- **The views of the eligible agents are a permutation of each other.** -/
theorem eligible_perm (h : SameEligible q b b') :
    ((q.eligible b.listed).map AgentRegistryEntry.view).Perm
      ((q.eligible b'.listed).map AgentRegistryEntry.view) := by
  refine (List.perm_ext_iff_of_nodup (nodup_eligible q b) (nodup_eligible q b')).mpr fun v => ?_
  simp only [List.mem_map, Request.mem_eligible, and_assoc]
  exact h v

theorem SameEligible.of_perm (h : ((q.eligible b.listed).map AgentRegistryEntry.view).Perm
    ((q.eligible b'.listed).map AgentRegistryEntry.view)) : SameEligible q b b' := by
  intro v
  have hmem := h.mem_iff (a := v)
  simp only [List.mem_map, Request.mem_eligible, and_assoc] at hmem
  exact hmem

/-- **An agent scores the same among both.** -/
theorem breakdownAmong_congr (h : SameEligible q b b') {e e' : AgentRegistryEntry}
    (hview : e.view = e'.view) :
    breakdownAmong (q.eligible b.listed) e = breakdownAmong (q.eligible b'.listed) e' := by
  have hperm := eligible_perm h
  have hlength : (q.eligible b.listed).length = (q.eligible b'.listed).length := by
    simpa only [List.length_map] using hperm.length_eq
  have hcost : highestCost (q.eligible b.listed) = highestCost (q.eligible b'.listed) := by
    have hviews := Selection.highest_perm 0 (fun v : AgentView => estimatedCost v.profile) hperm
    unfold Selection.highest at hviews
    rw [List.map_map, List.map_map] at hviews
    exact hviews
  unfold breakdownAmong
  rw [hlength, hcost]
  exact breakdown_of_view hview _ _

theorem scoreAmong_congr (h : SameEligible q b b') {e e' : AgentRegistryEntry}
    (hview : e.view = e'.view) :
    scoreAmong (q.eligible b.listed) e = scoreAmong (q.eligible b'.listed) e' :=
  congrArg weighted (breakdownAmong_congr h hview)

/-- The agent to pick of one registry looks like the one of the other. -/
theorem Pick.congr (h : SameEligible q b b') {e e' : AgentRegistryEntry}
    (hpick : Pick coll q b.listed e) (hpick' : Pick coll q b'.listed e') :
    e.agentId = e'.agentId := by
  obtain ⟨e₂, he₂, heligible₂, hview⟩ := h.exists hpick.mem.1 hpick.mem.2
  have hpick₂ : Pick coll q b'.listed e₂ :=
    hpick.of_view AgentRegistryEntry.view ⟨he₂, heligible₂⟩ hview.symm
      (fun c hc => (h.symm.exists hc.1 hc.2).imp fun _ ⟨hd, hdc⟩ => ⟨⟨hd, hdc.1⟩, hdc.2⟩)
      (fun _ _ hcd => scoreAmong_congr h hcd) fun _ _ hcd => agentId_of_view hcd
  exact (agentId_of_view hview).symm.trans (hpick₂.key_eq coll.antisymm hpick')

/-- A correct decision lists an eligible agent once. -/
theorem Correct.scoresOf_eq {entries : List AgentRegistryEntry} {d : ScheduleDecision}
    (h : Correct coll q budget entries d)
    (hnodup : (entries.map AgentRegistryEntry.agentId).Nodup) {e : AgentRegistryEntry}
    (he : e ∈ entries) (heligible : q.Eligible e) :
    d.scoresOf e.agentId =
      [if d.pickedAgentId.isSome = true then
        (scoreAmong (q.eligible entries) e, breakdownAmong (q.eligible entries) e)
      else (0, { breakdownAmong (q.eligible entries) e with costEfficiency := 0 })] := by
  have hids : (d.candidateScores.map CandidateScore.agentId).Nodup :=
    h.listed.nodup_iff.mpr hnodup
  obtain ⟨s, hs, hid⟩ := List.mem_map.mp
    (h.listed.mem_iff.mpr (List.mem_map_of_mem (f := AgentRegistryEntry.agentId) he))
  unfold ScheduleDecision.scoresOf
  rw [← hid, Selection.filter_key_eq hids hs, List.map_singleton]
  split
  next hsome =>
    obtain ⟨hscore, hbreakdown⟩ := h.scores hsome s hs e he hid.symm heligible
    rw [hscore, hbreakdown]
  next hnone =>
    rw [Option.not_isSome_iff_eq_none] at hnone
    obtain ⟨hscore, hbreakdown⟩ := h.uncompared hnone s hs e he hid.symm heligible
    rw [hscore, hbreakdown]

/-- What two decisions over the same eligible agents have in common. -/
structure AgreeOn (q : Request) (b : Backend) (d d' : ScheduleDecision) : Prop where
  /-- They pick the same agent, or none. -/
  picked : d.pickedAgentId = d'.pickedAgentId
  /-- Each lists every eligible agent once, with the same score and breakdown. -/
  scores : ∀ e ∈ b.listed, q.Eligible e →
    ∃ s, d.scoresOf e.agentId = [s] ∧ d'.scoresOf e.agentId = [s]

/-- Correct decisions over the same eligible agents agree. -/
theorem AgreeOn.of_correct {d d' : ScheduleDecision} (h : SameEligible q b b')
    (hd : Correct coll q budget b.listed d) (hd' : Correct coll q budget b'.listed d') :
    AgreeOn q b d d' := by
  have hsome : d.pickedAgentId.isSome = true ↔ d'.pickedAgentId.isSome = true := by
    rw [hd.picks_iff, hd'.picks_iff]
    refine and_congr_right fun _ => ⟨?_, ?_⟩
    · rintro ⟨e, he, heligible⟩
      exact (h.exists he heligible).imp fun _ he' => ⟨he'.1, he'.2.1⟩
    · rintro ⟨e, he, heligible⟩
      exact (h.symm.exists he heligible).imp fun _ he' => ⟨he'.1, he'.2.1⟩
  refine ⟨?_, fun e he heligible => ?_⟩
  · cases hpicked : d.pickedAgentId with
    | none =>
      rw [hpicked, Option.isSome_none] at hsome
      exact (Option.not_isSome_iff_eq_none.mp fun hsome' => by cases hsome.mpr hsome').symm
    | some id =>
      rw [hpicked, Option.isSome_some] at hsome
      obtain ⟨id', hpicked'⟩ := Option.isSome_iff_exists.mp (hsome.mp rfl)
      obtain ⟨-, e, hpick, rfl⟩ := hd.picked id hpicked
      obtain ⟨-, e', hpick', rfl⟩ := hd'.picked id' hpicked'
      rw [hpicked', hpick.congr h hpick']
  · obtain ⟨e', he', heligible', hview⟩ := h.exists he heligible
    have hscores := hd.scoresOf_eq b.listed_nodup he heligible
    have hscores' := hd'.scoresOf_eq b'.listed_nodup he' heligible'
    rw [agentId_of_view hview, ← breakdownAmong_congr h hview.symm,
      ← scoreAmong_congr h hview.symm, ← ite_congr (propext hsome) (fun _ => rfl) fun _ => rfl]
      at hscores'
    exact ⟨_, hscores, hscores'⟩

/-- **A decision sees the eligible agents only**: over two registries with the same eligible
agents the decisions agree, whenever and under whatever clock they are made. -/
theorem decide_eligible_only (coll : Collation) (q : Request) (budget : BudgetState)
    (env env' : Env) (b b' : Backend) (h : SameEligible q b b') :
    Ensures (decide coll q.workOrder q.role q.excludeAgentIds budget
        q.mostRecentImplementerAgentId) env b
      (fun d _ =>
        Ensures (decide coll q.workOrder q.role q.excludeAgentIds budget
            q.mostRecentImplementerAgentId) env' b'
          (fun d' _ => AgreeOn q b d d') fun _ _ => False)
      fun _ _ => False :=
  (decide_correct coll q budget env b).mono
    (fun _ _ hd => (decide_correct coll q budget env' b').mono
      (fun _ _ hd' => .of_correct h hd hd') fun _ _ h => h)
    fun _ _ h => h

end two

end Scheduler

namespace Sample

theorem nodup_implementers :
    ((registry.rows.take 2).reverse.map InternalEntry.agentId).Nodup := by decide

/-- The implementers of the small system in another order, without the reviewer. -/
def implementers : Table InternalEntry.agentId :=
  ⟨(registry.rows.take 2).reverse, nodup_implementers⟩

/-- A backend with a registry. -/
def backendWith (registry : Table InternalEntry.agentId)
    (sharedQuotaHealth : List (String × QuotaHealth)) : Backend :=
  ⟨0, [], Table.empty, [], Files.empty, sharedQuotaHealth, registry, []⟩

/-- A budget nothing was spent of. -/
def unspent : BudgetState := BudgetState.fresh workOrder.taskId (BudgetManager.capsOf workOrder)

/-- Who implements the small task. -/
def implementerRequest : Scheduler.Request := ⟨workOrder, .implementer, [], none⟩

theorem sameEligible : Scheduler.SameEligible implementerRequest (backendWith registry [])
    (backendWith implementers [("rita", .exhausted)]) :=
  .of_perm (by decide +kernel)

end Sample

theorem Scheduler.decide_eligible_only_reordered :
    Ensures (Scheduler.decide Sample.coll Sample.workOrder .implementer [] Sample.unspent none)
        Sample.env (Sample.backendWith Sample.registry [])
      (fun d _ =>
        Ensures (Scheduler.decide Sample.coll Sample.workOrder .implementer [] Sample.unspent none)
            Sample.env (Sample.backendWith Sample.implementers [("rita", .exhausted)])
          (fun d' _ => Scheduler.AgreeOn Sample.implementerRequest
            (Sample.backendWith Sample.registry []) d d') fun _ _ => False)
      fun _ _ => False :=
  Scheduler.decide_eligible_only Sample.coll Sample.implementerRequest Sample.unspent Sample.env
    Sample.env _ _ Sample.sameEligible

end AgentWorkflow
