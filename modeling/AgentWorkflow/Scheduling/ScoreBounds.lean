import AgentWorkflow.Lib.Tail
import AgentWorkflow.Scheduling.RegistryPool
import Mathlib.Algebra.Order.Field.Basic
import Mathlib.Tactic.Linarith

/-!
# Bounds of the scores

What the numbers of `scheduling/scheduler.ts` and `storage/metrics-store.ts` can be, from the profiles
through the rolling metrics to the scores of a decision.

* `checkedDiv`, `rollingOf?`, `computeCostEfficiency?`, `computeLatencyScore?` — the functions that
  divide, with a division that fails on zero; `rollingOf?_eq`, …: **it never does**.
* `Rated` — an entry whose profile is valid and whose success rate is a rate; `Steady` is kept by
  every call of a registry.
* `recordedRows` — the metric rows a run writes; `rollingOf_latestRows`: what a window shows of them.
* **`scores_in_unit`** — over every run every component and every score of every decision is between
  zero and one, and a rolling window shows the latest outcomes of its agent and of nobody else.
-/

namespace AgentWorkflow

open Fallible

/-! ## Divisions -/

/-- A division that fails on zero. -/
def checkedDiv (a b : ℚ) : Option ℚ := if b = 0 then none else some (a / b)

theorem checkedDiv_of_ne {a b : ℚ} (hb : b ≠ 0) : checkedDiv a b = some (a / b) := if_neg hb

namespace MetricsStore

/-- `rollingOf` with checked divisions. -/
def rollingOf? (rows : List MetricRow) : Option Rolling :=
  if rows.length = 0 then
    some { successRate := 0, avgLatencyMs := 0, avgActualCostUnits := 0, runsObserved := 0 }
  else do
    let costs := rows.filterMap MetricRow.actualCostUnits
    let successRate ← checkedDiv (rows.filter MetricRow.success).length rows.length
    let avgLatencyMs ← checkedDiv (rows.map MetricRow.wallTimeMs).sum rows.length
    let avgActualCostUnits ← if 0 < costs.length then checkedDiv costs.sum costs.length else some 0
    some { successRate, avgLatencyMs := mathRound avgLatencyMs, avgActualCostUnits,
           runsObserved := rows.length }

theorem rollingOf?_eq (rows : List MetricRow) : rollingOf? rows = some (rollingOf rows) := by
  unfold rollingOf? rollingOf
  by_cases hrows : rows.length = 0
  · rw [if_pos hrows, if_pos hrows]
  · rw [if_neg hrows, if_neg hrows]
    have hne : (rows.length : ℚ) ≠ 0 := Nat.cast_ne_zero.mpr hrows
    simp only [checkedDiv_of_ne hne, Option.bind_eq_bind, Option.bind_some]
    by_cases hcosts : 0 < (rows.filterMap MetricRow.actualCostUnits).length
    · have hcosts' : ((rows.filterMap MetricRow.actualCostUnits).length : ℚ) ≠ 0 :=
        Nat.cast_ne_zero.mpr hcosts.ne'
      rw [if_pos hcosts, if_pos hcosts, checkedDiv_of_ne hcosts']
      rfl
    · rw [if_neg hcosts, if_neg hcosts]

end MetricsStore

namespace Scheduler

/-- `computeCostEfficiency` with a checked division. -/
def computeCostEfficiency? (entry : AgentRegistryEntry) (maxCostInPool : ℚ)
    (candidateCount : ℕ) : Option ℚ :=
  if candidateCount ≤ 1 then some 1
  else if maxCostInPool ≤ 0 then some 1
  else (checkedDiv (estimatedCost entry.profile) maxCostInPool).map fun q => clamp (1 - q) 0 1

/-- `computeLatencyScore` with a checked division. -/
def computeLatencyScore? (entry : AgentRegistryEntry) : Option ℚ :=
  if entry.rollingMetrics.avgLatencyMs ≤ 0 then some (1 / 2)
  else (checkedDiv entry.rollingMetrics.avgLatencyMs 600000).map fun q => clamp (1 - q) 0 1

theorem computeCostEfficiency?_eq (entry : AgentRegistryEntry) (maxCost : ℚ) (n : ℕ) :
    computeCostEfficiency? entry maxCost n = some (computeCostEfficiency entry maxCost n) := by
  unfold computeCostEfficiency? computeCostEfficiency
  by_cases hn : n ≤ 1
  · rw [if_pos hn, if_pos hn]
  · rw [if_neg hn, if_neg hn]
    by_cases hcost : maxCost ≤ 0
    · rw [if_pos hcost, if_pos hcost]
    · rw [if_neg hcost, if_neg hcost, checkedDiv_of_ne (not_le.mp hcost).ne', Option.map_some]

theorem computeLatencyScore?_eq (entry : AgentRegistryEntry) :
    computeLatencyScore? entry = some (computeLatencyScore entry) := by
  unfold computeLatencyScore? computeLatencyScore
  by_cases hlatency : entry.rollingMetrics.avgLatencyMs ≤ 0
  · rw [if_pos hlatency, if_pos hlatency]
  · rw [if_neg hlatency, if_neg hlatency, checkedDiv_of_ne (by norm_num), Option.map_some]

/-! ## The components of a score -/

/-- Between zero and one. -/
def InUnit (q : ℚ) : Prop := 0 ≤ q ∧ q ≤ 1

theorem inUnit_clamp (q : ℚ) : InUnit (clamp q 0 1) :=
  ⟨le_max_left _ _, max_le zero_le_one (min_le_left _ _)⟩

theorem inUnit_zero : InUnit 0 := ⟨le_rfl, zero_le_one⟩

theorem inUnit_one : InUnit 1 := ⟨zero_le_one, le_rfl⟩

theorem inUnit_costEfficiency (entry : AgentRegistryEntry) (maxCost : ℚ) (n : ℕ) :
    InUnit (computeCostEfficiency entry maxCost n) := by
  unfold computeCostEfficiency
  split
  · exact inUnit_one
  · split
    · exact inUnit_one
    · exact inUnit_clamp _

theorem inUnit_latencyScore (entry : AgentRegistryEntry) : InUnit (computeLatencyScore entry) := by
  unfold computeLatencyScore
  split
  · exact ⟨by norm_num, by norm_num⟩
  · exact inUnit_clamp _

theorem inUnit_quotaHealth (h : QuotaHealth) : InUnit (quotaHealthToScore h) := by
  cases h with
  | healthy => exact inUnit_one
  | low => exact ⟨by norm_num [quotaHealthToScore], by norm_num [quotaHealthToScore]⟩
  | exhausted => exact inUnit_zero

/-- Every component is between zero and one. -/
structure BreakdownInUnit (b : ScoreBreakdown) : Prop where
  capabilityMatch : InUnit b.capabilityMatch
  costEfficiency : InUnit b.costEfficiency
  quotaHealth : InUnit b.quotaHealth
  reliability : InUnit b.reliability
  latencyScore : InUnit b.latencyScore

/-- The weights add up to one. -/
theorem BreakdownInUnit.weighted {b : ScoreBreakdown} (h : BreakdownInUnit b) :
    InUnit (weighted b) := by
  obtain ⟨⟨hc, hc'⟩, ⟨he, he'⟩, ⟨hq, hq'⟩, ⟨hr, hr'⟩, ⟨hl, hl'⟩⟩ := h
  unfold Scheduler.weighted
  constructor <;> linarith

end Scheduler

/-! ## Rated entries -/

/-- What `AgentProfileV1Schema` checks of `reliability`. -/
structure AgentProfileV1.SchemaValid (profile : AgentProfileV1) : Prop where
  initialSuccessRate_min : 0 ≤ profile.initialSuccessRate
  initialSuccessRate_max : profile.initialSuccessRate ≤ 1
  initialAvgLatencyMs_positive : 0 < profile.initialAvgLatencyMs

/-- A valid profile with metrics whose success rate is a rate. -/
structure Rated (profile : AgentProfileV1) (metrics : RollingMetrics) : Prop where
  profile : profile.SchemaValid
  successRate : Scheduler.InUnit metrics.successRate

/-- The success rate of a window is a rate. -/
theorem inUnit_rollingOf (rows : List MetricRow) :
    Scheduler.InUnit (MetricsStore.rollingOf rows).successRate := by
  unfold MetricsStore.rollingOf
  split
  next => exact Scheduler.inUnit_zero
  next hrows =>
    have hpos : (0 : ℚ) < rows.length := Nat.cast_pos.mpr (Nat.pos_of_ne_zero hrows)
    have hle : ((rows.filter MetricRow.success).length : ℚ) ≤ rows.length :=
      Nat.cast_le.mpr (List.length_filter_le _ _)
    exact ⟨div_nonneg (Nat.cast_nonneg _) hpos.le, (div_le_one hpos).mpr hle⟩

theorem Rated.metricsOf {profile : AgentProfileV1} (hprofile : profile.SchemaValid)
    {stored : MetricsStore.Rolling} (hstored : Scheduler.InUnit stored.successRate) (now : ℕ) :
    Rated profile (AgentRegistry.metricsOf profile stored now) := by
  refine ⟨hprofile, ?_⟩
  unfold AgentRegistry.metricsOf
  split
  · exact hstored
  · exact ⟨hprofile.initialSuccessRate_min, hprofile.initialSuccessRate_max⟩

namespace Scheduler

variable {entry : AgentRegistryEntry} {a : CandidateAnalysis} {maxCost : ℚ} {n : ℕ}

theorem inUnit_reliability (h : Rated entry.profile entry.rollingMetrics) :
    InUnit (computeReliability entry) := by
  unfold computeReliability
  split
  · exact h.successRate
  · exact ⟨h.profile.initialSuccessRate_min, h.profile.initialSuccessRate_max⟩

theorem inUnit_capabilityMatch (b : Bool) : InUnit (if b then 1 else 0) := by
  cases b with
  | false => exact inUnit_zero
  | true => exact inUnit_one

theorem breakdownInUnit_scoreOf (h : Rated a.entry.profile a.entry.rollingMetrics) :
    BreakdownInUnit (scoreOf maxCost n a).breakdown where
  capabilityMatch := inUnit_capabilityMatch _
  costEfficiency := inUnit_costEfficiency _ _ _
  quotaHealth := inUnit_quotaHealth _
  reliability := inUnit_reliability h
  latencyScore := inUnit_latencyScore _

theorem breakdownInUnit_unscored (h : Rated a.entry.profile a.entry.rollingMetrics) :
    BreakdownInUnit (unscored a).breakdown where
  capabilityMatch := inUnit_capabilityMatch _
  costEfficiency := inUnit_zero
  quotaHealth := inUnit_quotaHealth _
  reliability := inUnit_reliability h
  latencyScore := inUnit_latencyScore _

/-- A candidate with its components and its score between zero and one. -/
structure CandidateInUnit (c : CandidateScore) : Prop where
  breakdown : BreakdownInUnit c.breakdown
  score : InUnit c.score

theorem candidateInUnit_unscored (h : Rated a.entry.profile a.entry.rollingMetrics) :
    CandidateInUnit (unscored a) := ⟨breakdownInUnit_unscored h, inUnit_zero⟩

/-- A candidate is scored, or listed without a score. -/
theorem candidateInUnit_candidateScore {scored : List Scored}
    (hscored : ∀ s ∈ scored, BreakdownInUnit s.breakdown ∧ s.score = weighted s.breakdown)
    (h : Rated a.entry.profile a.entry.rollingMetrics) :
    CandidateInUnit (candidateScore scored a) := by
  unfold candidateScore
  split
  next s hfind =>
    obtain ⟨hbreakdown, hscore⟩ := hscored s (List.mem_of_find?_eq_some hfind)
    exact ⟨hbreakdown, hscore ▸ hbreakdown.weighted⟩
  next => exact candidateInUnit_unscored h

/-- The agents of an analysis are the ones that were listed. -/
theorem rated_analyzeCandidates {coll : Collation} {entries : List AgentRegistryEntry}
    {caps excludes : List String} {role : Role} {pool : Option (List String)} {reason : String}
    (hentries : ∀ entry ∈ entries, Rated entry.profile entry.rollingMetrics)
    (ha : a ∈ analyzeCandidates coll entries caps role excludes pool reason) :
    Rated a.entry.profile a.entry.rollingMetrics := by
  obtain ⟨entry, hentry, rfl⟩ := mem_analyzeCandidates.mp ha
  exact hentries entry hentry

end Scheduler

/-! ## What the calls of a registry keep -/

/-- Every entry is rated. -/
def AllRated (registry : Table InternalEntry.agentId) : Prop :=
  ∀ e ∈ registry.rows, Rated e.profile e.rollingMetrics

section allRated

variable {registry : Table InternalEntry.agentId} {f : InternalEntry → InternalEntry}

theorem AllRated.mapRows (h : AllRated registry) (hf : ∀ e, (f e).agentId = e.agentId)
    (hrated : ∀ e, Rated e.profile e.rollingMetrics → Rated (f e).profile (f e).rollingMetrics) :
    AllRated (registry.mapRows f hf) := by
  intro e he
  obtain ⟨e', he', rfl⟩ := List.mem_map.mp he
  exact hrated e' (h e' he')

theorem AllRated.update {k : String} (h : AllRated registry)
    (hf : ∀ e, (f e).agentId = e.agentId)
    (hrated : ∀ e, Rated e.profile e.rollingMetrics → Rated (f e).profile (f e).rollingMetrics) :
    AllRated (registry.update k f hf) := by
  intro e he
  obtain ⟨e', he', rfl⟩ := List.mem_map.mp he
  split
  · exact hrated e' (h e' he')
  · exact h e' he'

theorem AllRated.insert {e : InternalEntry} (h : AllRated registry)
    (he : Rated e.profile e.rollingMetrics) : AllRated ((registry.insert e).getD registry) := by
  cases hinsert : registry.insert e with
  | none => exact h
  | some registry' =>
    intro e' he'
    rw [Option.getD_some, Table.insert_rows hinsert] at he'
    rcases List.mem_append.mp he' with he' | he'
    · exact h e' he'
    · rw [List.mem_singleton.mp he']
      exact he

/-- Syncing changes no metrics. -/
theorem rated_syncQuotaHealth (shared : List (String × QuotaHealth)) (e : InternalEntry)
    (h : Rated e.profile e.rollingMetrics) :
    Rated (AgentRegistry.syncQuotaHealth shared e).profile
      (AgentRegistry.syncQuotaHealth shared e).rollingMetrics := by
  unfold AgentRegistry.syncQuotaHealth
  split <;> exact h

end allRated

/-- The metric rows are these, the readings have gone on, and every entry is rated. -/
structure Steady (rows : List MetricRow) (n : ℕ) (b : Backend) : Prop where
  agentMetrics : b.agentMetrics = rows
  calls : n ≤ b.calls
  rated : AllRated b.registry

namespace Steady

variable {rows : List MetricRow} {n : ℕ} {b : Backend} {options : AgentRegistry.Options}
  {agentId runId : String}

theorem tick (h : Steady rows n b) : Steady rows n { b with calls := b.calls + 1 } :=
  ⟨h.agentMetrics, h.calls.trans (Nat.le_succ _), h.rated⟩

theorem maintains_dateNow : Maintains (Steady rows n) dateNow fun _ => True :=
  fun _ _ hb => ⟨trivial, hb.tick⟩

theorem maintains_uuid8 : Maintains (Steady rows n) uuid8 fun _ => True :=
  fun _ _ hb => ⟨trivial, hb.tick⟩

theorem maintains_storageCall {k : StorageCall} :
    Maintains (Steady rows n) (storageCall k) fun _ => True := fun _ _ hb =>
  ensures_storageCall_iff.mpr ⟨fun _ => hb.tick, fun _ => ⟨trivial, hb.tick⟩⟩

theorem maintains_append {e : EventEnvelope} :
    Maintains (Steady rows n) (EventLog.append e) fun _ => True :=
  .bind maintains_storageCall fun _ _ =>
    .modify fun _ hb => ⟨hb.agentMetrics, hb.calls, hb.rated⟩

/-- Every listed agent is rated. -/
theorem maintains_list : Maintains (Steady rows n) AgentRegistry.list fun entries =>
    ∀ entry ∈ entries, Rated entry.profile entry.rollingMetrics := by
  intro env b hb
  simp only [AgentRegistry.list, ensures_bind, ensures_get, ensures_set, ensures_pure]
  have hrated := hb.rated.mapRows (AgentRegistry.agentId_syncQuotaHealth b.sharedQuotaHealth)
    (rated_syncQuotaHealth b.sharedQuotaHealth)
  refine ⟨fun entry hentry => ?_, ⟨hb.agentMetrics, hb.calls, hrated⟩⟩
  obtain ⟨e, he, rfl⟩ := List.mem_map.mp hentry
  exact hrated e he

theorem maintains_get : Maintains (Steady rows n) (AgentRegistry.get agentId) fun _ => True := by
  intro env b hb
  simp only [AgentRegistry.get, ensures_bind, ensures_get, ensures_set, ensures_pure]
  exact ⟨trivial, hb.agentMetrics, hb.calls,
    hb.rated.update (AgentRegistry.agentId_syncQuotaHealth _) (rated_syncQuotaHealth _)⟩

theorem maintains_setQuotaHealth {health : QuotaHealth} :
    Maintains (Steady rows n) (AgentRegistry.setQuotaHealth agentId health) fun _ => True :=
  .modify fun _ hb => ⟨hb.agentMetrics, hb.calls,
    hb.rated.update (f := fun e => { e with quotaHealth := health }) (fun _ => rfl) fun _ h => h⟩

theorem maintains_refreshQuotaHealth :
    Maintains (Steady rows n) AgentRegistry.refreshQuotaHealth fun _ => True :=
  .modify fun _ hb =>
    ⟨hb.agentMetrics, hb.calls,
      hb.rated.mapRows (AgentRegistry.agentId_syncQuotaHealth _) (rated_syncQuotaHealth _)⟩

theorem maintains_candidatesFor {coll : Collation} {caps excludes : List String} {role : Role} :
    Maintains (Steady rows n) (AgentRegistry.candidatesFor coll caps role excludes)
      fun _ => True :=
  .bind maintains_refreshQuotaHealth fun _ _ => .bind (.get fun _ _ => trivial) fun _ _ =>
    .pure trivial

/-- What a rolling window shows is a rate. -/
theorem maintains_rollingFor {windowSize : ℕ} :
    Maintains (Steady rows n) (MetricsStore.rollingFor agentId windowSize) fun stored =>
      Scheduler.InUnit stored.successRate :=
  .bind maintains_storageCall fun _ _ => .bind (.get fun _ _ => trivial) fun _ _ =>
    .pure (inUnit_rollingOf _)

theorem maintains_refreshEntryMetrics :
    Maintains (Steady rows n) (AgentRegistry.refreshEntryMetrics options agentId)
      fun _ => True := by
  refine .bind maintains_rollingFor fun stored hstored => ?_
  refine .bind maintains_dateNow fun lastUpdatedAt _ => .modify fun b hb => ?_
  exact ⟨hb.agentMetrics, hb.calls, hb.rated.update
    (f := fun e =>
      { e with rollingMetrics := AgentRegistry.metricsOf e.profile stored lastUpdatedAt })
    (fun _ => rfl) fun e he => Rated.metricsOf he.profile hstored lastUpdatedAt⟩

/-- A valid profile is loaded as a rated entry. -/
theorem maintains_loadFile {filePath : String} {profile : AgentProfileV1}
    (hprofile : profile.SchemaValid) :
    Maintains (Steady rows n) (AgentRegistry.loadFile options filePath profile)
      fun _ => True := by
  refine .bind (.get fun _ _ => trivial) fun b _ => ?_
  split
  · exact .throw
  · refine .bind maintains_rollingFor fun stored hstored => ?_
    refine .bind maintains_dateNow fun lastUpdatedAt _ => .modify fun b hb => ?_
    exact ⟨hb.agentMetrics, hb.calls,
      hb.rated.insert (Rated.metricsOf hprofile hstored lastUpdatedAt)⟩

theorem maintains_applyProviderFailure {reason : RunFailedReason} :
    Maintains (Steady rows n)
      (AgentRegistry.applyProviderFailure options agentId reason runId) fun _ => True := by
  have hemit : ∀ {eventType : EventType}, Maintains (Steady rows n)
      (AgentRegistry.emitAgentQuotaEvent options eventType agentId reason runId) fun _ => True :=
    .ite (fun _ => .bind maintains_uuid8 fun _ _ => .bind maintains_dateNow fun _ _ =>
      maintains_append) fun _ => .pure trivial
  have hhealth : Maintains (Steady rows n) (AgentRegistry.syncedQuotaHealth agentId)
      fun _ => True := .bind maintains_get fun _ _ => .pure trivial
  unfold AgentRegistry.applyProviderFailure
  split
  · exact .bind hhealth fun _ _ => .ite (fun _ => .pure trivial) fun _ =>
      .bind maintains_setQuotaHealth fun _ _ => hemit
  · exact .bind hhealth fun _ _ => .ite (fun _ => .pure trivial) fun _ =>
      .bind maintains_setQuotaHealth fun _ _ => hemit
  · exact .bind hhealth fun _ _ => .ite (fun _ => .pure trivial) fun _ =>
      .bind maintains_setQuotaHealth fun _ _ => hemit
  · exact .pure trivial

/-- What `recordOutcome` does once the row is written. -/
theorem maintains_afterOutcome {success : Bool} {failureReason : Option RunFailedReason} :
    Maintains (Steady rows n) (do
      AgentRegistry.refreshEntryMetrics options agentId
      match failureReason with
      | some reason =>
        if success = true then pure ()
        else AgentRegistry.applyProviderFailure options agentId reason runId
      | none => pure ()) fun _ => True := by
  refine .bind maintains_refreshEntryMetrics fun _ _ => ?_
  split
  · exact .ite (fun _ => .pure trivial) fun _ => maintains_applyProviderFailure
  · exact .pure trivial

/-- **Every candidate of a decision has its components and its score between zero and one.** -/
theorem maintains_decide {coll : Collation} {workOrder : ParsedWorkOrderV1} {role : Role}
    {excludeAgentIds : List String} {budget : BudgetState} {implementer : Option String} :
    Maintains (Steady rows n)
      (Scheduler.decide coll workOrder role excludeAgentIds budget implementer)
      fun d => ∀ c ∈ d.candidateScores, Scheduler.CandidateInUnit c := by
  unfold Scheduler.decide
  refine .bind maintains_list fun entries hentries => ?_
  dsimp only
  split
  next reason _ =>
    refine .bind maintains_uuid8 fun _ _ => .bind maintains_dateNow fun _ _ => .pure ?_
    intro c hc
    obtain ⟨a, ha, rfl⟩ := List.mem_map.mp ((List.mem_insertionSort _).mp hc)
    exact Scheduler.candidateInUnit_unscored (Scheduler.rated_analyzeCandidates hentries ha)
  next =>
    split
    next => exact .throw
    next best _ =>
      refine .bind maintains_uuid8 fun _ _ => .bind maintains_dateNow fun _ _ => .pure ?_
      intro c hc
      obtain ⟨a, ha, rfl⟩ := List.mem_map.mp ((List.mem_insertionSort _).mp hc)
      refine Scheduler.candidateInUnit_candidateScore (fun s hs => ?_)
        (Scheduler.rated_analyzeCandidates hentries ha)
      obtain ⟨a', ha', rfl⟩ := List.mem_map.mp ((List.mem_insertionSort _).mp hs)
      exact ⟨Scheduler.breakdownInUnit_scoreOf
        (Scheduler.rated_analyzeCandidates hentries (List.mem_filter.mp ha').1), rfl⟩

end Steady

/-! ## Calls -/

/-- The profiles a call loads are valid. -/
def RegistryCall.SchemaValid : RegistryCall → Prop
  | .loadFile _ profile => profile.SchemaValid
  | _ => True

/-- The metric row a call writes: an outcome of an agent the registry knows, when its insert does not
throw. -/
def RegistryCall.newRows (env : Env) (b : Backend) : RegistryCall → List MetricRow
  | .recordOutcome agentId runId success wallTimeMs actualCostUnits _ =>
    if (b.registry.find? agentId).isSome = true ∧ env.throws (b.calls + 1) .insertMetric = false then
      [{ agentId, runId, success, wallTimeMs, actualCostUnits, createdAt := env.clock b.calls }]
    else []
  | _ => []

section calls

variable {env : Env} {b : Backend} {options : AgentRegistry.Options}

/-- An outcome is written, and the entry of its agent refreshed. -/
theorem steady_recordOutcome {agentId runId : String} {success : Bool} {wallTimeMs : ℚ}
    {actualCostUnits : Option ℚ} {failureReason : Option RunFailedReason}
    (hb : AllRated b.registry) :
    Ensures (AgentRegistry.recordOutcome options agentId runId success wallTimeMs actualCostUnits
        failureReason) env b
      (fun _ => Steady (b.agentMetrics ++ (RegistryCall.recordOutcome agentId runId success
        wallTimeMs actualCostUnits failureReason).newRows env b) b.calls)
      fun _ => Steady (b.agentMetrics ++ (RegistryCall.recordOutcome agentId runId success
        wallTimeMs actualCostUnits failureReason).newRows env b) b.calls := by
  have hquiet : Steady (b.agentMetrics ++ []) b.calls b :=
    ⟨(List.append_nil _).symm, le_rfl, hb⟩
  unfold AgentRegistry.recordOutcome
  simp only [RegistryCall.newRows]
  rw [ensures_bind, ensures_get]
  cases hfind : b.registry.find? agentId with
  | none =>
    rw [if_neg (by simp)]
    exact hquiet
  | some e =>
    dsimp only
    rw [ensures_bind, MetricsStore.recordRunOutcome, ensures_bind, ensures_dateNow, ensures_bind,
      ensures_storageCall_iff]
    refine ⟨fun hthrows => ?_, fun hthrows => ?_⟩
    · rw [if_neg (by simp [hthrows])]
      exact hquiet.tick.tick
    · rw [if_pos ⟨rfl, hthrows⟩, ensures_modify]
      refine (Steady.maintains_afterOutcome env _ ?_).mono (fun _ _ h => h.2) fun _ _ h => h
      exact ⟨rfl, (Nat.le_succ _).trans (Nat.le_succ _), hb⟩

/-- A call that keeps the rows writes none. -/
theorem steady_of_maintains {m : BackendM Unit} {rows : List MetricRow}
    (hm : Maintains (Steady b.agentMetrics b.calls) m fun _ => True) (hb : AllRated b.registry)
    (hrows : rows = []) :
    Ensures m env b (fun _ => Steady (b.agentMetrics ++ rows) b.calls)
      fun _ => Steady (b.agentMetrics ++ rows) b.calls := by
  rw [hrows, List.append_nil]
  exact (hm env b ⟨rfl, le_rfl, hb⟩).mono (fun _ _ h => h.2) fun _ _ h => h

/-- **What a call leaves**, also when it throws. -/
theorem RegistryCall.steady_run {call : RegistryCall} (hvalid : call.SchemaValid)
    (hb : AllRated b.registry) :
    Ensures (call.run options) env b
      (fun _ => Steady (b.agentMetrics ++ call.newRows env b) b.calls)
      fun _ => Steady (b.agentMetrics ++ call.newRows env b) b.calls := by
  cases call with
  | loadFile filePath profile => exact steady_of_maintains (Steady.maintains_loadFile hvalid) hb rfl
  | list =>
    exact steady_of_maintains (.bind Steady.maintains_list fun _ _ => .pure trivial) hb rfl
  | get agentId =>
    exact steady_of_maintains (.bind Steady.maintains_get fun _ _ => .pure trivial) hb rfl
  | candidatesFor coll caps role excludes =>
    exact steady_of_maintains (.bind Steady.maintains_candidatesFor fun _ _ => .pure trivial) hb rfl
  | refreshQuotaHealth => exact steady_of_maintains Steady.maintains_refreshQuotaHealth hb rfl
  | recordOutcome agentId runId success wallTimeMs cost reason => exact steady_recordOutcome hb
  | decide coll workOrder role excludes budget implementer =>
    exact steady_of_maintains (.bind Steady.maintains_decide fun _ _ => .pure trivial) hb rfl

end calls

/-! ## Rolling windows -/

/-- The outcomes of an agent, oldest first. -/
def outcomesOf (rows : List MetricRow) (agentId : String) : List Bool :=
  (rows.filter fun r : MetricRow => r.agentId = agentId).map MetricRow.success

/-- **A window over rows in the order of their times shows the latest outcomes of the agent.** -/
theorem rollingOf_latestRows {rows : List MetricRow}
    (hrows : rows.Pairwise fun r r' => r.createdAt ≤ r'.createdAt) (agentId : String)
    (windowSize : ℕ) :
    let own := outcomesOf rows agentId
    let k := min own.length windowSize
    let stored := MetricsStore.rollingOf (MetricsStore.latestRows rows agentId windowSize)
    stored.runsObserved = k ∧
      stored.successRate = ((own.drop (own.length - k)).count true : ℚ) / k := by
  intro own k stored
  obtain ⟨mine, hmine⟩ : ∃ mine, mine = rows.filter fun r : MetricRow => r.agentId = agentId :=
    ⟨_, rfl⟩
  have hlength : own.length = mine.length := by
    rw [hmine]
    exact List.length_map _
  have hsorted : mine.reverse.Pairwise fun r r' => r'.createdAt ≤ r.createdAt := by
    rw [hmine, List.pairwise_reverse]
    exact hrows.filter _
  have hlatest : MetricsStore.latestRows rows agentId windowSize = mine.reverse.take windowSize := by
    rw [MetricsStore.latestRows, ← hmine, hsorted.insertionSort_eq]
  have hcount : (mine.reverse.take windowSize).length = k := by
    rw [List.length_take, List.length_reverse, min_comm, ← hlength]
  have hsuccess : ((mine.reverse.take windowSize).filter MetricRow.success).length =
      (own.drop (own.length - k)).count true := by
    have hk : own.length - k = mine.length - windowSize := by
      rw [← hlength]
      omega
    have hdrop : own.drop (mine.length - windowSize) =
        (mine.rtake windowSize).map MetricRow.success := by
      rw [List.rtake, List.map_drop, hmine]
      rfl
    rw [hk, hdrop, ← List.reverse_reverse (mine.reverse.take windowSize),
      ← List.rtake_eq_reverse_take_reverse, List.filter_reverse, List.length_reverse,
      List.count, List.countP_map, ← List.countP_eq_length_filter]
    exact List.countP_congr fun r _ => by simp
  have hrolling : stored.runsObserved = (mine.reverse.take windowSize).length ∧
      stored.successRate = (((mine.reverse.take windowSize).filter MetricRow.success).length : ℚ) /
        (mine.reverse.take windowSize).length := by
    show (MetricsStore.rollingOf (MetricsStore.latestRows rows agentId windowSize)).runsObserved = _ ∧
      (MetricsStore.rollingOf (MetricsStore.latestRows rows agentId windowSize)).successRate = _
    rw [hlatest]
    unfold MetricsStore.rollingOf
    split
    next hnil => simp [hnil]
    next => exact ⟨rfl, rfl⟩
  rw [hrolling.1, hrolling.2, hsuccess, hcount]
  exact ⟨rfl, rfl⟩

/-! ## Every sequence of calls -/

namespace RegistryPool

variable {options : String → AgentRegistry.Options} {s₀ s s' : RegistryPool} {l : RegistryLabel}
  {ls : List RegistryLabel} {clock : ℕ → ℕ} {rows : List MetricRow}

/-- The metric rows a run writes, call by call. -/
def recordedRows (options : String → AgentRegistry.Options) :
    RegistryPool → List RegistryLabel → List MetricRow
  | _, [] => []
  | s, l :: ls => l.call.newRows l.env (s.load l.owner) ++ recordedRows options (s.step options l) ls

/-- Nothing is loaded, and the metric rows of earlier runs are in the order of their times. -/
structure Started (clock : ℕ → ℕ) (s : RegistryPool) : Prop where
  registry : ∀ owner, s.registry owner = Table.empty
  sorted : s.backend.agentMetrics.Pairwise fun r r' => r.createdAt ≤ r'.createdAt
  past : ∀ r ∈ s.backend.agentMetrics, r.createdAt ≤ clock s.backend.calls

/-- The rows are these, in the order of their times, and every entry of every registry is rated. -/
structure Observed (clock : ℕ → ℕ) (rows : List MetricRow) (s : RegistryPool) : Prop where
  agentMetrics : s.backend.agentMetrics = rows
  sorted : rows.Pairwise fun r r' => r.createdAt ≤ r'.createdAt
  past : ∀ r ∈ rows, r.createdAt ≤ clock s.backend.calls
  rated : ∀ owner, AllRated (s.registry owner)

theorem observed_started (h₀ : s₀.Started clock) : s₀.Observed clock s₀.backend.agentMetrics := by
  refine ⟨rfl, h₀.sorted, h₀.past, fun owner e he => ?_⟩
  rw [h₀.registry] at he
  cases he

/-- A row a call writes has the time of the call. -/
theorem createdAt_of_mem_newRows {call : RegistryCall} {env : Env} {b : Backend} {r : MetricRow}
    (hr : r ∈ call.newRows env b) : r.createdAt = env.clock b.calls := by
  cases call with
  | recordOutcome agentId runId success wallTimeMs cost reason =>
    simp only [RegistryCall.newRows] at hr
    split at hr
    · rw [List.mem_singleton.mp hr]
    · cases hr
  | _ => cases hr

theorem pairwise_newRows (call : RegistryCall) (env : Env) (b : Backend) :
    (call.newRows env b).Pairwise fun r r' => r.createdAt ≤ r'.createdAt :=
  List.pairwise_of_forall_mem_list fun _ hr _ hr' =>
    ((createdAt_of_mem_newRows hr).trans (createdAt_of_mem_newRows hr').symm).le

/-- **What a step leaves.** -/
theorem observed_step (hclock : Monotone clock) (h : s.Observed clock rows)
    (henv : l.env.clock = clock) (hvalid : l.call.SchemaValid) :
    (s.step options l).Observed clock (rows ++ l.call.newRows l.env (s.load l.owner)) := by
  have hcall : Ensures (l.call.run (options l.owner)) l.env (s.load l.owner)
      (fun _ => Steady (s.backend.agentMetrics ++ l.call.newRows l.env (s.load l.owner))
        s.backend.calls)
      fun _ => Steady (s.backend.agentMetrics ++ l.call.newRows l.env (s.load l.owner))
        s.backend.calls := RegistryCall.steady_run hvalid (h.rated l.owner)
  have hstore : ∀ b, Steady (s.backend.agentMetrics ++ l.call.newRows l.env (s.load l.owner))
      s.backend.calls b →
      (s.store l.owner b).Observed clock (rows ++ l.call.newRows l.env (s.load l.owner)) := by
    intro b hb
    have hle : clock s.backend.calls ≤ clock b.calls := hclock hb.calls
    have hnew : ∀ r ∈ l.call.newRows l.env (s.load l.owner),
        r.createdAt = clock s.backend.calls := by
      intro r hr
      rw [createdAt_of_mem_newRows hr, henv]
      rfl
    refine ⟨?_, ?_, ?_, ?_⟩
    · rw [← h.agentMetrics]
      exact hb.agentMetrics
    · refine List.pairwise_append.mpr ⟨h.sorted, pairwise_newRows _ _ _, fun r hr r' hr' => ?_⟩
      rw [hnew r' hr']
      exact h.past r hr
    · intro r hr
      rcases List.mem_append.mp hr with hr | hr
      · exact (h.past r hr).trans hle
      · exact (hnew r hr).le.trans hle
    · intro owner
      show AllRated (Function.update s.registry l.owner b.registry owner)
      rw [Function.update_apply]
      split
      · exact hb.rated
      · exact h.rated owner
  unfold step
  cases hrun : l.call.run (options l.owner) l.env (s.load l.owner) with
  | ok u b => exact hstore b (hcall.of_ok hrun)
  | error e b => exact hstore b (hcall.of_error hrun)

/-- **What a run leaves**: the rows its calls have written, after the ones from before. -/
theorem observed_run (hclock : Monotone clock) (h : Run (Step options) s ls s')
    (hs : s.Observed clock rows)
    (hls : ∀ l ∈ ls, l.env.clock = clock ∧ l.call.SchemaValid) :
    s'.Observed clock (rows ++ recordedRows options s ls) := by
  induction h generalizing rows with
  | nil s =>
    rw [recordedRows, List.append_nil]
    exact hs
  | @cons s t u l ls hstep _ ih =>
    obtain ⟨henv, hvalid⟩ := hls l List.mem_cons_self
    have hnext := ih (hstep ▸ observed_step hclock hs henv hvalid)
      fun l' hl' => hls l' (List.mem_cons_of_mem _ hl')
    rw [recordedRows, ← List.append_assoc, hstep]
    exact hnext

/-- **Over every run of calls with valid profiles and a clock that does not go back**: no division
is by zero; every component and every score of every decision of every registry is between zero and
one; and a rolling window shows of an agent the share of successes among its latest outcomes, whatever
was recorded of others in between. -/
theorem scores_in_unit (hclock : Monotone clock) (h₀ : s₀.Started clock)
    (h : Run (Step options) s₀ ls s)
    (hls : ∀ l ∈ ls, l.env.clock = clock ∧ l.call.SchemaValid) :
    ((∀ rows, MetricsStore.rollingOf? rows = some (MetricsStore.rollingOf rows)) ∧
      (∀ entry maxCost n, Scheduler.computeCostEfficiency? entry maxCost n =
        some (Scheduler.computeCostEfficiency entry maxCost n)) ∧
      ∀ entry, Scheduler.computeLatencyScore? entry =
        some (Scheduler.computeLatencyScore entry)) ∧
    (∀ owner env coll workOrder role excludeAgentIds budget implementer,
      Ensures (Scheduler.decide coll workOrder role excludeAgentIds budget implementer) env
        (s.load owner) (fun d _ => ∀ c ∈ d.candidateScores, Scheduler.CandidateInUnit c)
        fun _ _ => True) ∧
    ∀ agentId windowSize env,
      let own := outcomesOf (s₀.backend.agentMetrics ++ recordedRows options s₀ ls) agentId
      let k := min own.length windowSize
      Ensures (MetricsStore.rollingFor agentId windowSize) env s.backend
        (fun stored _ => stored.runsObserved = k ∧
          stored.successRate = ((own.drop (own.length - k)).count true : ℚ) / k)
        fun _ _ => True := by
  have hobserved := observed_run hclock h (observed_started h₀) hls
  refine ⟨⟨MetricsStore.rollingOf?_eq, Scheduler.computeCostEfficiency?_eq,
    Scheduler.computeLatencyScore?_eq⟩, ?_, ?_⟩
  · intro owner env coll workOrder role excludeAgentIds budget implementer
    have hsteady : Steady s.backend.agentMetrics s.backend.calls (s.load owner) :=
      ⟨rfl, le_rfl, hobserved.rated owner⟩
    exact (Steady.maintains_decide env _ hsteady).mono (fun _ _ hd => hd.1) fun _ _ _ => trivial
  · intro agentId windowSize env own k
    rw [MetricsStore.rollingFor, ensures_bind, ensures_storageCall_iff]
    refine ⟨fun _ => trivial, fun _ => ?_⟩
    simp only [ensures_bind, ensures_get, ensures_pure]
    rw [hobserved.agentMetrics]
    exact rollingOf_latestRows hobserved.sorted agentId windowSize

/-- A profile the schema accepts. -/
def ratedProfile : AgentProfileV1 := { profile with initialAvgLatencyMs := 60000 }

theorem ratedProfile_valid : ratedProfile.SchemaValid :=
  ⟨by decide +kernel, by decide +kernel, by decide +kernel⟩

/-- An agent is loaded and has a success and a failure. -/
def twoOutcomes : List RegistryLabel :=
  [⟨"w1", .loadFile "/agents/alice.json" ratedProfile, Sample.env⟩,
    ⟨"w1", .recordOutcome "alice" "R-1" true 10 none none, Sample.env⟩,
    ⟨"w1", .recordOutcome "alice" "R-2" false 12 none none, Sample.env⟩]

theorem started_fresh : fresh.Started Sample.env.clock := by
  refine ⟨fun _ => rfl, by decide, ?_⟩
  intro r hr
  cases hr

theorem twoOutcomes_valid :
    ∀ l ∈ twoOutcomes, l.env.clock = Sample.env.clock ∧ l.call.SchemaValid := by
  intro l hl
  simp only [twoOutcomes, List.mem_cons, List.not_mem_nil, or_false] at hl
  rcases hl with rfl | rfl | rfl
  · exact ⟨rfl, ratedProfile_valid⟩
  · exact ⟨rfl, trivial⟩
  · exact ⟨rfl, trivial⟩

theorem scores_in_unit_two : ∃ s, Run (Step fun _ => {}) fresh twoOutcomes s ∧
    (∀ owner env coll workOrder role excludeAgentIds budget implementer,
      Ensures (Scheduler.decide coll workOrder role excludeAgentIds budget implementer) env
        (s.load owner) (fun d _ => ∀ c ∈ d.candidateScores, Scheduler.CandidateInUnit c)
        fun _ _ => True) ∧
    ∀ env, Ensures (MetricsStore.rollingFor "alice" 50) env s.backend
      (fun stored _ => stored.runsObserved = 2) fun _ _ => True := by
  have hclock : Monotone Sample.env.clock := fun _ _ h => Nat.add_le_add_left h _
  have hrun : Run (Step fun _ => {}) fresh twoOutcomes
      (twoOutcomes.foldl (step fun _ => {}) fresh) := Run.foldl_iff.mpr rfl
  have hspec := scores_in_unit hclock started_fresh hrun twoOutcomes_valid
  refine ⟨_, hrun, hspec.2.1, fun env => ?_⟩
  have hown : outcomesOf (fresh.backend.agentMetrics ++
      recordedRows (fun _ => {}) fresh twoOutcomes) "alice" = [true, false] := by
    decide +kernel
  refine (hspec.2.2 "alice" 50 env).mono (fun stored _ h => ?_) fun _ _ _ => trivial
  rw [h.1, hown]
  rfl

end RegistryPool

end AgentWorkflow
