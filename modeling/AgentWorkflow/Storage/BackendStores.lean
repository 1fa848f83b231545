import AgentWorkflow.Storage.Database
import Mathlib.Data.List.Sort
import Mathlib.Data.Rat.Floor

/-!
# The event log, the run store and the metrics store

The stores over the tables the queue and the budget do not depend on.

* `EventLog.append` — `SqliteEventLog.append`: its validation and its insert are one call, which
  either throws and writes nothing, or writes the event last.
* `RunStore` — `SqliteRunStore`: the row of a run, its status, and a patch of its other columns.
* `ArtifactStore` — the interface of the artifact store; the code that calls it relies on nothing
  more.
* `MetricsStore` — `SqliteMetricsStore`: outcomes by agent, and rolling figures over the latest.
-/

namespace AgentWorkflow

open Fallible

/-! ## Events -/

namespace EventLog

/-- Source: `event-log.ts` `append`. -/
def append (event : EventEnvelope) : BackendM Unit := do
  storageCall (.appendEvent event.eventType)
  modify fun b => { b with events := b.events ++ [event] }

/-- An event is appended, or the call throws. -/
theorem ensures_append_iff {event : EventEnvelope} {env : Env} {b : Backend}
    {Q : Unit → Backend → Prop} {E : Err → Backend → Prop} :
    Ensures (append event) env b Q E ↔
      (env.throws b.calls (.appendEvent event.eventType) = true →
        E (.error "SqliteError") { b with calls := b.calls + 1 }) ∧
      (env.throws b.calls (.appendEvent event.eventType) = false →
        Q () { b with calls := b.calls + 1, events := b.events ++ [event] }) := by
  simp only [append, ensures_bind, ensures_storageCall_iff, ensures_modify]

end EventLog

/-! ## Runs -/

namespace RunStore

/-- Source: `run-store.ts` `create`. -/
def create (record : RunRecord) : BackendM Unit := do
  storageCall .insertRun
  let b ← get
  match b.agentRuns.insert record with
  | some agentRuns => set { b with agentRuns }
  | none => throw (.error "UNIQUE constraint failed: agent_runs.id")

/-- Source: `run-store.ts` `get`. -/
def get (runId : String) : BackendM (Option RunRecord) := do
  storageCall .getRun
  let b ← MonadState.get
  pure (b.agentRuns.find? runId)

/-- `Partial<RunRecord>` without the fields an update refuses: no caller passes one of them. -/
structure Patch where
  workspacePath : Option String := none
  baseCommit : Option String := none
  branchName : Option String := none
  runManifestRef : Option String := none
  startedAt : Option ℕ := none
  endedAt : Option ℕ := none
  role : Option Role := none
  parentRunId : Option String := none
  handoffPacketUri : Option String := none

/-- The columns an update writes; an undefined field keeps what is there. -/
def Patch.apply (p : Patch) (status : RunStatus) (r : RunRecord) : RunRecord :=
  { r with
    status
    workspacePath := p.workspacePath <|> r.workspacePath
    baseCommit := p.baseCommit <|> r.baseCommit
    branchName := p.branchName <|> r.branchName
    runManifestRef := p.runManifestRef <|> r.runManifestRef
    startedAt := p.startedAt <|> r.startedAt
    endedAt := p.endedAt <|> r.endedAt
    role := p.role <|> r.role
    parentRunId := p.parentRunId <|> r.parentRunId
    handoffPacketUri := p.handoffPacketUri <|> r.handoffPacketUri }

/-- Source: `run-store.ts` `updateStatus`. -/
def updateStatus (runId : String) (status : RunStatus) (patch : Patch) : BackendM Unit := do
  let existing? ← get runId
  match existing? with
  | none => throw (.error ("Run not found: " ++ runId))
  | some _ => do
    storageCall .updateRun
    modify fun b =>
      { b with agentRuns := b.agentRuns.update runId (patch.apply status) fun _ => rfl }

end RunStore

/-! ## Artifacts -/

/-- The arguments of `artifactStore.saveText`. -/
structure SaveText where
  projectId : String
  taskId : String
  runId : String
  kind : ArtifactKind
  filename : String
  content : String
  summary : Option String

/-- The arguments of `artifactStore.saveFile`. -/
structure SaveFile where
  projectId : String
  taskId : String
  runId : String
  kind : ArtifactKind
  filename : String
  sourcePath : String
  summary : Option String

/-- The artifact store as its callers see it: a service over the files, which may return anything
and throw anything. Source: `artifact-store.ts` `ArtifactStore`. -/
structure ArtifactStore where
  saveText : SaveText → ServiceM ArtifactRef
  saveFile : SaveFile → ServiceM ArtifactRef
  readText : String → ServiceM String

/-! ## Metrics -/

namespace MetricsStore

/-- Source: `metrics-store.ts` `recordRunOutcome`. -/
def recordRunOutcome (agentId runId : String) (success : Bool) (wallTimeMs : ℚ)
    (actualCostUnits : Option ℚ) : BackendM Unit := do
  let createdAt ← dateNow
  storageCall .insertMetric
  let row : MetricRow := { agentId, runId, success, wallTimeMs, actualCostUnits, createdAt }
  modify fun b => { b with agentMetrics := b.agentMetrics ++ [row] }

/-- The latest rows of an agent. `order by created_at desc, id desc`: ids grow with the inserts. -/
def latestRows (rows : List MetricRow) (agentId : String) (windowSize : ℕ) : List MetricRow :=
  (((rows.filter fun r : MetricRow => r.agentId = agentId).reverse).insertionSort
    fun a b => b.createdAt ≤ a.createdAt).take windowSize

/-- What a rolling window shows. -/
structure Rolling where
  successRate : ℚ
  avgLatencyMs : ℚ
  avgActualCostUnits : ℚ
  runsObserved : ℕ

/-- `Math.round`: the nearest integer, halves upwards. -/
def mathRound (q : ℚ) : ℤ := ⌊q + 1 / 2⌋

/-- The figures over the rows of a window. -/
def rollingOf (rows : List MetricRow) : Rolling :=
  if rows.length = 0 then
    { successRate := 0, avgLatencyMs := 0, avgActualCostUnits := 0, runsObserved := 0 }
  else
    let costs := rows.filterMap MetricRow.actualCostUnits
    { successRate := ((rows.filter MetricRow.success).length : ℚ) / rows.length
      avgLatencyMs := mathRound (((rows.map MetricRow.wallTimeMs).sum : ℚ) / rows.length)
      avgActualCostUnits := if 0 < costs.length then costs.sum / costs.length else 0
      runsObserved := rows.length }

/-- Source: `metrics-store.ts` `rollingFor`. -/
def rollingFor (agentId : String) (windowSize : ℕ) : BackendM Rolling := do
  storageCall .rollingMetrics
  let b ← get
  pure (rollingOf (latestRows b.agentMetrics agentId windowSize))

end MetricsStore

end AgentWorkflow
