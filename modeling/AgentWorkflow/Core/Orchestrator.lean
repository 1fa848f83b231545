import AgentWorkflow.Adapters.ChildProcess
import AgentWorkflow.Core.OrchestratorV1
import AgentWorkflow.Core.Schemas

/-!
# A run without a queue

`runWorkOrderWithServices` of `core/orchestrator.ts`: a work order of the first version is run at
once, by one agent, over a database that is opened for this run and closed after it.

* `LocalState` — the tables such a run writes, and whether its database is open. The run store is
  the one of the second version (`inBackend`); `task.created` and `agent_usage` are written only
  here.
* `prepareRun`, `publishOutputs`, `insertUsage`, `verify`, `finishRun` — the parts of the `try`.
* `failRun` — the `catch`: **the row and the event are each a best effort, and the exception goes
  on**.
* `withDatabase` — the `finally`.
-/

namespace AgentWorkflow

open Fallible OrchestratorV1

namespace Orchestrator

/-! ## The state -/

/-- The event types of such a run. Source: `events.ts` `V0EventType`, without `run.cleaned_up`. -/
inductive LocalEventType
  | taskCreated
  | runCreated
  | runStarted
  | artifactPublished
  | verificationStarted
  | verificationPassed
  | verificationFailed
  | runCompleted
  | runFailed
  deriving DecidableEq, Repr

/-- The literal of an event type. -/
def LocalEventType.text : LocalEventType → String
  | .taskCreated => "task.created"
  | .runCreated => "run.created"
  | .runStarted => "run.started"
  | .artifactPublished => "artifact.published"
  | .verificationStarted => "verification.started"
  | .verificationPassed => "verification.passed"
  | .verificationFailed => "verification.failed"
  | .runCompleted => "run.completed"
  | .runFailed => "run.failed"

/-- An event, as `makeEvent` builds it. Source: `types.ts` `EventEnvelope`. -/
structure LocalEvent where
  eventId : String
  eventType : LocalEventType
  projectId : String
  taskId : String
  runId : String
  agentId : String
  payload : List (String × Json)
  createdAt : ℕ

/-- A row of `agent_usage`. -/
structure UsageRow where
  id : String
  projectId : String
  taskId : String
  runId : String
  agentId : String
  wallTimeMs : ℤ
  exitCode : Option ℤ
  timedOut : Bool
  stdoutBytes : ℕ
  stderrBytes : ℕ
  createdAt : ℕ
  deriving DecidableEq, Repr

/-- The state of a run. -/
structure LocalState where
  /-- Readings and storage calls so far. -/
  calls : ℕ
  /-- `task_events`, oldest first. -/
  events : List LocalEvent
  agentRuns : Table RunRecord.id
  /-- `agent_usage`, oldest first. -/
  agentUsage : List UsageRow
  files : Files
  /-- The handle of the database is open. -/
  isOpen : Bool

/-- The calls that no store of the second version makes. -/
inductive LocalCall
  | append (eventType : LocalEventType)
  | insertUsage
  | close
  deriving DecidableEq, Repr

/-- The surroundings of a run. -/
structure LocalEnv extends Env where
  /-- Whether such a call throws. -/
  fails : ℕ → LocalCall → Bool

/-- Programs of a run. -/
abbrev LocalM := Prog LocalEnv Err LocalState

/-- What the run store sees. -/
def LocalState.backend (s : LocalState) : Backend where
  calls := s.calls
  events := []
  agentRuns := s.agentRuns
  agentMetrics := []
  files := s.files
  sharedQuotaHealth := []
  registry := Table.empty
  emitted := []

/-- What the run store changes. -/
def LocalState.putBackend (b : Backend) (s : LocalState) : LocalState :=
  { s with calls := b.calls, agentRuns := b.agentRuns, files := b.files }

/-- A program of the run store, or of a service. -/
def inBackend {α : Type} (m : BackendM α) : LocalM α := fun env =>
  zoom LocalState.backend LocalState.putBackend m env.toEnv

/-- A call that may throw, and then changes nothing. -/
def localCall (c : LocalCall) : LocalM Unit := do
  let n ← inBackend nextCall
  let env ← read
  if env.fails n c = true then throw (Err.error "SqliteError") else pure ()

/-- Source: `orchestrator.ts` `makeEvent`, and `append` in `runWorkOrderWithServices`. -/
def append (ids : RunIds) (eventType : LocalEventType) (payload : List (String × Json)) :
    LocalM Unit := do
  let id ← inBackend uuid8
  let createdAt ← inBackend dateNow
  localCall (.append eventType)
  modify fun s =>
    { s with
      events := s.events ++
        [{ eventId := "E-" ++ id, eventType, projectId := ids.projectId, taskId := ids.taskId,
           runId := ids.runId, agentId := ids.agentId, payload, createdAt }] }

/-! ## The services -/

/-- Source: `types.ts` `RunManifest`. -/
structure RunManifest where
  runId : String
  taskId : String
  projectId : String
  agentId : String
  workspaceUri : String
  baseCommit : String
  branch : String
  workOrderHash : String
  adapterVersion : String
  startedAt : ℕ
  status : RunStatus

/-- The arguments of `capsuleWriter.write`. -/
structure WriteCapsule where
  workspacePath : String
  workOrder : ParsedWorkOrder
  runManifest : RunManifest

/-- Source: `orchestrator.ts` `OrchestratorServices`, without the event log and the run store, and
the functions of `fs` a run calls. -/
structure OrchestratorServices (isRegExp : String → Bool) where
  platform : Platform
  artifactStore : ArtifactStore
  prepareWorkspace : PrepareWorkspace → ServiceM PreparedWorktree
  diff : (workspacePath : String) → ServiceM String
  writeCapsule : WriteCapsule → ServiceM TaskCapsuleWriteResult
  runAdapter : AdapterCall isRegExp → ServiceM AdapterResult
  runVerifier : RunVerification → ServiceM VerificationResult
  /-- `fs.existsSync`. -/
  existsSync : String → ServiceM Bool
  /-- `fs.readFileSync`. -/
  readFileSync : String → ServiceM String

/-- How a run that returns has ended. -/
inductive FinalStatus
  | succeeded
  | failed
  deriving DecidableEq, Repr

/-- The status of its row. -/
def FinalStatus.toRunStatus : FinalStatus → RunStatus
  | .succeeded => .succeeded
  | .failed => .failed

/-- Source: `orchestrator.ts` `RunWorkOrderResult`. -/
structure RunWorkOrderResult where
  projectId : String
  taskId : String
  runId : String
  status : FinalStatus
  workspacePath : String
  artifacts : List ArtifactRef
  verificationPassed : Bool
  deriving DecidableEq, Repr

/-! ## The parts of a run -/

section parts

variable {isRegExp : String → Bool} (services : OrchestratorServices isRegExp)
  (wo : ParsedWorkOrder) (profile : ParsedAgentProfile) (ids : RunIds)

/-- The row a run begins with. -/
def newRun : RunRecord where
  id := ids.runId
  projectId := ids.projectId
  taskId := ids.taskId
  agentId := ids.agentId
  status := .preparing
  workspacePath := none
  baseCommit := none
  branchName := none
  runManifestRef := none
  startedAt := none
  endedAt := none
  role := none
  parentRunId := none
  handoffPacketUri := none

/-- The manifest of a run. -/
def buildManifest (worktree : PreparedWorktree) (startedAt : ℕ) : RunManifest where
  runId := ids.runId
  taskId := ids.taskId
  projectId := ids.projectId
  agentId := ids.agentId
  workspaceUri := "file://" ++ worktree.workspacePath
  baseCommit := worktree.baseCommit
  branch := worktree.branchName
  workOrderHash := "sha256:" ++
    services.platform.sha256hex (services.platform.stringify (WorkOrderSchema.encode wo))
  adapterVersion := "0.1.0"
  startedAt := startedAt
  status := .preparing

/-- An artifact is pushed and its event appended. -/
def publish (artifact : ArtifactRef) : LocalM ArtifactRef := do
  append ids .artifactPublished
    [("artifact", .obj [("uri", .str artifact.uri), ("kind", .str artifact.kind.text)])]
  pure artifact

/-- Save a text and publish it. -/
def saveText (kind : ArtifactKind) (filename content summary : String) : LocalM ArtifactRef := do
  let artifact ← inBackend (onFiles (services.artifactStore.saveText
    (textOf ids kind filename content summary)))
  publish ids artifact

/-- Save a file and publish it. -/
def saveFile (kind : ArtifactKind) (sourcePath filename summary : String) :
    LocalM ArtifactRef := do
  let artifact ← inBackend (onFiles (services.artifactStore.saveFile
    { projectId := ids.projectId, taskId := ids.taskId, runId := ids.runId, kind, filename,
      sourcePath, summary := some summary }))
  publish ids artifact

/-- What a run has before its agent is started. -/
structure Prepared where
  worktree : PreparedWorktree
  capsule : TaskCapsuleWriteResult
  manifestArtifact : ArtifactRef

/-- Steps 1 to 9: the task, the row, the workspace and its capsule, and the run set to running. -/
def prepareRun (startedAt : ℕ) : LocalM Prepared := do
  append ids .taskCreated [("task_id", .str ids.taskId)]
  inBackend (RunStore.create (newRun ids))
  append ids .runCreated []
  let worktree ← inBackend (onFiles (services.prepareWorkspace
    { repoPath := wo.1.repo.path, baseRef := wo.1.repo.baseRef, taskId := ids.taskId,
      runId := ids.runId }))
  let capsule ← inBackend (onFiles (services.writeCapsule
    { workspacePath := worktree.workspacePath, workOrder := wo,
      runManifest := buildManifest services wo ids worktree startedAt }))
  let manifestArtifact ← saveFile services ids .taskCapsule capsule.runManifestPath
    "run_manifest.json" "Run manifest"
  inBackend (RunStore.updateStatus ids.runId .running
    { workspacePath := some worktree.workspacePath
      baseCommit := some worktree.baseCommit
      branchName := some worktree.branchName
      runManifestRef := some manifestArtifact.uri
      startedAt := some startedAt })
  append ids .runStarted
    [("pid", .null),
      ("command", .str (profile.1.command.executable ++ " " ++
        String.intercalate " " profile.1.command.args)),
      ("workspace_path", .str worktree.workspacePath), ("started_at", .num startedAt)]
  pure ⟨worktree, capsule, manifestArtifact⟩

/-- `timeoutMinutes ? timeoutMinutes * 60 : profile.limits?.timeout_seconds`. -/
def timeoutSeconds : Option ℚ :=
  let ofProfile := (profile.1.limits.bind ProfileLimits.timeoutSeconds).map Nat.cast
  match wo.1.budget.bind BudgetV0.maxWallTimeMinutes with
  | some minutes => if minutes = 0 then ofProfile else some (minutes * 60)
  | none => ofProfile

/-- Step 10: the agent. -/
def runAgent (prepared : Prepared) : LocalM AdapterResult :=
  inBackend (onFiles (services.runAdapter
    { agentProfile := .inl profile, workspacePath := prepared.worktree.workspacePath,
      promptFile := prepared.capsule.promptPath, timeoutSeconds := timeoutSeconds wo profile }))

/-- The final report of an agent that has written one. -/
def publishFinalReport (workspacePath : String) : LocalM (List ArtifactRef) := do
  let finalReportPath :=
    services.platform.pathJoin [workspacePath, ".agent-workflow", "final_report.md"]
  let found ← inBackend (onFiles (services.existsSync finalReportPath))
  if found = true then do
    let reportContent ← inBackend (onFiles (services.readFileSync finalReportPath))
    if hasText reportContent = true then do
      let artifact ← saveFile services ids .finalReport finalReportPath "final_report.md"
        "Agent final report"
      pure [artifact]
    else pure []
  else pure []

/-- The text of the `task-capsule.txt` artifact. -/
def capsuleText (capsule : TaskCapsuleWriteResult) : String :=
  "Task capsule at: " ++ capsule.capsulePath ++ "\nWork order: " ++ capsule.workOrderPath ++
    "\nRun manifest: " ++ capsule.runManifestPath ++ "\nPrompt: " ++ capsule.promptPath

/-- Step 11: what the agent has left. -/
def publishOutputs (prepared : Prepared) (agentResult : AdapterResult) :
    LocalM (List ArtifactRef) := do
  let stdout ← saveText services ids .stdoutTail "stdout.txt" (orEmpty agentResult.stdoutTail)
    (toString agentResult.stdoutBytes ++ " bytes")
  let stderr ← saveText services ids .stderrTail "stderr.txt" (orEmpty agentResult.stderrTail)
    (toString agentResult.stderrBytes ++ " bytes")
  let diffContent ← inBackend (onFiles (services.diff prepared.worktree.workspacePath))
  let diff ← saveText services ids .diff "diff.patch" diffContent
    (if diffContent = "" then "Git diff of agent changes (empty)" else "Git diff of agent changes")
  let report ← publishFinalReport services ids prepared.worktree.workspacePath
  let capsule ← saveText services ids .taskCapsule "task-capsule.txt"
    (capsuleText prepared.capsule) "Task capsule location"
  pure (stdout :: stderr :: diff :: report ++ [capsule])

/-- Step 12: the row of the agent's figures. -/
def insertUsage (agentResult : AdapterResult) : LocalM Unit := do
  let id ← inBackend uuid8
  let createdAt ← inBackend dateNow
  localCall .insertUsage
  modify fun s =>
    { s with
      agentUsage := s.agentUsage ++
        [{ id := "E-" ++ id, projectId := ids.projectId, taskId := ids.taskId, runId := ids.runId,
           agentId := ids.agentId, wallTimeMs := agentResult.wallTimeMs,
           exitCode := agentResult.exitCode, timedOut := agentResult.timedOut,
           stdoutBytes := agentResult.stdoutBytes, stderrBytes := agentResult.stderrBytes,
           createdAt }] }

/-- `r.exitCode !== 0 || r.timedOut`. -/
def commandFailed (r : CommandResult) : Bool := decide (r.exitCode ≠ some 0) || r.timedOut

/-- The payload of a verdict of the verification. -/
def verdictPayload (result : VerificationResult) (outputRef : String) : List (String × Json) :=
  if result.passed = true then [("result", .str "passed"), ("output_ref", .str outputRef)]
  else [("result", .str "failed"), ("output_ref", .str outputRef),
    ("failed_count", .num (result.commandResults.countP commandFailed))]

/-- Step 13: the verification; without commands it has passed. -/
def verify (workspacePath : String) : LocalM (Bool × List ArtifactRef) :=
  match wo.1.verification with
  | none => pure (true, [])
  | some verification =>
    if verification.commands = [] then pure (true, [])
    else do
      append ids .verificationStarted
        [("commands", (Codec.array Codec.string).encode verification.commands)]
      let result ← inBackend (onFiles (services.runVerifier
        { workspacePath, commands := verification.commands,
          timeoutSeconds := verification.timeoutSeconds }))
      let artifact ← saveText services ids .verificationOutput "verification.txt"
        (verificationOutput result)
        (if result.passed = true then "All passed" else "Verification failed")
      append ids (if result.passed = true then .verificationPassed else .verificationFailed)
        (verdictPayload result artifact.uri)
      pure (result.passed, [artifact])

/-- The status of a run. -/
def finalStatus (agentResult : AdapterResult) (verificationPassed : Bool) : FinalStatus :=
  if agentResult.exitCode = some 0 ∧ agentResult.timedOut = false ∧ verificationPassed = true then
    .succeeded
  else .failed

/-- Why a run has failed. -/
def failureReason (agentResult : AdapterResult) : RunFailedReason :=
  if agentResult.timedOut = true then .agentTimedOut
  else if agentResult.exitCode ≠ some 0 then .agentNonzeroExit
  else .verificationFailed

/-- Step 14: the row first, then the event. -/
def finishRun (agentResult : AdapterResult) (verificationPassed : Bool) : LocalM FinalStatus :=
  match finalStatus agentResult verificationPassed with
  | .succeeded => do
    let endedAt ← inBackend dateNow
    inBackend (RunStore.updateStatus ids.runId .succeeded { endedAt := some endedAt })
    append ids .runCompleted []
    pure .succeeded
  | .failed => do
    let endedAt ← inBackend dateNow
    inBackend (RunStore.updateStatus ids.runId .failed { endedAt := some endedAt })
    append ids .runFailed [("reason", .str (failureReason agentResult).text)]
    pure .failed

/-- The `try`. -/
def attemptRun (startedAt : ℕ) : LocalM RunWorkOrderResult := do
  let prepared ← prepareRun services wo profile ids startedAt
  let agentResult ← runAgent services wo profile prepared
  let outputs ← publishOutputs services ids prepared agentResult
  insertUsage ids agentResult
  let (verificationPassed, verification) ←
    verify services wo ids prepared.worktree.workspacePath
  let status ← finishRun ids agentResult verificationPassed
  pure { projectId := ids.projectId, taskId := ids.taskId, runId := ids.runId, status,
         workspacePath := prepared.worktree.workspacePath,
         artifacts := prepared.manifestArtifact :: outputs ++ verification, verificationPassed }

end parts

/-- `err instanceof Error ? err.message : String(err)`. -/
def errorMessage : Err → String
  | .aborted => "Operation aborted."
  | .error message => message

/-- A program whose exception is dropped. -/
def bestEffort (m : LocalM Unit) : LocalM Unit := tryCatch m fun _ => pure ()

/-- The `catch`. -/
def failRun (ids : RunIds) (err : Err) : LocalM Unit := do
  bestEffort do
    let endedAt ← inBackend dateNow
    inBackend (RunStore.updateStatus ids.runId .failed { endedAt := some endedAt })
  bestEffort (append ids .runFailed
    [("reason", .str RunFailedReason.internalError.text), ("error", .str (errorMessage err))])

/-- `db.close()`. -/
def closeDatabase : LocalM Unit := do
  localCall .close
  modify fun s => { s with isOpen := false }

/-- The `finally`: the database is closed, whatever has happened. -/
def withDatabase {α : Type} (m : LocalM α) : LocalM α := do
  let outcome ← tryCatch (Except.ok <$> m) fun err => pure (.error err)
  bestEffort closeDatabase
  match outcome with
  | .ok a => pure a
  | .error err => throw err

/-- Source: `orchestrator.ts` `runWorkOrderWithServices`. -/
def runWorkOrderWithServices {isRegExp : String → Bool}
    (services : OrchestratorServices isRegExp) (wo : ParsedWorkOrder)
    (profile : ParsedAgentProfile) : LocalM RunWorkOrderResult := do
  let id ← inBackend uuid8
  let ids : RunIds := ⟨wo.1.projectId, wo.1.taskId, "R-" ++ id, profile.1.agentId⟩
  let startedAt ← inBackend dateNow
  withDatabase (tryCatch (attemptRun services wo profile ids startedAt) fun err => do
    failRun ids err
    throw err)

end Orchestrator

end AgentWorkflow
