import AgentWorkflow.Core.RunServices

/-!
# One run of an agent

`runTaskOnce` of `core/orchestrator-v1.ts`: the run row, the workspace, the agent, what it leaves, and
the outcome.

* `createRunContext` — the row of the run and its workspace. `RunContextCreationFailure` is its
  `Except` result: only `runTaskOnce` catches it.
* `runImplementer` — everything in one `try`. What has been published so far outlives an exception,
  so the part inside runs over the artifacts too (`AttemptM`).
* `runReviewer` — **the diff is applied before the `try` begins**, and so are the artifacts of a
  refused diff saved (`applyReviewDiff`).
* `finishRun`, `cancelInterruptedRun` — the two ways a row ends.
-/

namespace AgentWorkflow

open Fallible

namespace OrchestratorV1

/-- The ids every event and artifact of a run carries. -/
structure RunIds where
  projectId : String
  taskId : String
  runId : String
  agentId : String

/-- Source: `orchestrator-v1.ts` `RunContext`. -/
structure RunContext where
  ids : RunIds
  role : Role
  startedAt : ℕ
  worktree : PreparedWorktree
  manifest : RunManifestV1
  runManifestRef : String

/-- What an implementer has published so far. Source: `orchestrator-v1.ts` `PublishedArtifacts`. -/
structure PublishedArtifacts where
  stdout : Option ArtifactRef := none
  stderr : Option ArtifactRef := none
  diff : Option ArtifactRef := none
  finalReport : Option ArtifactRef := none
  verification : Option ArtifactRef := none

/-- The details of a `RunContextCreationFailure`. -/
structure RunContextCreationFailure where
  runId : String
  taskId : String
  projectId : String
  role : Role

/-! ## Events and artifacts -/

/-- Source: `orchestrator-v1.ts` `makeEvent`, `appendEvent`. -/
def appendEvent (ids : RunIds) (eventType : EventType) (payload : List (String × Json)) :
    BackendM Unit := do
  let id ← uuid8
  let createdAt ← dateNow
  EventLog.append
    { eventId := "E-" ++ id, eventType, projectId := ids.projectId, taskId := some ids.taskId,
      runId := some ids.runId, agentId := some ids.agentId, skipOnReplay := false, payload,
      createdAt }

/-- Source: `orchestrator-v1.ts` `publishArtifact`. -/
def publishArtifact (ids : RunIds) (artifact : ArtifactRef) : BackendM ArtifactRef := do
  appendEvent ids .artifactPublished
    [("artifact", .obj [("uri", .str artifact.uri), ("kind", .str artifact.kind.text)])]
  pure artifact

variable (services : V1RunTaskServices)

/-- The arguments `saveTextArtifact` calls the store with. -/
def textOf (ids : RunIds) (kind : ArtifactKind) (filename content summary : String) :
    SaveText where
  projectId := ids.projectId
  taskId := ids.taskId
  runId := ids.runId
  kind := kind
  filename := filename
  content := content
  summary := some summary

/-- Source: `orchestrator-v1.ts` `saveTextArtifact`. -/
def saveTextArtifact (ids : RunIds) (kind : ArtifactKind) (filename content summary : String) :
    BackendM ArtifactRef := do
  let artifact ← onFiles (services.artifactStore.saveText
    (textOf ids kind filename content summary))
  publishArtifact ids artifact

/-- Source: `orchestrator-v1.ts` `saveFileArtifact`. -/
def saveFileArtifact (ids : RunIds) (kind : ArtifactKind) (filename sourcePath summary : String) :
    BackendM ArtifactRef := do
  let artifact ← onFiles (services.artifactStore.saveFile
    { projectId := ids.projectId, taskId := ids.taskId, runId := ids.runId, kind, filename,
      sourcePath, summary := some summary })
  publishArtifact ids artifact

/-- Source: `orchestrator-v1.ts` `emitAgentSpawned`. -/
def emitAgentSpawned (ids : RunIds) : BackendM Unit :=
  appendEvent ids .agentSpawned
    [("pid", .num 0), ("credential_profile_alias", .str "unknown")]

/-! ## Edges -/

/-- Where a `task.edge_selected` event leads. -/
inductive EdgeTo
  | reviewing
  | accepted
  | requeued
  | awaitingHuman
  deriving DecidableEq, Repr

/-- The literal of an edge's end. -/
def EdgeTo.text : EdgeTo → String
  | .reviewing => "reviewing"
  | .accepted => "accepted"
  | .requeued => "requeued"
  | .awaitingHuman => "awaiting_human"

/-- Append a `task.edge_selected` event. -/
def selectEdge (ids : RunIds) (source : String) (edge : EdgeTo) (reason : String) :
    BackendM Unit :=
  appendEvent ids .taskEdgeSelected
    [("from", .str source), ("to", .str edge.text), ("reason", .str reason)]

/-- The edge of a verified implementation. -/
def implementerEdge (workOrder : ParsedWorkOrderV1) : EdgeTo :=
  if workOrder.review.enabled = true then .reviewing else .accepted

/-- Source: `orchestrator-v1.ts` `edgeTo`. -/
def verdictEdge : Verdict → EdgeTo
  | .approved => .accepted
  | .changesRequested => .requeued
  | .rejected => .awaitingHuman

/-! ## The row of a run -/

/-- The manifest as JSON. -/
def manifestJson (m : RunManifestV1) : Json :=
  .obj ([("schema_version", .str "agent-workflow/1"), ("run_id", .str m.runId),
    ("task_id", .str m.taskId), ("project_id", .str m.projectId), ("agent_id", .str m.agentId),
    ("integration_mode", .str "official_cli"), ("role", .str m.role.text),
    ("workspace_uri", .str m.workspaceUri), ("base_commit", .str m.baseCommit),
    ("branch", .str m.branch), ("work_order_hash", .str m.workOrderHash),
    ("adapter_version", .str m.adapterVersion)] ++
    writeOptional Codec.string "parent_run_id" m.parentRunId ++
    writeOptional Codec.string "handoff_packet_uri" m.handoffPacketUri ++
    [("started_at", .num m.startedAt), ("ended_at", .null), ("status", .str m.status.text)])

/-- Source: `orchestrator-v1.ts` `buildRunManifest`. -/
def buildRunManifest (args : RunTaskArgs) (runId : String) (worktree : PreparedWorktree)
    (startedAt : ℕ) : RunManifestV1 where
  runId := runId
  taskId := args.workOrder.taskId
  projectId := args.workOrder.projectId
  agentId := args.agentProfile.agentId
  role := args.entry.nextRole
  workspaceUri := "file://" ++ worktree.workspacePath
  baseCommit := worktree.baseCommit
  branch := worktree.branchName
  workOrderHash :=
    "sha256:" ++ services.platform.sha256hex (services.platform.stringify args.workOrder.toJson)
  adapterVersion := "0.1.0"
  parentRunId := args.parentRunId
  handoffPacketUri := args.handoffPacketUri
  startedAt := startedAt
  status := .preparing

/-- The text of the manifest's artifact. -/
def manifestText (m : RunManifestV1) : String :=
  services.platform.json.stringify (manifestJson m) ++ "\n"

/-- The summary of the manifest's artifact. -/
def manifestSummary : Role → String
  | .reviewer => "Reviewer run manifest"
  | .implementer => "Run manifest"

/-- The `try` of `createRunContext`: the workspace, the manifest, and the row set to `running`. -/
def prepareRun (args : RunTaskArgs) (ids : RunIds) (startedAt : ℕ) : BackendM RunContext := do
  let worktree ← onFiles (services.sandboxProvider.prepareWorkspace
    { repoPath := args.workOrder.repo.path, baseRef := args.workOrder.repo.baseRef,
      taskId := ids.taskId, runId := ids.runId })
  let manifest := buildRunManifest services args ids.runId worktree startedAt
  let manifestArtifact ← saveTextArtifact services ids .taskCapsule "run_manifest.json"
    (manifestText services manifest) (manifestSummary args.entry.nextRole)
  RunStore.updateStatus ids.runId .running
    { workspacePath := some worktree.workspacePath
      baseCommit := some worktree.baseCommit
      branchName := some worktree.branchName
      runManifestRef := some manifestArtifact.uri
      startedAt := some startedAt
      role := some args.entry.nextRole
      parentRunId := args.parentRunId
      handoffPacketUri := args.handoffPacketUri }
  appendEvent ids .runStarted
    [("workspace_path", .str worktree.workspacePath), ("started_at", .num startedAt)]
  pure { ids, role := args.entry.nextRole, startedAt, worktree, manifest,
         runManifestRef := manifestArtifact.uri }

/-- The `catch` of `createRunContext`: both writes are a best effort. -/
def failCreation (args : RunTaskArgs) (ids : RunIds) :
    BackendM (Except RunContextCreationFailure RunContext) := do
  let _ ← WorkerTaskHandler.attempt do
    let endedAt ← dateNow
    RunStore.updateStatus ids.runId .failed { endedAt := some endedAt }
  let _ ← WorkerTaskHandler.attempt
    (appendEvent ids .runFailed [("reason", .str RunFailedReason.internalError.text)])
  pure (.error ⟨ids.runId, ids.taskId, ids.projectId, args.entry.nextRole⟩)

/-- The ids of a run of these arguments. -/
def runIds (args : RunTaskArgs) (runId : String) : RunIds where
  projectId := args.entry.projectId
  taskId := args.entry.taskId
  runId := runId
  agentId := args.agentProfile.agentId

/-- The row a run begins with. -/
def newRun (args : RunTaskArgs) (runId : String) : RunRecord where
  id := runId
  projectId := args.entry.projectId
  taskId := args.entry.taskId
  agentId := args.agentProfile.agentId
  status := .preparing
  workspacePath := none
  baseCommit := none
  branchName := none
  runManifestRef := none
  startedAt := none
  endedAt := none
  role := some args.entry.nextRole
  parentRunId := args.parentRunId
  handoffPacketUri := args.handoffPacketUri

/-- Source: `orchestrator-v1.ts` `createRunContext`. -/
def createRunContext (args : RunTaskArgs) :
    BackendM (Except RunContextCreationFailure RunContext) := do
  let id ← uuid8
  let ids := runIds args ("R-" ++ id)
  let startedAt ← dateNow
  RunStore.create (newRun args ids.runId)
  appendEvent ids .taskAssigned [("role", .str args.entry.nextRole.text)]
  appendEvent ids .runCreated []
  tryCatch (Except.ok <$> prepareRun services args ids startedAt) fun _ => failCreation args ids

/-- How a run is finished. -/
inductive Finish
  | succeeded
  | failed (reason : RunFailedReason)

/-- The status of a finished run. -/
def Finish.status : Finish → RunStatus
  | .succeeded => .succeeded
  | .failed _ => .failed

/-- The event of a finished run. -/
def Finish.eventType : Finish → EventType
  | .succeeded => .runCompleted
  | .failed _ => .runFailed

/-- The payload of that event. -/
def Finish.payload : Finish → List (String × Json)
  | .succeeded => []
  | .failed reason => [("reason", .str reason.text)]

/-- Source: `orchestrator-v1.ts` `finishRun`. -/
def finishRun (ids : RunIds) (finish : Finish) : BackendM Unit := do
  let endedAt ← dateNow
  RunStore.updateStatus ids.runId finish.status { endedAt := some endedAt }
  appendEvent ids finish.eventType finish.payload

/-- Source: `orchestrator-v1.ts` `cancelInterruptedRun`. -/
def cancelInterruptedRun (runId : String) : BackendM Unit := do
  let run? ← RunStore.get runId
  match run? with
  | none => pure ()
  | some run =>
    if run.status = .preparing ∨ run.status = .running then do
      let endedAt ← dateNow
      RunStore.updateStatus runId .cancelled { endedAt := some endedAt }
    else pure ()

/-! ## The implementer -/

/-- Programs over the backend and the artifacts published so far. -/
abbrev AttemptM := Prog Env Err (Backend × PublishedArtifacts)

/-- A program of the backend, run in an attempt. -/
def lift {α : Type} (m : BackendM α) : AttemptM α :=
  zoom Prod.fst (fun b s => (b, s.2)) m

/-- Set a field of the published artifacts. -/
def publish (f : PublishedArtifacts → PublishedArtifacts) : AttemptM Unit :=
  modify fun s => (s.1, f s.2)

/-- The artifacts published so far. -/
def published : AttemptM PublishedArtifacts := do
  let s ← get
  pure s.2

/-- Run an attempt with nothing published yet; what it has published outlives its exception. -/
def runAttempt {α : Type} (m : AttemptM α) : BackendM (Except Err α × PublishedArtifacts) :=
  fun env b =>
    match m env (b, {}) with
    | .ok a s => .ok (.ok a, s.2) s.1
    | .error e s => .ok (.error e, s.2) s.1

/-- `text || "(empty)"`. -/
def orEmpty (text : String) : String := if text = "" then "(empty)" else text

/-- `text.trim().length > 0`. -/
def hasText (text : String) : Bool := !blank text

/-- An exit code in a template literal. -/
def exitCodeText : Option ℤ → String
  | none => "null"
  | some code => toString code

/-- Source: `orchestrator-v1.ts` `verificationOutput`. -/
def verificationOutput (result : VerificationResult) : String :=
  String.intercalate "\n---\n" (result.commandResults.map fun entry =>
    "$ " ++ entry.command ++ "\n[exit=" ++ exitCodeText entry.exitCode ++ " timedOut=" ++
      toString entry.timedOut ++ " " ++ toString entry.wallTimeMs ++ "ms]\n" ++ entry.output)

/-- Where an agent leaves its final report. -/
def finalReportPath (context : RunContext) : String :=
  services.platform.pathJoin
    [context.worktree.workspacePath, ".agent-workflow", "final_report.md"]

/-- The text of the `task-capsule.txt` artifact. -/
def capsuleText (capsule : TaskCapsuleWriteResult) : String :=
  "Task capsule at: " ++ capsule.capsulePath ++ "\nWork order: " ++ capsule.workOrderPath ++
    "\nRun manifest: " ++ capsule.runManifestPath ++ "\nPrompt: " ++ capsule.promptPath ++ "\n"

/-- The handoff packet is attached when the manifest names one and it was given. -/
def attachHandoff (args : RunTaskArgs) (context : RunContext) : BackendM Unit :=
  match truthy context.manifest.handoffPacketUri, args.handoffPacket with
  | some _, some packet =>
    match services.attachToBrief with
    | none => throw (.error "HandoffManager service is required to attach a handoff packet.")
    | some attachToBrief => onFiles (attachToBrief context.worktree.workspacePath packet)
  | _, _ => pure ()

/-- The final report of an agent that wrote one. -/
def publishFinalReport (context : RunContext) : AttemptM Unit := do
  let found ← lift (onFiles (services.existsSync (finalReportPath services context)))
  if found = true then do
    let finalReport ← lift (onFiles (services.readFileSync (finalReportPath services context)))
    if hasText finalReport = true then do
      let artifact ← lift (saveFileArtifact services context.ids .finalReport "final_report.md"
        (finalReportPath services context) "Agent final report")
      publish fun a => { a with finalReport := some artifact }
    else pure ()
  else pure ()

/-- What an implementer leaves: its output, its diff, its report. The result is the diff. -/
def publishOutputs (context : RunContext) (capsule : TaskCapsuleWriteResult)
    (agentResult : AgentProcessResult) : AttemptM ArtifactRef := do
  let stdout ← lift (saveTextArtifact services context.ids .stdoutTail "stdout.txt"
    (orEmpty agentResult.stdoutTail) (toString agentResult.stdoutBytes ++ " bytes"))
  publish fun a => { a with stdout := some stdout }
  let stderr ← lift (saveTextArtifact services context.ids .stderrTail "stderr.txt"
    (orEmpty agentResult.stderrTail) (toString agentResult.stderrBytes ++ " bytes"))
  publish fun a => { a with stderr := some stderr }
  let diffText ← lift (onFiles (services.sandboxProvider.diff context.worktree.workspacePath))
  let diff ← lift (saveTextArtifact services context.ids .diff "diff.patch" diffText
    "Git diff of agent changes")
  publish fun a => { a with diff := some diff }
  publishFinalReport services context
  let _ ← lift (saveTextArtifact services context.ids .taskCapsule "task-capsule.txt"
    (capsuleText capsule) "Task capsule location")
  pure diff

/-- Whether the verification commands pass; without commands they do. -/
def verify (args : RunTaskArgs) (context : RunContext) : AttemptM Bool :=
  match args.workOrder.verification with
  | none => pure true
  | some verification =>
    if verification.commands = [] then pure true
    else do
      lift (appendEvent context.ids .verificationStarted
        [("commands", (Codec.array Codec.string).encode verification.commands)])
      let result ← lift (onFiles (services.runVerifier
        { workspacePath := context.worktree.workspacePath, commands := verification.commands,
          timeoutSeconds := verification.timeoutSeconds }))
      let artifact ← lift (saveTextArtifact services context.ids .verificationOutput
        "verification.txt" (verificationOutput result)
        (if result.passed = true then "All passed" else "Verification failed"))
      publish fun a => { a with verification := some artifact }
      lift (appendEvent context.ids
        (if result.passed = true then .verificationPassed else .verificationFailed)
        [("result", .str (if result.passed = true then "passed" else "failed")),
          ("output_ref", .str artifact.uri)])
      pure result.passed

/-- The end of an implementer whose agent has not failed. -/
def finishImplementer (args : RunTaskArgs) (context : RunContext) (diff : ArtifactRef)
    (verificationPassed : Bool) : AttemptM RunOutcome := do
  let artifacts ← published
  if verificationPassed = true then do
    lift (finishRun context.ids .succeeded)
    lift (selectEdge context.ids "verifying" (implementerEdge args.workOrder)
      (if args.workOrder.review.enabled = true then "review_required" else "review_disabled"))
    pure (.implementerSucceeded context.ids.runId diff.uri
      (artifacts.verification.map ArtifactRef.uri) (artifacts.finalReport.map ArtifactRef.uri))
  else do
    lift (finishRun context.ids (.failed .verificationFailed))
    pure (.implementerFailed context.ids.runId .verificationFailed (some diff.uri)
      (artifacts.verification.map ArtifactRef.uri) (artifacts.finalReport.map ArtifactRef.uri))

/-- An implementer once its process has ended. -/
def afterImplementer (args : RunTaskArgs) (context : RunContext)
    (capsule : TaskCapsuleWriteResult) (agentResult : AgentProcessResult) :
    AttemptM RunOutcome := do
  let diff ← publishOutputs services context capsule agentResult
  let agentReason ← lift (ofExcept
    (classifyOfficialCliFailure services.platform args.agentProfile agentResult))
  match agentReason with
  | some reason => do
    let artifacts ← published
    lift (finishRun context.ids (.failed reason.toImplementer.toRunFailedReason))
    pure (.implementerFailed context.ids.runId reason.toImplementer (some diff.uri) none
      (artifacts.finalReport.map ArtifactRef.uri))
  | none => do
    let verificationPassed ← verify services args context
    finishImplementer args context diff verificationPassed

/-- The `try` of `runImplementer`. -/
def implement (args : RunTaskArgs) (signal : AbortSignal) (context : RunContext) :
    AttemptM RunOutcome := do
  lift (throwIfAborted signal.atRole)
  let capsule ← lift (onFiles (services.writeTaskCapsule
    { workspacePath := context.worktree.workspacePath, workOrder := args.workOrder,
      runManifest := context.manifest }))
  lift (attachHandoff services args context)
  lift (emitAgentSpawned context.ids)
  -- A parsed work order has a wall time, so the profile's timeout is never the one taken.
  let agentResult ← lift (WorkerTaskHandler.attempt (onFiles (services.runAdapter
    { agentProfile := args.agentProfile, workspacePath := context.worktree.workspacePath,
      promptFile := capsule.promptPath,
      timeoutSeconds := some (args.workOrder.budget.maxWallTimeMinutes * 60) })))
  match agentResult with
  | .error e =>
    if e.isOperationAborted = true then throw e
    else do
      lift (finishRun context.ids (.failed .spawnFailed))
      pure (.implementerFailed context.ids.runId .spawnFailed none none none)
  | .ok agentResult => afterImplementer services args context capsule agentResult

/-- Source: `orchestrator-v1.ts` `runImplementer`. -/
def runImplementer (args : RunTaskArgs) (signal : AbortSignal) (context : RunContext) :
    BackendM RunOutcome := do
  let (result, artifacts) ← runAttempt (implement services args signal context)
  match result with
  | .ok outcome => pure outcome
  | .error e =>
    if e.isOperationAborted = true then throw e
    else do
      finishRun context.ids (.failed .internalError)
      pure (.implementerFailed context.ids.runId .internalError
        (artifacts.diff.map ArtifactRef.uri) (artifacts.verification.map ArtifactRef.uri)
        (artifacts.finalReport.map ArtifactRef.uri))

/-! ## The reviewer -/

/-- The outcome of a verdict. -/
def verdictOutcome (runId uri : String) : Verdict → RunOutcome
  | .approved => .reviewerApproved runId uri
  | .changesRequested => .reviewerChangesRequested runId uri
  | .rejected => .reviewerRejected runId uri

/-- The artifacts of a diff that was refused. -/
def saveRefusedDiff (context : RunContext) (reviewContext : ReviewContextText)
    (applyResult : SandboxDiffApplyResult) : BackendM (ArtifactRef × ArtifactRef) := do
  let stdoutArtifact ← saveTextArtifact services context.ids .stdoutTail "git_apply_stdout.txt"
    applyResult.stdout "git apply stdout"
  let stderrArtifact ← saveTextArtifact services context.ids .stderrTail "git_apply_stderr.txt"
    applyResult.stderr "git apply stderr"
  let _ ← saveTextArtifact services context.ids .diff "diff_under_review.patch"
    reviewContext.diffText "Diff that failed to apply"
  pure (stdoutArtifact, stderrArtifact)

/-- What a reviewer does before its `try`: the outcome when the diff is refused, none when it
applies. -/
def applyReviewDiff (context : RunContext) (reviewContext : ReviewContextText) :
    BackendM (Option RunOutcome) := do
  let applyResult ← onFiles (services.sandboxProvider.applyDiff
    context.worktree.workspacePath reviewContext.diffText)
  if applyResult.ok = true then pure none
  else do
    let (stdoutArtifact, stderrArtifact) ←
      saveRefusedDiff services context reviewContext applyResult
    finishRun context.ids (.failed .diffApplyFailed)
    selectEdge context.ids "reviewing" .requeued "diff_apply_failed"
    pure (some (.reviewerUnusable context.ids.runId .diffApplyFailed none
      (some stdoutArtifact.uri) (some stderrArtifact.uri)))

/-- The verdict of a reviewer, and the artifact of it. -/
def readVerdict (context : RunContext) : BackendM (ReviewVerdictParseResult × ArtifactRef) := do
  let parsed ← onFiles (services.parseReviewVerdict context.worktree.workspacePath)
  let verdictArtifact ← saveTextArtifact services context.ids .reviewVerdict
    "review_verdict.json" (services.platform.json.stringify parsed.verdict.toJson ++ "\n")
    parsed.verdict.summary
  match parsed.unusableRawText with
  | none => pure (parsed, verdictArtifact)
  | some unusableRawText => do
    let _ ← saveTextArtifact services context.ids .finalReport "reviewer_unusable_output.txt"
      unusableRawText (parsed.errorMessage.getD "Reviewer output was unusable")
    pure (parsed, verdictArtifact)

/-- The end of a reviewer with a verdict. -/
def finishReview (context : RunContext) (verdict : ReviewVerdict) (verdictArtifact : ArtifactRef) :
    BackendM RunOutcome := do
  finishRun context.ids .succeeded
  appendEvent context.ids .reviewCompleted
    [("verdict", .str verdict.verdict.text), ("verdict_uri", .str verdictArtifact.uri),
      ("summary", .str verdict.summary), ("comments_count", .num verdict.comments.length)]
  selectEdge context.ids "reviewing" (verdictEdge verdict.verdict) verdict.verdict.text
  pure (verdictOutcome context.ids.runId verdictArtifact.uri verdict.verdict)

/-- A reviewer once its process has ended. -/
def afterReviewer (args : RunTaskArgs) (context : RunContext) (agentResult : AgentProcessResult) :
    BackendM RunOutcome := do
  let stdoutArtifact ← saveTextArtifact services context.ids .stdoutTail "stdout.txt"
    (orEmpty agentResult.stdoutTail) (toString agentResult.stdoutBytes ++ " bytes")
  let stderrArtifact ← saveTextArtifact services context.ids .stderrTail "stderr.txt"
    (orEmpty agentResult.stderrTail) (toString agentResult.stderrBytes ++ " bytes")
  let agentReason ← ofExcept
    (classifyOfficialCliFailure services.platform args.agentProfile agentResult)
  match agentReason with
  | some reason => do
    finishRun context.ids (.failed reason.toImplementer.toRunFailedReason)
    pure (.reviewerUnusable context.ids.runId reason.toReviewer none
      (some stdoutArtifact.uri) (some stderrArtifact.uri))
  | none => do
    let (parsed, verdictArtifact) ← readVerdict services context
    if parsed.reviewerUnusable = true then do
      finishRun context.ids (.failed .internalError)
      pure (.reviewerUnusable context.ids.runId .reviewerUnusable (some verdictArtifact.uri)
        (some stdoutArtifact.uri) (some stderrArtifact.uri))
    else finishReview context parsed.verdict verdictArtifact

/-- The `try` of `runReviewer`. -/
def review (args : RunTaskArgs) (context : RunContext) (reviewContext : ReviewContextText) :
    BackendM RunOutcome := do
  let brief ← onFiles (services.writeReviewBrief
    { workspacePath := context.worktree.workspacePath, workOrder := args.workOrder,
      diffText := reviewContext.diffText,
      priorFinalReportText := reviewContext.priorFinalReportText })
  let _ ← saveFileArtifact services context.ids .taskCapsule "review_brief.md"
    brief.reviewBriefPath "Reviewer brief"
  let _ ← saveFileArtifact services context.ids .diff "diff_under_review.patch"
    brief.diffUnderReviewPath "Diff under review"
  appendEvent context.ids .reviewRequested
    [("diff_artifact_uri", .str reviewContext.diffArtifactUri)]
  emitAgentSpawned context.ids
  let agentResult ← WorkerTaskHandler.attempt (onFiles (services.runAdapter
    { agentProfile := args.agentProfile, workspacePath := context.worktree.workspacePath,
      promptFile := brief.reviewerPromptPath,
      timeoutSeconds := args.agentProfile.timeoutSeconds.map Nat.cast }))
  match agentResult with
  | .error e =>
    if e.isOperationAborted = true then throw e
    else do
      finishRun context.ids (.failed .spawnFailed)
      pure (.reviewerUnusable context.ids.runId .spawnFailed none none none)
  | .ok agentResult => afterReviewer services args context agentResult

/-- Source: `orchestrator-v1.ts` `runReviewer`. -/
def runReviewer (args : RunTaskArgs) (signal : AbortSignal) (context : RunContext) :
    BackendM RunOutcome := do
  throwIfAborted signal.atRole
  match args.reviewContext with
  | none => do
    finishRun context.ids (.failed .internalError)
    pure (.reviewerUnusable context.ids.runId .internalError none none none)
  | some reviewContext => do
    let refused ← applyReviewDiff services context reviewContext
    match refused with
    | some outcome => pure outcome
    | none =>
      tryCatch (review services args context reviewContext) fun e =>
        if e.isOperationAborted = true then throw e
        else do
          finishRun context.ids (.failed .internalError)
          pure (.reviewerUnusable context.ids.runId .internalError none none none)

/-! ## A run -/

/-- The outcome of a run whose context could not be created. -/
def creationFailed (failure : RunContextCreationFailure) : RunOutcome :=
  match failure.role with
  | .implementer => .implementerFailed failure.runId .internalError none none none
  | .reviewer => .reviewerUnusable failure.runId .internalError none none none

/-- The part of the role. -/
def runRole (args : RunTaskArgs) (signal : AbortSignal) (context : RunContext) :
    BackendM RunOutcome :=
  match context.role with
  | .implementer => runImplementer services args signal context
  | .reviewer => runReviewer services args signal context

/-- Source: `orchestrator-v1.ts` `runTaskOnce`. -/
def runTaskOnce (signal : AbortSignal) (args : RunTaskArgs) : BackendM RunOutcome := do
  throwIfAborted signal.atEntry
  let created ← createRunContext services args
  match created with
  | .error failure => pure (creationFailed failure)
  | .ok context =>
    tryCatch (runRole services args signal context) fun e => do
      if e.isOperationAborted = true ∨ signal.atCatch = true then
        cancelInterruptedRun context.ids.runId
      else pure ()
      throw e

end OrchestratorV1

end AgentWorkflow
