import AgentWorkflow.Queue.TaskQueue
import AgentWorkflow.Scheduling.BudgetManager
import AgentWorkflow.Scheduling.HandoffManager
import AgentWorkflow.Scheduling.Scheduler

/-!
# The worker's task handler

`V1WorkerTaskHandler` of `queue/worker-task-handler.ts`: one attempt of a claimed task.

`handle` is cut where it awaits `runTaskOnce`, since other workers run there:

* **`handleUntilLaunch`** — work order, review context, budget gate, scheduler, `preLaunch`. It ends
  with the arguments of the run, or without one after the task was released.
* **`handleAfterRun`** — what the outcome does to the task: a release, and the event after it.
* `handle` — both, around a run.

A condition that tests a string for being there (`if (uri)`) is `truthy`: the empty string is not.
-/

namespace AgentWorkflow

open Fallible

/-- A string as a condition: neither undefined nor null nor empty. -/
def truthy (s : Option String) : Option String := s.filter fun s => s ≠ ""

/-- A review context with the texts of its artifacts. -/
structure ReviewContextText where
  diffText : String
  diffArtifactUri : String
  priorFinalReportText : Option String
  implementerRunId : Option String
  implementerAgentId : Option String
  deriving DecidableEq, Repr

/-- The arguments of `runTaskOnce` that depend on the attempt. -/
structure RunTaskArgs where
  entry : TaskQueueEntry
  decision : ScheduleDecision
  agentProfile : AgentProfileV1
  workOrder : ParsedWorkOrderV1
  parentRunId : Option String
  handoffPacketUri : Option String
  handoffPacket : Option HandoffPacket
  reviewContext : Option ReviewContextText

/-- What a handler is constructed with. Source: `worker-task-handler.ts`
`V1WorkerTaskHandlerServices`. -/
structure HandlerServices where
  coll : Collation
  json : JsonText
  artifactStore : ArtifactStore
  registryOptions : AgentRegistry.Options
  /-- The project id of the budget manager and of the handoff manager. -/
  projectId : String

/-- What `handle` keeps while it awaits the run. -/
structure Launch where
  entry : TaskQueueEntry
  workOrder : ParsedWorkOrderV1
  agentEntry : AgentRegistryEntry
  decision : ScheduleDecision
  persistedReviewContext : Option ReviewContextRecord
  pendingHandoffPacketUri : Option String
  pendingHandoffPacket : Option HandoffPacket
  reviewContext : Option ReviewContextText
  startedAtMs : ℕ

/-- The agent of the attempt. -/
def Launch.agentId (l : Launch) : String := l.agentEntry.profile.agentId

/-- The arguments `handle` calls `runTaskOnce` with. `parseAgentProfileV1` of a profile the registry
parsed returns it. -/
def Launch.runArgs (l : Launch) : RunTaskArgs where
  entry := l.entry
  decision := l.decision
  agentProfile := l.agentEntry.profile
  workOrder := l.workOrder
  parentRunId := l.persistedReviewContext.map ReviewContextRecord.implementerRunId
  handoffPacketUri := l.pendingHandoffPacketUri
  handoffPacket := l.pendingHandoffPacket
  reviewContext := l.reviewContext

namespace WorkerTaskHandler

variable (services : HandlerServices) (workerId : String)

/-! ## Releases and events -/

/-- A payload field that is left out when undefined. -/
def optionalText (key : String) : Option String → List (String × Json) :=
  writeOptional Codec.string key

/-- Source: `worker-task-handler.ts` `appendEvent`. -/
def appendEvent (entry : TaskQueueEntry) (eventType : EventType) (runId agentId : Option String)
    (payload : List (String × Json)) : BackendM Unit := do
  let id ← uuid8
  let createdAt ← dateNow
  EventLog.append
    { eventId := "E-" ++ id, eventType, projectId := entry.projectId,
      taskId := some entry.taskId, runId, agentId, skipOnReplay := false, payload, createdAt }

/-- Source: `worker-task-handler.ts` `release`. -/
def release (entry : TaskQueueEntry) (status : TaskStatus) (nextRole : Option Role)
    (attempts : ℕ) : WorldM Unit := do
  let updatedAt ← onBackend dateNow
  QueueStore.release entry.taskId
    { status := some status
      nextRole := some (nextRole.getD entry.nextRole)
      attempts := some attempts
      currentOwnerRunId := some none
      leaseExpiresAt := some none
      updatedAt := some updatedAt }

/-- Source: `worker-task-handler.ts` `failTask`. -/
def failTask (entry : TaskQueueEntry) (reason : String) (attempts : ℕ) (runId : Option String)
    (payload : List (String × Json)) : WorldM Unit := do
  release entry .failed none attempts
  onBackend (appendEvent entry .taskFailed runId none (("reason", .str reason) :: payload))

/-! ## Before the run -/

/-- Source: `worker-task-handler.ts` `refusalPayload`. -/
def refusalPayload (decision : ScheduleDecision) (reason : RefusalReason) :
    List (String × Json) :=
  [("reason", .str "scheduler_refusal"), ("refusal_reason", .str reason.text),
    ("decision_id", .str decision.decisionId), ("role", .str decision.role.text)]

/-- Source: `worker-task-handler.ts` `handleSchedulerRefusal`. -/
def handleSchedulerRefusal (entry : TaskQueueEntry) (decision : ScheduleDecision) :
    WorldM Unit :=
  match decision.refusalReason with
  | none => failTask entry "scheduler_refusal_missing_reason" entry.attempts none
      [("decision_id", .str decision.decisionId)]
  | some .allCandidatesExcluded => do
    release entry .awaitingHuman none entry.attempts
    onBackend (appendEvent entry .taskAwaitingHuman none none
      (refusalPayload decision .allCandidatesExcluded))
  | some reason => do
    release entry .failed none entry.attempts
    onBackend (appendEvent entry .taskFailed none none (refusalPayload decision reason))

/-- A candidate score as JSON; `excluded` is there only when it is true. -/
def candidateScoreJson (s : CandidateScore) : Json :=
  .obj ([("agent_id", .str s.agentId), ("score", .num s.score),
    ("breakdown", .obj [("capability_match", .num s.breakdown.capabilityMatch),
      ("cost_efficiency", .num s.breakdown.costEfficiency),
      ("quota_health", .num s.breakdown.quotaHealth),
      ("reliability", .num s.breakdown.reliability),
      ("latency_score", .num s.breakdown.latencyScore)])] ++
    (if s.excluded then [("excluded", .bool true)] else []) ++
    optionalText "excluded_reason" s.excludedReason)

/-- A decision as the payload of `task.dispatched`. -/
def decisionPayload (decision : ScheduleDecision) : List (String × Json) :=
  [("schema_version", .str "agent-workflow/1"), ("decision_id", .str decision.decisionId),
    ("task_id", .str decision.taskId), ("role", .str decision.role.text),
    ("picked_agent_id", (decision.pickedAgentId.map Json.str).getD .null)] ++
    optionalText "refusal_reason" (decision.refusalReason.map RefusalReason.text) ++
    [("candidate_scores", .arr (decision.candidateScores.map candidateScoreJson)),
      ("decided_at", .num decision.decidedAt)]

/-- Source: `worker-task-handler.ts` `emitTaskDispatched`. -/
def emitTaskDispatched (entry : TaskQueueEntry) (decision : ScheduleDecision) : BackendM Unit :=
  appendEvent entry .taskDispatched none none (decisionPayload decision)

/-- Source: `worker-task-handler.ts` `materializeReviewContext`. -/
def materializeReviewContext (record : ReviewContextRecord) :
    BackendM ReviewContextText := do
  let diffText ← onFiles (services.artifactStore.readText record.diffArtifactUri)
  let priorFinalReportText ← match truthy record.finalReportUri with
    | some uri => do
      let text ← onFiles (services.artifactStore.readText uri)
      pure (some text)
    | none => pure none
  pure
    { diffText, diffArtifactUri := record.diffArtifactUri, priorFinalReportText,
      implementerRunId := some record.implementerRunId,
      implementerAgentId := some record.implementerAgentId }

/-- Source: `worker-task-handler.ts` `materializeHandoffPacket`. -/
def materializeHandoffPacket (uri : String) :
    BackendM HandoffPacket := do
  let raw ← onFiles (services.artifactStore.readText uri)
  ofExcept (parseHandoffPacketText services.json raw)

/-- Run a program and return its exception as a value. -/
def attempt {α : Type} (m : BackendM α) : BackendM (Except Err α) :=
  tryCatch (Except.ok <$> m) fun e => pure (.error e)

/-- The `catch` around `runTaskOnce`: an abort is thrown on, anything else fails the task. -/
def handleRunError (entry : TaskQueueEntry)
    (persistedReviewContext : Option ReviewContextRecord) (aborted : Bool) (e : Err) :
    WorldM Unit :=
  if e.isOperationAborted = true ∨ aborted = true then onBackend (throw e)
  else
    failTask entry
      (if persistedReviewContext.isSome = true then "review_context_read_or_run_task_once_threw"
       else "run_task_once_threw")
      entry.attempts none []

/-- `handle` from the picked agent to the call of `runTaskOnce`. -/
def launch (entry : TaskQueueEntry) (aborted : Bool)
    (workOrder : ParsedWorkOrderV1) (persistedReviewContext : Option ReviewContextRecord)
    (pendingHandoffPacketUri : Option String) (pendingHandoffPacket : Option HandoffPacket)
    (decision : ScheduleDecision) (agentEntry : AgentRegistryEntry) (gate : BudgetState) :
    WorldM (Option Launch) := do
  onBackend (throwIfAborted aborted)
  let _ ← BudgetManager.preLaunch services.projectId entry.taskId
  onBackend (throwIfAborted aborted)
  let startedAtMs ← onBackend dateNow
  let reviewContext ← onBackend (attempt (match persistedReviewContext with
    | some record => some <$> materializeReviewContext services record
    | none => pure none))
  match reviewContext with
  | .error e => do
    handleRunError entry persistedReviewContext aborted e
    pure none
  | .ok reviewContext => do
    record workerId (.launched entry.taskId entry.nextRole agentEntry.profile.agentId gate
      persistedReviewContext)
    pure (some
      { entry, workOrder, agentEntry, decision, persistedReviewContext,
        pendingHandoffPacketUri, pendingHandoffPacket, reviewContext, startedAtMs })

/-- `handle` from the budget gate to the picked agent. -/
def dispatch (entry : TaskQueueEntry) (aborted : Bool)
    (workOrder : ParsedWorkOrderV1) (persistedReviewContext : Option ReviewContextRecord)
    (pendingHandoffPacketUri : Option String) : WorldM (Option Launch) := do
  let _ ← BudgetManager.init workOrder
  let budget ← BudgetManager.current entry.taskId
  let decision ← onBackend (Scheduler.decide services.coll workOrder entry.nextRole
    workOrder.agent.excludeAgentIds budget
    (persistedReviewContext.map ReviewContextRecord.implementerAgentId))
  record workerId (.decided entry.taskId entry.nextRole workOrder.agent.excludeAgentIds
    decision.pickedAgentId)
  onBackend (emitTaskDispatched entry decision)
  match truthy decision.pickedAgentId with
  | none => do
    handleSchedulerRefusal entry decision
    pure none
  | some pickedAgentId => do
    let agentEntry? ← onBackend (AgentRegistry.get pickedAgentId)
    match agentEntry? with
    | none => do
      failTask entry "picked_agent_not_found" entry.attempts none
        [("picked_agent_id", .str pickedAgentId)]
      pure none
    | some agentEntry =>
      match truthy pendingHandoffPacketUri with
      | none =>
        launch services workerId entry aborted workOrder persistedReviewContext
          pendingHandoffPacketUri none decision agentEntry budget
      | some uri => do
        let packet ← onBackend (attempt (materializeHandoffPacket services uri))
        match packet with
        | .error _ => do
          failTask entry "handoff_packet_read_failed" entry.attempts none
            [("handoff_packet_uri", .str uri)]
          pure none
        | .ok packet =>
          launch services workerId entry aborted workOrder persistedReviewContext
            pendingHandoffPacketUri (some packet) decision agentEntry budget

/-- The review context `handle` reads for a reviewer. -/
def readReviewContext (entry : TaskQueueEntry) : WorldM (Option ReviewContextRecord) :=
  if entry.nextRole = .reviewer then QueueStore.getReviewContext entry.taskId else pure none

/-- The packet URI `handle` reads for an implementer. -/
def readHandoffPacketUri (entry : TaskQueueEntry) : WorldM (Option String) :=
  if entry.nextRole = .implementer then QueueStore.getHandoffPacketUri entry.taskId else pure none

/-- `handle` up to the call of `runTaskOnce`: the run to launch, or none after a release. -/
def handleUntilLaunch (entry : TaskQueueEntry) (aborted : Bool) :
    WorldM (Option Launch) := do
  onBackend (throwIfAborted aborted)
  let workOrder? ← TaskQueue.getWorkOrder entry.taskId
  match workOrder? with
  | none => do
    failTask entry "work_order_not_found" entry.attempts none []
    pure none
  | some workOrder => do
    let persistedReviewContext ← readReviewContext entry
    let pendingHandoffPacketUri ← readHandoffPacketUri entry
    if entry.nextRole = .reviewer ∧ persistedReviewContext.isNone = true then do
      failTask entry "review_context_not_found" entry.attempts none []
      pure none
    else
      dispatch services workerId entry aborted workOrder persistedReviewContext
        pendingHandoffPacketUri

/-! ## After the run -/

/-- Source: `worker-task-handler.ts` `handoffReasonForImplementerFailure`. -/
def handoffReasonForImplementerFailure : ImplementerFailureReason → Option HandoffReason
  | .verificationFailed => some .verificationFailed
  | .agentNonzeroExit => some .agentNonzeroExit
  | .agentTimedOut => some .agentTimedOut
  | .providerQuotaExhausted | .providerRateLimited | .providerAuthFailed => some .quotaExhausted
  | .spawnFailed | .internalError => none

/-- Source: `worker-task-handler.ts` `runFailedReasonForOutcome`. -/
def runFailedReasonForOutcome : RunOutcome → Option RunFailedReason
  | .implementerFailed _ reason .. => some reason.toRunFailedReason
  | .reviewerUnusable _ reason .. => reason.toRunFailedReason
  | _ => none

/-- An implementer that succeeded, or a reviewer that gave a verdict. -/
def outcomeSuccess : RunOutcome → Bool
  | .implementerSucceeded .. | .reviewerApproved .. | .reviewerChangesRequested ..
  | .reviewerRejected .. => true
  | .implementerFailed .. | .reviewerUnusable .. => false

/-- Source: `worker-task-handler.ts` `recordAgentOutcome`: failures that are not the agent's are
not recorded. -/
def recordAgentOutcome (agentEntry : AgentRegistryEntry)
    (outcome : RunOutcome) (wallTimeMs : ℕ) : BackendM Unit :=
  match outcome with
  | .implementerFailed _ .internalError .. => pure ()
  | .reviewerUnusable _ .diffApplyFailed .. => pure ()
  | .reviewerUnusable _ .internalError .. => pure ()
  | _ =>
    AgentRegistry.recordOutcome services.registryOptions agentEntry.profile.agentId outcome.runId
      (outcomeSuccess outcome) wallTimeMs none (runFailedReasonForOutcome outcome)

/-- Source: `worker-task-handler.ts` `emitHandoffRequested`. -/
def emitHandoffRequested (entry : TaskQueueEntry) (runId agentId : String)
    (packet : HandoffPacket) (handoffPacketUri : String) : BackendM Unit :=
  appendEvent entry .handoffRequested (some runId) (some agentId)
    [("handoff_packet_uri", .str handoffPacketUri), ("reason", .str packet.reason.text),
      ("exclude_agent_ids", (Codec.array Codec.string).encode packet.excludeAgentIds)]

/-- Build, store and announce a handoff packet, exclude its agents, and leave its URI with the
task: the part `requeueImplementerAfterReview` and `handleImplementerFailure` share. -/
def handOff (entry : TaskQueueEntry) (runId agentId : String)
    (args : HandoffManager.BuildArgs) : WorldM ArtifactRef := do
  let packet ← onBackend (HandoffManager.build args)
  record workerId (.packetBuilt entry.taskId packet)
  let artifact ← onBackend (HandoffManager.persist services.artifactStore services.json
    services.projectId packet)
  onBackend (emitHandoffRequested entry runId agentId packet artifact.uri)
  let _ ← TaskQueue.addWorkOrderExcludeAgentIds entry.taskId packet.excludeAgentIds
  record workerId (.excluded entry.taskId packet.excludeAgentIds)
  QueueStore.setHandoffPacketUri entry.taskId (some artifact.uri)
  pure artifact

/-- Source: `worker-task-handler.ts` `handleImplementerSuccess`. -/
def handleImplementerSuccess (entry : TaskQueueEntry) (workOrder : ParsedWorkOrderV1)
    (agentId runId diffArtifactUri : String)
    (verificationOutputUri finalReportUri : Option String) (postRunBudget : BudgetState) :
    WorldM Unit :=
  if workOrder.review.enabled = true then
    if postRunBudget.status = .exhausted then
      failTask entry "task_budget_exhausted" (entry.attempts + 1) (some runId)
        [("source", .str "postRun"), ("next_role", .str "reviewer")]
    else do
      QueueStore.setReviewContext entry.taskId
        { implementerRunId := runId, implementerAgentId := agentId, diffArtifactUri,
          finalReportUri, verificationOutputUri }
      release entry .queued (some .reviewer) (entry.attempts + 1)
      onBackend (appendEvent entry .taskRequeued (some runId) (some agentId)
        ([("reason", .str "review_required"), ("next_role", .str "reviewer"),
          ("diff_artifact_uri", .str diffArtifactUri)] ++
          optionalText "final_report_uri" finalReportUri ++
          optionalText "verification_output_uri" verificationOutputUri))
  else do
    release entry .accepted none (entry.attempts + 1)
    onBackend (appendEvent entry .taskCompleted (some runId) none
      ([("reason", .str "review_disabled"), ("diff_artifact_uri", .str diffArtifactUri)] ++
        optionalText "verification_output_uri" verificationOutputUri ++
        optionalText "final_report_uri" finalReportUri))

/-- Source: `worker-task-handler.ts` `requeueImplementerAfterReview`. -/
def requeueImplementerAfterReview (entry : TaskQueueEntry)
    (workOrder : ParsedWorkOrderV1) (reviewerAgentId : String)
    (reviewContext : ReviewContextRecord) (runId : String) (reason : HandoffReason)
    (reviewVerdictUri : Option String) : WorldM Unit := do
  let artifact ← handOff services workerId entry runId reviewerAgentId
    { taskId := entry.taskId
      fromRunId := reviewContext.implementerRunId
      fromAgentId := reviewContext.implementerAgentId
      workOrderGoal := workOrder.goal
      reason
      diffArtifactUri := some reviewContext.diffArtifactUri
      verificationOutputUri := reviewContext.verificationOutputUri
      reviewVerdictUri
      priorExcludes := workOrder.agent.excludeAgentIds }
  release entry .queued (some .implementer) (entry.attempts + 1)
  onBackend (appendEvent entry .taskRequeued (some runId) (some reviewerAgentId)
    ([("reason", .str reason.text), ("next_role", .str "implementer"),
      ("handoff_packet_uri", .str artifact.uri)] ++
      optionalText "review_verdict_uri" reviewVerdictUri ++
      [("implementer_run_id", .str reviewContext.implementerRunId),
       ("implementer_agent_id", .str reviewContext.implementerAgentId),
       ("diff_artifact_uri", .str reviewContext.diffArtifactUri)]))

/-- Source: `worker-task-handler.ts` `handleReviewerOutcome`; its type has no implementer
outcomes, and the last branch is not reached with one. -/
def handleReviewerOutcome (entry : TaskQueueEntry)
    (workOrder : ParsedWorkOrderV1) (agentId : String) (reviewContext : ReviewContextRecord)
    (outcome : RunOutcome) (postRunBudget : BudgetState) : WorldM Unit :=
  match outcome with
  | .reviewerApproved runId reviewVerdictUri => do
    release entry .accepted none (entry.attempts + 1)
    onBackend (appendEvent entry .taskCompleted (some runId) (some agentId)
      [("reason", .str "review_approved"), ("review_verdict_uri", .str reviewVerdictUri),
        ("implementer_run_id", .str reviewContext.implementerRunId),
        ("diff_artifact_uri", .str reviewContext.diffArtifactUri)])
  | .reviewerRejected runId reviewVerdictUri => do
    release entry .awaitingHuman none (entry.attempts + 1)
    onBackend (appendEvent entry .taskAwaitingHuman (some runId) (some agentId)
      [("reason", .str "review_rejected"), ("review_verdict_uri", .str reviewVerdictUri),
        ("implementer_run_id", .str reviewContext.implementerRunId)])
  | .reviewerChangesRequested runId reviewVerdictUri =>
    if postRunBudget.status = .exhausted then
      failTask entry "task_budget_exhausted" (entry.attempts + 1) (some runId)
        [("source", .str "postRun"), ("reviewer_outcome", .str outcome.kind),
          ("review_verdict_uri", .str reviewVerdictUri)]
    else
      requeueImplementerAfterReview services workerId entry workOrder agentId reviewContext runId
        .reviewChangesRequested (some reviewVerdictUri)
  | .reviewerUnusable runId reason reviewVerdictUri _ _ =>
    if reason = .diffApplyFailed then
      if postRunBudget.status = .exhausted then
        failTask entry "task_budget_exhausted" (entry.attempts + 1) (some runId)
          [("source", .str "postRun"), ("reviewer_outcome", .str outcome.kind),
            ("failed_reason", .str reason.text)]
      else
        requeueImplementerAfterReview services workerId entry workOrder agentId reviewContext runId
          .diffApplyFailed none
    else
      failTask entry reason.text (entry.attempts + 1) (some runId)
        ([("reviewer_outcome", .str outcome.kind)] ++
          optionalText "review_verdict_uri" reviewVerdictUri)
  | .implementerSucceeded .. | .implementerFailed .. => pure ()

/-- Source: `worker-task-handler.ts` `handleImplementerFailure`. -/
def handleImplementerFailure (entry : TaskQueueEntry)
    (workOrder : ParsedWorkOrderV1) (agentId runId : String) (reason : ImplementerFailureReason)
    (diffArtifactUri verificationOutputUri : Option String) (postRunBudget : BudgetState) :
    WorldM Unit :=
  match handoffReasonForImplementerFailure reason with
  | none =>
    failTask entry reason.toRunFailedReason.text (entry.attempts + 1) (some runId) []
  | some handoffReason => do
    let artifact ← handOff services workerId entry runId agentId
      { taskId := entry.taskId
        fromRunId := runId
        fromAgentId := agentId
        workOrderGoal := workOrder.goal
        reason := handoffReason
        diffArtifactUri
        verificationOutputUri
        reviewVerdictUri := none
        priorExcludes := workOrder.agent.excludeAgentIds }
    if postRunBudget.status = .exhausted then
      failTask entry "task_budget_exhausted" (entry.attempts + 1) (some runId)
        [("source", .str "postRun"), ("handoff_packet_uri", .str artifact.uri),
          ("failed_reason", .str reason.toRunFailedReason.text)]
    else do
      release entry .queued (some .implementer) (entry.attempts + 1)
      onBackend (appendEvent entry .taskRequeued (some runId) (some agentId)
        [("reason", .str reason.toRunFailedReason.text), ("next_role", .str "implementer"),
          ("handoff_packet_uri", .str artifact.uri)])

/-- The queue transition of an outcome, given the budget after the run. -/
def handleOutcome (l : Launch) (outcome : RunOutcome)
    (postRunBudget : BudgetState) : WorldM Unit :=
  match outcome with
  | .implementerSucceeded runId diffArtifactUri verificationOutputUri finalReportUri =>
    handleImplementerSuccess l.entry l.workOrder l.agentId runId diffArtifactUri
      verificationOutputUri finalReportUri postRunBudget
  | .implementerFailed runId reason diffArtifactUri verificationOutputUri _ =>
    handleImplementerFailure services workerId l.entry l.workOrder l.agentId runId reason
      diffArtifactUri verificationOutputUri postRunBudget
  | _ =>
    match l.persistedReviewContext with
    | none =>
      failTask l.entry "unexpected_reviewer_outcome_for_implementer_entry"
        (l.entry.attempts + 1) none []
    | some reviewContext =>
      handleReviewerOutcome services workerId l.entry l.workOrder l.agentId reviewContext outcome
        postRunBudget

/-- `handle` after `runTaskOnce` has settled. -/
def handleAfterRun (l : Launch) (result : Except Err RunOutcome)
    (aborted : Bool) : WorldM Unit := do
  record workerId
    (.settled l.entry.taskId l.entry.nextRole l.agentId l.persistedReviewContext result)
  match result with
  | .error e => handleRunError l.entry l.persistedReviewContext aborted e
  | .ok outcome => do
    if l.entry.nextRole = .implementer ∧ (truthy l.pendingHandoffPacketUri).isSome = true then
      QueueStore.setHandoffPacketUri l.entry.taskId none
    else pure ()
    let now ← onBackend dateNow
    -- Truncated subtraction is `Math.max(0, …)`.
    let wallTimeMs := now - l.startedAtMs
    let postRunBudget ← BudgetManager.postRun services.projectId l.entry.taskId wallTimeMs
      none (Scheduler.estimatedCost l.agentEntry.profile)
    onBackend (recordAgentOutcome services l.agentEntry outcome wallTimeMs)
    handleOutcome services workerId l outcome postRunBudget

/-- One attempt. Source: `worker-task-handler.ts` `handle`. The signal is read before the run and
where the run's exception is caught. -/
def handle (runTaskOnce : RunTaskArgs → BackendM RunOutcome)
    (entry : TaskQueueEntry) (aborted abortedAtCatch : Bool) : WorldM Unit := do
  let launch? ← handleUntilLaunch services workerId entry aborted
  match launch? with
  | none => pure ()
  | some l => do
    let result ← onBackend (attempt (runTaskOnce l.runArgs))
    handleAfterRun services workerId l result abortedAtCatch

end WorkerTaskHandler

end AgentWorkflow
