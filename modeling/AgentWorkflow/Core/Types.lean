import AgentWorkflow.Lib.Json

/-!
# The data the workflow passes around

The records of `core/types.ts` and the event types of `core/events.ts`, under the source's words.

* **Statuses and reasons** are enumerations; `text` gives the literal the source stores or sends.
* **Times** are milliseconds since the epoch: the source's `toISOString` texts compare as the
  instants they name.
* **Amounts** (wall time charged, cost units, caps, scores) are exact rationals; counters are
  naturals.
* An optional field of the source is an `Option`, a nullable column as well.
-/

namespace AgentWorkflow

/-! ## Roles, statuses and reasons -/

/-- The role an attempt is made in. -/
inductive Role
  | implementer
  | reviewer
  deriving DecidableEq, Repr

/-- The literal of a role. -/
def Role.text : Role → String
  | .implementer => "implementer"
  | .reviewer => "reviewer"

/-- `TaskQueueEntry["status"]`. -/
inductive TaskStatus
  | queued
  | dispatched
  | implementing
  | verifying
  | reviewing
  | accepted
  | failed
  | awaitingHuman
  deriving DecidableEq, Repr

/-- The literal of a task status. -/
def TaskStatus.text : TaskStatus → String
  | .queued => "queued"
  | .dispatched => "dispatched"
  | .implementing => "implementing"
  | .verifying => "verifying"
  | .reviewing => "reviewing"
  | .accepted => "accepted"
  | .failed => "failed"
  | .awaitingHuman => "awaiting_human"

/-- The statuses no task leaves. Source: `task-queue.ts` `TERMINAL_STATUSES`. -/
def TaskStatus.terminal : TaskStatus → Bool
  | .accepted | .failed | .awaitingHuman => true
  | _ => false

/-- `RunStatus`. -/
inductive RunStatus
  | preparing
  | running
  | succeeded
  | failed
  | cancelled
  deriving DecidableEq, Repr

/-- The literal of a run status. -/
def RunStatus.text : RunStatus → String
  | .preparing => "preparing"
  | .running => "running"
  | .succeeded => "succeeded"
  | .failed => "failed"
  | .cancelled => "cancelled"

/-- `ScheduleDecision["refusal_reason"]`. -/
inductive RefusalReason
  | noAgentMatchesCapability
  | allCandidatesExcluded
  | allCandidatesQuotaExhausted
  | taskBudgetExhausted
  deriving DecidableEq, Repr

/-- The literal of a refusal reason. -/
def RefusalReason.text : RefusalReason → String
  | .noAgentMatchesCapability => "no_agent_matches_capability"
  | .allCandidatesExcluded => "all_candidates_excluded"
  | .allCandidatesQuotaExhausted => "all_candidates_quota_exhausted"
  | .taskBudgetExhausted => "task_budget_exhausted"

/-- `HandoffPacket["reason"]`. -/
inductive HandoffReason
  | verificationFailed
  | reviewChangesRequested
  | diffApplyFailed
  | reviewRejected
  | agentTimedOut
  | agentNonzeroExit
  | quotaExhausted
  | schedulerRefusal
  deriving DecidableEq, Repr

/-- The literal of a handoff reason. -/
def HandoffReason.text : HandoffReason → String
  | .verificationFailed => "verification_failed"
  | .reviewChangesRequested => "review_changes_requested"
  | .diffApplyFailed => "diff_apply_failed"
  | .reviewRejected => "review_rejected"
  | .agentTimedOut => "agent_timed_out"
  | .agentNonzeroExit => "agent_nonzero_exit"
  | .quotaExhausted => "quota_exhausted"
  | .schedulerRefusal => "scheduler_refusal"

/-- `BudgetState["status"]`. -/
inductive BudgetStatus
  | ok
  | softWarning
  | exhausted
  deriving DecidableEq, Repr

/-- `AgentRegistryEntry["quota_health"]`. -/
inductive QuotaHealth
  | healthy
  | low
  | exhausted
  deriving DecidableEq, Repr

/-- `ArtifactKindV1`. -/
inductive ArtifactKind
  | diff
  | stdoutTail
  | stderrTail
  | verificationOutput
  | taskCapsule
  | finalReport
  | reviewVerdict
  | handoffPacket
  | scheduleDecision
  deriving DecidableEq, Repr

/-- The literal of an artifact kind. -/
def ArtifactKind.text : ArtifactKind → String
  | .diff => "diff"
  | .stdoutTail => "stdout_tail"
  | .stderrTail => "stderr_tail"
  | .verificationOutput => "verification_output"
  | .taskCapsule => "task_capsule"
  | .finalReport => "final_report"
  | .reviewVerdict => "review_verdict"
  | .handoffPacket => "handoff_packet"
  | .scheduleDecision => "schedule_decision"

/-- `RunFailedReason`. Source: `events.ts` `RUN_FAILED_REASONS`. -/
inductive RunFailedReason
  | spawnFailed
  | agentNonzeroExit
  | agentTimedOut
  | providerQuotaExhausted
  | providerRateLimited
  | providerAuthFailed
  | verificationFailed
  | diffApplyFailed
  | leaseExpired
  | internalError
  deriving DecidableEq, Repr

/-- The literal of a run failure reason. -/
def RunFailedReason.text : RunFailedReason → String
  | .spawnFailed => "spawn_failed"
  | .agentNonzeroExit => "agent_nonzero_exit"
  | .agentTimedOut => "agent_timed_out"
  | .providerQuotaExhausted => "provider_quota_exhausted"
  | .providerRateLimited => "provider_rate_limited"
  | .providerAuthFailed => "provider_auth_failed"
  | .verificationFailed => "verification_failed"
  | .diffApplyFailed => "diff_apply_failed"
  | .leaseExpired => "lease_expired"
  | .internalError => "internal_error"

/-- The event types the modelled code appends. Source: `events.ts`. -/
inductive EventType
  | runCreated
  | runStarted
  | artifactPublished
  | verificationStarted
  | verificationPassed
  | verificationFailed
  | runCompleted
  | runFailed
  | taskEnqueued
  | taskDispatched
  | taskAssigned
  | taskRequeued
  | taskCompleted
  | taskFailed
  | taskAwaitingHuman
  | reviewRequested
  | reviewCompleted
  | handoffRequested
  | agentSpawned
  | quotaLow
  | quotaExhausted
  | taskEdgeSelected
  deriving DecidableEq, Repr

/-- The literal of an event type. -/
def EventType.text : EventType → String
  | .runCreated => "run.created"
  | .runStarted => "run.started"
  | .artifactPublished => "artifact.published"
  | .verificationStarted => "verification.started"
  | .verificationPassed => "verification.passed"
  | .verificationFailed => "verification.failed"
  | .runCompleted => "run.completed"
  | .runFailed => "run.failed"
  | .taskEnqueued => "task.enqueued"
  | .taskDispatched => "task.dispatched"
  | .taskAssigned => "task.assigned"
  | .taskRequeued => "task.requeued"
  | .taskCompleted => "task.completed"
  | .taskFailed => "task.failed"
  | .taskAwaitingHuman => "task.awaiting_human"
  | .reviewRequested => "review.requested"
  | .reviewCompleted => "review.completed"
  | .handoffRequested => "handoff.requested"
  | .agentSpawned => "agent.spawned"
  | .quotaLow => "quota.low"
  | .quotaExhausted => "quota.exhausted"
  | .taskEdgeSelected => "task.edge_selected"

/-! ## Records -/

/-- The queue's view of a task. Source: `types.ts` `TaskQueueEntry`. -/
structure TaskQueueEntry where
  taskId : String
  projectId : String
  status : TaskStatus
  nextRole : Role
  currentOwnerRunId : Option String
  leaseExpiresAt : Option ℕ
  attempts : ℕ
  enqueuedAt : ℕ
  updatedAt : ℕ
  deriving DecidableEq, Repr

/-- What a reviewer attempt reviews. Source: `types.ts` `ReviewContextRecord`. -/
structure ReviewContextRecord where
  implementerRunId : String
  implementerAgentId : String
  diffArtifactUri : String
  finalReportUri : Option String
  verificationOutputUri : Option String
  deriving DecidableEq, Repr

/-- What a failed attempt leaves for the next one. Source: `types.ts` `HandoffPacket`. -/
structure HandoffPacket where
  taskId : String
  fromRunId : String
  fromAgentId : String
  reason : HandoffReason
  summary : String
  diffArtifactUri : Option String
  verificationOutputUri : Option String
  reviewVerdictUri : Option String
  remainingWork : String
  excludeAgentIds : List String
  createdAt : ℕ
  deriving DecidableEq, Repr

/-- The caps of a task. -/
structure BudgetCaps where
  maxRuns : ℕ
  maxWallTimeMs : ℚ
  maxTotalCostUnits : ℚ
  deriving DecidableEq, Repr

/-- What a task has used of its caps. Source: `types.ts` `BudgetState`. -/
structure BudgetState where
  taskId : String
  runsUsed : ℕ
  wallTimeMsUsed : ℚ
  costUnitsUsed : ℚ
  caps : BudgetCaps
  status : BudgetStatus
  deriving DecidableEq, Repr

/-- `cost_profile`, with the schema's `min(0)`. -/
structure CostProfile where
  estimatedCostPerRunUnits : ℚ
  estimatedCost_nonneg : 0 ≤ estimatedCostPerRunUnits
  deriving DecidableEq, Repr

/-- `failure_classification`: regular expressions over the tail of stderr. -/
structure FailureClassification where
  providerRateLimitedStderr : Option (List String)
  providerQuotaExhaustedStderr : Option (List String)
  providerAuthFailedStderr : Option (List String)
  deriving DecidableEq, Repr

/-- A parsed agent profile: the fields the scheduler, the registry and the orchestrator read. The
checks of `AgentProfileV1Schema` they rely on are fields. -/
structure AgentProfileV1 where
  agentId : String
  agentId_min : agentId ≠ ""
  kinds : List String
  roles : List Role
  costProfile : Option CostProfile
  failureClassification : Option FailureClassification
  initialSuccessRate : ℚ
  initialAvgLatencyMs : ℚ
  timeoutSeconds : Option ℕ
  deriving DecidableEq, Repr

/-- `rolling_metrics`. -/
structure RollingMetrics where
  successRate : ℚ
  avgLatencyMs : ℚ
  avgActualCostUnits : ℚ
  runsObserved : ℕ
  lastUpdatedAt : ℕ
  deriving DecidableEq, Repr

/-- An agent as the registry shows it. Source: `types.ts` `AgentRegistryEntry`. -/
structure AgentRegistryEntry where
  profile : AgentProfileV1
  loadedFrom : String
  rollingMetrics : RollingMetrics
  quotaHealth : QuotaHealth
  deriving DecidableEq, Repr

/-- The parts of a candidate's score. -/
structure ScoreBreakdown where
  capabilityMatch : ℚ
  costEfficiency : ℚ
  quotaHealth : ℚ
  reliability : ℚ
  latencyScore : ℚ
  deriving DecidableEq, Repr

/-- A candidate as a decision lists it. -/
structure CandidateScore where
  agentId : String
  score : ℚ
  breakdown : ScoreBreakdown
  excluded : Bool
  excludedReason : Option String
  deriving DecidableEq, Repr

/-- Source: `types.ts` `ScheduleDecision`. -/
structure ScheduleDecision where
  decisionId : String
  taskId : String
  role : Role
  pickedAgentId : Option String
  refusalReason : Option RefusalReason
  candidateScores : List CandidateScore
  decidedAt : ℕ
  deriving DecidableEq, Repr

/-- Source: `types.ts` `ArtifactRef`. -/
structure ArtifactRef where
  uri : String
  kind : ArtifactKind
  checksum : Option String
  summary : Option String
  deriving DecidableEq, Repr

/-- An event. Source: `types.ts` `EventEnvelope`; the payload's undefined fields are left out, as
`JSON.stringify` leaves them out. -/
structure EventEnvelope where
  eventId : String
  eventType : EventType
  projectId : String
  taskId : Option String
  runId : Option String
  agentId : Option String
  skipOnReplay : Bool
  payload : List (String × Json)
  createdAt : ℕ

/-- Source: `types.ts` `RunManifestV1`. -/
structure RunManifestV1 where
  runId : String
  taskId : String
  projectId : String
  agentId : String
  role : Role
  workspaceUri : String
  baseCommit : String
  branch : String
  workOrderHash : String
  adapterVersion : String
  parentRunId : Option String
  handoffPacketUri : Option String
  startedAt : ℕ
  status : RunStatus
  deriving DecidableEq, Repr

/-! ## Outcomes of an attempt -/

/-- Why an implementer attempt failed. Source: `orchestrator-v1.ts`. -/
inductive ImplementerFailureReason
  | agentNonzeroExit
  | agentTimedOut
  | providerQuotaExhausted
  | providerRateLimited
  | providerAuthFailed
  | verificationFailed
  | spawnFailed
  | internalError
  deriving DecidableEq, Repr

/-- The reason as the run's failure reason: the two types share their literals. -/
def ImplementerFailureReason.toRunFailedReason : ImplementerFailureReason → RunFailedReason
  | .agentNonzeroExit => .agentNonzeroExit
  | .agentTimedOut => .agentTimedOut
  | .providerQuotaExhausted => .providerQuotaExhausted
  | .providerRateLimited => .providerRateLimited
  | .providerAuthFailed => .providerAuthFailed
  | .verificationFailed => .verificationFailed
  | .spawnFailed => .spawnFailed
  | .internalError => .internalError

/-- Why a reviewer attempt gave no verdict. Source: `orchestrator-v1.ts`. -/
inductive ReviewerUnusableReason
  | reviewerUnusable
  | diffApplyFailed
  | agentNonzeroExit
  | agentTimedOut
  | providerQuotaExhausted
  | providerRateLimited
  | providerAuthFailed
  | spawnFailed
  | internalError
  deriving DecidableEq, Repr

/-- The reason as a run failure reason; `reviewer_unusable` is none. -/
def ReviewerUnusableReason.toRunFailedReason : ReviewerUnusableReason → Option RunFailedReason
  | .reviewerUnusable => none
  | .diffApplyFailed => some .diffApplyFailed
  | .agentNonzeroExit => some .agentNonzeroExit
  | .agentTimedOut => some .agentTimedOut
  | .providerQuotaExhausted => some .providerQuotaExhausted
  | .providerRateLimited => some .providerRateLimited
  | .providerAuthFailed => some .providerAuthFailed
  | .spawnFailed => some .spawnFailed
  | .internalError => some .internalError

/-- The literal of a reason. -/
def ReviewerUnusableReason.text : ReviewerUnusableReason → String
  | .reviewerUnusable => "reviewer_unusable"
  | .diffApplyFailed => "diff_apply_failed"
  | .agentNonzeroExit => "agent_nonzero_exit"
  | .agentTimedOut => "agent_timed_out"
  | .providerQuotaExhausted => "provider_quota_exhausted"
  | .providerRateLimited => "provider_rate_limited"
  | .providerAuthFailed => "provider_auth_failed"
  | .spawnFailed => "spawn_failed"
  | .internalError => "internal_error"

/-- What an attempt comes to. Source: `orchestrator-v1.ts` `RunOutcome`. -/
inductive RunOutcome
  | implementerSucceeded (runId : String) (diffArtifactUri : String)
      (verificationOutputUri finalReportUri : Option String)
  | implementerFailed (runId : String) (reason : ImplementerFailureReason)
      (diffArtifactUri verificationOutputUri finalReportUri : Option String)
  | reviewerApproved (runId : String) (reviewVerdictUri : String)
  | reviewerChangesRequested (runId : String) (reviewVerdictUri : String)
  | reviewerRejected (runId : String) (reviewVerdictUri : String)
  | reviewerUnusable (runId : String) (reason : ReviewerUnusableReason)
      (reviewVerdictUri stdoutArtifactUri stderrArtifactUri : Option String)
  deriving DecidableEq, Repr

/-- The run an outcome is of. -/
def RunOutcome.runId : RunOutcome → String
  | .implementerSucceeded r .. => r
  | .implementerFailed r .. => r
  | .reviewerApproved r _ => r
  | .reviewerChangesRequested r _ => r
  | .reviewerRejected r _ => r
  | .reviewerUnusable r .. => r

/-- The role whose runs come to an outcome. -/
def RunOutcome.role : RunOutcome → Role
  | .implementerSucceeded .. | .implementerFailed .. => .implementer
  | _ => .reviewer

/-- The literal of an outcome's kind. -/
def RunOutcome.kind : RunOutcome → String
  | .implementerSucceeded .. => "implementer_succeeded"
  | .implementerFailed .. => "implementer_failed"
  | .reviewerApproved .. => "reviewer_approved"
  | .reviewerChangesRequested .. => "reviewer_changes_requested"
  | .reviewerRejected .. => "reviewer_rejected"
  | .reviewerUnusable .. => "reviewer_unusable"

end AgentWorkflow
