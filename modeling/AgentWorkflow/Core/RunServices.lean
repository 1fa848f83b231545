import AgentWorkflow.Queue.WorkerTaskHandler

/-!
# The services of a run

What `runTaskOnce` calls: the interfaces of the sandbox, the capsule and brief writers, the adapter,
the verifier, the verdict parser and the file system, with the records they take and return.

* `V1RunTaskServices` — **each service is a program over the files**, so a call may return anything,
  throw anything, and answer differently the next time; none of them reaches the run rows or the
  events.
* `Platform` — the functions of the JavaScript platform the orchestrator uses.
* `AbortSignal` — the signal at the three places a run reads it; once aborted it stays so.
* `classifyOfficialCliFailure` — the reason an agent process failed for.
-/

namespace AgentWorkflow

open Fallible

/-! ## The sandbox -/

/-- Source: `git-worktree-manager.ts` `PreparedWorktree`. -/
structure PreparedWorktree where
  repoPath : String
  workspacePath : String
  baseCommit : String
  branchName : String
  deriving DecidableEq, Repr

/-- The arguments of `prepareWorkspace`. -/
structure PrepareWorkspace where
  repoPath : String
  baseRef : Option String
  taskId : String
  runId : String

/-- Source: `sandbox-provider.ts` `SandboxDiffApplyResult`. -/
structure SandboxDiffApplyResult where
  ok : Bool
  stdout : String
  stderr : String

/-- Source: `sandbox-provider.ts` `SandboxProvider`, as far as a run uses it. -/
structure SandboxProvider where
  prepareWorkspace : PrepareWorkspace → ServiceM PreparedWorktree
  diff : (workspacePath : String) → ServiceM String
  applyDiff : (workspacePath diffText : String) → ServiceM SandboxDiffApplyResult

/-! ## The writers -/

/-- Source: `task-capsule-writer.ts` `TaskCapsuleWriteResult`. -/
structure TaskCapsuleWriteResult where
  capsulePath : String
  workOrderPath : String
  runManifestPath : String
  promptPath : String

/-- The arguments of `taskCapsuleWriter.write`. -/
structure WriteCapsule where
  workspacePath : String
  workOrder : ParsedWorkOrderV1
  runManifest : RunManifestV1

/-- Source: `review-brief-writer.ts` `ReviewBriefWriteResult`: the paths a run uses. -/
structure ReviewBriefWriteResult where
  reviewBriefPath : String
  reviewerPromptPath : String
  diffUnderReviewPath : String

/-- The arguments of `reviewBriefWriter.write`. -/
structure WriteBrief where
  workspacePath : String
  workOrder : ParsedWorkOrderV1
  diffText : String
  priorFinalReportText : Option String

/-! ## Processes -/

/-- Source: `official-cli-adapter.ts` `AgentProcessResult`: the fields a run reads. -/
structure AgentProcessResult where
  exitCode : Option ℤ
  timedOut : Bool
  stdoutTail : String
  stderrTail : String
  stdoutBytes : ℕ
  stderrBytes : ℕ

/-- The arguments of `adapter.run`; the signal is part of what the adapter does. -/
structure RunAgent where
  agentProfile : AgentProfileV1
  workspacePath : String
  promptFile : String
  timeoutSeconds : Option ℚ

/-- The result of one verification command. -/
structure CommandResult where
  command : String
  exitCode : Option ℤ
  timedOut : Bool
  output : String
  wallTimeMs : ℕ

/-- Source: `verification-runner.ts` `VerificationResult`. -/
structure VerificationResult where
  passed : Bool
  commandResults : List CommandResult

/-- The arguments of `verifier.run`. -/
structure RunVerification where
  workspacePath : String
  commands : List String
  timeoutSeconds : Option ℕ

/-! ## Verdicts -/

/-- `ReviewVerdict["verdict"]`. -/
inductive Verdict
  | approved
  | changesRequested
  | rejected
  deriving DecidableEq, Repr

/-- The literal of a verdict. -/
def Verdict.text : Verdict → String
  | .approved => "approved"
  | .changesRequested => "changes_requested"
  | .rejected => "rejected"

/-- How much a comment matters. -/
inductive Severity
  | mustFix
  | shouldFix
  | nit
  deriving DecidableEq, Repr

/-- The literal of a severity. -/
def Severity.text : Severity → String
  | .mustFix => "must_fix"
  | .shouldFix => "should_fix"
  | .nit => "nit"

/-- A comment of a reviewer. -/
structure ReviewComment where
  path : Option String
  line : Option ℕ
  severity : Severity
  comment : String
  deriving DecidableEq, Repr

/-- Source: `types.ts` `ReviewVerdict`. -/
structure ReviewVerdict where
  verdict : Verdict
  summary : String
  comments : List ReviewComment
  deriving DecidableEq, Repr

/-- A comment as JSON. -/
def ReviewComment.toJson (c : ReviewComment) : Json :=
  .obj (writeOptional Codec.string "path" c.path ++ writeOptional Codec.natural "line" c.line ++
    [("severity", .str c.severity.text), ("comment", .str c.comment)])

/-- A verdict as JSON. -/
def ReviewVerdict.toJson (v : ReviewVerdict) : Json :=
  .obj [("schema_version", .str "agent-workflow/1"), ("verdict", .str v.verdict.text),
    ("summary", .str v.summary), ("comments", .arr (v.comments.map ReviewComment.toJson))]

/-- Source: `review-verdict-parser.ts` `ReviewVerdictParseResult`; the only reason tag is
`reviewer_unusable`. -/
structure ReviewVerdictParseResult where
  verdict : ReviewVerdict
  reviewerUnusable : Bool
  unusableRawText : Option String
  errorMessage : Option String

/-! ## The services -/

/-- The functions of the platform. -/
structure Platform where
  json : JsonText
  /-- `JSON.stringify(value)`. -/
  stringify : Json → String
  sha256hex : String → String
  /-- `path.join`. -/
  pathJoin : List String → String
  /-- `new RegExp(pattern, "i").test(text)`, which throws on an invalid pattern. -/
  regExpTest : (pattern text : String) → Except Err Bool

/-- Source: `orchestrator-v1.ts` `V1RunTaskServices`, without the event log and the run store. The
parser is `reviewVerdictParser ?? parseReviewVerdict`. -/
structure V1RunTaskServices where
  platform : Platform
  artifactStore : ArtifactStore
  sandboxProvider : SandboxProvider
  writeTaskCapsule : WriteCapsule → ServiceM TaskCapsuleWriteResult
  writeReviewBrief : WriteBrief → ServiceM ReviewBriefWriteResult
  runAdapter : RunAgent → ServiceM AgentProcessResult
  runVerifier : RunVerification → ServiceM VerificationResult
  /-- `handoffManager?.attachToBrief`. -/
  attachToBrief : Option ((workspacePath : String) → HandoffPacket → ServiceM Unit)
  parseReviewVerdict : (workspacePath : String) → ServiceM ReviewVerdictParseResult
  /-- `fs.existsSync`. -/
  existsSync : String → ServiceM Bool
  /-- `fs.readFileSync`. -/
  readFileSync : String → ServiceM String

/-- Whether the signal is aborted where a run reads it: at its entry, where the role's part begins,
and where an exception is caught. An aborted signal stays aborted. -/
structure AbortSignal where
  atEntry : Bool
  atRole : Bool
  atCatch : Bool
  entry_stays : atEntry = true → atRole = true
  role_stays : atRole = true → atCatch = true
  deriving DecidableEq

/-- A signal nobody aborts. -/
def AbortSignal.quiet : AbortSignal := ⟨false, false, false, by simp, by simp⟩

/-! ## Why an agent process failed -/

/-- Source: `official-cli-adapter.ts` `OfficialCliFailureReason`. -/
inductive OfficialCliFailureReason
  | agentTimedOut
  | providerRateLimited
  | providerQuotaExhausted
  | providerAuthFailed
  | agentNonzeroExit
  deriving DecidableEq, Repr

namespace OfficialCliFailureReason

/-- The reason as an implementer's: the literals are the same. -/
def toImplementer : OfficialCliFailureReason → ImplementerFailureReason
  | .agentTimedOut => .agentTimedOut
  | .providerRateLimited => .providerRateLimited
  | .providerQuotaExhausted => .providerQuotaExhausted
  | .providerAuthFailed => .providerAuthFailed
  | .agentNonzeroExit => .agentNonzeroExit

/-- The reason as a reviewer's. -/
def toReviewer : OfficialCliFailureReason → ReviewerUnusableReason
  | .agentTimedOut => .agentTimedOut
  | .providerRateLimited => .providerRateLimited
  | .providerQuotaExhausted => .providerQuotaExhausted
  | .providerAuthFailed => .providerAuthFailed
  | .agentNonzeroExit => .agentNonzeroExit

end OfficialCliFailureReason

/-- Source: `official-cli-adapter.ts` `matchesAnyPattern`: `some` stops at the first match. -/
def matchesAnyPattern (platform : Platform) (stderrTail : String) :
    List String → Except Err Bool
  | [] => pure false
  | pattern :: patterns => do
    let found ← platform.regExpTest pattern stderrTail
    if found = true then pure true else matchesAnyPattern platform stderrTail patterns

/-- Source: `official-cli-adapter.ts` `classifyOfficialCliFailure`, of a v1 profile. -/
def classifyOfficialCliFailure (platform : Platform) (agentProfile : AgentProfileV1)
    (result : AgentProcessResult) : Except Err (Option OfficialCliFailureReason) :=
  if result.timedOut = true then pure (some .agentTimedOut)
  else if result.exitCode = some 0 then pure none
  else do
    let patterns (field : FailureClassification → Option (List String)) : List String :=
      (agentProfile.failureClassification.bind field).getD []
    let rateLimited ← matchesAnyPattern platform result.stderrTail
      (patterns FailureClassification.providerRateLimitedStderr)
    if rateLimited = true then pure (some .providerRateLimited)
    else do
      let quotaExhausted ← matchesAnyPattern platform result.stderrTail
        (patterns FailureClassification.providerQuotaExhaustedStderr)
      if quotaExhausted = true then pure (some .providerQuotaExhausted)
      else do
        let authFailed ← matchesAnyPattern platform result.stderrTail
          (patterns FailureClassification.providerAuthFailedStderr)
        if authFailed = true then pure (some .providerAuthFailed)
        else pure (some .agentNonzeroExit)

end AgentWorkflow
