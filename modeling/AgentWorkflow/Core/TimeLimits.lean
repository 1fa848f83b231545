import AgentWorkflow.Core.OrchestratorV1
import AgentWorkflow.Queue.Worker

/-!
# The time an attempt may take

The lease of a claim is never renewed, so it has to last as long as the attempt it covers. The time
limits of an attempt come from three places: the wall time of the work order, for an implementer's
agent; the profile, for a reviewer's; and one limit for each verification command.

* `agentTimeout`, `verificationLimit` — the limits; `runRole_limited` — a run asks for no other.
* `Attempt` — an attempt within its limits, and how long it takes.
* **`default_lease_covers_iff`** — when the default lease covers every such attempt: the slack of
  60 s must do for all verification commands, and the cap of 3600 s for everything.
-/

namespace AgentWorkflow

open Fallible TaskQueue

/-! ## Limits -/

/-- The seconds after which the agent is killed. Source: `official-cli-adapter.ts`
`ChildProcessOfficialCliAdapter.run`. -/
def RunAgent.timeout (request : RunAgent) : ℚ :=
  request.timeoutSeconds.getD ((request.agentProfile.timeoutSeconds.map Nat.cast).getD 300)

/-- The seconds after which a command is killed. Source: `verification-runner.ts`
`ShellVerificationRunner.run`. -/
def RunVerification.timeout (request : RunVerification) : ℚ :=
  (request.timeoutSeconds.map Nat.cast).getD 300

/-- The limit of the agent of a role. -/
def agentTimeout (role : Role) (workOrder : ParsedWorkOrderV1) (agentProfile : AgentProfileV1) : ℚ :=
  match role with
  | .implementer => workOrder.budget.maxWallTimeMinutes * 60
  | .reviewer => (agentProfile.timeoutSeconds.map Nat.cast).getD 300

/-- The commands that verify an implementation. -/
def verificationCommands (workOrder : ParsedWorkOrderV1) : List String :=
  (workOrder.verification.map Verification.commands).getD []

/-- The limit of each of them. -/
def commandTimeout (workOrder : ParsedWorkOrderV1) : ℚ :=
  ((workOrder.verification.bind Verification.timeoutSeconds).map Nat.cast).getD 300

/-- The limits of all of them; a reviewer verifies nothing. -/
def verificationLimit (role : Role) (workOrder : ParsedWorkOrderV1) : ℚ :=
  match role with
  | .implementer => (verificationCommands workOrder).length * commandTimeout workOrder
  | .reviewer => 0

/-- How long an attempt is allowed to run. -/
def attemptLimit (role : Role) (workOrder : ParsedWorkOrderV1) (agentProfile : AgentProfileV1) : ℚ :=
  agentTimeout role workOrder agentProfile + verificationLimit role workOrder

section limits

variable {role : Role} {workOrder : ParsedWorkOrderV1} {agentProfile : AgentProfileV1}

theorem agentTimeout_nonneg : 0 ≤ agentTimeout role workOrder agentProfile := by
  unfold agentTimeout
  cases role with
  | implementer =>
    have hwall := workOrder.valid.maxWallTimeMinutes
    positivity
  | reviewer => cases agentProfile.timeoutSeconds <;> simp

theorem commandTimeout_nonneg : 0 ≤ commandTimeout workOrder := by
  unfold commandTimeout
  cases workOrder.verification.bind Verification.timeoutSeconds <;> simp

end limits

/-! ## What a run asks for -/

/-- Services that refuse every agent and every verification with other limits. -/
def V1RunTaskServices.limited (services : V1RunTaskServices) (role : Role)
    (workOrder : ParsedWorkOrderV1) (agentProfile : AgentProfileV1) : V1RunTaskServices :=
  { services with
    runAdapter := fun request =>
      if request.timeout = agentTimeout role workOrder agentProfile then
        services.runAdapter request
      else throw (.error "agent with another limit")
    runVerifier := fun request =>
      if role = .implementer ∧ request.commands = verificationCommands workOrder ∧
          request.timeout = commandTimeout workOrder then
        services.runVerifier request
      else throw (.error "verification with another limit") }

namespace OrchestratorV1

variable (services : V1RunTaskServices) (args : RunTaskArgs) (signal : AbortSignal)
  (context : RunContext)

/-- The verification asks for the commands of the work order, with its limit. -/
theorem verify_limited :
    verify (services.limited .implementer args.workOrder args.agentProfile) args context =
      verify services args context := by
  unfold verify
  cases h : args.workOrder.verification with
  | none => rfl
  | some verification =>
    have hcommands : verification.commands = verificationCommands args.workOrder := by
      rw [verificationCommands, h]
      rfl
    have htimeout : (RunVerification.mk context.worktree.workspacePath verification.commands
        verification.timeoutSeconds).timeout = commandTimeout args.workOrder := by
      rw [commandTimeout, h]
      rfl
    have hverifier : (services.limited .implementer args.workOrder args.agentProfile).runVerifier
        ⟨context.worktree.workspacePath, verification.commands, verification.timeoutSeconds⟩ =
          services.runVerifier
            ⟨context.worktree.workspacePath, verification.commands, verification.timeoutSeconds⟩ :=
      if_pos ⟨rfl, hcommands, htimeout⟩
    simp only [hverifier]
    rfl

theorem afterImplementer_limited (capsule : TaskCapsuleWriteResult)
    (agentResult : AgentProcessResult) :
    afterImplementer (services.limited .implementer args.workOrder args.agentProfile) args context
        capsule agentResult =
      afterImplementer services args context capsule agentResult := by
  unfold afterImplementer
  rw [verify_limited]
  rfl

/-- An implementer's agent has the wall time of the work order. -/
theorem implement_limited :
    implement (services.limited .implementer args.workOrder args.agentProfile) args signal context =
      implement services args signal context := by
  have hadapter : ∀ promptFile,
      (services.limited .implementer args.workOrder args.agentProfile).runAdapter
        ⟨args.agentProfile, context.worktree.workspacePath, promptFile,
          some (args.workOrder.budget.maxWallTimeMinutes * 60)⟩ =
      services.runAdapter ⟨args.agentProfile, context.worktree.workspacePath, promptFile,
        some (args.workOrder.budget.maxWallTimeMinutes * 60)⟩ := fun _ => if_pos rfl
  unfold implement
  simp only [hadapter, afterImplementer_limited]
  rfl

/-- A reviewer's agent has the limit of its profile. -/
theorem review_limited (reviewContext : ReviewContextText) :
    review (services.limited .reviewer args.workOrder args.agentProfile) args context
        reviewContext =
      review services args context reviewContext := by
  have htimeout : ∀ promptFile,
      (RunAgent.mk args.agentProfile context.worktree.workspacePath promptFile
        (args.agentProfile.timeoutSeconds.map Nat.cast)).timeout =
      agentTimeout .reviewer args.workOrder args.agentProfile := fun promptFile => by
    unfold RunAgent.timeout agentTimeout
    cases args.agentProfile.timeoutSeconds <;> rfl
  have hadapter : ∀ promptFile,
      (services.limited .reviewer args.workOrder args.agentProfile).runAdapter
        ⟨args.agentProfile, context.worktree.workspacePath, promptFile,
          args.agentProfile.timeoutSeconds.map Nat.cast⟩ =
      services.runAdapter ⟨args.agentProfile, context.worktree.workspacePath, promptFile,
        args.agentProfile.timeoutSeconds.map Nat.cast⟩ := fun promptFile => if_pos (htimeout _)
  unfold review
  simp only [hadapter]
  rfl

/-- **A run asks for an agent and a verification with these limits, and for no others.** -/
theorem runRole_limited :
    runRole (services.limited context.role args.workOrder args.agentProfile) args signal context =
      runRole services args signal context := by
  unfold runRole
  cases context.role with
  | implementer =>
    show runImplementer _ args signal context = runImplementer services args signal context
    unfold runImplementer
    rw [implement_limited]
  | reviewer =>
    show runReviewer _ args signal context = runReviewer services args signal context
    unfold runReviewer
    simp only [review_limited]
    rfl

end OrchestratorV1

/-! ## Attempts within their limits -/

/-- A process that has ended, at the latest when its time was over. -/
structure ProcessRun (timeout : ℚ) where
  seconds : ℚ
  nonneg : 0 ≤ seconds
  within : seconds ≤ timeout
  exitCode : Option ℤ
  timedOut : Bool

namespace ProcessRun

variable {timeout : ℚ}

/-- A process that uses its time to the end, and succeeds. -/
def longest (h : 0 ≤ timeout) : ProcessRun timeout := ⟨timeout, h, le_refl timeout, some 0, false⟩

/-- Whether nothing follows. -/
def failed (p : ProcessRun timeout) : Bool := p.exitCode ≠ some 0 || p.timedOut

/-- The commands that are run: none after one that failed. Source: `verification-runner.ts`
`ShellVerificationRunner.run`. -/
def untilFailure : List (ProcessRun timeout) → List (ProcessRun timeout)
  | [] => []
  | p :: ps => if p.failed = true then [p] else p :: untilFailure ps

/-- The seconds that processes take, one after the other. -/
def total (ps : List (ProcessRun timeout)) : ℚ := (ps.map ProcessRun.seconds).sum

theorem total_untilFailure_le (ps : List (ProcessRun timeout)) :
    total (untilFailure ps) ≤ ps.length * timeout := by
  induction ps with
  | nil => simp [total, untilFailure]
  | cons p ps ih =>
    have hnonneg : 0 ≤ (ps.length : ℚ) * timeout :=
      mul_nonneg (Nat.cast_nonneg _) (p.nonneg.trans p.within)
    have hcons : ((p :: ps).length : ℚ) * timeout = timeout + ps.length * timeout := by
      rw [List.length_cons]
      push_cast
      ring
    rw [hcons]
    unfold untilFailure
    split
    · have hsingle : total [p] = p.seconds := by simp [total]
      rw [hsingle]
      linarith [p.within]
    · have hrest : total (p :: untilFailure ps) = p.seconds + total (untilFailure ps) := rfl
      rw [hrest]
      linarith [p.within]

theorem total_longest (h : 0 ≤ timeout) (n : ℕ) :
    total (untilFailure (List.replicate n (longest h))) = n * timeout := by
  induction n with
  | zero => simp [total, untilFailure]
  | succ n ih =>
    have hcons : total (untilFailure (List.replicate (n + 1) (longest h))) =
        timeout + total (untilFailure (List.replicate n (longest h))) := rfl
    rw [hcons, ih]
    push_cast
    ring

end ProcessRun

/-- An attempt whose processes keep to their limits, from the start of its agent on. -/
structure Attempt (role : Role) (workOrder : ParsedWorkOrderV1)
    (agentProfile : AgentProfileV1) where
  agent : ProcessRun (agentTimeout role workOrder agentProfile)
  /-- What each verification command would do, were it run. -/
  commands : List (ProcessRun (commandTimeout workOrder))
  length_commands : commands.length = (verificationCommands workOrder).length

namespace Attempt

variable {role : Role} {workOrder : ParsedWorkOrderV1} {agentProfile : AgentProfileV1}

/-- How long an attempt takes: only an implementer whose agent has not failed is verified. -/
def seconds (a : Attempt role workOrder agentProfile) : ℚ :=
  a.agent.seconds +
    if role = .implementer ∧ a.agent.failed = false then
      ProcessRun.total (ProcessRun.untilFailure a.commands)
    else 0

/-- The attempt that uses all of its time. -/
def longest : Attempt role workOrder agentProfile where
  agent := .longest agentTimeout_nonneg
  commands := List.replicate (verificationCommands workOrder).length
    (.longest commandTimeout_nonneg)
  length_commands := List.length_replicate

theorem seconds_le (a : Attempt role workOrder agentProfile) :
    a.seconds ≤ attemptLimit role workOrder agentProfile := by
  have hagent := a.agent.within
  have hcommands := ProcessRun.total_untilFailure_le a.commands
  rw [a.length_commands] at hcommands
  have hnonneg : 0 ≤ verificationLimit role workOrder := by
    unfold verificationLimit
    cases role with
    | implementer => exact mul_nonneg (Nat.cast_nonneg _) commandTimeout_nonneg
    | reviewer => exact le_refl 0
  unfold seconds attemptLimit
  split
  next h =>
    obtain ⟨rfl, -⟩ := h
    exact add_le_add hagent hcommands
  next => linarith

theorem seconds_longest : (longest : Attempt role workOrder agentProfile).seconds =
    attemptLimit role workOrder agentProfile := by
  have hnonneg : 0 ≤ commandTimeout workOrder := commandTimeout_nonneg
  have hcommands := ProcessRun.total_longest hnonneg (verificationCommands workOrder).length
  unfold seconds attemptLimit verificationLimit
  cases role with
  | implementer =>
    rw [if_pos ⟨rfl, rfl⟩]
    exact congrArg _ hcommands
  | reviewer =>
    rw [if_neg fun h => nomatch h.1]
    rfl

end Attempt

/-! ## The default lease -/

/-- The default lease covers what the role may take: the commands of an implementer take no more
than the slack, and everything no more than the cap; the agent of a reviewer no more than the lease
of the implementer. -/
def LeaseCovers (role : Role) (workOrder : ParsedWorkOrderV1) (agentProfile : AgentProfileV1) :
    Prop :=
  match role with
  | .implementer =>
    (verificationCommands workOrder).length * commandTimeout workOrder ≤ 60 ∧
      workOrder.budget.maxWallTimeMinutes * 60 +
        (verificationCommands workOrder).length * commandTimeout workOrder ≤ 3600
  | .reviewer =>
    (agentProfile.timeoutSeconds.map Nat.cast).getD 300 ≤
        workOrder.budget.maxWallTimeMinutes * 60 + 60 ∧
      (agentProfile.timeoutSeconds.map Nat.cast).getD 300 ≤ (3600 : ℚ)

theorem attemptLimit_le_iff (role : Role) (workOrder : ParsedWorkOrderV1)
    (agentProfile : AgentProfileV1) :
    attemptLimit role workOrder agentProfile ≤ defaultLeaseDurationSeconds workOrder ↔
      LeaseCovers role workOrder agentProfile := by
  unfold attemptLimit defaultLeaseDurationSeconds LeaseCovers agentTimeout verificationLimit
  cases role with
  | implementer =>
    rw [le_min_iff, and_comm, add_le_add_iff_left]
  | reviewer => rw [add_zero, le_min_iff, and_comm]

/-- **When the default lease covers an attempt.** Whatever the services do, a run asks for no other
limits than these; the lease is at least as long as they are together, and no attempt that keeps to
them outlives it, exactly when `LeaseCovers`. -/
theorem default_lease_covers_iff (services : V1RunTaskServices) (args : RunTaskArgs)
    (signal : AbortSignal) (context : OrchestratorV1.RunContext) :
    OrchestratorV1.runRole (services.limited context.role args.workOrder args.agentProfile) args
        signal context =
      OrchestratorV1.runRole services args signal context ∧
    (attemptLimit context.role args.workOrder args.agentProfile ≤
        defaultLeaseDurationSeconds args.workOrder ↔
      LeaseCovers context.role args.workOrder args.agentProfile) ∧
    ((∀ a : Attempt context.role args.workOrder args.agentProfile,
        a.seconds ≤ defaultLeaseDurationSeconds args.workOrder) ↔
      LeaseCovers context.role args.workOrder args.agentProfile) := by
  have hlimit := attemptLimit_le_iff context.role args.workOrder args.agentProfile
  refine ⟨OrchestratorV1.runRole_limited .., hlimit, ?_⟩
  rw [← hlimit]
  refine ⟨fun h => ?_, fun h a => a.seconds_le.trans h⟩
  rw [← Attempt.seconds_longest]
  exact h .longest

namespace Sample

/-- The small task with one verification command, of 300 s as no limit is given. -/
def verified : ParsedWorkOrderV1 :=
  { workOrder with
    verification := some ⟨["npm test"], none⟩
    valid := by decide +kernel }

end Sample

/-- The lease is 1860 s, the attempt may take 1800 s and then 300 s. -/
theorem default_lease_too_short :
    ¬ ∀ (role : Role) (workOrder : ParsedWorkOrderV1) (agentProfile : AgentProfileV1),
      attemptLimit role workOrder agentProfile ≤ defaultLeaseDurationSeconds workOrder := by
  intro h
  have hlimit := h .implementer Sample.verified
    (Sample.agent "alice" (by decide) .implementer).profile
  exact absurd hlimit (by decide +kernel)

end AgentWorkflow
