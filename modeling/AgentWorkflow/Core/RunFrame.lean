import AgentWorkflow.Core.OrchestratorV1
import AgentWorkflow.Scheduling.LogFrame

/-!
# A run and the log

One pass over `runTaskOnce`: what it appends, which services it calls, and how it writes its row.

* `RunEvent`, `RunCall`, `RunWrite` — an event of a run, a call of its services, a write of its row,
  with the ids of the attempt.
* `RunFrame` — an invariant that survives them.
* **`RunFrame.runTaskOnce`** — it survives a run, whatever the services do and however the run
  ends; the outcome names the run.
-/

namespace AgentWorkflow

open Fallible

namespace OrchestratorV1

/-! ## What a run may do -/

/-- The types a run appends. -/
def runTypes : List EventType :=
  [.taskAssigned, .runCreated, .runStarted, .artifactPublished, .verificationStarted,
    .verificationPassed, .verificationFailed, .runCompleted, .runFailed, .agentSpawned,
    .reviewRequested, .reviewCompleted, .taskEdgeSelected]

/-- The ids and the URIs an event of a run carries are not blank. -/
structure RunLegible (services : V1RunTaskServices) (args : RunTaskArgs) : Prop where
  task : blank args.entry.taskId = false
  agent : blank args.agentProfile.agentId = false
  uri : ∀ uri, services.artifactStore.Saves uri → blank uri = false

/-- An event of a run of these arguments. -/
structure RunEvent (services : V1RunTaskServices) (args : RunTaskArgs) (e : EventEnvelope) :
    Prop where
  of : e.Of runTypes args.entry.projectId (some args.entry.taskId) (RunLegible services args)
  runId : ∃ id, e.runId = some ("R-" ++ id)
  agentId : e.agentId = some args.agentProfile.agentId

/-- A call of a service that stores no artifact. -/
inductive OtherCall (services : V1RunTaskServices) : (α : Type) → ServiceM α → Prop
  | prepareWorkspace (p : PrepareWorkspace) :
    OtherCall services PreparedWorktree (services.sandboxProvider.prepareWorkspace p)
  | diff (path : String) : OtherCall services String (services.sandboxProvider.diff path)
  | applyDiff (path diffText : String) :
    OtherCall services SandboxDiffApplyResult (services.sandboxProvider.applyDiff path diffText)
  | writeTaskCapsule (p : WriteCapsule) :
    OtherCall services TaskCapsuleWriteResult (services.writeTaskCapsule p)
  | writeReviewBrief (p : WriteBrief) :
    OtherCall services ReviewBriefWriteResult (services.writeReviewBrief p)
  | runAdapter (p : RunAgent) : OtherCall services AgentProcessResult (services.runAdapter p)
  | runVerifier (p : RunVerification) :
    OtherCall services VerificationResult (services.runVerifier p)
  | attachToBrief {attach : String → HandoffPacket → ServiceM Unit}
    (hattach : services.attachToBrief = some attach) (path : String) (packet : HandoffPacket) :
    OtherCall services Unit (attach path packet)
  | parseReviewVerdict (path : String) :
    OtherCall services ReviewVerdictParseResult (services.parseReviewVerdict path)
  | existsSync (path : String) : OtherCall services Bool (services.existsSync path)
  | readFileSync (path : String) : OtherCall services String (services.readFileSync path)

/-- The service calls of a run: its artifacts are saved under the project and the task of the
entry, and none of them is a handoff packet. -/
inductive RunCall (services : V1RunTaskServices) (args : RunTaskArgs) :
    (α : Type) → ServiceM α → Prop
  | saveText (t : SaveText) (hproject : t.projectId = args.entry.projectId)
    (htask : t.taskId = args.entry.taskId) (hkind : t.kind ≠ .handoffPacket) :
    RunCall services args ArtifactRef (services.artifactStore.saveText t)
  | saveFile (t : SaveFile) (hproject : t.projectId = args.entry.projectId)
    (htask : t.taskId = args.entry.taskId) (hkind : t.kind ≠ .handoffPacket) :
    RunCall services args ArtifactRef (services.artifactStore.saveFile t)
  | other {α : Type} {m : ServiceM α} (hm : OtherCall services α m) : RunCall services args α m

/-- The writes of the row of a run. -/
inductive RunWrite (args : RunTaskArgs) (runs : Table RunRecord.id) :
    Table RunRecord.id → Prop
  | create {id : String} {runs' : Table RunRecord.id}
    (h : runs.insert (newRun args ("R-" ++ id)) = some runs') : RunWrite args runs runs'
  | update {runId : String} {status : RunStatus} {patch : RunStore.Patch}
    {hf : ∀ r, (patch.apply status r).id = r.id}
    (hparent : patch.parentRunId = none ∨ patch.parentRunId = args.parentRunId)
    (hpacket : patch.handoffPacketUri = none ∨ patch.handoffPacketUri = args.handoffPacketUri) :
    RunWrite args runs (runs.update runId (patch.apply status) hf)

/-- What survives a run. -/
structure RunFrame (services : V1RunTaskServices) (args : RunTaskArgs) (K : String → Prop)
    (I : Backend → Prop) : Prop where
  log : LogFrame (RunEvent services args) (RunCall services args) K I
  runs : ∀ b runs, RunWrite args b.agentRuns runs → I b → I { b with agentRuns := runs }

/-- The ids of a run of these arguments. -/
def RunOf (args : RunTaskArgs) (ids : RunIds) : Prop := ∃ id, ids = runIds args ("R-" ++ id)

/-- The outcome names a run. -/
def Names (outcome : RunOutcome) : Prop := ∃ id, outcome.runId = "R-" ++ id

namespace RunFrame

variable {services : V1RunTaskServices} {args : RunTaskArgs} {K : String → Prop}
  {I : Backend → Prop} {ids : RunIds} {context : RunContext} {α : Type} {Q : α → Prop}

/-! ## Statements -/

section statements

variable (h : RunFrame services args K I)

include h

theorem create {record : RunRecord} (hrecord : ∃ id, record = newRun args ("R-" ++ id)) :
    Maintains I (RunStore.create record) fun _ => True := by
  refine .bind h.log.storageCall fun _ _ => fun env b hb => ?_
  obtain ⟨id, rfl⟩ := hrecord
  simp only [ensures_bind, ensures_get]
  split
  next runs hruns => exact ⟨trivial, h.runs b runs (.create hruns) hb⟩
  next => exact hb

theorem getRun {runId : String} : Maintains I (RunStore.get runId) fun _ => True :=
  .bind h.log.storageCall fun _ _ => .bind (.get fun _ _ => trivial) fun _ _ => .pure trivial

theorem updateStatus {runId : String} {status : RunStatus} {patch : RunStore.Patch}
    (hparent : patch.parentRunId = none ∨ patch.parentRunId = args.parentRunId)
    (hpacket : patch.handoffPacketUri = none ∨ patch.handoffPacketUri = args.handoffPacketUri) :
    Maintains I (RunStore.updateStatus runId status patch) fun _ => True := by
  refine .bind h.getRun fun existing _ => ?_
  split
  · exact .throw
  · refine .bind h.log.storageCall fun _ _ => .modify fun b hb => ?_
    exact h.runs b _ (.update hparent hpacket) hb

/-- An event of the run. -/
theorem appendEvent {eventType : EventType} {payload : List (String × Json)}
    (hids : RunOf args ids) (htype : eventType ∈ runTypes)
    (hpayload : ∀ id createdAt, RunLegible services args → (assertV1PayloadFields
      (taskEvent ids.projectId ids.taskId eventType (some ids.runId) (some ids.agentId) payload id
        createdAt)).isOk = true) :
    Maintains I (appendEvent ids eventType payload) fun _ => True := by
  refine h.log.appendTaskEvent fun id createdAt => ?_
  obtain ⟨runId, rfl⟩ := hids
  refine ⟨⟨htype, rfl, rfl, fun hlegible hproject => ?_⟩, ⟨runId, rfl⟩, rfl⟩
  refine taskEvent_valid hproject (fun i _ => ?_) (hpayload id createdAt hlegible)
  have hrun : blank ("R-" ++ runId) = false := blank_append _ (by decide)
  cases i with
  | taskId => exact nonBlank_some.mpr hlegible.task
  | runId => exact nonBlank_some.mpr hrun
  | agentId => exact nonBlank_some.mpr hlegible.agent

/-- An event of a type whose payload is not looked at. -/
theorem appendPlain {eventType : EventType} {payload : List (String × Json)}
    (hids : RunOf args ids) (htype : eventType ∈ runTypes)
    (hplain : ∀ e : EventEnvelope, e.eventType = eventType → assertV1PayloadFields e = .ok ()) :
    Maintains I (OrchestratorV1.appendEvent ids eventType payload) fun _ => True :=
  h.appendEvent hids htype fun id createdAt _ => by
    rw [hplain _ rfl]
    rfl

theorem publishArtifact {artifact : ArtifactRef} (hids : RunOf args ids) :
    Maintains I (publishArtifact ids artifact) fun a => a = artifact := by
  refine .bind (h.appendPlain hids (by decide) fun e he => ?_) fun _ _ => .pure rfl
  simp [assertV1PayloadFields, he]

theorem other {m : ServiceM α} (hm : OtherCall services α m) :
    Maintains I (onFiles m) fun _ => True := (h.log.onFiles (.other hm)).any

theorem saveText {kind : ArtifactKind} {filename content summary : String}
    (hids : RunOf args ids) (hkind : kind ≠ .handoffPacket) :
    Maintains I (saveTextArtifact services ids kind filename content summary)
      fun artifact => services.artifactStore.Saves artifact.uri := by
  have hcall : RunCall services args ArtifactRef
      (services.artifactStore.saveText (textOf ids kind filename content summary)) := by
    obtain ⟨id, rfl⟩ := hids
    exact .saveText _ rfl rfl hkind
  refine .bind (h.log.onFiles hcall) fun artifact hsave => ?_
  obtain ⟨env, f, f', hsave⟩ := hsave
  refine (h.publishArtifact hids).mono fun a ha => ?_
  rw [ha]
  exact ⟨_, env, f, artifact, f', hsave, rfl⟩

theorem saveFile {kind : ArtifactKind} {filename sourcePath summary : String}
    (hids : RunOf args ids) (hkind : kind ≠ .handoffPacket) :
    Maintains I (saveFileArtifact services ids kind filename sourcePath summary)
      fun _ => True := by
  refine .bind (h.log.onFiles ?_) fun _ _ => (h.publishArtifact hids).any
  obtain ⟨id, rfl⟩ := hids
  exact .saveFile _ rfl rfl hkind

theorem emitAgentSpawned (hids : RunOf args ids) :
    Maintains I (emitAgentSpawned ids) fun _ => True :=
  h.appendEvent hids (by decide) fun id createdAt _ => rfl

theorem selectEdge {source reason : String} {edge : EdgeTo} (hids : RunOf args ids)
    (hsource : blank source = false) (hreason : blank reason = false) :
    Maintains I (selectEdge ids source edge reason) fun _ => True := by
  refine h.appendEvent hids (by decide) fun id createdAt _ => ?_
  have hedge : blank edge.text = false := by
    cases edge <;> decide
  simp [assertV1PayloadFields, taskEvent, isOk_bind_iff, isOk_demand, payloadText, List.lookup_cons,
    nonBlank, hsource, hedge, hreason]

omit h in
/-- Every reason of a run is one the log knows. -/
theorem runFailed_valid {e : EventEnvelope} {reason : RunFailedReason}
    (htype : e.eventType = .runFailed) (hpayload : e.payload = [("reason", .str reason.text)]) :
    (assertV1PayloadFields e).isOk = true := by
  have hreason : reason.text ∈ runFailedReasons := by
    cases reason <;> decide
  simp [assertV1PayloadFields, htype, hpayload, isOk_demand, payloadText, hreason]

theorem finishRun {finish : Finish} (hids : RunOf args ids) :
    Maintains I (finishRun ids finish) fun _ => True := by
  refine .bind h.log.dateNow fun _ _ => .bind (h.updateStatus (.inl rfl) (.inl rfl)) fun _ _ => ?_
  cases finish with
  | succeeded =>
    refine h.appendPlain hids (by decide) fun e he => ?_
    simp [assertV1PayloadFields, show e.eventType = .runCompleted from he]
  | failed reason =>
    exact h.appendEvent hids (show EventType.runFailed ∈ runTypes by decide) fun id createdAt _ =>
      runFailed_valid rfl rfl

omit h in
/-- An exception as a value. -/
theorem attempt {m : BackendM α} (hm : Maintains I m Q) :
    Maintains I (WorkerTaskHandler.attempt m) fun _ => True :=
  .tryCatch (hm.map fun _ _ => trivial) fun _ => .pure trivial

/-! ## The row of a run -/

theorem prepareRun {startedAt : ℕ} (hids : RunOf args ids) :
    Maintains I (prepareRun services args ids startedAt) fun context => context.ids = ids := by
  refine .bind (h.other (.prepareWorkspace _)) fun worktree _ => ?_
  refine .bind (h.saveText hids (by decide)) fun manifestArtifact _ => ?_
  refine .bind (h.updateStatus (.inr rfl) (.inr rfl)) fun _ _ => ?_
  refine .bind (h.appendPlain hids (by decide) fun e he => ?_) fun _ _ => .pure rfl
  simp [assertV1PayloadFields, he]

theorem createRunContext : Maintains I (createRunContext services args)
    fun created => (∀ failure, created = .error failure → ∃ id, failure.runId = "R-" ++ id) ∧
      ∀ context, created = .ok context → RunOf args context.ids := by
  refine .bind h.log.uuid8 fun id _ => ?_
  have hids : RunOf args (runIds args ("R-" ++ id)) := ⟨id, rfl⟩
  refine .bind h.log.dateNow fun startedAt _ => .bind (h.create ⟨id, rfl⟩) fun _ _ => ?_
  refine .bind (h.appendEvent hids (by decide) fun _ _ _ => ?_) fun _ _ => ?_
  · cases hrole : args.entry.nextRole <;>
      simp [assertV1PayloadFields, taskEvent, assertRole, isOk_demand, payloadText, Role.text]
  refine .bind (h.appendPlain hids (by decide) fun e he => ?_) fun _ _ => ?_
  · simp [assertV1PayloadFields, he]
  refine .tryCatch ((h.prepareRun hids).map fun context hcontext => ?_) fun _ => ?_
  · refine ⟨by simp, ?_⟩
    rintro _ ⟨⟩
    rw [hcontext]
    exact hids
  · refine .bind (attempt (.bind h.log.dateNow fun _ _ =>
      h.updateStatus (.inl rfl) (.inl rfl))) fun _ _ => ?_
    refine .bind (attempt (h.appendEvent hids (by decide) fun id createdAt _ =>
      runFailed_valid rfl rfl)) fun _ _ => .pure ⟨?_, by simp⟩
    rintro _ ⟨⟩
    exact ⟨id, rfl⟩

theorem cancelInterruptedRun {runId : String} :
    Maintains I (cancelInterruptedRun runId) fun _ => True := by
  refine .bind h.getRun fun run _ => ?_
  split
  · exact .pure trivial
  · exact .ite (fun _ => .bind h.log.dateNow fun _ _ => h.updateStatus (.inl rfl) (.inl rfl))
      fun _ => .pure trivial

end statements

/-! ## The implementer -/

/-- An invariant of the backend, in an attempt. -/
def inAttempt (I : Backend → Prop) (s : Backend × PublishedArtifacts) : Prop := I s.1

section implementer

theorem lift {m : BackendM α} (hm : Maintains I m Q) : Maintains (inAttempt I) (lift m) Q :=
  .zoom fun s hs env => hm env s.1 hs

theorem publish {f : PublishedArtifacts → PublishedArtifacts} :
    Maintains (inAttempt I) (publish f) fun _ => True := .modify fun _ hs => hs

theorem published : Maintains (inAttempt I) published fun _ => True :=
  .bind (.get fun _ _ => trivial) fun _ _ => .pure trivial

theorem runAttempt {m : AttemptM α} (hm : Maintains (inAttempt I) m Q) :
    Maintains I (runAttempt m) fun x => ∀ a, x.1 = .ok a → Q a := by
  intro env b hb
  have hrun := hm env (b, {}) hb
  unfold Ensures at hrun ⊢
  unfold OrchestratorV1.runAttempt
  cases hres : m env (b, {}) with
  | ok a s =>
    rw [hres] at hrun
    refine ⟨?_, hrun.2⟩
    rintro _ ⟨⟩
    exact hrun.1
  | error e s =>
    rw [hres] at hrun
    refine ⟨?_, hrun⟩
    rintro _ ⟨⟩

variable (h : RunFrame services args K I) (hids : RunOf args context.ids)

include h

theorem attachHandoff : Maintains I (attachHandoff services args context) fun _ => True := by
  unfold OrchestratorV1.attachHandoff
  split
  · split
    · exact .throw
    next attach hattach => exact h.other (.attachToBrief hattach _ _)
  · exact .pure trivial

include hids

omit h in
theorem names : ∃ id, context.ids.runId = "R-" ++ id := by
  obtain ⟨id, hid⟩ := hids
  exact ⟨id, by rw [hid]; rfl⟩

theorem publishFinalReport :
    Maintains (inAttempt I) (publishFinalReport services context) fun _ => True := by
  refine .bind (lift (h.other (.existsSync _))) fun found _ => .ite (fun _ => ?_)
    fun _ => .pure trivial
  refine .bind (lift (h.other (.readFileSync _))) fun finalReport _ => .ite (fun _ => ?_)
    fun _ => .pure trivial
  exact .bind (lift (h.saveFile hids (by decide))) fun _ _ => publish

theorem publishOutputs {capsule : TaskCapsuleWriteResult} {agentResult : AgentProcessResult} :
    Maintains (inAttempt I) (publishOutputs services context capsule agentResult)
      fun _ => True := by
  refine .bind (lift (h.saveText hids (by decide))) fun _ _ => .bind publish fun _ _ => ?_
  refine .bind (lift (h.saveText hids (by decide))) fun _ _ => .bind publish fun _ _ => ?_
  refine .bind (lift (h.other (.diff _))) fun _ _ => ?_
  refine .bind (lift (h.saveText hids (by decide))) fun _ _ => .bind publish fun _ _ => ?_
  refine .bind (h.publishFinalReport hids) fun _ _ => ?_
  exact .bind (lift (h.saveText hids (by decide))) fun _ _ => .pure trivial

theorem verify : Maintains (inAttempt I) (verify services args context) fun _ => True := by
  unfold OrchestratorV1.verify
  split
  · exact .pure trivial
  refine .ite (fun _ => .pure trivial) fun _ => ?_
  refine .bind (lift (h.appendPlain hids (by decide) fun e he => ?_)) fun _ _ => ?_
  · simp [assertV1PayloadFields, he]
  refine .bind (lift (h.other (.runVerifier _))) fun result _ => ?_
  refine .bind (lift (h.saveText hids (by decide))) fun _ _ => .bind publish fun _ _ => ?_
  refine .bind (lift (h.appendPlain hids ?_ fun e he => ?_)) fun _ _ => .pure trivial
  · split <;> decide
  · split at he <;> simp [assertV1PayloadFields, he]

theorem finishImplementer {diff : ArtifactRef} {verificationPassed : Bool} :
    Maintains (inAttempt I) (finishImplementer args context diff verificationPassed) Names := by
  refine .bind published fun _ _ => .ite (fun _ => ?_) fun _ => ?_
  · refine .bind (lift (h.finishRun hids)) fun _ _ => ?_
    refine .bind (lift (h.selectEdge hids (by decide) ?_)) fun _ _ => .pure (names hids)
    split <;> decide
  · exact .bind (lift (h.finishRun hids)) fun _ _ => .pure (names hids)

theorem afterImplementer {capsule : TaskCapsuleWriteResult} {agentResult : AgentProcessResult} :
    Maintains (inAttempt I) (afterImplementer services args context capsule agentResult)
      Names := by
  refine .bind (h.publishOutputs hids) fun diff _ => ?_
  refine .bind (lift LogFrame.ofExcept) fun agentReason _ => ?_
  split
  · refine .bind published fun _ _ => .bind (lift (h.finishRun hids)) fun _ _ => ?_
    exact .pure (names hids)
  · exact .bind (h.verify hids) fun _ _ => h.finishImplementer hids

theorem implement {signal : AbortSignal} :
    Maintains (inAttempt I) (implement services args signal context) Names := by
  refine .bind (lift LogFrame.throwIfAborted) fun _ _ => ?_
  refine .bind (lift (h.other (.writeTaskCapsule _))) fun capsule _ => ?_
  refine .bind (lift h.attachHandoff) fun _ _ => .bind (lift (h.emitAgentSpawned hids)) fun _ _ => ?_
  refine .bind (lift (attempt (h.other (.runAdapter _)))) fun agentResult _ => ?_
  split
  · refine .ite (fun _ => .throw) fun _ => ?_
    exact .bind (lift (h.finishRun hids)) fun _ _ => .pure (names hids)
  · exact h.afterImplementer hids

theorem runImplementer {signal : AbortSignal} :
    Maintains I (runImplementer services args signal context) Names := by
  refine .bind (runAttempt (h.implement hids)) fun x hx => ?_
  obtain ⟨result, artifacts⟩ := x
  cases result with
  | ok outcome => exact .pure (hx outcome rfl)
  | error e =>
    refine .ite (fun _ => .throw) fun _ => ?_
    exact .bind (h.finishRun hids) fun _ _ => .pure (names hids)

end implementer

/-! ## The reviewer -/

section reviewer

variable (h : RunFrame services args K I) (hids : RunOf args context.ids)

include h hids

theorem applyReviewDiff {reviewContext : ReviewContextText} :
    Maintains I (applyReviewDiff services context reviewContext)
      fun refused => ∀ outcome, refused = some outcome → Names outcome := by
  refine .bind (h.other (.applyDiff _ _)) fun applyResult _ => .ite (fun _ => .pure (by simp))
    fun _ => ?_
  refine .bind (Q := fun _ => True) ?_ fun artifacts _ => ?_
  · refine .bind (h.saveText hids (by decide)) fun _ _ => ?_
    refine .bind (h.saveText hids (by decide)) fun _ _ => ?_
    exact .bind (h.saveText hids (by decide)) fun _ _ => .pure trivial
  · refine .bind (h.finishRun hids) fun _ _ => ?_
    refine .bind (h.selectEdge hids (by decide) (by decide)) fun _ _ => .pure ?_
    rintro _ ⟨⟩
    exact names hids

theorem readVerdict : Maintains I (readVerdict services context)
    fun x => services.artifactStore.Saves x.2.uri := by
  refine .bind (h.other (.parseReviewVerdict _)) fun parsed _ => ?_
  refine .bind (h.saveText hids (by decide)) fun verdictArtifact huri => ?_
  split
  · exact .pure huri
  · exact .bind (h.saveText hids (by decide)) fun _ _ => .pure huri

theorem finishReview {verdict : ReviewVerdict} {verdictArtifact : ArtifactRef}
    (huri : services.artifactStore.Saves verdictArtifact.uri) :
    Maintains I (finishReview context verdict verdictArtifact) Names := by
  refine .bind (h.finishRun hids) fun _ _ => ?_
  refine .bind (h.appendEvent hids (by decide) fun id createdAt hlegible => ?_) fun _ _ => ?_
  · have hblank : blank verdictArtifact.uri = false := hlegible.uri _ huri
    have htext : verdict.verdict.text = "approved" ∨
        verdict.verdict.text = "changes_requested" ∨ verdict.verdict.text = "rejected" := by
      cases verdict.verdict <;> simp [Verdict.text]
    simp [assertV1PayloadFields, taskEvent, isOk_bind_iff, isOk_demand, payloadText, List.lookup_cons,
      nonBlank, hblank, htext]
  · refine .bind (h.selectEdge hids (by decide) ?_) fun _ _ => .pure ?_
    · cases verdict.verdict <;> decide
    · cases verdict.verdict <;> exact names hids

theorem afterReviewer {agentResult : AgentProcessResult} :
    Maintains I (afterReviewer services args context agentResult) Names := by
  refine .bind (h.saveText hids (by decide)) fun _ _ => ?_
  refine .bind (h.saveText hids (by decide)) fun _ _ => ?_
  refine .bind LogFrame.ofExcept fun agentReason _ => ?_
  split
  · exact .bind (h.finishRun hids) fun _ _ => .pure (names hids)
  · refine .bind (h.readVerdict hids) fun x hx => ?_
    refine .ite (fun _ => .bind (h.finishRun hids) fun _ _ => .pure (names hids)) fun _ => ?_
    exact h.finishReview hids hx

theorem review {reviewContext : ReviewContextText} :
    Maintains I (review services args context reviewContext) Names := by
  refine .bind (h.other (.writeReviewBrief _)) fun brief _ => ?_
  refine .bind (h.saveFile hids (by decide)) fun _ _ => ?_
  refine .bind (h.saveFile hids (by decide)) fun _ _ => ?_
  refine .bind (h.appendPlain hids (by decide) fun e he => ?_) fun _ _ => ?_
  · simp [assertV1PayloadFields, he]
  refine .bind (h.emitAgentSpawned hids) fun _ _ => ?_
  refine .bind (attempt (h.other (.runAdapter _))) fun agentResult _ => ?_
  split
  · refine .ite (fun _ => .throw) fun _ => ?_
    exact .bind (h.finishRun hids) fun _ _ => .pure (names hids)
  · exact h.afterReviewer hids

theorem runReviewer {signal : AbortSignal} :
    Maintains I (runReviewer services args signal context) Names := by
  refine .bind LogFrame.throwIfAborted fun _ _ => ?_
  split
  · exact .bind (h.finishRun hids) fun _ _ => .pure (names hids)
  refine .bind (h.applyReviewDiff hids) fun refused hrefused => ?_
  split
  · exact .pure (hrefused _ rfl)
  · refine .tryCatch (h.review hids) fun e => .ite (fun _ => .throw) fun _ => ?_
    exact .bind (h.finishRun hids) fun _ _ => .pure (names hids)

end reviewer

/-! ## A run -/

/-- **An invariant of the frame survives a run**, and the outcome names the run. -/
theorem runTaskOnce (h : RunFrame services args K I) {signal : AbortSignal} :
    Maintains I (runTaskOnce services signal args) Names := by
  refine .bind LogFrame.throwIfAborted fun _ _ => ?_
  refine .bind h.createRunContext fun created hcreated => ?_
  split
  next failure =>
    obtain ⟨id, hid⟩ := hcreated.1 failure rfl
    refine .pure ⟨id, ?_⟩
    unfold creationFailed
    split <;> exact hid
  next context =>
    have hids : RunOf args context.ids := hcreated.2 context rfl
    refine .tryCatch (Q := Names) ?_ fun e => ?_
    · unfold runRole
      split
      · exact h.runImplementer hids
      · exact h.runReviewer hids
    · exact .ite (fun _ => .bind h.cancelInterruptedRun fun _ _ => .throw)
        fun _ => .throw

end RunFrame

end OrchestratorV1

end AgentWorkflow
