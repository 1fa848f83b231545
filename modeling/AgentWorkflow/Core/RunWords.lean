import AgentWorkflow.Core.OrchestratorV1
import AgentWorkflow.Lib.Protocol

/-!
# The order of a run's events

What `runTaskOnce` appends to the log, as a protocol: which event may follow which, for an
implementer and for a reviewer, and how the two end.

* `Letter`, `readEvent` — an event of a run, as far as its place in the order goes.
* `Stage`, `runProtocol` — how far a run has come, and **where each event leads**.
* `stageOf` — the stage of every run of a log; a run without a row has said nothing.
* `EndsAt` — the stage at which a run of this outcome has ended.
* **`speaks_runTaskOnce`** — a run speaks in its own conversation only, from its row on, in the
  order of the protocol, **whatever the services do and whichever storage call throws**; the outcome
  fits the stage at which it has ended.
-/

namespace AgentWorkflow

open Fallible

namespace OrchestratorV1

/-! ## Letters -/

/-- An event of a run. -/
inductive Letter
  | assigned
  | created
  | started
  | published (kind : ArtifactKind)
  | spawned
  | verificationStarted
  | verificationPassed
  | verificationFailed
  | reviewRequested
  | reviewCompleted
  | completed
  | failed
  | edgeSelected
  deriving DecidableEq, Repr

/-- The kinds there are. -/
def artifactKinds : List ArtifactKind :=
  [.diff, .stdoutTail, .stderrTail, .verificationOutput, .taskCapsule, .finalReport, .reviewVerdict,
    .handoffPacket, .scheduleDecision]

/-- The kind an `artifact.published` event names. -/
def publishedKind (payload : List (String × Json)) : Option ArtifactKind :=
  match payload.lookup "artifact" with
  | some (.obj fields) =>
    match fields.lookup "kind" with
    | some (.str text) => artifactKinds.find? fun kind => kind.text = text
    | _ => none
  | _ => none

/-- The letter of an event; the handler's events and the quota's are none. -/
def letterOf (eventType : EventType) (payload : List (String × Json)) : Option Letter :=
  match eventType with
  | .taskAssigned => some .assigned
  | .runCreated => some .created
  | .runStarted => some .started
  | .artifactPublished => (publishedKind payload).map .published
  | .agentSpawned => some .spawned
  | .verificationStarted => some .verificationStarted
  | .verificationPassed => some .verificationPassed
  | .verificationFailed => some .verificationFailed
  | .reviewRequested => some .reviewRequested
  | .reviewCompleted => some .reviewCompleted
  | .runCompleted => some .completed
  | .runFailed => some .failed
  | .taskEdgeSelected => some .edgeSelected
  | _ => none

/-- The run an event is of, and its letter. -/
def readEvent (e : EventEnvelope) : Option (String × Letter) :=
  e.runId.bind fun runId => (letterOf e.eventType e.payload).map fun letter => (runId, letter)

/-- An artifact is published under its kind. -/
theorem publishedKind_artifact (uri : String) (kind : ArtifactKind) :
    publishedKind [("artifact", .obj [("uri", .str uri), ("kind", .str kind.text)])] =
      some kind := by
  cases kind <;> rfl

/-! ## Stages -/

/-- How far a run has come. -/
inductive Stage
  /-- It has no row. -/
  | absent
  /-- It has a row. -/
  | registered
  | assigned
  | created
  /-- Its manifest is published. -/
  | prepared
  | running
  /-- The agent of an implementer was started. -/
  | spawned
  | toldStdout
  | toldStderr
  | toldDiff
  | reported
  | packed
  | verifying
  | checked
  | verified
  | refuted
  | succeeded
  /-- An implementer has succeeded, and its edge is selected. -/
  | settled
  /-- A reviewer's diff did not apply. -/
  | refusedStdout
  | refusedStderr
  | refusedDiff
  | refused
  /-- Its edge leads back. -/
  | returned
  /-- A reviewer has its brief. -/
  | briefed
  | underReview
  | requested
  | reviewing
  | reviewStdout
  | reviewStderr
  | judged
  | illegible
  | reviewed
  | concluded
  /-- A reviewer has come to a verdict, and its edge is selected. -/
  | decided
  | failed
  deriving DecidableEq, Repr

/-- A run that is past its creation and has not come to its end fails when something throws; one
whose diff does not apply says so before. -/
def Stage.canFail : Stage → Bool
  | .absent | .registered | .assigned | .settled | .refusedStdout | .refusedStderr | .refusedDiff
  | .refused | .returned | .decided | .failed => false
  | _ => true

/-- Where an event other than `run.failed` leads. -/
def Stage.go : Stage → Letter → Option Stage
  | .registered, .assigned => some .assigned
  | .assigned, .created => some .created
  | .created, .published .taskCapsule => some .prepared
  | .prepared, .started => some .running
  -- The implementer: its process, what it leaves, and the commands that verify it.
  | .running, .spawned => some .spawned
  | .spawned, .published .stdoutTail => some .toldStdout
  | .toldStdout, .published .stderrTail => some .toldStderr
  | .toldStderr, .published .diff => some .toldDiff
  | .toldDiff, .published .finalReport => some .reported
  | .toldDiff, .published .taskCapsule => some .packed
  | .reported, .published .taskCapsule => some .packed
  | .packed, .verificationStarted => some .verifying
  | .packed, .completed => some .succeeded
  | .verifying, .published .verificationOutput => some .checked
  | .checked, .verificationPassed => some .verified
  | .checked, .verificationFailed => some .refuted
  | .verified, .completed => some .succeeded
  | .succeeded, .edgeSelected => some .settled
  -- The reviewer whose diff does not apply.
  | .running, .published .stdoutTail => some .refusedStdout
  | .refusedStdout, .published .stderrTail => some .refusedStderr
  | .refusedStderr, .published .diff => some .refusedDiff
  | .refused, .edgeSelected => some .returned
  -- The reviewer: its brief, its process, and the verdict.
  | .running, .published .taskCapsule => some .briefed
  | .briefed, .published .diff => some .underReview
  | .underReview, .reviewRequested => some .requested
  | .requested, .spawned => some .reviewing
  | .reviewing, .published .stdoutTail => some .reviewStdout
  | .reviewStdout, .published .stderrTail => some .reviewStderr
  | .reviewStderr, .published .reviewVerdict => some .judged
  | .judged, .published .finalReport => some .illegible
  | .judged, .completed => some .reviewed
  | .reviewed, .reviewCompleted => some .concluded
  | .concluded, .edgeSelected => some .decided
  | _, _ => none

/-- Where an event leads. A run that has completed fails when an event after that is not stored. -/
def Stage.next (s : Stage) : Letter → Option Stage
  | .failed =>
    if s = .refusedDiff then some .refused
    else if s.canFail = true then some .failed else none
  | letter => s.go letter

/-- The protocol of a run. -/
def runProtocol : Protocol Stage Letter where
  start := .registered
  next := Stage.next

/-- The stage of a run: without a row it has said nothing. -/
def stageOf (b : Backend) (runId : String) : Option Stage :=
  match b.agentRuns.find? runId with
  | none => if (said readEvent b.events runId).isEmpty = true then some .absent else none
  | some _ => runProtocol.place (said readEvent b.events runId)

/-- The outcome of a run that has ended at a stage. Nothing of a run whose context could not be
created need be stored after its creation. -/
def EndsAt : RunOutcome → Stage → Prop
  | .implementerSucceeded .., s => s = .settled
  | .implementerFailed _ reason .., s =>
    s = .failed ∨ (reason = .internalError ∧ (s = .created ∨ s = .prepared))
  | .reviewerApproved .., s => s = .decided
  | .reviewerChangesRequested .., s => s = .decided
  | .reviewerRejected .., s => s = .decided
  | .reviewerUnusable _ reason .., s =>
    if reason = .diffApplyFailed then s = .returned
    else s = .failed ∨ (reason = .internalError ∧ (s = .created ∨ s = .prepared))

/-- The outcome is of the run, and fits the stage it has ended at. -/
def Fits (runId : String) (o : RunOutcome) (s : Stage) : Prop := o.runId = runId ∧ EndsAt o s

/-! ## Events and rows -/

section statements

variable {α : Type} {P : String → Option Stage} {runId : String} {ids : RunIds} {env : Env}
  {s s' : Stage} {Q : α → Stage → Prop} {X : Err → Stage → Prop} {places : String → Option Stage}

/-- Only the rows and the events matter. -/
theorem stageOf_congr {b b' : Backend} (hruns : b'.agentRuns = b.agentRuns)
    (hevents : b'.events = b.events) : stageOf b' = stageOf b := by
  funext r
  unfold stageOf
  rw [hruns, hevents]

/-- A service does not speak. -/
theorem quiet_onFiles {m : ServiceM α} :
    EnsuresVia stageOf (onFiles m) env places (fun _ places' => places' = places)
      fun _ places' => places' = places := by
  rintro b rfl
  exact ensures_zoom_of_forall (fun _ _ => stageOf_congr rfl rfl) fun _ _ => stageOf_congr rfl rfl

theorem quiet_storageCall {k : StorageCall} :
    EnsuresVia stageOf (storageCall k) env places (fun _ places' => places' = places)
      fun _ places' => places' = places := by
  rintro b rfl
  exact ensures_storageCall_iff.mpr ⟨fun _ => stageOf_congr rfl rfl, fun _ => stageOf_congr rfl rfl⟩

theorem quiet_dateNow :
    EnsuresVia stageOf dateNow env places (fun _ places' => places' = places)
      fun _ places' => places' = places := by
  rintro b rfl
  exact stageOf_congr rfl rfl

theorem quiet_uuid8 :
    EnsuresVia stageOf uuid8 env places (fun _ places' => places' = places)
      fun _ places' => places' = places := by
  rintro b rfl
  exact stageOf_congr rfl rfl

theorem quiet_get :
    EnsuresVia stageOf (RunStore.get runId) env places (fun _ places' => places' = places)
      fun _ places' => places' = places := by
  refine .bind (quiet_storageCall.mono ?_ fun _ _ he => he)
  rintro _ _ rfl b rfl
  rfl

/-- An update keeps the rows there are. -/
theorem quiet_updateStatus {status : RunStatus} {patch : RunStore.Patch} :
    EnsuresVia stageOf (RunStore.updateStatus runId status patch) env places
      (fun _ places' => places' = places) fun _ places' => places' = places := by
  refine .bind (quiet_get.mono ?_ fun _ _ he => he)
  rintro existing _ rfl
  cases existing with
  | none => exact .throw rfl
  | some row =>
    refine .bind (quiet_storageCall.mono ?_ fun _ _ he => he)
    rintro _ _ rfl b rfl
    funext r
    have hsame := Table.isSome_find?_update b.agentRuns runId (patch.apply status) (fun _ => rfl) r
    show stageOf { b with agentRuns := _ } r = stageOf b r
    unfold stageOf
    revert hsame
    cases b.agentRuns.find? r <;>
      cases (b.agentRuns.update runId (patch.apply status) fun _ => rfl).find? r <;> simp

/-- **An event of a run moves that run**, unless its append throws. -/
theorem speaks_appendEvent {eventType : EventType} {payload : List (String × Json)}
    {letter : Letter} {Q : Unit → Stage → Prop} (hletter : letterOf eventType payload = some letter)
    (hnext : s.next letter = some s') (hQ : Q () s') (hX : ∀ e, X e s) :
    Speaks stageOf P ids.runId (appendEvent ids eventType payload) env s Q X := by
  refine .bind (.quiet (fun _ => quiet_uuid8) (fun id => ?_) hX)
  refine .bind (.quiet (fun _ => quiet_dateNow) (fun createdAt => ?_) hX)
  refine .bind (.quiet (fun _ => quiet_storageCall) (fun _ => ?_) hX)
  intro b hb
  refine ⟨s', ?_, hQ⟩
  have hread : readEvent
      { eventId := "E-" ++ id, eventType, projectId := ids.projectId, taskId := some ids.taskId,
        runId := some ids.runId, agentId := some ids.agentId, skipOnReplay := false, payload,
        createdAt } = some (ids.runId, letter) := by
    simp [readEvent, hletter]
  funext r
  have hr := congrFun hb r
  by_cases hself : r = ids.runId
  · subst hself
    rw [Function.update_self] at hr ⊢
    unfold stageOf at hr ⊢
    dsimp only
    rw [said_concat_of_read hread]
    cases hrow : b.agentRuns.find? ids.runId with
    | none =>
      rw [hrow] at hr
      dsimp only at hr
      split at hr
      · cases hr
        cases letter <;> cases hnext
      · cases hr
    | some row =>
      rw [hrow] at hr
      dsimp only at hr ⊢
      rw [Protocol.place_concat, hr]
      exact hnext
  · rw [Function.update_of_ne hself] at hr ⊢
    rw [← hr]
    unfold stageOf
    dsimp only
    rw [said_concat_of_ne hread hself]

/-- **A row is where a run begins**: with an id that is taken, the insert throws and nothing is
said. -/
theorem speaks_create {record : RunRecord} {Q : Unit → Stage → Prop} {X : Err → Stage → Prop}
    (hP : ∀ r, (P r).isSome = true) (hQ : P record.id = some .absent → Q () .registered)
    (hX : ∀ e, P record.id = some s → X e s) (hs : P record.id = some s) :
    Speaks stageOf P record.id (RunStore.create record) env s Q X := by
  have hsame : Function.update P record.id (some s) = P := Function.update_eq_self_iff.mpr hs.symm
  refine .bind (.quiet (fun _ => quiet_storageCall) (fun _ => ?_) fun e => hX e hs)
  intro b hb
  rw [hsame] at hb
  simp only [ensures_bind, ensures_get]
  split
  next agentRuns hinsert =>
    have hnone := Table.find?_of_insert hinsert
    have hempty : (said readEvent b.events record.id).isEmpty = true := by
      have hr := congrFun hb record.id
      have hsome := hP record.id
      rw [← hr] at hsome
      unfold stageOf at hsome
      rw [show b.agentRuns.find? record.id = none from hnone] at hsome
      by_contra hne
      simp [hne] at hsome
    refine ⟨.registered, ?_, hQ ?_⟩
    · funext r
      show stageOf { b with agentRuns := agentRuns } r = _
      unfold stageOf
      rw [Table.find?_insert hinsert]
      by_cases hr : r = record.id
      · subst hr
        rw [if_pos rfl, Function.update_self, List.isEmpty_iff.mp hempty]
        rfl
      · rw [if_neg hr, Function.update_of_ne hr, ← hb]
        rfl
    · rw [← hb]
      unfold stageOf
      rw [show b.agentRuns.find? record.id = none from hnone]
      exact if_pos hempty
  next => exact ⟨s, by rw [hsame]; exact hb, hX _ hs⟩

end statements

/-! ## From stage to stage -/

/-- A store returns artifacts of the kind it was asked to save. -/
structure KeepsKinds (store : ArtifactStore) : Prop where
  saveText : ∀ t env f artifact f', store.saveText t env f = .ok artifact f' →
    artifact.kind = t.kind
  saveFile : ∀ t env f artifact f', store.saveFile t env f = .ok artifact f' →
    artifact.kind = t.kind

/-- What the order of a run relies on: artifacts keep their kind, and a reviewer whose raw text is
left is unusable. -/
structure Regular (services : V1RunTaskServices) : Prop where
  store : KeepsKinds services.artifactStore
  rawText : ∀ workspacePath env f parsed f',
    services.parseReviewVerdict workspacePath env f = .ok parsed f' →
    parsed.unusableRawText.isSome = true → parsed.reviewerUnusable = true

/-- The run can fail. -/
abbrev CanFail (s : Stage) : Prop := s.canFail = true

/-- The program leads from one stage to another; it throws at stages with `C` only. -/
def Leads {σ α : Type} (view : σ → String → Option Stage) (P : String → Option Stage)
    (runId : String) (env : Env) (C : Stage → Prop) (m : Prog Env Err σ α) (s t : Stage) : Prop :=
  Speaks view P runId m env s (fun _ s' => s' = t) fun _ s' => C s'

section leads

variable {σ α β : Type} {view : σ → String → Option Stage} {P : String → Option Stage}
  {runId : String} {ids : RunIds} {env : Env} {m : Prog Env Err σ α} {s t : Stage}
  {C : Stage → Prop} {services : V1RunTaskServices}

/-- What comes after goes on from there. -/
theorem Leads.bind {f : α → Prog Env Err σ β} {Q : β → Stage → Prop} {X : Err → Stage → Prop}
    (h : Leads view P runId env C m s t) (hf : ∀ a, Speaks view P runId (f a) env t Q X)
    (hX : ∀ e s', C s' → X e s') : Speaks view P runId (m >>= f) env s Q X := by
  refine .bind (h.mono (fun a s' ha => ?_) hX)
  subst ha
  exact hf a

/-- The same in a `try` block, which throws where the run can still fail. -/
theorem Leads.tries {f : α → Prog Env Err σ β} {Q : β → Stage → Prop}
    (h : Leads view P runId env CanFail m s t)
    (hf : ∀ a, Speaks view P runId (f a) env t Q fun _ s' => CanFail s') :
    Speaks view P runId (m >>= f) env s Q fun _ s' => CanFail s' := h.bind hf fun _ _ he => he

theorem Leads.then {f : α → Prog Env Err σ β} {u : Stage} (h : Leads view P runId env C m s t)
    (hf : ∀ a, Leads view P runId env C (f a) t u) : Leads view P runId env C (m >>= f) s u :=
  h.bind hf fun _ _ he => he

theorem Leads.pure {a : α} : Leads view P runId env C (Pure.pure a : Prog Env Err σ α) s s :=
  Speaks.pure rfl

/-- A program that does not speak. -/
theorem Leads.quiet (hs : C s)
    (h : ∀ places, EnsuresVia view m env places (fun _ places' => places' = places)
      fun _ places' => places' = places) : Leads view P runId env C m s s :=
  Speaks.quiet h (fun _ => rfl) fun _ => hs

theorem Leads.onFiles {m : ServiceM α} (hs : C s) :
    Leads stageOf P runId env C (onFiles m) s s := .quiet hs fun _ => quiet_onFiles

theorem Leads.ofExcept {x : Except Err α} (hs : C s) :
    Leads stageOf P runId env C (ofExcept x) s s := by
  cases x with
  | ok a => exact .pure
  | error e => exact Speaks.throw hs

/-- An exception that becomes a value. -/
theorem Leads.attempt {m : BackendM α}
    (h : ∀ places, EnsuresVia stageOf m env places (fun _ places' => places' = places)
      fun _ places' => places' = places) :
    Leads stageOf P runId env C (WorkerTaskHandler.attempt m) s s :=
  .tryCatch (.map (.quiet h (fun _ => rfl) fun _ => .pure rfl))

/-- An event. -/
theorem Leads.appendEvent {eventType : EventType} {payload : List (String × Json)}
    {letter : Letter} (hs : C s) (hletter : letterOf eventType payload = some letter)
    (hnext : s.next letter = some t) :
    Leads stageOf P ids.runId env C (appendEvent ids eventType payload) s t :=
  speaks_appendEvent hletter hnext rfl fun _ => hs

/-- An artifact that is published under its kind. -/
theorem Leads.publishArtifact {artifact : ArtifactRef} (hs : C s)
    (hnext : s.next (.published artifact.kind) = some t) :
    Leads stageOf P ids.runId env C (publishArtifact ids artifact) s t := by
  refine Leads.then (Leads.appendEvent hs ?_ hnext) fun _ => .pure
  show (publishedKind _).map Letter.published = _
  rw [publishedKind_artifact]
  rfl

/-- An artifact that is saved, and published under the kind it was saved with. -/
theorem Leads.save {m : ServiceM ArtifactRef} {kind : ArtifactKind}
    (hkind : ∀ f artifact f', m env f = .ok artifact f' → artifact.kind = kind)
    (hs : C s) (hnext : s.next (.published kind) = some t) :
    Leads stageOf P ids.runId env C (do
      let artifact ← AgentWorkflow.onFiles m
      OrchestratorV1.publishArtifact ids artifact) s t := by
  refine Speaks.bind (fun b hb => ?_)
  refine ensures_zoom.mpr (ensures_of_forall (fun artifact f hsave => ?_) fun _ _ _ => ?_)
  · refine ⟨s, (stageOf_congr rfl rfl).trans hb, Leads.publishArtifact hs ?_⟩
    rw [hkind _ _ _ hsave]
    exact hnext
  · exact ⟨s, (stageOf_congr rfl rfl).trans hb, hs⟩

theorem Leads.saveText {kind : ArtifactKind} {filename content summary : String}
    (hstore : KeepsKinds services.artifactStore) (hs : C s)
    (hnext : s.next (.published kind) = some t) :
    Leads stageOf P ids.runId env C (saveTextArtifact services ids kind filename content summary)
      s t :=
  .save (fun _ _ _ hsave => hstore.saveText _ _ _ _ _ hsave) hs hnext

theorem Leads.saveFile {kind : ArtifactKind} {filename sourcePath summary : String}
    (hstore : KeepsKinds services.artifactStore) (hs : C s)
    (hnext : s.next (.published kind) = some t) :
    Leads stageOf P ids.runId env C (saveFileArtifact services ids kind filename sourcePath summary)
      s t :=
  .save (fun _ _ _ hsave => hstore.saveFile _ _ _ _ _ hsave) hs hnext

/-- The end of a run: its row first, then its event. -/
theorem Leads.finishRun {finish : Finish} {letter : Letter} (hs : C s)
    (hletter : letterOf finish.eventType finish.payload = some letter)
    (hnext : s.next letter = some t) :
    Leads stageOf P ids.runId env C (finishRun ids finish) s t :=
  Leads.then (.quiet hs fun _ => quiet_dateNow) fun _ =>
    Leads.then (.quiet hs fun _ => quiet_updateStatus) fun _ => .appendEvent hs hletter hnext

/-- A run that can fail does. -/
theorem next_failed (hs : s.canFail = true) : s.next .failed = some .failed := by
  revert hs
  cases s <;> decide

/-- A run that fails. -/
theorem Leads.fail {reason : RunFailedReason} (hs : s.canFail = true) :
    Leads stageOf P ids.runId env CanFail
      (OrchestratorV1.finishRun ids (.failed reason)) s .failed :=
  .finishRun hs rfl (next_failed hs)

end leads

/-! ## The implementer -/

/-- The stages of the runs, in an attempt. -/
def attemptStage (s : Backend × PublishedArtifacts) : String → Option Stage := stageOf s.1

section implementer

variable {services : V1RunTaskServices} {args : RunTaskArgs} {signal : AbortSignal}
  {context : RunContext} {P : String → Option Stage} {runId : String} {env : Env} {α : Type}
  {s t : Stage} {C : Stage → Prop}

theorem Leads.lift {m : BackendM α} (h : Leads stageOf P runId env C m s t) :
    Leads attemptStage P runId env C (lift m) s t := fun x hx => ensures_zoom.mpr (h x.1 hx)

theorem Leads.publish {f : PublishedArtifacts → PublishedArtifacts} :
    Leads attemptStage P runId env C (publish f) s s := fun _ hx => ⟨s, hx, rfl⟩

theorem Leads.published : Leads attemptStage P runId env C published s s := fun _ hx => ⟨s, hx, rfl⟩

/-- What a text artifact adds to the artifacts of the attempt. -/
theorem Leads.publishText {kind : ArtifactKind} {filename content summary : String}
    {f : ArtifactRef → PublishedArtifacts → PublishedArtifacts} {g : ArtifactRef → AttemptM α}
    {u : Stage} (hstore : KeepsKinds services.artifactStore) (hs : C s)
    (hnext : s.next (.published kind) = some t)
    (hg : ∀ a, Leads attemptStage P context.ids.runId env C (g a) t u) :
    Leads attemptStage P context.ids.runId env C (do
      let a ← OrchestratorV1.lift
        (saveTextArtifact services context.ids kind filename content summary)
      OrchestratorV1.publish (f a)
      g a) s u :=
  Leads.then (.lift (.saveText hstore hs hnext)) fun a => Leads.then .publish fun _ => hg a

theorem quiet_attachHandoff {places : String → Option Stage} :
    EnsuresVia stageOf (attachHandoff services args context) env places
      (fun _ places' => places' = places) fun _ places' => places' = places := by
  unfold attachHandoff
  split
  · split
    · exact .throw rfl
    · exact quiet_onFiles
  · exact .pure rfl

/-- A report that is there comes after the diff. -/
theorem speaks_publishFinalReport (hstore : KeepsKinds services.artifactStore) :
    Speaks attemptStage P context.ids.runId (publishFinalReport services context) env .toldDiff
      (fun _ s' => s' = .toldDiff ∨ s' = .reported) fun _ s' => CanFail s' := by
  refine Leads.tries (.lift (.onFiles rfl)) fun found => .ite (fun _ => ?_) fun _ => ?_
  · refine Leads.tries (.lift (.onFiles rfl)) fun text => .ite (fun _ => ?_) fun _ => ?_
    · exact Leads.tries (.lift (.saveFile hstore rfl rfl))
        fun _ => Leads.publish.mono (fun _ _ h => .inr h) fun _ _ he => he
    · exact .pure (.inl rfl)
  · exact .pure (.inl rfl)

theorem leads_publishOutputs {capsule : TaskCapsuleWriteResult} {agentResult : AgentProcessResult}
    (hstore : KeepsKinds services.artifactStore) :
    Leads attemptStage P context.ids.runId env CanFail
      (publishOutputs services context capsule agentResult) .spawned .packed := by
  refine .publishText hstore rfl rfl fun stdout => .publishText hstore rfl rfl fun stderr => ?_
  refine Leads.then (.lift (.onFiles rfl)) fun diffText => ?_
  refine .publishText hstore rfl rfl fun diff => ?_
  refine Speaks.bind ((speaks_publishFinalReport hstore).mono (fun _ s' hs' => ?_)
    fun _ _ he => he)
  have hcapsule : ∀ s, CanFail s → s.next (.published .taskCapsule) = some .packed →
      Leads attemptStage P context.ids.runId env CanFail (do
        let _ ← OrchestratorV1.lift (saveTextArtifact services context.ids .taskCapsule
          "task-capsule.txt" (capsuleText capsule) "Task capsule location")
        pure diff) s .packed := fun s hs hnext =>
    Leads.then (.lift (.saveText hstore hs hnext)) fun _ => .pure
  rcases hs' with rfl | rfl
  · exact hcapsule _ rfl rfl
  · exact hcapsule _ rfl rfl

/-- The stages at which the verification has passed, or failed. -/
def VerifiedAt (passed : Bool) (s : Stage) : Prop :=
  if passed = true then s = .packed ∨ s = .verified else s = .refuted

theorem speaks_verify (hstore : KeepsKinds services.artifactStore) :
    Speaks attemptStage P context.ids.runId (verify services args context) env .packed
      VerifiedAt fun _ s' => CanFail s' := by
  unfold verify
  split
  · exact .pure (.inl rfl)
  · refine .ite (fun _ => .pure (.inl rfl)) fun _ => ?_
    refine Leads.tries (.lift (.appendEvent rfl rfl rfl)) fun _ => ?_
    refine Leads.tries (.lift (.onFiles rfl)) fun result => ?_
    refine Leads.tries (.lift (.saveText hstore rfl rfl)) fun artifact => ?_
    refine Leads.tries .publish fun _ => ?_
    cases result.passed with
    | true =>
      exact Leads.tries (.lift (.appendEvent rfl rfl rfl)) fun _ => .pure (.inr rfl)
    | false =>
      exact Leads.tries (.lift (.appendEvent rfl rfl rfl)) fun _ => .pure rfl

/-- The end of an attempt that fails, and is told so. -/
theorem speaks_failImplementer {reason : RunFailedReason} {o : RunOutcome} (hs : CanFail s)
    (ho : Fits context.ids.runId o .failed) :
    Speaks attemptStage P context.ids.runId
      (do OrchestratorV1.lift (finishRun context.ids (.failed reason)); pure o) env s
      (Fits context.ids.runId) fun _ s' => CanFail s' :=
  Leads.tries (.lift (.fail hs)) (fun _ => .pure ho)

theorem speaks_finishImplementer {diff : ArtifactRef} {passed : Bool} (hs : VerifiedAt passed s) :
    Speaks attemptStage P context.ids.runId (finishImplementer args context diff passed) env s
      (Fits context.ids.runId) fun _ s' => CanFail s' := by
  refine Leads.tries .published fun artifacts => ?_
  cases passed with
  | false =>
    cases hs
    exact speaks_failImplementer rfl ⟨rfl, .inl rfl⟩
  | true =>
    have hend : ∀ s, CanFail s → s.next .completed = some .succeeded →
        Speaks attemptStage P context.ids.runId (do
          OrchestratorV1.lift (finishRun context.ids .succeeded)
          OrchestratorV1.lift (selectEdge context.ids "verifying" (implementerEdge args.workOrder)
            (if args.workOrder.review.enabled = true then "review_required" else "review_disabled"))
          pure (.implementerSucceeded context.ids.runId diff.uri
            (artifacts.verification.map ArtifactRef.uri)
            (artifacts.finalReport.map ArtifactRef.uri))) env s (Fits context.ids.runId)
          fun _ s' => CanFail s' :=
      fun s hs hnext => Leads.tries (.lift (.finishRun hs rfl hnext))
        fun _ => Leads.tries (.lift (.appendEvent rfl rfl rfl)) fun _ => .pure ⟨rfl, rfl⟩
    rcases hs with rfl | rfl
    · exact hend _ rfl rfl
    · exact hend _ rfl rfl

theorem speaks_afterImplementer {capsule : TaskCapsuleWriteResult}
    {agentResult : AgentProcessResult} (hstore : KeepsKinds services.artifactStore) :
    Speaks attemptStage P context.ids.runId
      (afterImplementer services args context capsule agentResult) env .spawned
      (Fits context.ids.runId)
      fun _ s' => CanFail s' := by
  refine Leads.tries (leads_publishOutputs hstore) fun diff => ?_
  refine Leads.tries (.lift (.ofExcept rfl)) fun agentReason => ?_
  cases agentReason with
  | some reason =>
    exact Leads.tries .published fun _ => speaks_failImplementer rfl ⟨rfl, .inl rfl⟩
  | none =>
    exact .bind ((speaks_verify hstore).mono (fun _ _ hs => speaks_finishImplementer hs)
      fun _ _ he => he)

/-- The `try` of an implementer. -/
theorem speaks_implement (hstore : KeepsKinds services.artifactStore) :
    Speaks attemptStage P context.ids.runId (implement services args signal context) env .running
      (Fits context.ids.runId) fun _ s' => CanFail s' := by
  refine Leads.tries (.lift (.quiet rfl fun _ => .ite (fun _ => .throw rfl) fun _ => .pure rfl))
    fun _ => ?_
  refine Leads.tries (.lift (.onFiles rfl)) fun capsule => ?_
  refine Leads.tries (.lift (.quiet rfl fun _ => quiet_attachHandoff)) fun _ => ?_
  refine Leads.tries (.lift (.appendEvent rfl rfl rfl)) fun _ => ?_
  refine Leads.tries (.lift (.attempt fun _ => quiet_onFiles)) fun agentResult => ?_
  cases agentResult with
  | error e => exact .ite (fun _ => .throw rfl) fun _ => speaks_failImplementer rfl ⟨rfl, .inl rfl⟩
  | ok agentResult => exact speaks_afterImplementer hstore

/-- **An implementer.** -/
theorem speaks_runImplementer (hstore : KeepsKinds services.artifactStore) :
    Speaks stageOf P context.ids.runId (runImplementer services args signal context) env .running
      (Fits context.ids.runId) fun _ _ => True := by
  refine Speaks.bind (fun b hb => ?_)
  have hrun : Ensures (implement services args signal context) env (b, {}) _ _ :=
    speaks_implement hstore (b, {}) hb
  unfold Ensures at hrun ⊢
  unfold runAttempt
  cases hres : implement services args signal context env (b, {}) with
  | ok outcome s' =>
    rw [hres] at hrun
    obtain ⟨stage, hstage, hfits⟩ := hrun
    exact ⟨stage, hstage, .pure hfits⟩
  | error e s' =>
    rw [hres] at hrun
    obtain ⟨stage, hstage, hfail⟩ := hrun
    refine ⟨stage, hstage, .ite (fun _ => .throw trivial) fun _ => ?_⟩
    exact Leads.bind (.fail hfail) (fun _ => .pure ⟨rfl, .inl rfl⟩) fun _ _ _ => trivial

end implementer

/-! ## The reviewer -/

section reviewer

variable {services : V1RunTaskServices} {args : RunTaskArgs} {signal : AbortSignal}
  {context : RunContext} {P : String → Option Stage} {env : Env} {s : Stage}
  {reviewContext : ReviewContextText}

/-- The end of a reviewer that fails, and is told so. -/
theorem speaks_failReviewer {reason : RunFailedReason} {o : RunOutcome} (hs : CanFail s)
    (ho : Fits context.ids.runId o .failed) :
    Speaks stageOf P context.ids.runId
      (do finishRun context.ids (.failed reason); pure o) env s (Fits context.ids.runId)
      fun _ s' => CanFail s' :=
  Leads.tries (.fail hs) fun _ => .pure ho

/-- What comes of a diff: it applies, or the reviewer is sent back. -/
theorem speaks_applyReviewDiff (hstore : KeepsKinds services.artifactStore) :
    Speaks stageOf P context.ids.runId (applyReviewDiff services context reviewContext) env .running
      (fun refused s' => (∀ o, refused = some o → Fits context.ids.runId o s') ∧
        (refused = none → s' = .running))
      fun _ _ => True := by
  have hany : ∀ (e : Err) (s' : Stage), True → True := fun _ _ h => h
  refine Leads.bind (C := fun _ => True) (.onFiles trivial) (fun applyResult => ?_) hany
  refine .ite (fun _ => .pure ⟨by simp, fun _ => rfl⟩) fun _ => ?_
  have hrefused : Leads stageOf P context.ids.runId env (fun _ => True)
      (saveRefusedDiff services context reviewContext applyResult) .running .refusedDiff :=
    Leads.then (.saveText hstore trivial rfl) fun _ => Leads.then (.saveText hstore trivial rfl)
      fun _ => Leads.then (.saveText hstore trivial rfl) fun _ => .pure
  refine Leads.bind hrefused (fun artifacts => ?_) hany
  refine Leads.bind (C := fun _ => True) (.finishRun (t := .refused) trivial rfl rfl)
    (fun _ => ?_) hany
  refine Leads.bind (C := fun _ => True) (.appendEvent (t := .returned) trivial rfl rfl)
    (fun _ => .pure ⟨?_, by simp⟩) hany
  rintro o ⟨⟩
  exact ⟨rfl, rfl⟩

/-- A verdict that cannot be read is published with what the reviewer left. -/
theorem speaks_readVerdict (hservices : Regular services) :
    Speaks stageOf P context.ids.runId (readVerdict services context) env .reviewStderr
      (fun x s' => s' = .judged ∨ (s' = .illegible ∧ x.1.reviewerUnusable = true))
      fun _ s' => CanFail s' := by
  refine Speaks.bind (fun b hb => ?_)
  refine ensures_zoom.mpr (ensures_of_forall (fun parsed f hparsed => ?_) fun _ _ _ => ?_)
  swap
  · exact ⟨_, (stageOf_congr rfl rfl).trans hb, rfl⟩
  refine ⟨_, (stageOf_congr rfl rfl).trans hb, ?_⟩
  refine Leads.tries (.saveText hservices.store rfl rfl) fun verdictArtifact => ?_
  split
  · exact .pure (.inl rfl)
  next text htext =>
    refine Leads.tries (.saveText hservices.store rfl rfl) fun _ => .pure (.inr ⟨rfl, ?_⟩)
    exact hservices.rawText _ _ _ _ _ hparsed (by rw [htext]; rfl)

theorem speaks_finishReview {verdict : ReviewVerdict} {verdictArtifact : ArtifactRef} :
    Speaks stageOf P context.ids.runId (finishReview context verdict verdictArtifact) env .judged
      (Fits context.ids.runId) fun _ s' => CanFail s' := by
  refine Leads.tries (.finishRun (t := .reviewed) rfl rfl rfl) fun _ => ?_
  refine Leads.tries (.appendEvent (t := .concluded) rfl rfl rfl) fun _ => ?_
  refine Leads.tries (.appendEvent (t := .decided) rfl rfl rfl) fun _ => .pure ?_
  cases verdict.verdict <;> exact ⟨rfl, rfl⟩

/-- A reviewer's failure before its verdict. -/
theorem fits_reviewerUnusable {runId : String} {reason : ReviewerUnusableReason}
    {verdict stdout stderr : Option String} (hreason : reason ≠ .diffApplyFailed) :
    Fits runId (.reviewerUnusable runId reason verdict stdout stderr) .failed := by
  refine ⟨rfl, ?_⟩
  show if reason = .diffApplyFailed then _ else _
  rw [if_neg hreason]
  exact .inl rfl

theorem speaks_afterReviewer {agentResult : AgentProcessResult} (hservices : Regular services) :
    Speaks stageOf P context.ids.runId (afterReviewer services args context agentResult) env
      .reviewing (Fits context.ids.runId) fun _ s' => CanFail s' := by
  refine Leads.tries (.saveText hservices.store rfl rfl) fun stdout => ?_
  refine Leads.tries (.saveText hservices.store rfl rfl) fun stderr => ?_
  refine Leads.tries (.ofExcept rfl) fun agentReason => ?_
  cases agentReason with
  | some reason =>
    exact speaks_failReviewer rfl (fits_reviewerUnusable (by cases reason <;> decide))
  | none =>
    refine .bind ((speaks_readVerdict hservices).mono (fun x s' hs' => ?_) fun _ _ he => he)
    obtain ⟨parsed, verdictArtifact⟩ := x
    have hs : CanFail s' := by
      rcases hs' with rfl | ⟨rfl, -⟩
      · rfl
      · rfl
    refine .ite (fun _ => speaks_failReviewer hs (fits_reviewerUnusable (by decide)))
      fun husable => ?_
    rcases hs' with rfl | ⟨-, hraw⟩
    · exact speaks_finishReview
    · exact absurd hraw husable

/-- The `try` of a reviewer. -/
theorem speaks_review (hservices : Regular services) :
    Speaks stageOf P context.ids.runId (review services args context reviewContext) env .running
      (Fits context.ids.runId) fun _ s' => CanFail s' := by
  refine Leads.tries (.onFiles rfl) fun brief => ?_
  refine Leads.tries (.saveFile hservices.store rfl rfl) fun _ => ?_
  refine Leads.tries (.saveFile hservices.store rfl rfl) fun _ => ?_
  refine Leads.tries (.appendEvent (t := .requested) rfl rfl rfl) fun _ => ?_
  refine Leads.tries (.appendEvent (t := .reviewing) rfl rfl rfl) fun _ => ?_
  refine Leads.tries (.attempt fun _ => quiet_onFiles) fun agentResult => ?_
  cases agentResult with
  | error e =>
    exact .ite (fun _ => .throw rfl) fun _ =>
      speaks_failReviewer rfl (fits_reviewerUnusable (by decide))
  | ok agentResult => exact speaks_afterReviewer hservices

/-- **A reviewer.** -/
theorem speaks_runReviewer (hservices : Regular services) :
    Speaks stageOf P context.ids.runId (runReviewer services args signal context) env .running
      (Fits context.ids.runId) fun _ _ => True := by
  refine Leads.bind (C := fun _ => True)
    (.quiet trivial fun _ => .ite (fun _ => .throw rfl) fun _ => .pure rfl) (fun _ => ?_)
    fun _ _ _ => trivial
  cases args.reviewContext with
  | none =>
    exact (speaks_failReviewer rfl (fits_reviewerUnusable (by decide))).mono (fun _ _ h => h)
      fun _ _ _ => trivial
  | some reviewContext =>
    refine .bind ((speaks_applyReviewDiff hservices.store).mono (fun refused s' hs' => ?_)
      fun _ _ _ => trivial)
    cases refused with
    | some o => exact .pure (hs'.1 o rfl)
    | none =>
      cases hs'.2 rfl
      refine .tryCatch ((speaks_review hservices).mono (fun _ _ h => h) fun e s' hs' => ?_)
      refine .ite (fun _ => .throw trivial) fun _ => ?_
      exact (speaks_failReviewer hs' (fits_reviewerUnusable (by decide))).mono (fun _ _ h => h)
        fun _ _ _ => trivial

end reviewer

/-! ## A run -/

section run

variable {services : V1RunTaskServices} {args : RunTaskArgs} {signal : AbortSignal} {env : Env}
  {P : String → Option Stage} {ids : RunIds} {s : Stage}

/-- The part of the role. -/
theorem speaks_runRole {context : RunContext} (hservices : Regular services) :
    Speaks stageOf P context.ids.runId (runRole services args signal context) env .running
      (Fits context.ids.runId)
      fun _ _ => True := by
  unfold runRole
  split
  · exact speaks_runImplementer hservices.store
  · exact speaks_runReviewer hservices

/-- The `try` of `createRunContext`. -/
theorem speaks_prepareRun {startedAt : ℕ} (hservices : Regular services) :
    Speaks stageOf P ids.runId (prepareRun services args ids startedAt) env .created
      (fun context s' => context.ids = ids ∧ s' = .running)
      fun _ s' => s' = .created ∨ s' = .prepared := by
  have hmono : ∀ (e : Err) (s' : Stage), (s' = .created ∨ s' = .prepared) →
      s' = .created ∨ s' = .prepared := fun _ _ h => h
  refine Leads.bind (.onFiles (.inl rfl)) (fun worktree => ?_) hmono
  refine Leads.bind (.saveText hservices.store (.inl rfl) rfl) (fun manifestArtifact => ?_) hmono
  refine Leads.bind (.quiet (.inr rfl) fun _ => quiet_updateStatus) (fun _ => ?_) hmono
  exact Leads.bind (.appendEvent (.inr rfl) rfl rfl) (fun _ => .pure ⟨rfl, rfl⟩) hmono

/-- Its `catch`. -/
theorem speaks_failCreation (hs : s = .created ∨ s = .prepared) :
    Speaks stageOf P ids.runId (failCreation args ids) env s
      (fun created s' => ∃ failure, created = .error failure ∧
        Fits ids.runId (creationFailed failure) s') fun _ _ => False := by
  have hfits : ∀ s', s' = .failed ∨ s' = .created ∨ s' = .prepared →
      Fits ids.runId (creationFailed ⟨ids.runId, ids.taskId, ids.projectId, args.entry.nextRole⟩)
        s' := by
    intro s' hs'
    have hend : s' = .failed ∨ (s' = .created ∨ s' = .prepared) := hs'
    unfold creationFailed
    cases args.entry.nextRole with
    | implementer => exact ⟨rfl, hend.imp_right fun h => ⟨rfl, h⟩⟩
    | reviewer => exact ⟨rfl, hend.imp_right fun h => ⟨rfl, h⟩⟩
  have hfail : CanFail s := by
    rcases hs with rfl | rfl
    · rfl
    · rfl
  have hupdate : ∀ places : String → Option Stage, EnsuresVia stageOf (do
        let endedAt ← dateNow
        RunStore.updateStatus ids.runId .failed { endedAt := some endedAt }) env places
      (fun _ places' => places' = places) fun _ places' => places' = places := by
    refine fun places => .bind (quiet_dateNow.mono ?_ fun _ _ he => he)
    rintro endedAt _ rfl
    exact quiet_updateStatus
  refine Leads.bind (C := fun _ => False) (.attempt hupdate) (fun _ => ?_) fun _ _ h => h
  have hletter : letterOf .runFailed [("reason", .str RunFailedReason.internalError.text)] =
      some .failed := rfl
  exact .bind (.tryCatch (.map (speaks_appendEvent hletter (next_failed hfail)
    (.pure ⟨_, rfl, hfits _ (.inl rfl)⟩) fun _ => .pure (.pure ⟨_, rfl, hfits _ (.inr hs)⟩))))

/-- From the insert of its row on, a run speaks; an id that is taken says nothing. -/
theorem speaks_create_run {id : String} {α : Type} {f : Unit → BackendM α}
    {Q : α → Stage → Prop} (hP : ∀ r, (P r).isSome = true) (hs : P ("R-" ++ id) = some s)
    (hf : Speaks stageOf P ("R-" ++ id) (f ()) env .registered Q fun _ _ => True) :
    Speaks stageOf P ("R-" ++ id) (RunStore.create (newRun args ("R-" ++ id)) >>= f) env s
      (fun a s' => P ("R-" ++ id) = some .absent ∧ Q a s')
      fun _ s' => P ("R-" ++ id) = some .absent ∨ s' = s := by
  refine .bind (speaks_create hP (fun habsent => ?_) (fun _ _ => .inr rfl) hs)
  exact hf.mono (fun _ _ h => ⟨habsent, h⟩) fun _ _ _ => .inl habsent

/-- What `createRunContext` returns, and the stage it leaves. -/
def Created (runId : String) (s : Stage) :
    Except RunContextCreationFailure RunContext → Prop
  | .ok context => context.ids.runId = runId ∧ s = .running
  | .error failure => Fits runId (creationFailed failure) s

/-- `createRunContext` with the id it has drawn. -/
theorem speaks_createRunContext {id : String} (hservices : Regular services)
    (hP : ∀ r, (P r).isSome = true) (hs : P ("R-" ++ id) = some s) :
    Speaks stageOf P ("R-" ++ id) (do
        let startedAt ← dateNow
        RunStore.create (newRun args ("R-" ++ id))
        appendEvent (runIds args ("R-" ++ id)) .taskAssigned
          [("role", .str args.entry.nextRole.text)]
        appendEvent (runIds args ("R-" ++ id)) .runCreated []
        tryCatch (Except.ok <$> prepareRun services args (runIds args ("R-" ++ id)) startedAt)
          fun _ => failCreation args (runIds args ("R-" ++ id))) env s
      (fun created s' => P ("R-" ++ id) = some .absent ∧ Created ("R-" ++ id) s' created)
      fun _ s' => P ("R-" ++ id) = some .absent ∨ s' = s := by
  refine .bind (.quiet (fun _ => quiet_dateNow) (fun startedAt => ?_) fun _ => .inr rfl)
  refine speaks_create_run hP hs ?_
  have hassigned : letterOf .taskAssigned [("role", .str args.entry.nextRole.text)] =
      some .assigned := rfl
  have hcreated : letterOf .runCreated [] = some .created := rfl
  refine .bind (speaks_appendEvent hassigned rfl ?_ fun _ => trivial)
  refine .bind (speaks_appendEvent hcreated rfl ?_ fun _ => trivial)
  refine .tryCatch (.map ((speaks_prepareRun hservices).mono (fun context s' h => ?_)
    fun _ s' hs' => ?_))
  · obtain ⟨hcontext, rfl⟩ := h
    exact ⟨congrArg RunIds.runId hcontext, rfl⟩
  · refine (speaks_failCreation hs').mono ?_ fun _ _ h => h.elim
    rintro _ s' ⟨failure, rfl, hfits⟩
    exact hfits

theorem quiet_cancelInterruptedRun {runId : String} {places : String → Option Stage} :
    EnsuresVia stageOf (cancelInterruptedRun runId) env places (fun _ places' => places' = places)
      fun _ places' => places' = places := by
  refine .bind (quiet_get.mono ?_ fun _ _ he => he)
  rintro run _ rfl
  split
  · exact .pure rfl
  · refine .ite (fun _ => .bind (quiet_dateNow.mono ?_ fun _ _ he => he)) fun _ => .pure rfl
    rintro _ _ rfl
    exact quiet_updateStatus

/-- What `runTaskOnce` does with it. -/
theorem speaks_afterCreation {runId : String} (hservices : Regular services)
    {created : Except RunContextCreationFailure RunContext} (h : Created runId s created) :
    Speaks stageOf P runId (match created with
      | .error failure => pure (creationFailed failure)
      | .ok context =>
        tryCatch (runRole services args signal context) fun e => do
          if e.isOperationAborted = true ∨ signal.atCatch = true then
            cancelInterruptedRun context.ids.runId
          else pure ()
          throw e) env s (Fits runId) fun _ _ => True := by
  cases created with
  | error failure => exact .pure h
  | ok context =>
    obtain ⟨rfl, rfl⟩ := h
    refine .tryCatch ((speaks_runRole hservices).mono (fun _ _ h => h) fun e s' _ => ?_)
    exact .ite (fun _ => .bind (.quiet (fun _ => quiet_cancelInterruptedRun)
      (fun _ => .throw trivial) fun _ => trivial)) fun _ => .throw trivial

/-- **A run speaks in its own conversation only, and in order**; its outcome fits its end. -/
theorem speaks_runTaskOnce (hservices : Regular services) {b : Backend}
    (hb : ∀ r, (stageOf b r).isSome = true) :
    ∃ runId, Ensures (runTaskOnce services signal args) env b
      (fun o b' => stageOf b runId = some .absent ∧ ∃ s, stageOf b' =
        Function.update (stageOf b) runId (some s) ∧ Fits runId o s)
      fun _ b' => stageOf b' = stageOf b ∨ (stageOf b runId = some .absent ∧ ∃ s, stageOf b' =
        Function.update (stageOf b) runId (some s)) := by
  refine ⟨"R-" ++ env.uuid b.calls, ?_⟩
  obtain ⟨s, hs⟩ := Option.isSome_iff_exists.mp (hb ("R-" ++ env.uuid b.calls))
  have hsame : Function.update (stageOf b) ("R-" ++ env.uuid b.calls) (some s) = stageOf b :=
    Function.update_eq_self_iff.mpr hs.symm
  unfold runTaskOnce
  refine ensures_bind.mpr (ensures_ite.mpr ⟨fun _ => .inl rfl, fun _ => ?_⟩)
  refine ensures_bind.mpr (ensures_bind.mpr (ensures_uuid8.mpr ?_))
  have hcalls : stageOf { b with calls := b.calls + 1 } = stageOf b := stageOf_congr rfl rfl
  refine (speaks_createRunContext hservices hb hs _ (hcalls.trans hsame.symm)).mono ?_ ?_
  · rintro created b₁ ⟨s₁, hb₁, habsent, hcreated⟩
    refine (speaks_afterCreation hservices hcreated b₁ hb₁).mono ?_ ?_
    · rintro o b₂ ⟨s₂, hb₂, hfits⟩
      exact ⟨habsent, s₂, hb₂, hfits⟩
    · rintro e b₂ ⟨s₂, hb₂, -⟩
      exact .inr ⟨habsent, s₂, hb₂⟩
  · rintro e b₁ ⟨s₁, hb₁, habsent | rfl⟩
    · exact .inr ⟨habsent, s₁, hb₁⟩
    · exact .inl (hb₁.trans hsame)

end run

end OrchestratorV1

end AgentWorkflow
