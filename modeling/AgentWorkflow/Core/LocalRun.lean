import AgentWorkflow.Core.Events
import AgentWorkflow.Core.Orchestrator
import AgentWorkflow.Core.RunWords
import AgentWorkflow.Queue.Worker

/-!
# What a run without a queue leaves in the database

`runWorkOrderWithServices` writes to three tables and returns a result. Here is what they say of a
run, and that they agree.

* `Told` — what the events tell of a run: how far it has come, its artifacts, its verification, the
  reason it has failed for. `localProtocol` — the order they come in.
* `Account` — what all three tables hold of one run; `accountOf` reads it off the state.
* **`local_run_settled`** — a run with a new id **moves its own account and no other**, whatever the
  services do and whichever call throws. When it returns, the result, the events, the row and the
  figures of the agent agree; when it throws, it has not completed, and is failed as far as the
  database lets it. The database is closed either way.
-/

namespace AgentWorkflow

open Fallible OrchestratorV1

namespace Orchestrator

/-! ## What the events tell -/

/-- What an event says of its run. -/
inductive Notice
  | taskCreated
  | created
  | started
  | published (kind : ArtifactKind) (uri : String)
  | verificationStarted
  | verified (passed : Bool) (outputRef : String)
  | completed
  | failed (reason : String)
  deriving DecidableEq, Repr

/-- The artifact an `artifact.published` event names. -/
def publishedArtifact (payload : List (String × Json)) : Option (ArtifactKind × String) :=
  match payload.lookup "artifact" with
  | some (.obj fields) => do
    let kind ← publishedKind payload
    let uri ← payloadText fields "uri"
    pure (kind, uri)
  | _ => none

/-- What an event says. -/
def noticeOf (eventType : LocalEventType) (payload : List (String × Json)) : Option Notice :=
  match eventType with
  | .taskCreated => some .taskCreated
  | .runCreated => some .created
  | .runStarted => some .started
  | .artifactPublished => (publishedArtifact payload).map fun a => .published a.1 a.2
  | .verificationStarted => some .verificationStarted
  | .verificationPassed => (payloadText payload "output_ref").map (.verified true)
  | .verificationFailed => (payloadText payload "output_ref").map (.verified false)
  | .runCompleted => some .completed
  | .runFailed => (payloadText payload "reason").map .failed

/-- The run of an event, and what it says. -/
def readLocal (e : LocalEvent) : Option (String × Notice) :=
  (noticeOf e.eventType e.payload).map fun notice => (e.runId, notice)

/-- How far a run has come. -/
inductive LocalStage
  | fresh
  | announced
  | created
  | prepared
  | started
  | toldStdout
  | toldStderr
  | toldDiff
  | reported
  | packed
  | verifying
  | checked
  | verified
  | refuted
  | completed
  | failed
  deriving DecidableEq, Repr

/-- Nothing comes after. -/
def LocalStage.isOver : LocalStage → Bool
  | .completed | .failed => true
  | _ => false

/-- Where an artifact leads. -/
def LocalStage.publish : LocalStage → ArtifactKind → Option LocalStage
  | .created, .taskCapsule => some .prepared
  | .started, .stdoutTail => some .toldStdout
  | .toldStdout, .stderrTail => some .toldStderr
  | .toldStderr, .diff => some .toldDiff
  | .toldDiff, .finalReport => some .reported
  | .toldDiff, .taskCapsule => some .packed
  | .reported, .taskCapsule => some .packed
  | .verifying, .verificationOutput => some .checked
  | _, _ => none

/-- What a reader of the log knows of a run. -/
structure Told where
  stage : LocalStage
  /-- Its artifacts, first published first. -/
  artifacts : List (ArtifactKind × String)
  /-- The verdict of its verification, if there was one. -/
  passed : Option Bool
  /-- Why it has failed. -/
  reason : Option String
  deriving DecidableEq, Repr

namespace Told

/-- Nothing has been said. -/
def fresh : Told := ⟨.fresh, [], none, none⟩

/-- From one stage to another. -/
def go (t : Told) (source target : LocalStage) : Option Told :=
  if t.stage = source then some { t with stage := target } else none

/-- The reasons a run may fail for: its agent's once all it has left is there, its verification's
once it is refuted, and an exception of the orchestrator's until it is over. -/
def Fails (t : Told) (reason : String) : Prop :=
  t.stage.isOver = false ∧
    (reason = "internal_error" ∨
      ((t.stage = .packed ∨ t.stage = .verified ∨ t.stage = .refuted) ∧
        (reason = "agent_timed_out" ∨ reason = "agent_nonzero_exit")) ∨
      (t.stage = .refuted ∧ reason = "verification_failed"))

instance (t : Told) (reason : String) : Decidable (t.Fails reason) :=
  inferInstanceAs (Decidable (_ ∧ _))

/-- What one more event tells; a verdict names the output it was come to by. -/
def next (t : Told) : Notice → Option Told
  | .taskCreated => t.go .fresh .announced
  | .created => t.go .announced .created
  | .started => t.go .prepared .started
  | .published kind uri => (t.stage.publish kind).map fun stage =>
    { t with stage, artifacts := t.artifacts ++ [(kind, uri)] }
  | .verificationStarted => t.go .packed .verifying
  | .verified passed outputRef =>
    if t.stage = .checked ∧ t.artifacts.getLast? = some (.verificationOutput, outputRef) then
      some { t with stage := if passed = true then .verified else .refuted, passed := some passed }
    else none
  | .completed =>
    if t.stage = .packed ∨ t.stage = .verified then some { t with stage := .completed } else none
  | .failed reason =>
    if t.Fails reason then some { t with stage := .failed, reason := some reason } else none

end Told

/-- The order of the events of a run. -/
def localProtocol : Protocol Told Notice where
  start := Told.fresh
  next := Told.next

/-! ## Accounts -/

/-- What the database holds of a run. -/
structure Account where
  told : Told
  row : Option RunRecord
  usage : List UsageRow
  deriving DecidableEq, Repr

/-- Nothing is known of the run. -/
def Account.fresh : Account := ⟨Told.fresh, none, []⟩

/-- The account of a run; none if its events are in no order. -/
def accountOf (s : LocalState) (runId : String) : Option Account :=
  (localProtocol.place (said readLocal s.events runId)).map fun told =>
    ⟨told, s.agentRuns.find? runId, s.agentUsage.filter fun u => u.runId = runId⟩

/-- An artifact as its event names it. -/
def pairOf (a : ArtifactRef) : ArtifactKind × String := (a.kind, a.uri)

/-! ## The statements -/

section statements

variable {α : Type} {P : String → Option Account} {ids : RunIds} {env : LocalEnv} {s : LocalState}
  {a : Account} {places : String → Option Account}

theorem ensures_inBackend {m : BackendM α} {Q : α → LocalState → Prop}
    {E : Err → LocalState → Prop} :
    Ensures (inBackend m) env s Q E ↔
      Ensures m env.toEnv s.backend (fun x b => Q x (LocalState.putBackend b s))
        fun e b => E e (LocalState.putBackend b s) :=
  ensures_zoom (r := env.toEnv)

/-- A call of the run's own throws, or it only counts. -/
theorem ensures_localCall {c : LocalCall} {Q : Unit → LocalState → Prop}
    {E : Err → LocalState → Prop} :
    Ensures (localCall c) env s Q E ↔
      (env.fails s.calls c = true → E (.error "SqliteError") { s with calls := s.calls + 1 }) ∧
      (env.fails s.calls c = false → Q () { s with calls := s.calls + 1 }) := by
  rw [localCall, ensures_bind, ensures_inBackend]
  show Ensures _ env _ Q E ↔ _
  simp only [ensures_bind, ensures_read, ensures_ite, ensures_throw, ensures_pure,
    Bool.not_eq_true]
  rfl

/-- Only the three tables matter. -/
theorem accountOf_congr {s' : LocalState} (hevents : s'.events = s.events)
    (hruns : s'.agentRuns = s.agentRuns) (husage : s'.agentUsage = s.agentUsage) :
    accountOf s' = accountOf s := by
  funext runId
  unfold accountOf
  rw [hevents, hruns, husage]

/-- A program that leaves the rows of the runs does not change an account. -/
theorem quiet_inBackend {m : BackendM α}
    (h : ∀ b, Ensures m env.toEnv b (fun _ b' => b'.agentRuns = b.agentRuns)
      fun _ b' => b'.agentRuns = b.agentRuns) :
    EnsuresVia accountOf (inBackend m) env places (fun _ places' => places' = places)
      fun _ places' => places' = places := by
  rintro s rfl
  refine ensures_inBackend.mpr ((h s.backend).mono ?_ ?_)
  · intro _ b' hb'
    exact accountOf_congr rfl hb' rfl
  · intro _ b' hb'
    exact accountOf_congr rfl hb' rfl

theorem quiet_onFiles {m : ServiceM α} :
    EnsuresVia accountOf (inBackend (onFiles m)) env places (fun _ places' => places' = places)
      fun _ places' => places' = places :=
  quiet_inBackend fun _ => ensures_zoom_of_forall (fun _ _ => rfl) fun _ _ => rfl

theorem quiet_dateNow :
    EnsuresVia accountOf (inBackend dateNow) env places (fun _ places' => places' = places)
      fun _ places' => places' = places := quiet_inBackend fun _ => rfl

/-- A view is a view of the one run and of the others. -/
theorem accountOf_eq_update {s s' : LocalState} {a a' : Account} {runId : String}
    (hs : accountOf s = Function.update P runId (some a)) (hself : accountOf s' runId = some a')
    (hothers : ∀ r, r ≠ runId → accountOf s' r = accountOf s r) :
    accountOf s' = Function.update P runId (some a') := by
  funext r
  by_cases hr : r = runId
  · rw [hr, hself, Function.update_self]
  · rw [hothers r hr, hs, Function.update_of_ne hr, Function.update_of_ne hr]

/-- What an account is made of. -/
theorem accountOf_eq_some_iff {runId : String} : accountOf s runId = some a ↔
    localProtocol.place (said readLocal s.events runId) = some a.told ∧
      s.agentRuns.find? runId = a.row ∧
      (s.agentUsage.filter fun u => u.runId = runId) = a.usage := by
  rw [accountOf, Option.map_eq_some_iff]
  constructor
  · rintro ⟨told, htold, rfl⟩
    exact ⟨htold, rfl, rfl⟩
  · rintro ⟨htold, hrow, husage⟩
    exact ⟨a.told, htold, by rw [hrow, husage]⟩

/-- **An event of a run tells of that run only**; its append throws where the surroundings let
it. -/
theorem speaks_append {eventType : LocalEventType} {payload : List (String × Json)}
    (notice : Notice) (told : Told) {Q : Unit → Account → Prop} {X : Err → Account → Prop}
    (hnotice : noticeOf eventType payload = some notice) (hnext : a.told.next notice = some told)
    (hQ : Q () { a with told })
    (hX : ∀ e, (∃ n, env.fails n (.append eventType) = true) → X e a) :
    Speaks accountOf P ids.runId (append ids eventType payload) env a Q X := by
  intro s hs
  simp only [append, ensures_bind, ensures_inBackend, ensures_uuid8, ensures_dateNow,
    ensures_localCall, ensures_modify]
  refine ⟨fun hfails => ⟨a, (accountOf_congr rfl rfl rfl).trans hs, hX _ ⟨_, hfails⟩⟩,
    fun _ => ⟨{ a with told }, ?_, hQ⟩⟩
  have hself : accountOf s ids.runId = some a := by rw [hs, Function.update_self]
  obtain ⟨htold, hrow, husage⟩ := accountOf_eq_some_iff.mp hself
  refine accountOf_eq_update hs (accountOf_eq_some_iff.mpr ⟨?_, hrow, husage⟩) fun r hr => ?_
  · dsimp only [LocalState.putBackend]
    rw [said_concat_of_read (k := ids.runId) (e := notice) (by simp [readLocal, hnotice]),
      Protocol.place_concat, htold]
    exact hnext
  · unfold accountOf
    dsimp only [LocalState.putBackend]
    rw [said_concat_of_ne (k := ids.runId) (e := notice) (by simp [readLocal, hnotice]) hr]
    rfl

/-- The row of a new run. -/
theorem speaks_create {Q : Unit → Account → Prop} {X : Err → Account → Prop}
    (hrow : a.row = none) (hQ : Q () { a with row := some (newRun ids) }) (hX : ∀ e, X e a) :
    Speaks accountOf P ids.runId (inBackend (RunStore.create (newRun ids))) env a Q X := by
  intro s hs
  have hself : accountOf s ids.runId = some a := by rw [hs, Function.update_self]
  obtain ⟨htold, hfind, husage⟩ := accountOf_eq_some_iff.mp hself
  rw [ensures_inBackend, RunStore.create, ensures_bind, ensures_storageCall_iff]
  refine ⟨fun _ => ⟨a, (accountOf_congr rfl rfl rfl).trans hs, hX _⟩, fun _ => ?_⟩
  simp only [ensures_bind, ensures_get]
  split
  next agentRuns hinsert =>
    have hfind' := Table.find?_insert hinsert
    refine ⟨{ a with row := some (newRun ids) }, accountOf_eq_update hs
      (accountOf_eq_some_iff.mpr ⟨htold, ?_, husage⟩) ?_, hQ⟩
    · exact (hfind' ids.runId).trans (if_pos rfl)
    · intro r hr
      unfold accountOf
      dsimp only [LocalState.putBackend]
      rw [hfind' r, if_neg (show r ≠ (newRun ids).id from hr)]
      rfl
  next hnone =>
    obtain ⟨agentRuns, hinsert⟩ := Table.exists_insert_of_find? (r := newRun ids)
      (t := s.agentRuns) (hfind.trans hrow)
    exact absurd hinsert (by rw [show s.agentRuns.insert (newRun ids) = none from hnone]; simp)

/-- **An update of a run sets the row of that run only**; it throws where there is no row, or where
the surroundings let it. -/
theorem speaks_updateStatus {status : RunStatus} {patch : RunStore.Patch}
    {Q : Unit → Account → Prop} {X : Err → Account → Prop}
    (hQ : ∀ row, a.row = some row → Q () { a with row := some (patch.apply status row) })
    (hX : ∀ e, (a.row = none ∨ env.MayThrow .getRun ∨ env.MayThrow .updateRun) → X e a) :
    Speaks accountOf P ids.runId (inBackend (RunStore.updateStatus ids.runId status patch)) env a
      Q X := by
  intro s hs
  have hself : accountOf s ids.runId = some a := by rw [hs, Function.update_self]
  obtain ⟨htold, hfind, husage⟩ := accountOf_eq_some_iff.mp hself
  have hkept : ∀ b : Backend, b.agentRuns = s.agentRuns →
      accountOf (LocalState.putBackend b s) = Function.update P ids.runId (some a) := by
    intro b hb
    rw [← hs]
    exact accountOf_congr rfl hb rfl
  rw [ensures_inBackend, RunStore.updateStatus, RunStore.get]
  simp only [ensures_bind, ensures_storageCall_iff, ensures_get, ensures_pure]
  refine ⟨fun hthrows => ⟨a, hkept _ rfl, hX _ (.inr (.inl ⟨_, hthrows⟩))⟩, fun _ => ?_⟩
  cases hrow : a.row with
  | none =>
    rw [show s.backend.agentRuns.find? ids.runId = none from hfind.trans hrow]
    exact ⟨a, hkept _ rfl, hX _ (.inl hrow)⟩
  | some row =>
    rw [show s.backend.agentRuns.find? ids.runId = some row from hfind.trans hrow]
    simp only [ensures_bind, ensures_storageCall_iff, ensures_modify]
    refine ⟨fun hthrows => ⟨a, hkept _ rfl, hX _ (.inr (.inr ⟨_, hthrows⟩))⟩, fun _ => ?_⟩
    have hfind' := Table.find?_update s.agentRuns ids.runId (patch.apply status) (fun _ => rfl)
    refine ⟨{ a with row := some (patch.apply status row) }, accountOf_eq_update hs
      (accountOf_eq_some_iff.mpr ⟨htold, ?_, husage⟩) ?_, hQ row hrow⟩
    · refine (hfind' ids.runId).trans ?_
      rw [if_pos rfl, hfind, hrow]
      rfl
    · intro r hr
      unfold accountOf
      dsimp only [LocalState.putBackend]
      rw [show (s.backend.agentRuns.update ids.runId (patch.apply status) fun _ => rfl).find? r =
        s.agentRuns.find? r from (hfind' r).trans (if_neg hr)]

/-- The figures of an agent. -/
def usageRow (ids : RunIds) (agentResult : AdapterResult) (id : String) (createdAt : ℕ) :
    UsageRow where
  id := "E-" ++ id
  projectId := ids.projectId
  taskId := ids.taskId
  runId := ids.runId
  agentId := ids.agentId
  wallTimeMs := agentResult.wallTimeMs
  exitCode := agentResult.exitCode
  timedOut := agentResult.timedOut
  stdoutBytes := agentResult.stdoutBytes
  stderrBytes := agentResult.stderrBytes
  createdAt := createdAt

theorem speaks_insertUsage {agentResult : AdapterResult} {Q : Unit → Account → Prop}
    {X : Err → Account → Prop}
    (hQ : ∀ id createdAt,
      Q () { a with usage := a.usage ++ [usageRow ids agentResult id createdAt] })
    (hX : ∀ e, X e a) :
    Speaks accountOf P ids.runId (insertUsage ids agentResult) env a Q X := by
  intro s hs
  have hself : accountOf s ids.runId = some a := by rw [hs, Function.update_self]
  obtain ⟨htold, hfind, husage⟩ := accountOf_eq_some_iff.mp hself
  simp only [insertUsage, ensures_bind, ensures_inBackend, ensures_uuid8, ensures_dateNow,
    ensures_localCall, ensures_modify]
  refine ⟨fun _ => ⟨a, (accountOf_congr rfl rfl rfl).trans hs, hX _⟩, fun _ => ?_⟩
  refine ⟨_, ?_, hQ (env.uuid s.calls) (env.clock (s.calls + 1))⟩
  refine accountOf_eq_update hs (accountOf_eq_some_iff.mpr ⟨htold, hfind, ?_⟩) fun r hr => ?_
  · dsimp only [LocalState.putBackend]
    rw [List.filter_append, husage, List.filter_cons_of_pos (by simp)]
    rfl
  · unfold accountOf
    dsimp only [LocalState.putBackend]
    rw [List.filter_append, List.filter_cons_of_neg (by simpa using Ne.symm hr), List.filter_nil,
      List.append_nil]
    rfl

end statements

/-! ## The parts of a run -/

/-- A run that an exception ends. -/
structure Failing (a : Account) : Prop where
  notOver : a.told.stage.isOver = false
  usage : a.usage.length ≤ 1

/-- The end of the verification: none, or one that is judged. -/
inductive Judged : Told → Bool → Prop
  | unchecked {t : Told} (stage : t.stage = .packed) (passed : t.passed = none) : Judged t true
  | verified {t : Told} (stage : t.stage = .verified) (passed : t.passed = some true) :
    Judged t true
  | refuted {t : Told} (stage : t.stage = .refuted) (passed : t.passed = some false) :
    Judged t false

section parts

variable {isRegExp : String → Bool} {services : OrchestratorServices isRegExp}
  {wo : ParsedWorkOrder} {profile : ParsedAgentProfile} {ids : RunIds} {env : LocalEnv}
  {P : String → Option Account} {a : Account} {row : Option RunRecord} {usage : List UsageRow}
  {arts : List (ArtifactKind × String)} {stage stage' : LocalStage}

/-- A service that says nothing. -/
theorem speaks_onFiles {α : Type} {m : ServiceM α} {Q : α → Account → Prop}
    {X : Err → Account → Prop} (hQ : ∀ x, Q x a) (hX : ∀ e, X e a) :
    Speaks accountOf P ids.runId (inBackend (onFiles m)) env a Q X :=
  .quiet (fun _ => quiet_onFiles) hQ hX

/-- An artifact is published under its kind and its address. -/
theorem noticeOf_artifact (artifact : ArtifactRef) :
    noticeOf .artifactPublished
      [("artifact", .obj [("uri", .str artifact.uri), ("kind", .str artifact.kind.text)])] =
      some (.published artifact.kind artifact.uri) := by
  show (publishedArtifact _).map _ = _
  unfold publishedArtifact
  rw [show List.lookup "artifact" [("artifact", Json.obj [("uri", .str artifact.uri),
    ("kind", .str artifact.kind.text)])] = some (.obj [("uri", .str artifact.uri),
    ("kind", .str artifact.kind.text)]) from rfl]
  dsimp only
  rw [publishedKind_artifact]
  rfl

/-- **An artifact that is saved is one more of the run's**, of the kind it was saved with. -/
theorem speaks_save {m : ServiceM ArtifactRef} {kind : ArtifactKind}
    {Q : ArtifactRef → Account → Prop} {passed : Option Bool}
    (hkind : ∀ f artifact f', m env.toEnv f = .ok artifact f' → artifact.kind = kind)
    (hstage : stage.publish kind = some stage') (husage : usage.length ≤ 1)
    (hQ : ∀ artifact, artifact.kind = kind →
      Q artifact ⟨⟨stage', arts ++ [pairOf artifact], passed, none⟩, row, usage⟩) :
    Speaks accountOf P ids.runId (do
      let artifact ← inBackend (onFiles m)
      publish ids artifact) env ⟨⟨stage, arts, passed, none⟩, row, usage⟩ Q
      fun _ a' => Failing a' := by
  have hover : stage.isOver = false := by
    revert hstage
    cases stage <;> cases kind <;> simp [LocalStage.publish, LocalStage.isOver]
  have hfailing : Failing ⟨⟨stage, arts, passed, none⟩, row, usage⟩ := ⟨hover, husage⟩
  refine .bind ?_
  intro s hs
  refine ensures_inBackend.mpr (ensures_zoom.mpr (ensures_of_forall (fun artifact f hsave => ?_)
    fun _ _ _ => ⟨_, (accountOf_congr rfl rfl rfl).trans hs, hfailing⟩))
  refine ⟨_, (accountOf_congr rfl rfl rfl).trans hs, ?_⟩
  have hk := hkind _ _ _ hsave
  refine .bind (speaks_append _ ⟨stage', arts ++ [pairOf artifact], passed, none⟩
    (noticeOf_artifact artifact) ?_ (.pure (hQ artifact hk)) fun _ _ => hfailing)
  show (stage.publish artifact.kind).map _ = _
  rw [show stage.publish artifact.kind = some stage' by rw [hk, hstage]]
  rfl

/-- A text that is saved. -/
theorem speaks_saveText {kind : ArtifactKind} {filename content summary : String}
    {Q : ArtifactRef → Account → Prop} {passed : Option Bool}
    (hstore : KeepsKinds services.artifactStore) (hstage : stage.publish kind = some stage')
    (husage : usage.length ≤ 1)
    (hQ : ∀ artifact, artifact.kind = kind →
      Q artifact ⟨⟨stage', arts ++ [pairOf artifact], passed, none⟩, row, usage⟩) :
    Speaks accountOf P ids.runId (saveText services ids kind filename content summary) env
      ⟨⟨stage, arts, passed, none⟩, row, usage⟩ Q fun _ a' => Failing a' :=
  speaks_save (fun _ _ _ hsave => hstore.saveText _ _ _ _ _ hsave) hstage husage hQ

/-- A file that is saved. -/
theorem speaks_saveFile {kind : ArtifactKind} {sourcePath filename summary : String}
    {Q : ArtifactRef → Account → Prop} {passed : Option Bool}
    (hstore : KeepsKinds services.artifactStore) (hstage : stage.publish kind = some stage')
    (husage : usage.length ≤ 1)
    (hQ : ∀ artifact, artifact.kind = kind →
      Q artifact ⟨⟨stage', arts ++ [pairOf artifact], passed, none⟩, row, usage⟩) :
    Speaks accountOf P ids.runId (saveFile services ids kind sourcePath filename summary) env
      ⟨⟨stage, arts, passed, none⟩, row, usage⟩ Q fun _ a' => Failing a' :=
  speaks_save (fun _ _ _ hsave => hstore.saveFile _ _ _ _ _ hsave) hstage husage hQ

/-- A new run that is set to running. -/
theorem speaks_prepareRun {startedAt : ℕ} (hstore : KeepsKinds services.artifactStore) :
    Speaks accountOf P ids.runId (prepareRun services wo profile ids startedAt) env Account.fresh
      (fun prepared a' => ∃ row, a' =
        ⟨⟨.started, [pairOf prepared.manifestArtifact], none, none⟩, some row, []⟩ ∧
        row.workspacePath = some prepared.worktree.workspacePath)
      fun _ a' => Failing a' := by
  have hfailing : ∀ t row, t.stage.isOver = false → Failing ⟨t, row, []⟩ := by
    intro t row ht
    exact ⟨ht, Nat.zero_le 1⟩
  refine .bind (speaks_append _ _ rfl rfl ?_ fun _ _ => hfailing _ _ rfl)
  refine .bind (speaks_create rfl ?_ fun _ => hfailing _ _ rfl)
  refine .bind (speaks_append _ _ rfl rfl ?_ fun _ _ => hfailing _ _ rfl)
  refine .bind (speaks_onFiles (fun worktree => ?_) fun _ => hfailing _ _ rfl)
  refine .bind (speaks_onFiles (fun capsule => ?_) fun _ => hfailing _ _ rfl)
  refine .bind (speaks_saveFile hstore rfl (Nat.zero_le 1) fun manifestArtifact _ => ?_)
  refine .bind (speaks_updateStatus (fun row hrow => ?_) fun _ _ => hfailing _ _ rfl)
  refine .bind (speaks_append _ _ rfl rfl ?_ fun _ _ => hfailing _ _ rfl)
  exact .pure ⟨_, rfl, rfl⟩

/-- A report that is there comes after the diff. -/
theorem speaks_publishFinalReport {workspacePath : String}
    (hstore : KeepsKinds services.artifactStore) (husage : usage.length ≤ 1) :
    Speaks accountOf P ids.runId (publishFinalReport services ids workspacePath) env
      ⟨⟨.toldDiff, arts, none, none⟩, row, usage⟩
      (fun report a' => ∃ stage, (stage = .toldDiff ∨ stage = .reported) ∧
        a' = ⟨⟨stage, arts ++ report.map pairOf, none, none⟩, row, usage⟩)
      fun _ a' => Failing a' := by
  have hnone : ∃ stage, (stage = LocalStage.toldDiff ∨ stage = .reported) ∧
      (⟨⟨.toldDiff, arts, none, none⟩, row, usage⟩ : Account) =
        ⟨⟨stage, arts ++ [].map pairOf, none, none⟩, row, usage⟩ :=
    ⟨.toldDiff, .inl rfl, by rw [List.map_nil, List.append_nil]⟩
  refine .bind (speaks_onFiles (fun found => ?_) fun _ => ⟨rfl, husage⟩)
  refine .ite (fun _ => ?_) fun _ => .pure hnone
  refine .bind (speaks_onFiles (fun reportContent => ?_) fun _ => ⟨rfl, husage⟩)
  refine .ite (fun _ => ?_) fun _ => .pure hnone
  refine .bind (speaks_saveFile hstore rfl husage fun artifact _ => ?_)
  exact .pure ⟨.reported, .inr rfl, rfl⟩

/-- What the agent has left, in its order. -/
theorem speaks_publishOutputs {prepared : Prepared} {agentResult : AdapterResult}
    (hstore : KeepsKinds services.artifactStore) (husage : usage.length ≤ 1) :
    Speaks accountOf P ids.runId (publishOutputs services ids prepared agentResult) env
      ⟨⟨.started, arts, none, none⟩, row, usage⟩
      (fun outputs a' => a' = ⟨⟨.packed, arts ++ outputs.map pairOf, none, none⟩, row, usage⟩)
      fun _ a' => Failing a' := by
  refine .bind (speaks_saveText hstore rfl husage fun stdout _ => ?_)
  refine .bind (speaks_saveText hstore rfl husage fun stderr _ => ?_)
  refine .bind (speaks_onFiles (fun diffContent => ?_) fun _ => ⟨rfl, husage⟩)
  refine .bind (speaks_saveText hstore rfl husage fun diff _ => ?_)
  refine .bind ((speaks_publishFinalReport hstore husage).mono ?_ fun _ _ he => he)
  rintro report _ ⟨stage, hstage, rfl⟩
  have hpacked : stage.publish .taskCapsule = some .packed := by
    rcases hstage with rfl | rfl <;> rfl
  refine .bind (speaks_saveText hstore hpacked husage fun capsule _ => .pure ?_)
  simp

/-- The verification is judged by what it has put out. -/
theorem speaks_verify {workspacePath : String} (hstore : KeepsKinds services.artifactStore)
    (husage : usage.length ≤ 1) :
    Speaks accountOf P ids.runId (verify services wo ids workspacePath) env
      ⟨⟨.packed, arts, none, none⟩, row, usage⟩
      (fun x a' => ∃ told, a' = ⟨told, row, usage⟩ ∧ Judged told x.1 ∧
        told.artifacts = arts ++ x.2.map pairOf ∧ told.reason = none)
      fun _ a' => Failing a' := by
  have hnone : ∃ told, (⟨⟨.packed, arts, none, none⟩, row, usage⟩ : Account) =
      ⟨told, row, usage⟩ ∧ Judged told true ∧ told.artifacts = arts ++ [].map pairOf ∧
      told.reason = none := ⟨_, rfl, .unchecked rfl rfl, by simp, rfl⟩
  unfold verify
  split
  · exact .pure hnone
  · refine .ite (fun _ => .pure hnone) fun _ => ?_
    refine .bind (speaks_append _ _ rfl rfl ?_ fun _ _ => ⟨rfl, husage⟩)
    refine .bind (speaks_onFiles (fun result => ?_) fun _ => ⟨rfl, husage⟩)
    refine .bind (speaks_saveText hstore rfl husage fun artifact hartifact => ?_)
    -- The verdict names the output that was published last.
    have hlast : (arts ++ [pairOf artifact]).getLast? =
        some (.verificationOutput, artifact.uri) := by
      rw [List.getLast?_append, pairOf, hartifact]
      rfl
    cases hpassed : result.passed with
    | true =>
      refine .bind (speaks_append (.verified true artifact.uri)
        ⟨.verified, arts ++ [pairOf artifact], some true, none⟩ ?_ ?_ ?_ fun _ _ => ⟨rfl, husage⟩)
      · rw [verdictPayload, hpassed]
        rfl
      · exact if_pos ⟨rfl, hlast⟩
      · exact .pure ⟨_, rfl, .verified rfl rfl, rfl, rfl⟩
    | false =>
      refine .bind (speaks_append (.verified false artifact.uri)
        ⟨.refuted, arts ++ [pairOf artifact], some false, none⟩ ?_ ?_ ?_ fun _ _ => ⟨rfl, husage⟩)
      · rw [verdictPayload, hpassed]
        rfl
      · exact if_pos ⟨rfl, hlast⟩
      · exact .pure ⟨_, rfl, .refuted rfl rfl, rfl, rfl⟩

end parts

/-! ## The end of a run -/

/-- Why a run with these figures has failed. -/
def UsageRow.failureReason (u : UsageRow) : RunFailedReason :=
  if u.timedOut = true then .agentTimedOut
  else if u.exitCode ≠ some 0 then .agentNonzeroExit
  else .verificationFailed

/-- What the database holds of a run that has returned. -/
structure Recorded (r : RunWorkOrderResult) (a : Account) : Prop where
  artifacts : a.told.artifacts = r.artifacts.map pairOf
  verification : a.told.passed.getD true = r.verificationPassed
  row : ∃ row, a.row = some row ∧ row.status = r.status.toRunStatus ∧
    row.workspacePath = some r.workspacePath ∧ row.endedAt.isSome = true
  /-- One row of figures, and they decide. -/
  figures : ∃ u, a.usage = [u] ∧
    (r.status = .succeeded ↔
      u.exitCode = some 0 ∧ u.timedOut = false ∧ r.verificationPassed = true) ∧
    (r.status = .failed → a.told.reason = some u.failureReason.text)
  stage : a.told.stage = if r.status = .succeeded then .completed else .failed

/-- What it holds of a run that has thrown. -/
structure Broken (env : LocalEnv) (a : Account) : Prop where
  notCompleted : a.told.stage ≠ .completed
  reason : a.told.stage = .failed → a.told.reason = some "internal_error"
  event : (∀ n, env.fails n (.append .runFailed) = false) → a.told.stage = .failed
  row : ¬ env.MayThrow .getRun → ¬ env.MayThrow .updateRun →
    ∀ row, a.row = some row → row.status = .failed
  usage : a.usage.length ≤ 1

/-- The database is closed, if it can be. -/
def Closed (env : LocalEnv) (s : LocalState) : Prop :=
  (∀ n, env.fails n .close = false) → s.isOpen = false

section ending

variable {α : Type} {isRegExp : String → Bool} {services : OrchestratorServices isRegExp}
  {wo : ParsedWorkOrder} {profile : ParsedAgentProfile} {ids : RunIds} {env : LocalEnv}
  {P : String → Option Account} {a : Account} {s : LocalState}

/-- An agent that has not succeeded has a reason, and the verification's only when it is refuted. -/
theorem fails_of_judged {told : Told} {passed : Bool} {agentResult : AdapterResult}
    (h : Judged told passed) (hstatus : finalStatus agentResult passed = .failed) :
    told.Fails (failureReason agentResult).text := by
  have hover : told.stage.isOver = false ∧
      (told.stage = .packed ∨ told.stage = .verified ∨ told.stage = .refuted) := by
    cases h with
    | unchecked hstage => simp [hstage, LocalStage.isOver]
    | verified hstage => simp [hstage, LocalStage.isOver]
    | refuted hstage => simp [hstage, LocalStage.isOver]
  refine ⟨hover.1, ?_⟩
  unfold failureReason
  split
  · exact .inr (.inl ⟨hover.2, .inl rfl⟩)
  · rename_i htimedOut
    split
    · exact .inr (.inl ⟨hover.2, .inr rfl⟩)
    · rename_i hexit
      refine .inr (.inr ⟨?_, rfl⟩)
      cases h with
      | refuted hstage => exact hstage
      | unchecked | verified =>
        rw [finalStatus, if_pos ⟨not_not.mp hexit, by simpa using htimedOut, rfl⟩] at hstatus
        cases hstatus

/-- **The end of a run that does not throw**: the row first, then the event. -/
theorem speaks_finishRun {told : Told} {passed : Bool} {agentResult : AdapterResult}
    {row : RunRecord} {usage : List UsageRow} (h : Judged told passed)
    (husage : usage.length ≤ 1) :
    Speaks accountOf P ids.runId (finishRun ids agentResult passed) env ⟨told, some row, usage⟩
      (fun status a' => status = finalStatus agentResult passed ∧ ∃ told' row',
        a' = ⟨told', some row', usage⟩ ∧ told'.artifacts = told.artifacts ∧
        told'.passed = told.passed ∧
        told'.stage = (if status = .succeeded then .completed else .failed) ∧
        (status = .failed → told'.reason = some (failureReason agentResult).text) ∧
        row'.status = status.toRunStatus ∧ row'.workspacePath = row.workspacePath ∧
        row'.endedAt.isSome = true)
      fun _ a' => Failing a' := by
  have hfailing : ∀ row, Failing ⟨told, row, usage⟩ := by
    intro row
    refine ⟨?_, husage⟩
    cases h with
    | unchecked hstage => simp [hstage, LocalStage.isOver]
    | verified hstage => simp [hstage, LocalStage.isOver]
    | refuted hstage => simp [hstage, LocalStage.isOver]
  unfold finishRun
  cases hstatus : finalStatus agentResult passed with
  | succeeded =>
    have hpassed : passed = true := by
      by_contra hpassed
      rw [finalStatus, if_neg fun hall => hpassed hall.2.2] at hstatus
      cases hstatus
    subst hpassed
    have hstage : told.stage = .packed ∨ told.stage = .verified := by
      cases h with
      | unchecked hstage => exact .inl hstage
      | verified hstage => exact .inr hstage
    refine .bind (.quiet (fun _ => quiet_dateNow) (fun endedAt => ?_) fun _ => hfailing _)
    refine .bind (speaks_updateStatus (fun row' hrow' => ?_) fun _ _ => hfailing _)
    obtain rfl := Option.some.inj hrow'
    refine .bind (speaks_append _ { told with stage := .completed } rfl (if_pos hstage) ?_
      fun _ _ => hfailing _)
    exact .pure ⟨rfl, _, _, rfl, rfl, rfl, rfl, nofun, rfl, rfl, rfl⟩
  | failed =>
    refine .bind (.quiet (fun _ => quiet_dateNow) (fun endedAt => ?_) fun _ => hfailing _)
    refine .bind (speaks_updateStatus (fun row' hrow' => ?_) fun _ _ => hfailing _)
    obtain rfl := Option.some.inj hrow'
    refine .bind (speaks_append (.failed (failureReason agentResult).text)
      { told with stage := .failed, reason := some (failureReason agentResult).text }
      rfl (if_pos (fails_of_judged h hstatus)) ?_ fun _ _ => hfailing _)
    exact .pure ⟨rfl, _, _, rfl, rfl, rfl, rfl, fun _ => rfl, rfl, rfl, rfl⟩

/-- **The `try`**: everything agrees when it returns. -/
theorem speaks_attemptRun {startedAt : ℕ} (hstore : KeepsKinds services.artifactStore) :
    Speaks accountOf P ids.runId (attemptRun services wo profile ids startedAt) env Account.fresh
      (fun r a' => r.projectId = ids.projectId ∧ r.taskId = ids.taskId ∧ r.runId = ids.runId ∧
        Recorded r a')
      fun _ a' => Failing a' := by
  refine .bind ((speaks_prepareRun hstore).mono ?_ fun _ _ he => he)
  rintro prepared _ ⟨row, rfl, hworkspace⟩
  refine .bind (speaks_onFiles (fun agentResult => ?_) fun _ => ⟨rfl, Nat.zero_le 1⟩)
  refine .bind ((speaks_publishOutputs hstore (by simp)).mono ?_ fun _ _ he => he)
  rintro outputs _ rfl
  refine .bind (speaks_insertUsage (fun id createdAt => ?_) fun _ => ⟨rfl, Nat.zero_le 1⟩)
  refine .bind ((speaks_verify hstore le_rfl).mono ?_ fun _ _ he => he)
  rintro ⟨passed, verification⟩ _ ⟨told, rfl, hjudged, hartifacts, hreason⟩
  refine .bind ((speaks_finishRun hjudged le_rfl).mono ?_ fun _ _ he => he)
  rintro status _ ⟨rfl, told', row', rfl, hartifacts', hpassed', hstage', hreason', hstatus, hws,
    hended⟩
  refine .pure ⟨rfl, rfl, rfl, ?_⟩
  exact
    { artifacts := by simp [hartifacts', hartifacts]
      verification := by
        rw [show (_ : Account).told.passed = told.passed from hpassed']
        cases hjudged with
        | unchecked _ hp => rw [hp]; rfl
        | verified _ hp => rw [hp]; rfl
        | refuted _ hp => rw [hp]; rfl
      row := ⟨row', rfl, hstatus, hws.trans hworkspace, hended⟩
      figures := by
        refine ⟨_, rfl, ?_, hreason'⟩
        show finalStatus agentResult passed = .succeeded ↔ _
        unfold finalStatus
        split <;> simp_all [usageRow]
      stage := hstage' }

/-- An exception of the catch's own is dropped. -/
theorem speaks_bestEffort {m : LocalM Unit} {runId : String} {Q : Unit → Account → Prop}
    {X : Err → Account → Prop}
    (h : Speaks accountOf P runId m env a Q fun _ a' => Q () a') :
    Speaks accountOf P runId (bestEffort m) env a Q X :=
  .tryCatch (h.mono (fun _ _ hq => hq) fun _ _ hq => .pure hq)

/-- **The `catch`**: the row and the event are failed, each if the database lets it. -/
theorem speaks_failRun {err : Err} {X : Err → Account → Prop} (h : Failing a) :
    Speaks accountOf P ids.runId (failRun ids err) env a (fun _ a' => Broken env a') X := by
  -- What the first half leaves to the second.
  have hrow : Speaks accountOf P ids.runId
      (bestEffort do
        let endedAt ← inBackend dateNow
        inBackend (RunStore.updateStatus ids.runId .failed { endedAt := some endedAt })) env a
      (fun _ a' => ∃ row, a' = { a with row } ∧ (¬ env.MayThrow .getRun →
        ¬ env.MayThrow .updateRun → ∀ r, row = some r → r.status = .failed)) X := by
    refine speaks_bestEffort (.bind ?_)
    intro s hs
    refine ensures_inBackend.mpr ⟨a, (accountOf_congr rfl rfl rfl).trans hs, ?_⟩
    refine speaks_updateStatus (fun row hrow => ?_) fun _ hthrows => ?_
    · refine ⟨_, rfl, fun _ _ r hr => ?_⟩
      obtain rfl := Option.some.inj hr
      rfl
    · refine ⟨a.row, rfl, fun hget hupdate r hr => ?_⟩
      rcases hthrows with hnone | hthrows | hthrows
      · rw [hnone] at hr
        cases hr
      · exact absurd hthrows hget
      · exact absurd hthrows hupdate
  refine .bind (hrow.mono ?_ fun _ _ he => he)
  rintro _ _ ⟨row, rfl, hfailed⟩
  refine speaks_bestEffort ?_
  refine speaks_append (.failed "internal_error")
    { a.told with stage := .failed, reason := some "internal_error" } rfl
    (if_pos ⟨h.notOver, .inl rfl⟩) ?_ ?_
  · exact
      { notCompleted := by simp
        reason := fun _ => rfl
        event := fun _ => rfl
        row := hfailed
        usage := h.usage }
  · intro _ ⟨n, hn⟩
    exact
      { notCompleted := fun hc => absurd h.notOver (by rw [hc]; decide)
        reason := fun hf => absurd h.notOver (by rw [hf]; decide)
        event := fun hall => absurd hn (by rw [hall n]; decide)
        row := hfailed
        usage := h.usage }

/-- Closing the database says nothing and does not throw. -/
theorem speaks_withDatabase {m : LocalM α} {runId : String} {Q : α → Account → Prop}
    {X : Err → Account → Prop} (h : Speaks accountOf P runId m env a Q X) :
    Speaks accountOf P runId (withDatabase m) env a Q X := by
  have hclose : ∀ a' : Account, Speaks accountOf P runId (bestEffort closeDatabase) env a'
      (fun _ a'' => a'' = a') X := by
    intro a'
    refine speaks_bestEffort ?_
    intro s hs
    simp only [closeDatabase, ensures_bind, ensures_localCall, ensures_modify]
    exact ⟨fun _ => ⟨a', (accountOf_congr rfl rfl rfl).trans hs, rfl⟩,
      fun _ => ⟨a', (accountOf_congr rfl rfl rfl).trans hs, rfl⟩⟩
  refine .bind (.tryCatch (.map (h.mono (fun x a' hx => ?_) fun err a' he => ?_)))
  · refine .bind ((hclose a').mono ?_ fun _ _ he => he)
    rintro _ _ rfl
    exact .pure hx
  · refine .pure (.bind ((hclose a').mono ?_ fun _ _ he => he))
    rintro _ _ rfl
    exact .throw he

/-- Whatever has happened, the database is closed after it. -/
theorem closed_withDatabase {m : LocalM α} :
    Ensures (withDatabase m) env s (fun _ s' => Closed env s') fun _ s' => Closed env s' := by
  have hclose : ∀ s : LocalState, Ensures (bestEffort closeDatabase) env s
      (fun _ s' => Closed env s') fun _ _ => False := by
    intro s
    refine ensures_tryCatch.mpr ?_
    simp only [closeDatabase, ensures_bind, ensures_localCall, ensures_modify, ensures_pure]
    refine ⟨fun hfails hall => ?_, fun _ _ => rfl⟩
    rw [hall] at hfails
    cases hfails
  refine ensures_bind.mpr (ensures_of_forall (fun outcome s₁ _ => ?_) fun err s₁ hthrow => ?_)
  · refine ensures_bind.mpr ((hclose s₁).mono (fun _ s' hs' => ?_) fun _ _ he => he.elim)
    cases outcome with
    | ok x => exact hs'
    | error err => exact hs'
  · -- The inner program never throws.
    have hnever : Ensures (tryCatch (Except.ok <$> m) fun err => pure (Except.error err)) env s
        (fun _ _ => True) fun _ _ => False :=
      ensures_tryCatch.mpr (ensures_map.mpr (ensures_of_forall (fun _ _ _ => trivial)
        fun _ _ _ => trivial))
    exact (hnever.of_error hthrow).elim

/-- The id of a run that begins in a state. -/
def newRunId (env : LocalEnv) (s : LocalState) : String := "R-" ++ env.uuid s.calls

/-- Its ids. -/
def newIds (wo : ParsedWorkOrder) (profile : ParsedAgentProfile) (env : LocalEnv) (s : LocalState) :
    RunIds := ⟨wo.1.projectId, wo.1.taskId, newRunId env s, profile.1.agentId⟩

/-- A run is its `try`, its `catch` and its `finally`, after two readings. -/
theorem runWorkOrder_eq : runWorkOrderWithServices services wo profile env s =
    withDatabase (tryCatch
      (attemptRun services wo profile (newIds wo profile env s) (env.clock (s.calls + 1)))
      fun err => do
        failRun (newIds wo profile env s) err
        throw err) env { s with calls := s.calls + 2 } := by
  have hid : inBackend uuid8 env s =
      .ok (env.uuid s.calls) { s with calls := s.calls + 1 } := rfl
  have hnow : inBackend dateNow env { s with calls := s.calls + 1 } =
      .ok (env.clock (s.calls + 1)) { s with calls := s.calls + 2 } := rfl
  exact (bind_of_ok hid).trans (bind_of_ok hnow)

/-- The others' accounts are as they were, and the database is closed. -/
def Leaves (env : LocalEnv) (s s' : LocalState) : Prop :=
  (∀ runId, runId ≠ newRunId env s → accountOf s' runId = accountOf s runId) ∧ Closed env s'

end ending

end Orchestrator

/-! ## A run whose verification fails -/

namespace Sample

open Orchestrator

/-- A work order that is verified. -/
def verifiedOrder : ParsedWorkOrder :=
  ⟨{ taskId := "T-1", projectId := "default", title := "Report", type := .researchReport
     goal := "Write the report", acceptanceCriteria := [], repo := ⟨"/repo", none⟩
     constraints := none, verification := some ⟨["make test"], none⟩, agentId := "ada"
     budget := some ⟨some 2, none⟩ },
    by decide +kernel⟩

/-- An agent of the first version. -/
def firstProfile : ParsedAgentProfile :=
  ⟨⟨"ada", ⟨"agent", [], none⟩, none, none⟩, by decide +kernel⟩

/-- The agent exits with 0 and leaves a report; the tests fail. -/
def refutingServices : OrchestratorServices fun _ => true where
  platform := literalPlatform
  artifactStore := artifactStore
  prepareWorkspace _ := pure ⟨"/repo", "/work", "c0", "b0"⟩
  diff _ := pure "+ a line"
  writeCapsule _ :=
    pure ⟨"/work/.agent-workflow", "work_order.md", "run_manifest.json", "prompt.md"⟩
  runAdapter _ := pure
    { exitCode := some 0, timedOut := false, stdoutTail := "", stderrTail := "", stdoutBytes := 0
      stderrBytes := 0, signal := none, wallTimeMs := 10 }
  runVerifier _ := pure ⟨false, [⟨"make test", some 2, false, "1 failed", 5⟩]⟩
  existsSync _ := pure true
  readFileSync _ := pure "done"

theorem refutingServices_keepsKinds : KeepsKinds refutingServices.artifactStore where
  saveText := by
    rintro t env f artifact f' ⟨⟩
    rfl
  saveFile := by
    rintro t env f artifact f' ⟨⟩
    rfl

/-- Nothing throws. -/
def localEnv : LocalEnv := { env with fails := fun _ _ => false }

/-- An empty database. -/
def emptyDatabase : LocalState := ⟨0, [], Table.empty, [], Files.empty, true⟩

/-- The run has returned, failed for a reason. -/
def failedFor (reason : String) : EStateM.Result Err LocalState RunWorkOrderResult → Bool
  | .ok r s => decide (r.status = .failed ∧
    (accountOf s r.runId).bind (fun a => a.told.reason) = some reason)
  | .error _ _ => false

end Sample

end AgentWorkflow
