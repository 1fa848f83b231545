import AgentWorkflow.Cli.RunBatchV1
import AgentWorkflow.Core.RunEnd
import AgentWorkflow.Queue.Provenance
import AgentWorkflow.Storage.ArtifactStore

/-!
# The workers of a batch

`makeV1WorkerServices` of `cli/run-command.ts`, and the runs of `runBatchV1`: the inputs are
enqueued, then workers with these services take their steps.

* `onWorkspace` — a service that was given no database: **it cannot reach the table of artifacts.**
* `makeV1WorkerServices` — the services of one worker. Its registry, its budget manager and its
  handoff manager get one project id; a run takes its own from the entry.
* `saved_of_callSource` — what a service call adds to the table of artifacts.
* `BatchRun` — the enqueue phase, then any steps of any workers, over any database.
* **`kept_of_batch`** — an invariant of the tables holds in every state of a batch.
-/

namespace AgentWorkflow

open Fallible OrchestratorV1

/-! ## Services without a database -/

/-- What a service without a database works on. -/
structure Workspace where
  calls : ℕ
  disk : Posix.Disk
  worktrees : List (String × Worktree)

/-- Programs of such a service. -/
abbrev WorkspaceM := Prog Env Err Workspace

/-- A program of a service without a database; the artifacts stay. -/
def onWorkspace {α : Type} (m : WorkspaceM α) : ServiceM α :=
  zoom (fun f : Files => ⟨f.calls, f.disk, f.worktrees⟩)
    (fun v f => { f with calls := v.calls, disk := v.disk, worktrees := v.worktrees }) m

/-- What `makeV1WorkerServices` constructs without a database, with the platform it runs on. -/
structure ExternalServices where
  coll : Collation
  platform : Platform
  prepareWorkspace : PrepareWorkspace → WorkspaceM PreparedWorktree
  diff : (workspacePath : String) → WorkspaceM String
  applyDiff : (workspacePath diffText : String) → WorkspaceM SandboxDiffApplyResult
  writeTaskCapsule : WriteCapsule → WorkspaceM TaskCapsuleWriteResult
  writeReviewBrief : WriteBrief → WorkspaceM ReviewBriefWriteResult
  runAdapter : RunAgent → WorkspaceM AgentProcessResult
  runVerifier : RunVerification → WorkspaceM VerificationResult
  attachToBrief : (workspacePath : String) → HandoffPacket → WorkspaceM Unit
  parseReviewVerdict : (workspacePath : String) → WorkspaceM ReviewVerdictParseResult
  existsSync : String → WorkspaceM Bool
  readFileSync : String → WorkspaceM String

/-- The services of a worker: its handler's, and those of the runs it starts. -/
structure WorkerServices where
  handler : HandlerServices
  run : V1RunTaskServices

/-- Source: `run-command.ts` `makeV1WorkerServices`. -/
def makeV1WorkerServices (external : ExternalServices) (artifactRepoPath projectId : String) :
    WorkerServices :=
  let artifactStore : LocalArtifactStore :=
    ⟨Posix.resolve [] artifactRepoPath, external.platform.sha256hex⟩
  { handler :=
      { coll := external.coll
        json := external.platform.json
        artifactStore := artifactStore.toArtifactStore
        registryOptions := { rollingWindowSize := 50, hasEventLog := true, projectId }
        projectId }
    run :=
      { platform := external.platform
        artifactStore := artifactStore.toArtifactStore
        sandboxProvider :=
          { prepareWorkspace := fun p => onWorkspace (external.prepareWorkspace p)
            diff := fun path => onWorkspace (external.diff path)
            applyDiff := fun path text => onWorkspace (external.applyDiff path text) }
        writeTaskCapsule := fun p => onWorkspace (external.writeTaskCapsule p)
        writeReviewBrief := fun p => onWorkspace (external.writeReviewBrief p)
        runAdapter := fun p => onWorkspace (external.runAdapter p)
        runVerifier := fun p => onWorkspace (external.runVerifier p)
        attachToBrief := some fun path packet => onWorkspace (external.attachToBrief path packet)
        parseReviewVerdict := fun path => onWorkspace (external.parseReviewVerdict path)
        existsSync := fun path => onWorkspace (external.existsSync path)
        readFileSync := fun path => onWorkspace (external.readFileSync path) } }

/-- The services the worker factory of `runBatchV1` makes, given the first work order. -/
def RunBatchV1.workerServices (external : ExternalServices) (firstWorkOrder : ParsedWorkOrderV1) :
    WorkerServices :=
  makeV1WorkerServices external firstWorkOrder.repo.path firstWorkOrder.projectId

/-! ## What a call adds to the artifacts -/

section rows

variable {store : LocalArtifactStore} {env : Env} {rows : List ArtifactRow} {α : Type}
  {Q : α → List ArtifactRow → Prop} {E : Err → List ArtifactRow → Prop}

theorem rows_checked {x : Except Err α} (hQ : ∀ a, Q a rows) (hE : ∀ e, E e rows) :
    EnsuresVia Files.artifacts (checked x) env rows Q E := by
  cases x with
  | ok a => exact .pure (hQ a)
  | error e => exact .throw (hE e)

theorem rows_onDisk {f : Posix.Disk → Option Posix.Disk} {Q : Unit → List ArtifactRow → Prop}
    (hQ : Q () rows) (hE : ∀ e, E e rows) :
    EnsuresVia Files.artifacts (onDisk f) env rows Q E := by
  rintro files rfl
  unfold onDisk
  refine ensures_bind.mpr (ensures_get.mpr ?_)
  cases f files.disk with
  | none => exact hE _
  | some d => exact hQ

theorem rows_readFile {p : Posix.Path} {Q : String → List ArtifactRow → Prop}
    (hQ : ∀ content, Q content rows) (hE : ∀ e, E e rows) :
    EnsuresVia Files.artifacts (readFile p) env rows Q E := by
  rintro files rfl
  unfold readFile
  refine ensures_bind.mpr (ensures_get.mpr ?_)
  cases files.disk.read p with
  | none => exact hE _
  | some content => exact hQ content

/-- A row with the project, the name and the kind, or an exception. -/
theorem rows_insertArtifact {n : ArtifactName} {projectId checksum : String} {kind : ArtifactKind}
    {summary : Option String} {Q : ArtifactRef → List ArtifactRow → Prop}
    (hQ : ∀ ref a, ref.uri = artifactUri n → a.projectId = projectId → a.taskId = n.taskId →
      a.kind = kind → Q ref (rows ++ [a]))
    (hE : ∀ e, E e rows) :
    EnsuresVia Files.artifacts (store.insertArtifact n projectId kind checksum summary) env rows
      Q E := by
  have hcall : ∀ {Q : ℕ → List ArtifactRow → Prop}, (∀ k, Q k rows) →
      EnsuresVia Files.artifacts nextServiceCall env rows Q E := by
    rintro Q hQ files rfl
    exact hQ _
  refine .bind (.read (.bind (hcall fun id => .bind (hcall fun createdAt =>
    .bind (hcall fun call => .ite (fun _ => .throw (hE _)) fun _ => ?_)))))
  refine .bind ?_
  rintro files rfl
  exact ensures_modify.mpr (.pure (hQ _ _ rfl rfl rfl rfl))

theorem rows_saveText {args : SaveText} {Q : ArtifactRef → List ArtifactRow → Prop}
    (hQ : ∀ ref a, ref.uri = artifactUri args.name → a.projectId = args.projectId →
      a.taskId = args.taskId → a.kind = args.kind → Q ref (rows ++ [a]))
    (hE : ∀ e, E e rows) :
    EnsuresVia Files.artifacts (store.saveText args) env rows Q E := by
  refine .bind (rows_checked (fun _ => ?_) hE)
  refine .bind (rows_onDisk (.bind (rows_onDisk ?_ hE)) hE)
  exact rows_insertArtifact hQ hE

theorem rows_saveFile {args : SaveFile} {Q : ArtifactRef → List ArtifactRow → Prop}
    (hQ : ∀ ref a, ref.uri = artifactUri args.name → a.projectId = args.projectId →
      a.taskId = args.taskId → a.kind = args.kind → Q ref (rows ++ [a]))
    (hE : ∀ e, E e rows) :
    EnsuresVia Files.artifacts (store.saveFile args) env rows Q E := by
  refine .bind (rows_checked (fun _ => ?_) hE)
  refine .bind (rows_onDisk (.bind (rows_readFile (fun source => ?_) hE)) hE)
  refine .bind (rows_onDisk (.bind (rows_readFile (fun content => ?_) hE)) hE)
  exact rows_insertArtifact hQ hE

theorem rows_readText {uri : String} {Q : String → List ArtifactRow → Prop}
    (hQ : ∀ content, Q content rows) (hE : ∀ e, E e rows) :
    EnsuresVia Files.artifacts (store.readText uri) env rows Q E :=
  .bind (rows_checked (fun _ => .bind (rows_checked (fun _ => rows_readFile hQ hE) hE)) hE)

theorem rows_onWorkspace {m : WorkspaceM α} (hQ : ∀ a, Q a rows) (hE : ∀ e, E e rows) :
    EnsuresVia Files.artifacts (onWorkspace m) env rows Q E := by
  rintro files rfl
  exact ensures_zoom_of_forall (fun a _ => hQ a) fun e _ => hE e

end rows

/-- The project of an artifact of a task under the project `own`: a handoff packet is saved under
the project of the services. -/
def savedProject (projectId own : String) (kind : ArtifactKind) : String :=
  if kind = .handoffPacket then projectId else own

/-- The rows are as before, or one was added for the task of a known entry. -/
def Saved (projectId : String) (d : Tables) (rows rows' : List ArtifactRow) : Prop :=
  rows' = rows ∨ ∃ a entry, rows' = rows ++ [a] ∧ d.Knows entry ∧ a.taskId = entry.taskId ∧
    a.projectId = savedProject projectId entry.projectId a.kind

section calls

variable {external : ExternalServices} {artifactRepoPath projectId : String} {d : Tables}
  {env : Env} {rows : List ArtifactRow} {α : Type} {m : ServiceM α}

/-- A call of a service without a database adds no row. -/
theorem rows_otherCall
    (hm : OtherCall (makeV1WorkerServices external artifactRepoPath projectId).run α m) :
    EnsuresVia Files.artifacts m env rows (fun _ rows' => rows' = rows)
      fun _ rows' => rows' = rows := by
  cases hm with
  | attachToBrief hattach path packet =>
    cases hattach
    exact rows_onWorkspace (fun _ => rfl) fun _ => rfl
  | _ => exact rows_onWorkspace (fun _ => rfl) fun _ => rfl

/-- **What a service call adds to the table of artifacts.** -/
theorem saved_of_callSource
    (hm : CallSource (makeV1WorkerServices external artifactRepoPath projectId).handler
      (makeV1WorkerServices external artifactRepoPath projectId).run d α m) :
    EnsuresVia Files.artifacts m env rows (fun _ rows' => Saved projectId d rows rows')
      fun _ rows' => Saved projectId d rows rows' := by
  have hpacket : ∀ {own : String} {kind : ArtifactKind}, kind = .handoffPacket →
      savedProject projectId own kind = projectId := fun h => if_pos h
  have hother : ∀ {own : String} {kind : ArtifactKind}, kind ≠ .handoffPacket →
      savedProject projectId own kind = own := fun h => if_neg h
  cases hm with
  | @handler entry _ _ hentry hm =>
    cases hm with
    | readText uri => exact rows_readText (fun _ => .inl rfl) fun _ => .inl rfl
    | savePacket t hproject htask hkind =>
      refine rows_saveText (fun ref a _ hp ht hk => .inr ⟨a, entry, rfl, hentry, ?_, ?_⟩)
        fun _ => .inl rfl
      · rw [ht, htask]
      · rw [hpacket (hk.trans hkind), hp, hproject]
        rfl
  | @run args _ _ hentry hm =>
    cases hm with
    | saveText t hproject htask hkind =>
      refine rows_saveText (fun ref a _ hp ht hk => .inr ⟨a, args.entry, rfl, hentry, ?_, ?_⟩)
        fun _ => .inl rfl
      · rw [ht, htask]
      · rw [hk, hother hkind, hp, hproject]
    | saveFile t hproject htask hkind =>
      refine rows_saveFile (fun ref a _ hp ht hk => .inr ⟨a, args.entry, rfl, hentry, ?_, ?_⟩)
        fun _ => .inl rfl
      · rw [ht, htask]
      · rw [hk, hother hkind, hp, hproject]
    | other hm => exact (rows_otherCall hm).mono (fun _ _ => .inl) fun _ _ => .inl

end calls

/-! ## Batches -/

/-- The events written since `s₀`. -/
def System.writtenEvents (s₀ s : System) : List EventEnvelope :=
  s.world.backend.events.drop s₀.world.backend.events.length

/-- The artifacts saved since `s₀`. -/
def System.writtenArtifacts (s₀ s : System) : List ArtifactRow :=
  s.world.backend.files.artifacts.drop s₀.world.backend.files.artifacts.length

namespace RunBatchV1

/-- The enqueue phase of a batch returns, and its workers take the steps `ls`: from a database with
anything in it, while nobody else works on it. -/
structure BatchRun (external : ExternalServices) (firstWorkOrder : ParsedWorkOrderV1)
    (rest : List ParsedWorkOrderV1) (s₀ : System) (env : Env) (ls : List Label) (s : System) :
    Prop where
  idle : ∀ w, s₀.pc w = .idle
  runs : ∃ world, enqueueInputs "main" (firstWorkOrder :: rest) env (s₀.load "main") = .ok () world ∧
    System.Steps (workerServices external firstWorkOrder).handler (s₀.store "main" world) ls s
  labels : ∀ l ∈ ls, l.Uses (workerServices external firstWorkOrder).run fun _ => False

/-- The inputs have rows, under their projects. -/
def HasInputs (inputs : List ParsedWorkOrderV1) (d : Tables) : Prop :=
  ∀ workOrder ∈ inputs, d.Under workOrder.taskId workOrder.projectId

section batches

variable {services : HandlerServices} {runServices : V1RunTaskServices} {K : String → Prop}
  {W : ParsedWorkOrderV1 → Prop} {I : Tables → Prop} {E : TaskQueueEntry → Prop}
  {queueId : String} {env : Env} {w : World}

/-- The inputs keep their rows and their projects. -/
theorem inputs_frame (h : TablesFrame services runServices K W I)
    (inputs : List ParsedWorkOrderV1) :
    TablesFrame services runServices K W fun d => I d ∧ HasInputs inputs d where
  insert d workOrder nextRole ts q hW hq hd :=
    ⟨h.insert d workOrder nextRole ts q hW hq hd.1, fun wo hwo => (hd.2 wo hwo).insert hq⟩
  row d t f hf hfixed hd :=
    ⟨h.row d t f hf hfixed hd.1, fun wo hwo => (hd.2 wo hwo).update hf hfixed⟩
  event d e he hd := ⟨h.event d e he hd.1, hd.2⟩
  call d α m hm hd env := (h.call d α m hm hd.1 env).mono (fun _ _ hf => ⟨hf, hd.2⟩)
    fun _ _ hf => ⟨hf, hd.2⟩
  run d args runs hentry hrun hd := ⟨h.run d args runs hentry hrun hd.1, hd.2⟩

/-- A row, and its event. -/
theorem kept_emitTaskEnqueued (h : TablesFrame services runServices K W I)
    {workOrder : ParsedWorkOrderV1} (hW : W workOrder) (hw : Kept I K E w) :
    Ensures (emitTaskEnqueued queueId workOrder) env w
      (fun _ w' => Kept (fun d => I d ∧ HasInputs [workOrder] d) K E w')
      fun _ w' => Kept I K E w' := by
  refine ensures_bind.mpr ((h.kept_enqueue queueId .implementer hW env hw).mono
    (fun entry w₁ h₁ => ?_) fun _ _ he => he)
  obtain ⟨hw₁, ts, rfl⟩ := h₁
  have hcalls : ∀ n, Kept I K (fun x => x = TaskQueue.enqueuedEntry workOrder .implementer ts ∨ E x)
      ⟨w₁.core, { w₁.backend with calls := n }⟩ := fun n =>
    TablesFrame.kept_congr (w := w₁) rfl rfl hw₁
  have hforget : ∀ {w' : World}, Kept I K (fun x => x = TaskQueue.enqueuedEntry workOrder
      .implementer ts ∨ E x) w' → Kept I K E w' := fun hw' =>
    TablesFrame.kept_mono hw' fun _ => Or.inr
  simp only [ensures_bind, ensures_onBackend, ensures_uuid8, ensures_dateNow,
    EventLog.ensures_validatedAppend, EventLog.ensures_append_iff]
  refine ⟨fun _ _ => hforget (hcalls _), fun _ => ⟨fun _ => hforget (hcalls _), fun _ => ?_⟩⟩
  have hlogged : ∀ id createdAt, EventSource services runServices K w₁.tables (enqueuedEvent
      (TaskQueue.enqueuedEntry workOrder .implementer ts) id createdAt) := fun id createdAt =>
    .enqueued (hw₁.knows _ (Or.inl rfl))
      ⟨List.mem_singleton_self _, rfl, rfl, fun hblank _ => enqueuedEvent_valid.mpr hblank⟩
  have hdone := h.kept_append (b := { w₁.backend with calls := w₁.backend.calls + 1 + 1 + 1 })
    (hlogged (env.uuid w₁.backend.calls) (env.clock (w₁.backend.calls + 1))) (hcalls _)
  refine ⟨⟨hdone.tables, fun wo hwo => ?_⟩, (hforget hdone).knows, hdone.agents⟩
  obtain rfl := List.mem_singleton.mp hwo
  exact hdone.knows _ (Or.inl rfl)

/-- Every row, and its event. -/
theorem kept_enqueueInputs (h : TablesFrame services runServices K W I)
    {inputs : List ParsedWorkOrderV1} (hW : ∀ workOrder ∈ inputs, W workOrder)
    (hw : Kept I K E w) :
    Ensures (enqueueInputs queueId inputs) env w
      (fun _ w' => Kept (fun d => I d ∧ HasInputs inputs d) K E w') fun _ w' => Kept I K E w' := by
  induction inputs generalizing w I with
  | nil => exact ⟨⟨hw.tables, by simp [HasInputs]⟩, hw.knows, hw.agents⟩
  | cons workOrder rest ih =>
    have hfirst := hW workOrder List.mem_cons_self
    refine ensures_bind.mpr ((kept_emitTaskEnqueued h hfirst hw).mono (fun _ w₁ hw₁ => ?_)
      fun _ _ he => he)
    refine (ih (inputs_frame h [workOrder]) (fun wo hwo => hW wo (List.mem_cons_of_mem _ hwo))
      hw₁).mono (fun _ w₂ hw₂ => ⟨⟨hw₂.tables.1.1, fun wo hwo => ?_⟩, hw₂.knows, hw₂.agents⟩)
      fun _ w₂ hw₂ => ⟨hw₂.tables.1, hw₂.knows, hw₂.agents⟩
    rcases List.mem_cons.mp hwo with rfl | hwo
    · exact hw₂.tables.1.2 wo (List.mem_singleton_self wo)
    · exact hw₂.tables.2 wo hwo

variable {external : ExternalServices} {firstWorkOrder : ParsedWorkOrderV1}
  {rest : List ParsedWorkOrderV1} {s₀ s : System} {ls : List Label}

/-- **An invariant of the tables holds in every state of a batch**, and the inputs have rows. -/
theorem kept_of_batch (h : TablesFrame (workerServices external firstWorkOrder).handler
      (workerServices external firstWorkOrder).run K W I)
    (hW : ∀ workOrder ∈ firstWorkOrder :: rest, W workOrder) (hI : I s₀.world.tables)
    (hK : ∀ w, ∀ id ∈ (s₀.memory w).registry.rows.map InternalEntry.agentId, K id)
    (hrun : BatchRun external firstWorkOrder rest s₀ env ls s) :
    SystemKept (fun d => I d ∧ HasInputs (firstWorkOrder :: rest) d) K s := by
  obtain ⟨world, hworld, hsteps⟩ := hrun.runs
  have hs₀ : SystemKept I K s₀ := by
    refine ⟨hI, fun w entry hw => ?_, hK, fun w launch hw => ?_⟩
    · rw [hrun.idle w] at hw
      cases hw
    · rw [hrun.idle w] at hw
      cases hw
  have henqueued := (kept_enqueueInputs h hW (TablesFrame.kept_load "main" hs₀)).of_ok
    hworld
  have hs₁ : SystemKept (fun d => I d ∧ HasInputs (firstWorkOrder :: rest) d) K
      (s₀.store "main" world) := by
    have hstored := TablesFrame.kept_store "main" hs₀
      ⟨henqueued.tables.1, henqueued.knows, henqueued.agents⟩
    exact ⟨henqueued.tables, hstored.knows, hstored.agents, hstored.launched⟩
  refine (inputs_frame h _).kept_of_steps (fun l hl => ?_) hs₁ hsteps
  have huses := hrun.labels l hl
  cases l with
  | enqueue => exact huses.elim
  | _ => exact huses

end batches

/-- The state of a call that returned. -/
def afterReturn {α : Type} : EStateM.Result Err World α → Option World
  | .ok _ world => some world
  | .error _ _ => none

/-- Run a batch while its steps are possible. -/
def batch (external : ExternalServices) (firstWorkOrder : ParsedWorkOrderV1)
    (rest : List ParsedWorkOrderV1) (s₀ : System) (env : Env) (ls : List Label) : Option System :=
  (afterReturn (enqueueInputs "main" (firstWorkOrder :: rest) env (s₀.load "main"))).bind
    fun world => (s₀.store "main" world).steps (workerServices external firstWorkOrder).handler ls

/-- What `batch` computes is a run of the batch. -/
theorem batchRun_of_batch {external : ExternalServices} {firstWorkOrder : ParsedWorkOrderV1}
    {rest : List ParsedWorkOrderV1} {s₀ s : System} {env : Env} {ls : List Label}
    (hidle : ∀ w, s₀.pc w = .idle)
    (hls : ∀ l ∈ ls, l.Uses (workerServices external firstWorkOrder).run fun _ => False)
    (h : batch external firstWorkOrder rest s₀ env ls = some s) :
    BatchRun external firstWorkOrder rest s₀ env ls s := by
  refine ⟨hidle, ?_, hls⟩
  obtain ⟨world, hworld, hsteps⟩ := Option.bind_eq_some_iff.mp h
  refine ⟨world, ?_, System.steps_iff.mpr hsteps⟩
  cases hrun : enqueueInputs "main" (firstWorkOrder :: rest) env (s₀.load "main") with
  | ok u w =>
    rw [hrun] at hworld
    cases hworld
    rfl
  | error e w =>
    rw [hrun] at hworld
    cases hworld

end RunBatchV1

/-! ## Two projects -/

namespace Sample

/-- Every service returns at once, and every agent exits with an error. -/
def external : ExternalServices where
  coll := coll
  platform := runServices.platform
  prepareWorkspace args := pure ⟨args.repoPath, "/work", "base", "branch"⟩
  diff _ := pure "diff"
  applyDiff _ _ := pure ⟨true, "", ""⟩
  writeTaskCapsule _ := pure ⟨"/capsule", "/order", "/manifest", "/prompt"⟩
  writeReviewBrief _ := pure ⟨"/brief", "/prompt", "/diff"⟩
  runAdapter _ := pure ⟨some 1, false, "", "", 0, 0⟩
  runVerifier _ := pure ⟨true, []⟩
  attachToBrief _ _ := pure ()
  parseReviewVerdict _ := pure ⟨⟨.approved, "Fine", []⟩, false, none, none⟩
  existsSync _ := pure false
  readFileSync _ := pure ""

/-- A task of another project. -/
def otherProject : ParsedWorkOrderV1 :=
  { workOrder with taskId := "T-2", projectId := "other", valid := by decide +kernel }

/-- Two workers claim a task each, and the second one runs an agent. -/
def secondFails (services : WorkerServices) : List Label :=
  [.claim "w1" env, .claim "w2" env, .start "w2" env false,
    .settle "w2" env (runTaskOnce services.run .quiet) false]

theorem secondFails_uses (services : WorkerServices) :
    ∀ l ∈ secondFails services, l.Uses services.run fun _ => False := by
  intro l hl
  simp only [secondFails, List.mem_cons, List.not_mem_nil, or_false] at hl
  rcases hl with rfl | rfl | rfl | rfl
  · trivial
  · trivial
  · trivial
  · exact ⟨.quiet, rfl⟩

end Sample

end AgentWorkflow
