import AgentWorkflow.Core.OrchestratorV1
import AgentWorkflow.Queue.Worker

/-!
# How a run ends

The row and the events of a run when `runTaskOnce` settles, whatever the services do.

* `RunView` — what the properties of a run are about: its row, its `run.completed` and `run.failed`
  events, the edges selected, and the files.
* `Tries` — the rule of the two `try` blocks: **from a run that is going, a part of it returns with
  `Q` or throws and leaves the run going.** One rule for each way of building a program.
* `runRole_spec`, `createRunContext_spec`, `runTaskOnce_spec` — every outcome is of the role, comes
  with the edge of its kind, and ends the row; an exception leaves a row that is cancelled, or one
  that still runs.
* **`run_ended_iff`** — a run ends as it should exactly when its exception does not come from the
  calls a reviewer makes before its `try` begins.
-/

namespace AgentWorkflow

open Fallible

namespace OrchestratorV1

/-! ## What is seen of a run -/

/-- The events that end a run. -/
def ends : EventType → Bool
  | .runCompleted | .runFailed => true
  | _ => false

/-- The end of the edge an event selects. -/
def edgeEnd (eventType : EventType) (payload : List (String × Json)) : Option String :=
  if eventType = .taskEdgeSelected then
    match payload.lookup "to" with
    | some (.str edge) => some edge
    | _ => none
  else none

/-- The edges selected so far. -/
def edgesSelected (events : List EventEnvelope) : List String :=
  events.filterMap fun e => edgeEnd e.eventType e.payload

/-- What is seen of a run. -/
structure RunView where
  row : Option RunRecord
  /-- The `run.completed` and `run.failed` events of the run. -/
  finishes : List EventType
  edges : List String
  files : Files

/-- What a backend shows of a run. -/
def runView (runId : String) (b : Backend) : RunView where
  row := b.agentRuns.find? runId
  finishes := (b.events.filter fun e => e.runId = some runId ∧ ends e.eventType = true).map
    EventEnvelope.eventType
  edges := edgesSelected b.events
  files := b.files

/-- What one more event of the run adds. -/
def RunView.noted (v : RunView) (eventType : EventType) (payload : List (String × Json)) :
    RunView :=
  { v with
    finishes := v.finishes ++ (if ends eventType = true then [eventType] else [])
    edges := v.edges ++ (edgeEnd eventType payload).toList }

section views

variable {α : Type} {runId : String} {env : Env} {v : RunView} {E : Err → RunView → Prop}

theorem via_onFiles {m : ServiceM α} {Q : α → RunView → Prop}
    (h : Ensures m env v.files (fun a f => Q a { v with files := f })
      (fun e f => E e { v with files := f })) :
    EnsuresVia (runView runId) (onFiles m) env v Q E := by
  rintro b rfl
  exact ensures_zoom.mpr h

theorem via_dateNow {Q : ℕ → RunView → Prop} (hQ : ∀ now, Q now v) :
    EnsuresVia (runView runId) dateNow env v Q E := by
  rintro b rfl
  exact hQ _

theorem via_uuid8 {Q : String → RunView → Prop} (hQ : ∀ id, Q id v) :
    EnsuresVia (runView runId) uuid8 env v Q E := by
  rintro b rfl
  exact hQ _

theorem via_storageCall {k : StorageCall} {Q : Unit → RunView → Prop} (hQ : Q () v)
    (hE : env.MayThrow k → ∀ e, E e v) : EnsuresVia (runView runId) (storageCall k) env v Q E := by
  rintro b rfl
  exact ensures_storageCall_iff.mpr ⟨fun h => hE ⟨_, h⟩ _, fun _ => hQ⟩

/-- An event of the run is seen, or its append throws. -/
theorem via_appendEvent {ids : RunIds} {eventType : EventType} {payload : List (String × Json)}
    {Q : Unit → RunView → Prop} (hQ : Q () (v.noted eventType payload))
    (hE : ¬ env.Faultless → ∀ e, E e v) :
    EnsuresVia (runView ids.runId) (appendEvent ids eventType payload) env v Q E := by
  refine .bind (via_uuid8 fun id => .bind (via_dateNow fun createdAt => ?_))
  refine .bind (via_storageCall ?_ fun h => hE fun hf => hf _ h)
  rintro b rfl
  have hview : runView ids.runId { b with events := b.events ++ [
      { eventId := "E-" ++ id, eventType, projectId := ids.projectId, taskId := some ids.taskId,
        runId := some ids.runId, agentId := some ids.agentId, skipOnReplay := false, payload,
        createdAt }] } = (runView ids.runId b).noted eventType payload := by
    by_cases h : ends eventType = true
    · simp [runView, RunView.noted, edgesSelected, List.filterMap_append, List.filter_append, h,
        List.filterMap_cons]
      cases edgeEnd eventType payload <;> rfl
    · simp [runView, RunView.noted, edgesSelected, List.filterMap_append, List.filter_append, h,
        List.filterMap_cons]
      cases edgeEnd eventType payload <;> rfl
  show Q () (runView ids.runId _)
  rw [hview]
  exact hQ

theorem via_get {Q : Option RunRecord → RunView → Prop} (hQ : Q v.row v)
    (hE : ¬ env.Faultless → ∀ e, E e v) :
    EnsuresVia (runView runId) (RunStore.get runId) env v Q E := by
  refine .bind (via_storageCall ?_ fun h => hE fun hf => hf _ h)
  rintro b rfl
  exact hQ

/-- The row of the run is patched, or the update throws. -/
theorem via_updateStatus {status : RunStatus} {patch : RunStore.Patch} {r : RunRecord}
    {Q : Unit → RunView → Prop} (hr : v.row = some r)
    (hQ : Q () { v with row := some (patch.apply status r) })
    (hE : ¬ env.Faultless → ∀ e, E e v) :
    EnsuresVia (runView runId) (RunStore.updateStatus runId status patch) env v Q E := by
  refine .bind (via_get ?_ hE)
  rw [hr]
  refine .bind (via_storageCall ?_ fun h => hE fun hf => hf _ h)
  rintro b rfl
  have hid : ∀ r, (patch.apply status r).id = r.id := fun _ => rfl
  have hrow : (b.agentRuns.update runId (patch.apply status) hid).find? runId =
      some (patch.apply status r) :=
    (Table.find?_update_self b.agentRuns runId (patch.apply status) hid).trans
      (congrArg (Option.map (patch.apply status)) hr)
  have hview : runView runId
      { b with agentRuns := (b.agentRuns.update runId (patch.apply status) hid) } =
      { runView runId b with row := some (patch.apply status r) } := by
    simp only [runView, hrow]
  show Q () (runView runId _)
  rw [hview]
  exact hQ

end views

/-! ## A run that goes on, and one that has ended -/

/-- The status a run ends with. -/
def endStatus (success : Bool) : RunStatus := if success = true then .succeeded else .failed

/-- The event a run ends with. -/
def endEvent (success : Bool) : EventType := if success = true then .runCompleted else .runFailed

/-- The row is being prepared or running, and no event has ended the run: those so far are `F`. -/
structure Alive (F : List EventType) (v : RunView) : Prop where
  row : ∃ r, v.row = some r ∧ (r.status = .preparing ∨ r.status = .running) ∧ r.endedAt = none
  finishes : v.finishes = F

/-- The row has ended, with exactly one more event that says so. -/
structure Ended (F : List EventType) (success : Bool) (v : RunView) : Prop where
  row : ∃ r, v.row = some r ∧ r.status = endStatus success ∧ r.endedAt.isSome = true
  finishes : v.finishes = F ++ [endEvent success]

/-- A run goes on: no edge was selected after `G`. Storage faults may have left its row as it is. -/
def Going (env : Env) (F : List EventType) (G : List String) (v : RunView) : Prop :=
  v.edges = G ∧ (env.Faultless → Alive F v)

/-- Without a row, storage has failed. -/
theorem Going.not_faultless {env : Env} {F : List EventType} {G : List String} {v : RunView}
    (h : Going env F G v) (hrow : v.row = none) : ¬ env.Faultless := fun hf => by
  obtain ⟨r, hr, -⟩ := (h.2 hf).row
  rw [hrow] at hr
  cases hr

/-- A run has ended, and selected the edges `edges` after `G`. -/
def Over (env : Env) (F : List EventType) (G edges : List String) (success : Bool) (v : RunView) :
    Prop :=
  v.edges = G ++ edges ∧ (env.Faultless → Ended F success v)

/-- Storage has failed, and no edge was selected after `G`. -/
def Faulted (env : Env) (G : List String) (v : RunView) : Prop := v.edges = G ∧ ¬ env.Faultless

/-- What is left of a run when storage has failed. -/
theorem Faulted.going {env : Env} {F : List EventType} {G : List String} {v : RunView}
    (h : Faulted env G v) : Going env F G v := ⟨h.1, fun hf => absurd hf h.2⟩

/-- The edges that are selected with an outcome. -/
def edgesOf (workOrder : ParsedWorkOrderV1) : RunOutcome → List String
  | .implementerSucceeded .. => [(implementerEdge workOrder).text]
  | .reviewerApproved .. => [(verdictEdge .approved).text]
  | .reviewerChangesRequested .. => [(verdictEdge .changesRequested).text]
  | .reviewerRejected .. => [(verdictEdge .rejected).text]
  | .reviewerUnusable _ .diffApplyFailed .. => [EdgeTo.requeued.text]
  | _ => []

/-- An outcome of the role, with the edge and the end of its kind. -/
def Done (env : Env) (F : List EventType) (G : List String) (args : RunTaskArgs) (role : Role)
    (o : RunOutcome) (v : RunView) : Prop :=
  o.role = role ∧ Over env F G (edgesOf args.workOrder o) (WorkerTaskHandler.outcomeSuccess o) v

/-! ## The rule of a `try` block -/

/-- From a run that is going, a program returns with `Q`, or throws and leaves it going. -/
def Tries {σ α : Type} (view : σ → RunView) (env : Env) (F : List EventType) (G : List String)
    (m : Prog Env Err σ α) (Q : α → RunView → Prop) : Prop :=
  ∀ v, Going env F G v → EnsuresVia view m env v Q fun _ v' => Going env F G v'

/-- From a run that is going, a program leaves it going. -/
abbrev Keeps {σ α : Type} (view : σ → RunView) (env : Env) (F : List EventType) (G : List String)
    (m : Prog Env Err σ α) : Prop :=
  Tries view env F G m fun _ v => Going env F G v

section rule

variable {σ α β : Type} {view : σ → RunView} {env : Env} {F : List EventType} {G : List String}
  {m : Prog Env Err σ α} {Q Q' : α → RunView → Prop} {runId : String}

theorem Going.congr {v v' : RunView} (h : Going env F G v) (hrow : v'.row = v.row)
    (hfinishes : v'.finishes = v.finishes) (hedges : v'.edges = v.edges) : Going env F G v' := by
  refine ⟨hedges.trans h.1, fun hf => ?_⟩
  obtain ⟨hr, hfin⟩ := h.2 hf
  exact ⟨hrow ▸ hr, hfinishes.trans hfin⟩

theorem Keeps.pure {a : α} : Keeps view env F G (Pure.pure a : Prog Env Err σ α) :=
  fun _ hv => .pure hv

theorem Tries.throw {e : Err} : Tries view env F G (MonadExcept.throw e) Q :=
  fun _ hv => .throw hv

/-- What keeps a run going comes before what ends it. -/
theorem Tries.bind {f : α → Prog Env Err σ β} {Q : β → RunView → Prop} (h : Keeps view env F G m)
    (hf : ∀ a, Tries view env F G (f a) Q) : Tries view env F G (m >>= f) Q := fun v hv =>
  .bind ((h v hv).mono (fun a v' hv' => hf a v' hv') fun _ _ he => he)

theorem Tries.ite {c : Prop} [Decidable c] {m' : Prog Env Err σ α} (h : c → Tries view env F G m Q)
    (h' : ¬ c → Tries view env F G m' Q) : Tries view env F G (if c then m else m') Q :=
  fun v hv => .ite (fun hc => h hc v hv) fun hc => h' hc v hv

/-- A handler that ends the run ends what the block left going. -/
theorem Tries.tryCatch {handler : Err → Prog Env Err σ α} (h : Tries view env F G m Q)
    (hh : ∀ e, Tries view env F G (handler e) Q) :
    Tries view env F G (MonadExcept.tryCatch m handler) Q := fun v hv =>
  .tryCatch ((h v hv).mono (fun _ _ ha => ha) fun e v' he => hh e v' he)

/-- A service may do anything. -/
theorem Keeps.onFiles {m : ServiceM α} : Keeps (runView runId) env F G (onFiles m) := fun _ hv =>
  via_onFiles (ensures_of_forall (fun _ _ _ => hv.congr rfl rfl rfl)
    fun _ _ _ => hv.congr rfl rfl rfl)

theorem Keeps.ofExcept {x : Except Err α} : Keeps (runView runId) env F G (ofExcept x) := by
  cases x with
  | ok a => exact Keeps.pure
  | error e => exact Tries.throw

/-- An exception that becomes a value. -/
theorem Keeps.attempt {m : BackendM α} (h : Keeps (runView runId) env F G m) :
    Keeps (runView runId) env F G (WorkerTaskHandler.attempt m) := by
  refine Tries.tryCatch ?_ fun _ => Keeps.pure
  rw [map_eq_pure_bind]
  exact Tries.bind h fun _ => Keeps.pure

theorem Keeps.throwIfAborted {aborted : Bool} :
    Keeps (runView runId) env F G (throwIfAborted aborted) :=
  Tries.ite (fun _ => Tries.throw) fun _ => Keeps.pure

end rule

/-! ## Events, artifacts and the end -/

section steps

variable {services : V1RunTaskServices} {args : RunTaskArgs} {ids : RunIds} {env : Env}
  {F : List EventType} {G : List String} {eventType : EventType} {payload : List (String × Json)}

/-- An event that ends no run and selects no edge. -/
theorem Keeps.appendEvent (hends : ends eventType = false) (hedge : eventType ≠ .taskEdgeSelected) :
    Keeps (runView ids.runId) env F G (appendEvent ids eventType payload) := by
  intro v hv
  refine via_appendEvent (hv.congr rfl ?_ ?_) fun _ _ => hv
  · simp [RunView.noted, hends]
  · simp [RunView.noted, edgeEnd, hedge]

theorem Keeps.saveText {kind : ArtifactKind} {filename content summary : String} :
    Keeps (runView ids.runId) env F G
      (saveTextArtifact services ids kind filename content summary) :=
  Tries.bind Keeps.onFiles fun _ => Tries.bind (Keeps.appendEvent rfl (by simp))
    fun _ => Keeps.pure

theorem Keeps.saveFile {kind : ArtifactKind} {filename sourcePath summary : String} :
    Keeps (runView ids.runId) env F G
      (saveFileArtifact services ids kind filename sourcePath summary) :=
  Tries.bind Keeps.onFiles fun _ => Tries.bind (Keeps.appendEvent rfl (by simp))
    fun _ => Keeps.pure

/-- Whether a run is finished with success. -/
def Finish.success : Finish → Bool
  | .succeeded => true
  | .failed _ => false

/-- `finishRun` ends a run, unless storage fails. -/
theorem via_finishRun {v : RunView} (finish : Finish) (hv : Going env F G v) :
    EnsuresVia (runView ids.runId) (finishRun ids finish) env v
      (fun _ v' => Over env F G [] finish.success v') fun _ v' => Faulted env G v' := by
  refine .bind (via_dateNow fun endedAt => ?_)
  by_cases hrow : v.row = none
  · refine .bind (.bind (via_get ?_ fun hfault _ => ⟨hv.1, hfault⟩))
    rw [hrow]
    refine .throw ⟨hv.1, fun hf => ?_⟩
    obtain ⟨r, hr, -⟩ := (hv.2 hf).row
    rw [hrow] at hr
    cases hr
  · obtain ⟨r, hr⟩ := Option.ne_none_iff_exists'.mp hrow
    refine .bind (via_updateStatus hr ?_ fun hfault _ => ⟨hv.1, hfault⟩)
    refine via_appendEvent ⟨?_, fun hf => ⟨⟨_, rfl, ?_, rfl⟩, ?_⟩⟩
      fun hfault _ => ⟨hv.1, hfault⟩
    · cases finish <;> simp [RunView.noted, edgeEnd, Finish.eventType, hv.1]
    · cases finish <;> rfl
    · have hF := (hv.2 hf).finishes
      cases finish <;>
        simp [RunView.noted, Finish.eventType, Finish.success, ends, endEvent, hF]

/-- The edge after the end of a run. -/
theorem via_selectEdge {source reason : String} {edge : EdgeTo} {success : Bool} {v : RunView}
    (hv : Over env F G [] success v) :
    EnsuresVia (runView ids.runId) (selectEdge ids source edge reason) env v
      (fun _ v' => Over env F G [edge.text] success v') fun _ v' => Faulted env G v' := by
  have hedges : v.edges = G := hv.1.trans (List.append_nil G)
  refine via_appendEvent ⟨?_, fun hf => ?_⟩ fun hfault _ => ⟨hedges, hfault⟩
  · have hend : edgeEnd .taskEdgeSelected [("from", .str source), ("to", .str edge.text),
        ("reason", .str reason)] = some edge.text := rfl
    simp only [RunView.noted, hend, hedges, Option.toList_some]
  · obtain ⟨hr, hfin⟩ := hv.2 hf
    exact ⟨hr, by simpa [RunView.noted, ends] using hfin⟩

/-- The end of a run without an edge. -/
theorem via_finish {v : RunView} {o : RunOutcome} {role : Role} (finish : Finish)
    (hv : Going env F G v) (hrole : o.role = role)
    (hsuccess : WorkerTaskHandler.outcomeSuccess o = finish.success)
    (hedges : edgesOf args.workOrder o = []) :
    EnsuresVia (runView ids.runId) (do finishRun ids finish; pure o) env v
      (fun o v' => Done env F G args role o v') fun _ v' => Faulted env G v' :=
  .bind ((via_finishRun finish hv).mono
    (fun _ _ hover => .pure ⟨hrole, hedges ▸ hsuccess ▸ hover⟩) fun _ _ he => he)

theorem Tries.finish {o : RunOutcome} {role : Role} (finish : Finish) (hrole : o.role = role)
    (hsuccess : WorkerTaskHandler.outcomeSuccess o = finish.success)
    (hedges : edgesOf args.workOrder o = []) :
    Tries (runView ids.runId) env F G (do finishRun ids finish; pure o) (Done env F G args role) :=
  fun _ hv => (via_finish finish hv hrole hsuccess hedges).mono (fun _ _ h => h)
    fun _ _ he => he.going

end steps

/-! ## The implementer -/

section implementer

variable {α : Type} {services : V1RunTaskServices} {args : RunTaskArgs} {signal : AbortSignal}
  {context : RunContext} {env : Env} {F : List EventType} {G : List String} {runId : String}

/-- What is seen of a run in an attempt. -/
abbrev attemptView (runId : String) : Backend × PublishedArtifacts → RunView :=
  fun s => runView runId s.1

theorem Tries.lift {m : BackendM α} {Q : α → RunView → Prop}
    (h : Tries (runView runId) env F G m Q) :
    Tries (attemptView runId) env F G (lift m) Q := fun v hv s hs =>
  ensures_zoom.mpr (h v hv s.1 hs)

theorem Keeps.publish {f : PublishedArtifacts → PublishedArtifacts} :
    Keeps (attemptView runId) env F G (publish f) := by
  rintro v hv s rfl
  exact hv

theorem Keeps.published : Keeps (attemptView runId) env F G published := by
  rintro v hv s rfl
  exact hv

/-- An attempt throws nothing: its exception is a value. -/
theorem via_runAttempt {m : AttemptM α} {Q : α → RunView → Prop} {v : RunView}
    (h : Tries (attemptView runId) env F G m Q) (hv : Going env F G v) :
    EnsuresVia (runView runId) (runAttempt m) env v
      (fun p v' => (∀ a, p.1 = .ok a → Q a v') ∧ ∀ e, p.1 = .error e → Going env F G v')
      fun _ _ => False := by
  rintro b rfl
  have hm := h _ hv (b, {}) rfl
  unfold Ensures at hm ⊢
  unfold runAttempt
  cases hres : m env (b, {}) with
  | ok a s =>
    rw [hres] at hm
    refine ⟨?_, by simp⟩
    rintro _ ⟨⟩
    exact hm
  | error e s =>
    rw [hres] at hm
    refine ⟨by simp, ?_⟩
    rintro _ ⟨⟩
    exact hm

theorem keeps_attachHandoff {ids : RunIds} :
    Keeps (runView ids.runId) env F G (attachHandoff services args context) := by
  unfold attachHandoff
  split
  · split
    · exact Tries.throw
    · exact Keeps.onFiles
  · exact Keeps.pure

theorem keeps_publishFinalReport :
    Keeps (attemptView context.ids.runId) env F G (publishFinalReport services context) := by
  refine Tries.bind (Tries.lift Keeps.onFiles) fun found => ?_
  refine Tries.ite (fun _ => ?_) fun _ => Keeps.pure
  refine Tries.bind (Tries.lift Keeps.onFiles) fun finalReport => ?_
  refine Tries.ite (fun _ => ?_) fun _ => Keeps.pure
  exact Tries.bind (Tries.lift Keeps.saveFile) fun _ => Keeps.publish

theorem keeps_publishOutputs {capsule : TaskCapsuleWriteResult} {agentResult : AgentProcessResult} :
    Keeps (attemptView context.ids.runId) env F G
      (publishOutputs services context capsule agentResult) := by
  refine Tries.bind (Tries.lift Keeps.saveText) fun stdout => ?_
  refine Tries.bind Keeps.publish fun _ => ?_
  refine Tries.bind (Tries.lift Keeps.saveText) fun stderr => ?_
  refine Tries.bind Keeps.publish fun _ => ?_
  refine Tries.bind (Tries.lift Keeps.onFiles) fun diffText => ?_
  refine Tries.bind (Tries.lift Keeps.saveText) fun diff => ?_
  refine Tries.bind Keeps.publish fun _ => ?_
  refine Tries.bind keeps_publishFinalReport fun _ => ?_
  exact Tries.bind (Tries.lift Keeps.saveText) fun _ => Keeps.pure

theorem keeps_verify :
    Keeps (attemptView context.ids.runId) env F G (verify services args context) := by
  unfold verify
  split
  · exact Keeps.pure
  · refine Tries.ite (fun _ => Keeps.pure) fun _ => ?_
    refine Tries.bind (Tries.lift (Keeps.appendEvent rfl (by simp))) fun _ => ?_
    refine Tries.bind (Tries.lift Keeps.onFiles) fun result => ?_
    refine Tries.bind (Tries.lift Keeps.saveText) fun artifact => ?_
    refine Tries.bind Keeps.publish fun _ => ?_
    refine Tries.bind (Tries.lift (Keeps.appendEvent ?_ ?_)) fun _ => Keeps.pure
    · split <;> rfl
    · split <;> simp

/-- The end of an implementer: with its edge when the verification passed. -/
theorem tries_finishImplementer {diff : ArtifactRef} {verificationPassed : Bool} :
    Tries (attemptView context.ids.runId) env F G
      (finishImplementer args context diff verificationPassed)
      (Done env F G args .implementer) := by
  refine Tries.bind Keeps.published fun artifacts => ?_
  refine Tries.ite (fun _ => ?_) fun _ => ?_
  · intro v hv s hs
    refine ensures_bind.mpr (ensures_zoom.mpr ?_)
    refine (via_finishRun .succeeded hv s.1 hs).mono (fun _ b hover => ?_) fun _ _ he => he.going
    refine ensures_bind.mpr (ensures_zoom.mpr ?_)
    exact (via_selectEdge hover b rfl).mono (fun _ _ hedge => ⟨rfl, hedge⟩) fun _ _ he => he.going
  · intro v hv s hs
    refine ensures_bind.mpr (ensures_zoom.mpr ?_)
    exact (via_finishRun (.failed .verificationFailed) hv s.1 hs).mono
      (fun _ _ hover => ⟨rfl, hover⟩) fun _ _ he => he.going

/-- A failure of an implementer, in its `try`. -/
theorem tries_failImplementer {reason : RunFailedReason} {o : RunOutcome}
    (hrole : o.role = .implementer) (hsuccess : WorkerTaskHandler.outcomeSuccess o = false)
    (hedges : edgesOf args.workOrder o = []) :
    Tries (attemptView context.ids.runId) env F G
      (do OrchestratorV1.lift (finishRun context.ids (.failed reason)); pure o)
      (Done env F G args .implementer) := by
  intro v hv s hs
  refine ensures_bind.mpr (ensures_zoom.mpr ?_)
  refine (via_finishRun (.failed reason) hv s.1 hs).mono (fun _ _ hover => ?_) fun _ _ he => he.going
  exact ⟨hrole, hedges ▸ hsuccess ▸ hover⟩

theorem tries_afterImplementer {capsule : TaskCapsuleWriteResult}
    {agentResult : AgentProcessResult} :
    Tries (attemptView context.ids.runId) env F G
      (afterImplementer services args context capsule agentResult)
      (Done env F G args .implementer) := by
  refine Tries.bind keeps_publishOutputs fun diff => ?_
  refine Tries.bind (Tries.lift Keeps.ofExcept) fun agentReason => ?_
  cases agentReason with
  | some reason =>
    exact Tries.bind Keeps.published fun artifacts => tries_failImplementer rfl rfl rfl
  | none => exact Tries.bind keeps_verify fun _ => tries_finishImplementer

/-- The `try` of an implementer. -/
theorem tries_implement :
    Tries (attemptView context.ids.runId) env F G (implement services args signal context)
      (Done env F G args .implementer) := by
  refine Tries.bind (Tries.lift Keeps.throwIfAborted) fun _ => ?_
  refine Tries.bind (Tries.lift Keeps.onFiles) fun capsule => ?_
  refine Tries.bind (Tries.lift keeps_attachHandoff) fun _ => ?_
  refine Tries.bind (Tries.lift (Keeps.appendEvent rfl (by simp))) fun _ => ?_
  refine Tries.bind (Tries.lift (Keeps.attempt Keeps.onFiles)) fun agentResult => ?_
  cases agentResult with
  | error e => exact Tries.ite (fun _ => Tries.throw) fun _ => tries_failImplementer rfl rfl rfl
  | ok agentResult => exact tries_afterImplementer

/-- **An implementer** comes to an outcome, or it is aborted. -/
theorem runImplementer_spec {v : RunView} (hv : Going env F G v) :
    EnsuresVia (runView context.ids.runId) (runImplementer services args signal context) env v
      (fun o v' => Done env F G args .implementer o v')
      fun e v' => Going env F G v' ∧ (env.Faultless → e.isOperationAborted = true) := by
  refine .bind ((via_runAttempt tries_implement hv).mono (fun p v' hp => ?_) fun _ _ h => h.elim)
  obtain ⟨result, artifacts⟩ := p
  cases result with
  | ok outcome => exact .pure (hp.1 outcome rfl)
  | error e =>
    have hgoing := hp.2 e rfl
    refine .ite (fun habort => .throw ⟨hgoing, fun _ => habort⟩) fun _ => ?_
    exact (via_finish (.failed .internalError) hgoing rfl rfl rfl).mono (fun _ _ h => h)
      fun _ _ he => ⟨he.going, fun hf => absurd hf he.2⟩

end implementer

/-! ## The reviewer -/

/-- The calls a reviewer makes before its `try` begins: it applies the diff, and saves what a
refused diff came with. -/
def diffCalls (services : V1RunTaskServices) (ids : RunIds) (workspacePath : String)
    (reviewContext : ReviewContextText) : ServiceM Unit := do
  let applyResult ← services.sandboxProvider.applyDiff workspacePath reviewContext.diffText
  if applyResult.ok = true then pure ()
  else do
    let _ ← services.artifactStore.saveText
      (textOf ids .stdoutTail "git_apply_stdout.txt" applyResult.stdout "git apply stdout")
    let _ ← services.artifactStore.saveText
      (textOf ids .stderrTail "git_apply_stderr.txt" applyResult.stderr "git apply stderr")
    let _ ← services.artifactStore.saveText
      (textOf ids .diff "diff_under_review.patch" reviewContext.diffText
        "Diff that failed to apply")
    pure ()

section reviewer

variable {services : V1RunTaskServices} {args : RunTaskArgs} {signal : AbortSignal}
  {context : RunContext} {ids : RunIds} {env : Env} {F : List EventType} {G : List String}
  {v : RunView} {reviewContext : ReviewContextText}

theorem noted_artifactPublished {payload : List (String × Json)} :
    v.noted .artifactPublished payload = v := by
  simp [RunView.noted, ends, edgeEnd]

/-- A saved text is what the store returned; an exception is the store's, or storage failed. -/
theorem via_saveText {kind : ArtifactKind} {filename content summary : String} :
    EnsuresVia (runView ids.runId) (saveTextArtifact services ids kind filename content summary)
      env v
      (fun a v' => services.artifactStore.saveText (textOf ids kind filename content summary) env
        v.files = .ok a v'.files ∧ v' = { v with files := v'.files })
      (fun e v' => v' = { v with files := v'.files } ∧ (env.Faultless →
        services.artifactStore.saveText (textOf ids kind filename content summary) env
          v.files = .error e v'.files)) := by
  refine .bind (via_onFiles (ensures_of_forall (fun a f hok => ?_) fun e f herror => ?_))
  · refine .bind (via_appendEvent (.pure ?_) fun hfault _ => ⟨rfl, fun hf => absurd hf hfault⟩)
    rw [noted_artifactPublished]
    exact ⟨hok, rfl⟩
  · exact ⟨rfl, fun _ => herror⟩

/-- The part of a reviewer before its `try`: it ends the run, or goes on, or throws what its calls
throw. -/
theorem applyReviewDiff_spec (hv : Going env F G v) :
    EnsuresVia (runView context.ids.runId) (applyReviewDiff services context reviewContext) env v
      (fun refused v' =>
        (∃ f, diffCalls services context.ids context.worktree.workspacePath reviewContext env
          v.files = .ok () f) ∧
        (∀ o, refused = some o → Done env F G args .reviewer o v') ∧
        (refused = none → Going env F G v'))
      (fun e v' => Going env F G v' ∧ (env.Faultless → ∃ f, diffCalls services context.ids
        context.worktree.workspacePath reviewContext env v.files = .error e f)) := by
  refine .bind (via_onFiles (ensures_of_forall (fun applyResult f₁ happly => ?_)
    fun e f herror => ⟨hv.congr rfl rfl rfl, fun _ => ⟨f, bind_of_error herror⟩⟩))
  refine .ite (fun hok => ?_) fun hrefused => ?_
  · refine .pure ⟨⟨f₁, (bind_of_ok happly).trans ?_⟩, by simp, fun _ => hv.congr rfl rfl rfl⟩
    rw [if_pos hok]
    rfl
  have hcalls : ∀ {res}, (do
      let _ ← services.artifactStore.saveText (textOf context.ids .stdoutTail
        "git_apply_stdout.txt" applyResult.stdout "git apply stdout")
      let _ ← services.artifactStore.saveText (textOf context.ids .stderrTail
        "git_apply_stderr.txt" applyResult.stderr "git apply stderr")
      let _ ← services.artifactStore.saveText (textOf context.ids .diff "diff_under_review.patch"
        reviewContext.diffText "Diff that failed to apply")
      pure () : ServiceM Unit) env f₁ = res → diffCalls services context.ids
        context.worktree.workspacePath reviewContext env v.files = res := by
    intro res hres
    refine (bind_of_ok happly).trans ?_
    rw [if_neg hrefused]
    exact hres
  refine .bind (.bind (via_saveText.mono (fun stdout v₁ h₁ => ?_) fun e v₁ h₁ => ?_))
  swap
  · obtain ⟨hv₁, herror⟩ := h₁
    refine ⟨?_, fun hf => ⟨_, hcalls (bind_of_error (herror hf))⟩⟩
    rw [hv₁]
    exact hv.congr rfl rfl rfl
  obtain ⟨hstdout, hv₁⟩ := h₁
  refine .bind (via_saveText.mono (fun stderr v₂ h₂ => ?_) fun e v₂ h₂ => ?_)
  swap
  · obtain ⟨hv₂, herror⟩ := h₂
    refine ⟨?_, fun hf => ⟨_, hcalls ((bind_of_ok hstdout).trans (bind_of_error (herror hf)))⟩⟩
    rw [hv₂, hv₁]
    exact hv.congr rfl rfl rfl
  obtain ⟨hstderr, hv₂⟩ := h₂
  refine .bind (via_saveText.mono (fun diff v₃ h₃ => ?_) fun e v₃ h₃ => ?_)
  swap
  · obtain ⟨hv₃, herror⟩ := h₃
    refine ⟨?_, fun hf => ⟨_, hcalls ((bind_of_ok hstdout).trans ((bind_of_ok hstderr).trans
      (bind_of_error (herror hf))))⟩⟩
    rw [hv₃, hv₂, hv₁]
    exact hv.congr rfl rfl rfl
  obtain ⟨hdiff, hv₃⟩ := h₃
  have hreturned := hcalls ((bind_of_ok hstdout).trans ((bind_of_ok hstderr).trans
    ((bind_of_ok hdiff).trans rfl)))
  have hgoing : Going env F G v₃ := by
    rw [hv₃, hv₂, hv₁]
    exact hv.congr rfl rfl rfl
  refine .pure ?_
  refine .bind ((via_finishRun (.failed .diffApplyFailed) hgoing).mono (fun _ v₄ hover => ?_)
    fun _ _ he => ⟨he.going, fun hf => absurd hf he.2⟩)
  refine .bind ((via_selectEdge hover).mono (fun _ v₅ hedge => .pure ⟨⟨_, hreturned⟩, ?_, by simp⟩)
    fun _ _ he => ⟨he.going, fun hf => absurd hf he.2⟩)
  rintro _ ⟨⟩
  exact ⟨rfl, hedge⟩


theorem keeps_readVerdict :
    Keeps (runView context.ids.runId) env F G (readVerdict services context) := by
  refine Tries.bind Keeps.onFiles fun parsed => Tries.bind Keeps.saveText fun artifact => ?_
  split
  · exact Keeps.pure
  · exact Tries.bind Keeps.saveText fun _ => Keeps.pure

/-- The end of a reviewer with a verdict comes with the edge of the verdict. -/
theorem tries_finishReview {verdict : ReviewVerdict} {verdictArtifact : ArtifactRef} :
    Tries (runView context.ids.runId) env F G (finishReview context verdict verdictArtifact)
      (Done env F G args .reviewer) := by
  intro v hv
  refine .bind ((via_finishRun .succeeded hv).mono (fun _ v₁ hover => ?_) fun _ _ he => he.going)
  have hedges : v₁.edges = G := hover.1.trans (List.append_nil G)
  refine .bind (via_appendEvent ?_ fun hfault _ => ⟨hedges, fun hf => absurd hf hfault⟩)
  have hsame : ∀ payload, v₁.noted .reviewCompleted payload = v₁ := fun _ => by
    simp [RunView.noted, ends, edgeEnd]
  rw [hsame]
  refine .bind ((via_selectEdge hover).mono (fun _ v₂ hedge => .pure ?_) fun _ _ he => he.going)
  generalize verdict.verdict = verdict at hedge ⊢
  cases verdict <;> exact ⟨rfl, hedge⟩

theorem tries_afterReviewer {agentResult : AgentProcessResult} :
    Tries (runView context.ids.runId) env F G (afterReviewer services args context agentResult)
      (Done env F G args .reviewer) := by
  refine Tries.bind Keeps.saveText fun stdout => Tries.bind Keeps.saveText fun stderr => ?_
  refine Tries.bind Keeps.ofExcept fun agentReason => ?_
  cases agentReason with
  | some reason =>
    refine Tries.finish (.failed reason.toImplementer.toRunFailedReason) rfl rfl ?_
    cases reason <;> rfl
  | none =>
    refine Tries.bind keeps_readVerdict fun p => ?_
    exact Tries.ite (fun _ => Tries.finish (.failed .internalError) rfl rfl rfl)
      fun _ => tries_finishReview

/-- The `try` of a reviewer. -/
theorem tries_review : Tries (runView context.ids.runId) env F G
    (review services args context reviewContext) (Done env F G args .reviewer) := by
  refine Tries.bind Keeps.onFiles fun brief => ?_
  refine Tries.bind Keeps.saveFile fun _ => Tries.bind Keeps.saveFile fun _ => ?_
  refine Tries.bind (Keeps.appendEvent rfl (by simp)) fun _ => ?_
  refine Tries.bind (Keeps.appendEvent rfl (by simp)) fun _ => ?_
  refine Tries.bind (Keeps.attempt Keeps.onFiles) fun agentResult => ?_
  cases agentResult with
  | error e =>
    exact Tries.ite (fun _ => Tries.throw) fun _ =>
      Tries.finish (.failed .spawnFailed) rfl rfl rfl
  | ok agentResult => exact tries_afterReviewer

/-- A call a reviewer makes before its `try` throws something else than an abort, and the signal is
not aborted by then: nothing catches it but `runTaskOnce`, which lets it through. -/
def Unguarded (services : V1RunTaskServices) (signal : AbortSignal) (args : RunTaskArgs)
    (role : Role) (ids : RunIds) (workspacePath : String) (env : Env) (files : Files) : Prop :=
  role = .reviewer ∧ signal.atCatch = false ∧
    ∃ reviewContext e f, args.reviewContext = some reviewContext ∧
      diffCalls services ids workspacePath reviewContext env files = .error e f ∧
      e.isOperationAborted = false

theorem not_unguarded_of_ok {role : Role} {workspacePath : String} {files f : Files}
    (hcontext : args.reviewContext = some reviewContext)
    (hcalls : diffCalls services ids workspacePath reviewContext env files = .ok () f) :
    ¬ Unguarded services signal args role ids workspacePath env files := by
  rintro ⟨-, -, rc, e, f', hrc, herror, -⟩
  obtain rfl : reviewContext = rc := Option.some.inj (hcontext.symm.trans hrc)
  rw [hcalls] at herror
  cases herror

/-- **A reviewer** comes to an outcome. Its exceptions are let through exactly when they come from
the calls before its `try`. -/
theorem runReviewer_spec (hv : Going env F G v) :
    EnsuresVia (runView context.ids.runId) (runReviewer services args signal context) env v
      (fun o v' => Done env F G args .reviewer o v' ∧ (env.Faultless →
        ¬ Unguarded services signal args .reviewer context.ids context.worktree.workspacePath env
          v.files))
      (fun e v' => Going env F G v' ∧ (env.Faultless →
        (Unguarded services signal args .reviewer context.ids context.worktree.workspacePath env
          v.files ↔ e.isOperationAborted = false ∧ signal.atCatch = false))) := by
  refine .bind (.ite (fun habort => .throw ⟨hv, fun _ => ?_⟩) fun _ => .pure ?_)
  · have hcatch := signal.role_stays habort
    simp [Unguarded, hcatch]
  cases hcontext : args.reviewContext with
  | none =>
    have hnot : ¬ Unguarded services signal args .reviewer context.ids
        context.worktree.workspacePath env v.files := by
      rintro ⟨-, -, rc, -, -, hrc, -⟩
      rw [hcontext] at hrc
      cases hrc
    exact (via_finish (.failed .internalError) hv rfl rfl rfl).mono
      (fun _ _ hdone => ⟨hdone, fun _ => hnot⟩)
      fun _ _ he => ⟨he.going, fun hf => absurd hf he.2⟩
  | some reviewContext =>
    have happly := @applyReviewDiff_spec services args context env F G v reviewContext hv
    refine .bind (happly.mono (fun refused v₁ h₁ => ?_) fun e v₁ h₁ => ?_)
    · obtain ⟨⟨f, hcalls⟩, hdone, hgoing⟩ := h₁
      have hnot : ¬ Unguarded services signal args .reviewer context.ids
          context.worktree.workspacePath env v.files := not_unguarded_of_ok hcontext hcalls
      cases refused with
      | some outcome => exact .pure ⟨hdone outcome rfl, fun _ => hnot⟩
      | none =>
        refine .tryCatch ((tries_review v₁ (hgoing rfl)).mono (fun _ _ h => ⟨h, fun _ => hnot⟩)
          fun e v₂ hv₂ => ?_)
        refine .ite (fun habort => .throw ⟨hv₂, fun _ => ?_⟩) fun _ => ?_
        · exact ⟨fun h => absurd h hnot, fun h => by simp [habort] at h⟩
        · exact (via_finish (.failed .internalError) hv₂ rfl rfl rfl).mono
            (fun _ _ hdone => ⟨hdone, fun _ => hnot⟩)
            fun _ _ he => ⟨he.going, fun hf => absurd hf he.2⟩
    · obtain ⟨hgoing, herror⟩ := h₁
      refine ⟨hgoing, fun hf => ?_⟩
      obtain ⟨f, herror⟩ := herror hf
      constructor
      · rintro ⟨-, hcatch, rc, e', f', hrc, herror', he'⟩
        obtain rfl : reviewContext = rc := Option.some.inj (hcontext.symm.trans hrc)
        rw [herror] at herror'
        cases herror'
        exact ⟨he', hcatch⟩
      · rintro ⟨he, hcatch⟩
        exact ⟨rfl, hcatch, reviewContext, e, f, hcontext, herror, he⟩

end reviewer

/-! ## The row of a run -/

/-- The calls a run makes to its workspace and its artifacts before its row is set to `running`. -/
def prepareCalls (services : V1RunTaskServices) (args : RunTaskArgs) (ids : RunIds)
    (startedAt : ℕ) : ServiceM PreparedWorktree := do
  let worktree ← services.sandboxProvider.prepareWorkspace
    { repoPath := args.workOrder.repo.path, baseRef := args.workOrder.repo.baseRef,
      taskId := ids.taskId, runId := ids.runId }
  let _ ← services.artifactStore.saveText (textOf ids .taskCapsule "run_manifest.json"
    (manifestText services (buildRunManifest services args ids.runId worktree startedAt))
    (manifestSummary args.entry.nextRole))
  pure worktree

section creation

variable {services : V1RunTaskServices} {args : RunTaskArgs} {ids : RunIds} {startedAt : ℕ}
  {env : Env} {F : List EventType} {G : List String} {v : RunView} {runId : String}

/-- A row that is set to `running` goes on. -/
theorem via_updateRunning {patch : RunStore.Patch} (hended : patch.endedAt = none)
    (hv : Going env F G v) :
    EnsuresVia (runView runId) (RunStore.updateStatus runId .running patch) env v
      (fun _ v' => Going env F G v' ∧ v'.files = v.files) fun _ v' => Faulted env G v' := by
  by_cases hrow : v.row = none
  · have hfault := hv.not_faultless hrow
    refine .bind (via_get ?_ fun _ _ => ⟨hv.1, hfault⟩)
    rw [hrow]
    exact .throw ⟨hv.1, hfault⟩
  · obtain ⟨r, hr⟩ := Option.ne_none_iff_exists'.mp hrow
    refine via_updateStatus hr ⟨⟨hv.1, fun hf => ⟨⟨_, rfl, .inr rfl, ?_⟩, (hv.2 hf).finishes⟩⟩, rfl⟩
      fun hfault _ => ⟨hv.1, hfault⟩
    obtain ⟨r', hr', -, hr'ended⟩ := (hv.2 hf).row
    obtain rfl : r = r' := Option.some.inj (hr.symm.trans hr')
    simp [RunStore.Patch.apply, hended, hr'ended]

/-- The `try` of `createRunContext` does what its calls do. -/
theorem prepareRun_spec (hv : Going env F G v) :
    EnsuresVia (runView ids.runId) (prepareRun services args ids startedAt) env v
      (fun context v' => context.ids = ids ∧ context.role = args.entry.nextRole ∧
        Going env F G v' ∧
        prepareCalls services args ids startedAt env v.files = .ok context.worktree v'.files)
      (fun _ v' => Going env F G v' ∧ (env.Faultless → ∃ e f,
        prepareCalls services args ids startedAt env v.files = .error e f)) := by
  refine .bind (via_onFiles (ensures_of_forall (fun worktree f₁ hworktree => ?_)
    fun e f herror => ⟨hv.congr rfl rfl rfl, fun _ => ⟨e, f, bind_of_error herror⟩⟩))
  refine .bind (via_saveText.mono (fun artifact v₁ h₁ => ?_) fun e v₁ h₁ => ?_)
  swap
  · obtain ⟨hv₁, herror⟩ := h₁
    refine ⟨?_, fun hf => ⟨e, _, (bind_of_ok hworktree).trans (bind_of_error (herror hf))⟩⟩
    rw [hv₁]
    exact hv.congr rfl rfl rfl
  obtain ⟨hartifact, hv₁⟩ := h₁
  have hgoing : Going env F G v₁ := by
    rw [hv₁]
    exact hv.congr rfl rfl rfl
  refine .bind ((via_updateRunning rfl hgoing).mono (fun _ v₂ h₂ => ?_)
    fun _ _ he => ⟨he.going, fun hf => absurd hf he.2⟩)
  obtain ⟨hgoing₂, hfiles⟩ := h₂
  refine .bind (via_appendEvent ?_ fun hfault _ => ⟨hgoing₂, fun hf => absurd hf hfault⟩)
  have hsame : ∀ payload, v₂.noted .runStarted payload = v₂ := fun _ => by
    simp [RunView.noted, ends, edgeEnd]
  rw [hsame]
  refine .pure ⟨rfl, rfl, hgoing₂, (bind_of_ok hworktree).trans ((bind_of_ok hartifact).trans ?_)⟩
  rw [hfiles]
  rfl

/-- The `catch` of `createRunContext` ends the run. -/
theorem failCreation_spec (hv : Going env F G v) :
    EnsuresVia (runView ids.runId) (failCreation args ids) env v
      (fun created v' => v'.edges = G ∧ (env.Faultless → Ended F false v') ∧
        created = .error ⟨ids.runId, ids.taskId, ids.projectId, args.entry.nextRole⟩)
      fun _ _ => False := by
  -- Without storage faults the first write ends the row; with them, only the edges are known.
  have hfirst : EnsuresVia (runView ids.runId) (WorkerTaskHandler.attempt do
      let endedAt ← dateNow
      RunStore.updateStatus ids.runId .failed { endedAt := some endedAt }) env v
      (fun _ v₁ => v₁.edges = G ∧ (env.Faultless → v₁.finishes = F ∧
        ∃ r, v₁.row = some r ∧ r.status = .failed ∧ r.endedAt.isSome = true))
      fun _ _ => False := by
    refine .tryCatch ?_
    rw [map_eq_pure_bind]
    refine .bind (.bind (via_dateNow fun endedAt => ?_))
    by_cases hrow : v.row = none
    · have hfault := hv.not_faultless hrow
      refine .bind (via_get ?_ fun _ _ => .pure ⟨hv.1, fun hf => absurd hf hfault⟩)
      rw [hrow]
      exact .throw (.pure ⟨hv.1, fun hf => absurd hf hfault⟩)
    · obtain ⟨r, hr⟩ := Option.ne_none_iff_exists'.mp hrow
      exact via_updateStatus hr
        (.pure ⟨hv.1, fun hf => ⟨(hv.2 hf).finishes, _, rfl, rfl, rfl⟩⟩)
        fun hfault _ => .pure ⟨hv.1, fun hf => absurd hf hfault⟩
  refine .bind (hfirst.mono (fun _ v₁ h₁ => ?_) fun _ _ h => h.elim)
  obtain ⟨hedges, hrow⟩ := h₁
  refine .bind (.tryCatch ?_)
  rw [map_eq_pure_bind]
  refine .bind (via_appendEvent (.pure ?_) fun hfault _ => .pure ?_)
  · refine .pure ⟨?_, fun hf => ?_, rfl⟩
    · simp [RunView.noted, edgeEnd, hedges]
    · obtain ⟨hfinishes, hended⟩ := hrow hf
      exact ⟨hended, by simp [RunView.noted, ends, endEvent, hfinishes]⟩
  · exact .pure ⟨hedges, fun hf => absurd hf hfault, rfl⟩

/-- An aborted run is cancelled. -/
theorem via_cancelInterruptedRun (hv : Going env F G v) :
    EnsuresVia (runView runId) (cancelInterruptedRun runId) env v
      (fun _ v' => v'.edges = G ∧ (env.Faultless →
        ∃ r, v'.row = some r ∧ r.status = .cancelled ∧ r.endedAt.isSome = true))
      fun _ v' => Faulted env G v' := by
  refine .bind (via_get ?_ fun hfault _ => ⟨hv.1, hfault⟩)
  cases hrow : v.row with
  | none =>
    refine .pure ⟨hv.1, fun hf => ?_⟩
    obtain ⟨r, hr, -⟩ := (hv.2 hf).row
    rw [hrow] at hr
    cases hr
  | some r =>
    refine .ite (fun _ => .bind (via_dateNow fun endedAt => ?_))
      fun hstatus => .pure ⟨hv.1, fun hf => ?_⟩
    · exact via_updateStatus hrow ⟨hv.1, fun _ => ⟨_, rfl, rfl, rfl⟩⟩ fun hfault _ => ⟨hv.1, hfault⟩
    · obtain ⟨r', hr', hr'status, -⟩ := (hv.2 hf).row
      obtain rfl : r = r' := Option.some.inj (hrow.symm.trans hr')
      exact absurd hr'status hstatus

end creation

/-! ## A whole run -/

/-- The id of the run that starts from a state. -/
def newRunId (env : Env) (b : Backend) : String := "R-" ++ env.uuid b.calls

/-- When the run that starts from a state starts. -/
def startTime (env : Env) (b : Backend) : ℕ := env.clock (b.calls + 1)

/-- The calls of a reviewer before its `try` throw, once its workspace and its manifest are there. -/
def UnguardedThrow (services : V1RunTaskServices) (signal : AbortSignal) (args : RunTaskArgs)
    (env : Env) (b : Backend) : Prop :=
  ∃ worktree f, prepareCalls services args (runIds args (newRunId env b)) (startTime env b) env
      b.files = .ok worktree f ∧
    Unguarded services signal args args.entry.nextRole (runIds args (newRunId env b))
      worktree.workspacePath env f

/-- A run ended as it should: its row succeeded, failed or was cancelled, at a time; and unless it
was cancelled, exactly one event says so, in agreement with the row and with the outcome. -/
def RunEnded (before after : RunView) (outcome : Option RunOutcome) : Prop :=
  ∃ row, after.row = some row ∧ row.endedAt.isSome = true ∧
    (row.status = .cancelled ∨ ∃ success, row.status = endStatus success ∧
      after.finishes = before.finishes ++ [endEvent success] ∧
      ∀ o, outcome = some o → WorkerTaskHandler.outcomeSuccess o = success)

/-- A run that starts from a state settles with its row ended as it should, or it is aborted before
it creates one. -/
def EndsAsItShould (services : V1RunTaskServices) (signal : AbortSignal) (args : RunTaskArgs)
    (env : Env) (b : Backend) : Prop :=
  Ensures (runTaskOnce services signal args) env b
    (fun o b' => RunEnded (runView (newRunId env b) b) (runView (newRunId env b) b') (some o))
    (fun _ b' => signal.atEntry = true ∧ b' = b ∨
      RunEnded (runView (newRunId env b) b) (runView (newRunId env b) b') none)

section run

variable {services : V1RunTaskServices} {args : RunTaskArgs} {signal : AbortSignal}
  {context : RunContext} {env : Env} {F : List EventType} {G : List String} {v : RunView}

/-- A run that goes on has not ended. -/
theorem Alive.not_runEnded {before : RunView} {outcome : Option RunOutcome} (h : Alive F v) :
    ¬ RunEnded before v outcome := by
  rintro ⟨row, hrow, hended, -⟩
  obtain ⟨r, hr, -, hnone⟩ := h.row
  obtain rfl : row = r := Option.some.inj (hrow.symm.trans hr)
  simp [hnone] at hended

theorem Ended.runEnded {before : RunView} {outcome : Option RunOutcome} {success : Bool}
    (h : Ended before.finishes success v)
    (ho : ∀ o, outcome = some o → WorkerTaskHandler.outcomeSuccess o = success) :
    RunEnded before v outcome := by
  obtain ⟨⟨row, hrow, hstatus, hended⟩, hfinishes⟩ := h
  exact ⟨row, hrow, hended, .inr ⟨success, hstatus, hfinishes, ho⟩⟩

/-- The part of the role: an outcome, or an exception with the row still running. -/
theorem runRole_spec (hv : Going env F G v) :
    EnsuresVia (runView context.ids.runId) (runRole services args signal context) env v
      (fun o v' => Done env F G args context.role o v' ∧ (env.Faultless →
        ¬ Unguarded services signal args context.role context.ids context.worktree.workspacePath
          env v.files))
      (fun e v' => Going env F G v' ∧ (env.Faultless →
        (Unguarded services signal args context.role context.ids context.worktree.workspacePath
          env v.files ↔ e.isOperationAborted = false ∧ signal.atCatch = false))) := by
  unfold runRole
  cases context.role with
  | implementer =>
    have hnot : ¬ Unguarded services signal args .implementer context.ids
        context.worktree.workspacePath env v.files := by
      rintro ⟨⟨⟩, -⟩
    refine (runImplementer_spec hv).mono (fun o v' hdone => ⟨hdone, fun _ => hnot⟩)
      fun e v' he => ⟨he.1, fun hf => ⟨fun h => absurd h hnot, fun h => ?_⟩⟩
    simp [he.2 hf] at h
  | reviewer => exact runReviewer_spec hv

/-- A new row, or one with the id was there. -/
theorem via_create {record : RunRecord} :
    EnsuresVia (runView record.id) (RunStore.create record) env v
      (fun _ v' => v' = { v with row := some record })
      fun _ v' => v'.edges = v.edges ∧ (env.Faultless → v.row ≠ none) := by
  refine .bind (via_storageCall ?_ fun h _ => ⟨rfl, fun hf => absurd h (hf _)⟩)
  rintro b rfl
  refine ensures_bind.mpr (ensures_get.mpr ?_)
  cases hinsert : b.agentRuns.insert record with
  | none =>
    refine ⟨rfl, fun _ hnone => ?_⟩
    obtain ⟨agentRuns, h⟩ := Table.exists_insert_of_find? hnone
    rw [hinsert] at h
    cases h
  | some agentRuns =>
    have hrow : agentRuns.find? record.id = some record :=
      (Table.find?_insert hinsert record.id).trans (if_pos rfl)
    show runView record.id { b with agentRuns } = _
    simp only [runView, hrow]

/-- `createRunContext` starts a row that goes on, or ends it; it throws when the row was there. -/
theorem createRunContext_spec (services : V1RunTaskServices) (args : RunTaskArgs) (env : Env)
    (b : Backend) :
    Ensures (createRunContext services args) env b
      (fun created b' =>
        (∀ context, created = .ok context →
          context.ids = runIds args (newRunId env b) ∧ context.role = args.entry.nextRole ∧
          Going env (runView (newRunId env b) b).finishes (edgesSelected b.events)
            (runView (newRunId env b) b') ∧
          prepareCalls services args (runIds args (newRunId env b)) (startTime env b) env b.files =
            .ok context.worktree b'.files) ∧
        (∀ failure, created = .error failure →
          failure.runId = newRunId env b ∧ failure.role = args.entry.nextRole ∧
          Over env (runView (newRunId env b) b).finishes (edgesSelected b.events) [] false
            (runView (newRunId env b) b') ∧
          (env.Faultless → ∃ e f, prepareCalls services args (runIds args (newRunId env b))
            (startTime env b) env b.files = .error e f)))
      (fun _ b' => edgesSelected b'.events = edgesSelected b.events ∧
        (env.Faultless → b.agentRuns.find? (newRunId env b) ≠ none)) := by
  let ids := runIds args (newRunId env b)
  let v := runView (newRunId env b) b
  -- After the two readings, everything is seen through the view of the run.
  have hrest : EnsuresVia (runView ids.runId) (do
      RunStore.create (newRun args ids.runId)
      appendEvent ids .taskAssigned [("role", .str args.entry.nextRole.text)]
      appendEvent ids .runCreated []
      tryCatch (Except.ok <$> prepareRun services args ids (startTime env b))
        fun _ => failCreation args ids) env v
      (fun created v' =>
        (∀ context, created = .ok context → context.ids = ids ∧
          context.role = args.entry.nextRole ∧ Going env v.finishes v.edges v' ∧
          prepareCalls services args ids (startTime env b) env v.files =
            .ok context.worktree v'.files) ∧
        (∀ failure, created = .error failure → failure.runId = ids.runId ∧
          failure.role = args.entry.nextRole ∧ Over env v.finishes v.edges [] false v' ∧
          (env.Faultless → ∃ e f,
            prepareCalls services args ids (startTime env b) env v.files = .error e f)))
      (fun _ v' => v'.edges = v.edges ∧ (env.Faultless → v.row ≠ none)) := by
    have hcreate := @via_create env v (newRun args ids.runId)
    refine .bind (hcreate.mono (fun _ v₁ hv₁ => ?_) fun _ _ h => h)
    have hgoing : Going env v.finishes v.edges v₁ := by
      rw [hv₁]
      exact ⟨rfl, fun _ => ⟨⟨_, rfl, .inl rfl, rfl⟩, rfl⟩⟩
    have hsame : ∀ eventType, ends eventType = false → eventType ≠ .taskEdgeSelected →
        ∀ payload, v₁.noted eventType payload = v₁ := fun eventType hends hedge payload => by
      simp [RunView.noted, edgeEnd, hends, hedge]
    refine .bind (via_appendEvent ?_ fun hfault _ => ⟨hgoing.1, fun hf => absurd hf hfault⟩)
    rw [hsame _ rfl (by simp)]
    refine .bind (via_appendEvent ?_ fun hfault _ => ⟨hgoing.1, fun hf => absurd hf hfault⟩)
    rw [hsame _ rfl (by simp)]
    have hfiles : v₁.files = v.files := by rw [hv₁]
    rw [← hfiles]
    refine .tryCatch ?_
    rw [map_eq_pure_bind]
    refine .bind ((prepareRun_spec hgoing).mono (fun context v₂ h₂ => .pure ⟨?_, by simp⟩)
      fun e v₂ h₂ => ?_)
    · rintro _ ⟨⟩
      exact h₂
    · refine (failCreation_spec h₂.1).mono (fun created v₃ h₃ => ?_) fun _ _ h => h.elim
      obtain ⟨hedges, hended, rfl⟩ := h₃
      refine ⟨by simp, ?_⟩
      rintro _ ⟨⟩
      exact ⟨rfl, rfl, ⟨hedges.trans (List.append_nil _).symm, hended⟩, h₂.2⟩
  exact hrest _ rfl

/-- **Every outcome** of a run is of its role, comes with the edge of its kind, and ends the row.
**Every exception** leaves an ended row behind, unless a reviewer's calls before its `try` threw. -/
theorem runTaskOnce_spec (services : V1RunTaskServices) (signal : AbortSignal) (args : RunTaskArgs)
    (env : Env) (b : Backend) :
    Ensures (runTaskOnce services signal args) env b
      (fun o b' => Done env (runView (newRunId env b) b).finishes (edgesSelected b.events) args
          args.entry.nextRole o (runView (newRunId env b) b') ∧
        (env.Faultless → ¬ UnguardedThrow services signal args env b))
      (fun _ b' => edgesSelected b'.events = edgesSelected b.events ∧
        (env.Faultless → b.agentRuns.find? (newRunId env b) = none →
        ((signal.atEntry = true ∧ b' = b ∨
          RunEnded (runView (newRunId env b) b) (runView (newRunId env b) b') none) ↔
        ¬ UnguardedThrow services signal args env b))) := by
  unfold runTaskOnce throwIfAborted
  refine ensures_bind.mpr (ensures_ite.mpr ⟨fun hentry => ?_, fun _ => ?_⟩)
  · refine ensures_throw.mpr ⟨rfl, fun _ _ => ⟨fun _ => ?_, fun _ => .inl ⟨hentry, rfl⟩⟩⟩
    rintro ⟨_, _, _, -, hcatch, -⟩
    rw [signal.role_stays (signal.entry_stays hentry)] at hcatch
    cases hcatch
  refine ensures_pure.mpr (ensures_bind.mpr ?_)
  refine (createRunContext_spec services args env b).mono (fun created b₁ h₁ => ?_)
    fun _ _ hthrew => ⟨hthrew.1, fun hf hnone => absurd hnone (hthrew.2 hf)⟩
  cases created with
  | error failure =>
    obtain ⟨hid, hrole, hover, hcalls⟩ := h₁.2 failure rfl
    refine ensures_pure.mpr ⟨?_, fun hf => ?_⟩
    · unfold Done
      rw [← hrole]
      unfold creationFailed
      cases failure.role <;> exact ⟨rfl, hover⟩
    · rintro ⟨_, _, hworktree, -⟩
      obtain ⟨_, _, herror⟩ := hcalls hf
      rw [hworktree] at herror
      cases herror
  | ok context =>
    obtain ⟨hids, hrole, hgoing, hworktree⟩ := h₁.1 context rfl
    have hid : context.ids.runId = newRunId env b := congrArg RunIds.runId hids
    have hiff : UnguardedThrow services signal args env b ↔
        Unguarded services signal args context.role context.ids context.worktree.workspacePath env
          b₁.files := by
      rw [hids, hrole]
      constructor
      · rintro ⟨_, _, hworktree', h⟩
        rw [hworktree] at hworktree'
        cases hworktree'
        exact h
      · exact fun h => ⟨_, _, hworktree, h⟩
    rw [hiff]
    have hspec := @runRole_spec services args signal context env _ _ _ hgoing
    rw [hid] at hspec
    refine ensures_tryCatch.mpr ((hspec b₁ rfl).mono (fun o b₂ ho => hrole ▸ ho)
      fun e b₂ he => ?_)
    obtain ⟨hgoing₂, hthrow⟩ := he
    refine ensures_ite.mpr ⟨fun habort => ensures_bind.mpr ?_, fun habort => ?_⟩
    · have hcancel := @via_cancelInterruptedRun env _ _ _ (newRunId env b) hgoing₂
      rw [hid]
      refine (hcancel b₂ rfl).mono (fun _ b₃ h₃ => ensures_throw.mpr ⟨h₃.1, fun hf _ => ?_⟩)
        fun _ _ hfault => ⟨hfault.1, fun hf => absurd hf hfault.2⟩
      obtain ⟨row, hrow, hstatus, hended⟩ := h₃.2 hf
      refine ⟨fun _ h => ?_, fun _ => .inr ⟨row, hrow, hended, .inl hstatus⟩⟩
      obtain ⟨he, hcatch⟩ := (hthrow hf).mp h
      simp [he, hcatch] at habort
    · refine ensures_bind.mpr (ensures_pure.mpr (ensures_throw.mpr ⟨hgoing₂.1, fun hf _ => ?_⟩))
      have hunguarded := (hthrow hf).mpr (by simpa using habort)
      refine ⟨fun h => ?_, fun h => absurd hunguarded h⟩
      rcases h with ⟨hentry, -⟩ | hended
      · have := signal.role_stays (signal.entry_stays hentry)
        simp [this] at habort
      · exact absurd hended (hgoing₂.2 hf).not_runEnded

/-- **How a run ends.** Without storage faults, whatever the services do: when `runTaskOnce` settles,
the row it created has ended as it should (or it was aborted before it created one), exactly when no
call that a reviewer makes before its `try` threw past it. -/
theorem run_ended_iff (services : V1RunTaskServices) (signal : AbortSignal) (args : RunTaskArgs)
    (env : Env) (b : Backend) (hfaultless : env.Faultless)
    (hfresh : b.agentRuns.find? (newRunId env b) = none) :
    EndsAsItShould services signal args env b ↔ ¬ UnguardedThrow services signal args env b := by
  have hspec := runTaskOnce_spec services signal args env b
  unfold EndsAsItShould
  unfold Ensures at hspec ⊢
  cases hrun : runTaskOnce services signal args env b with
  | ok o b' =>
    rw [hrun] at hspec
    obtain ⟨⟨-, -, hended⟩, hnot⟩ := hspec
    refine ⟨fun _ => hnot hfaultless, fun _ => (hended hfaultless).runEnded ?_⟩
    rintro _ ⟨⟩
    rfl
  | error e b' =>
    rw [hrun] at hspec
    exact hspec.2 hfaultless hfresh

/-- The outcomes of a run are of the role it is called for. -/
theorem runTaskOnce_role (services : V1RunTaskServices) (signal : AbortSignal) (args : RunTaskArgs)
    (env : Env) (b : Backend) :
    Ensures (runTaskOnce services signal args) env b (fun o _ => o.role = args.entry.nextRole)
      fun _ _ => True :=
  (runTaskOnce_spec services signal args env b).mono (fun _ _ h => h.1.1) fun _ _ _ => trivial

end run

end OrchestratorV1

/-! ## A reviewer whose diff cannot be applied -/

namespace Sample

/-- Every service returns at once, and a reviewer approves. -/
def runServices : V1RunTaskServices where
  platform :=
    { json := ⟨fun _ => "json", fun _ => none⟩
      stringify _ := "json"
      sha256hex _ := "00"
      pathJoin := String.intercalate "/"
      regExpTest _ _ := .ok false }
  artifactStore := artifactStore
  sandboxProvider :=
    { prepareWorkspace args := pure ⟨args.repoPath, "/work", "base", "branch"⟩
      diff _ := pure "diff"
      applyDiff _ _ := pure ⟨true, "", ""⟩ }
  writeTaskCapsule _ := pure ⟨"/capsule", "/order", "/manifest", "/prompt"⟩
  writeReviewBrief _ := pure ⟨"/brief", "/prompt", "/diff"⟩
  runAdapter _ := pure ⟨some 0, false, "", "", 0, 0⟩
  runVerifier _ := pure ⟨true, []⟩
  attachToBrief := none
  parseReviewVerdict _ := pure ⟨⟨.approved, "Fine", []⟩, false, none, none⟩
  existsSync _ := pure false
  readFileSync _ := pure ""

/-- The sandbox throws where it applies a diff. -/
def brokenServices : V1RunTaskServices :=
  { runServices with
    sandboxProvider :=
      { runServices.sandboxProvider with applyDiff := fun _ _ => throw (.error "spawn git") } }

theorem rita_ne_empty : "rita" ≠ "" := by decide

/-- A review of a diff. -/
def reviewArgs : RunTaskArgs where
  entry := ⟨"T-1", "default", .dispatched, .reviewer, some "w1", some 2000, 1, 1000, 1000⟩
  decision := ⟨"D-1", "T-1", .reviewer, some "rita", none, [], 1000⟩
  agentProfile := (agent "rita" rita_ne_empty .reviewer).profile
  workOrder := workOrder
  parentRunId := some "R-1"
  handoffPacketUri := none
  handoffPacket := none
  reviewContext := some ⟨"diff", "artifact://diff.patch", none, none, none⟩

def backend : Backend := system.world.backend

end Sample

namespace OrchestratorV1

/-- The row of a run once it has settled. -/
def rowAfter (result : EStateM.Result Err Backend RunOutcome) (runId : String) :
    Option RunRecord :=
  match result with
  | .ok _ b => b.agentRuns.find? runId
  | .error _ b => b.agentRuns.find? runId

/-- A row without an end is not ended as it should. -/
theorem not_endsAsItShould {services : V1RunTaskServices} {signal : AbortSignal}
    {args : RunTaskArgs} {env : Env} {b : Backend} {row : RunRecord}
    (hrow : rowAfter (runTaskOnce services signal args env b) (newRunId env b) = some row)
    (hended : row.endedAt = none) (hentry : signal.atEntry = false) :
    ¬ EndsAsItShould services signal args env b := by
  have hnot : ∀ before outcome b', b'.agentRuns.find? (newRunId env b) = some row →
      ¬ RunEnded before (runView (newRunId env b) b') outcome := by
    rintro before outcome b' hb' ⟨row', hrow', hended', -⟩
    obtain rfl : row = row' := Option.some.inj (hb'.symm.trans hrow')
    simp [hended] at hended'
  unfold EndsAsItShould Ensures
  cases hrun : runTaskOnce services signal args env b with
  | ok o b' =>
    rw [hrun] at hrow
    exact hnot _ _ b' hrow
  | error e b' =>
    rw [hrun] at hrow
    rintro (⟨htrue, -⟩ | h)
    · rw [hentry] at htrue
      cases htrue
    · exact hnot _ _ b' hrow h

/-- The exception is not caught: the row stays `running`, without an end. -/
theorem run_left_running : Sample.env.Faultless ∧
    (∃ row, rowAfter (runTaskOnce Sample.brokenServices .quiet Sample.reviewArgs Sample.env
        Sample.backend) (newRunId Sample.env Sample.backend) = some row ∧
      row.status = .running ∧ row.endedAt = none) ∧
    ¬ EndsAsItShould Sample.brokenServices .quiet Sample.reviewArgs Sample.env Sample.backend := by
  have h : (rowAfter (runTaskOnce Sample.brokenServices .quiet Sample.reviewArgs Sample.env
      Sample.backend) (newRunId Sample.env Sample.backend)).any (fun row =>
        decide (row.status = .running) && decide (row.endedAt = none)) = true := by
    decide +kernel
  obtain ⟨row, hrow, hp⟩ := (Option.any_eq_true _ _).mp h
  obtain ⟨hstatus, hended⟩ := Bool.and_eq_true_iff.mp hp
  exact ⟨Sample.env_faultless, ⟨row, hrow, of_decide_eq_true hstatus, of_decide_eq_true hended⟩,
    not_endsAsItShould hrow (of_decide_eq_true hended) rfl⟩

/-- With a sandbox that applies the diff, the same run ends. -/
theorem run_ended_iff_approved :
    EndsAsItShould Sample.runServices .quiet Sample.reviewArgs Sample.env Sample.backend := by
  refine (run_ended_iff Sample.runServices .quiet Sample.reviewArgs Sample.env Sample.backend
    Sample.env_faultless rfl).mpr ?_
  rintro ⟨worktree, f, -, -, -, reviewContext, e, f', -, herror, -⟩
  cases herror

end OrchestratorV1

end AgentWorkflow
