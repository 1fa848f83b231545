import AgentWorkflow.Core.RunFiles
import AgentWorkflow.Core.RunWords
import AgentWorkflow.Queue.Provenance

/-!
# The runs of a log are in order

Any number of workers append to one log. Each run in it is a conversation of its own, and the
handler's events belong to none.

* `LocalServices.regular` — the repository's own services are as the order of a run relies on.
* `readEvent_of`, `silent_log` — the events of a handler, of a release and of the quotas are not
  read.
* `silent_claim`, `silent_enqueue`, … — whatever is not a run leaves every run where it is.
* `Spoke` — what one step does to the runs: it leaves them all, or one run that had no row comes to
  its end.
* `Told` — an outcome that a worker was given.
* **`runs_in_order`** — at every moment every run of the log follows the protocol; none is completed
  or fails twice; what a run has come to stays so, and is what its worker was told.
-/

namespace AgentWorkflow

open Fallible OrchestratorV1 WorkerTaskHandler

/-! ## The repository's services -/

section services

variable {s : LocalServices} {α : Type}

theorem maintains_any {m : ServiceM α} : Maintains (fun _ => True) m fun _ => True :=
  fun _ _ _ => ensures_of_forall (fun _ _ _ => ⟨trivial, trivial⟩) fun _ _ _ => trivial

/-- The row of an artifact is what is returned. -/
theorem maintains_insertArtifact {store : LocalArtifactStore} {n : ArtifactName}
    {projectId checksum : String} {kind : ArtifactKind} {summary : Option String} :
    Maintains (fun _ => True) (store.insertArtifact n projectId kind checksum summary)
      fun artifact => artifact.kind = kind := by
  refine .bind maintains_any fun env _ => .bind maintains_any fun id _ => ?_
  refine .bind maintains_any fun createdAt _ => .bind maintains_any fun call _ => ?_
  exact .ite (fun _ => .throw) fun _ => .bind maintains_any fun _ _ => .pure rfl

/-- **The services of the repository** keep the kinds, and only an unusable reviewer leaves a raw
text. -/
theorem LocalServices.regular : Regular s.services where
  store :=
    { saveText := by
        intro t env f artifact f' hsave
        have hkind : Maintains (fun _ => True) (s.store.saveText t) fun a => a.kind = t.kind :=
          .bind maintains_any fun _ _ => .bind maintains_any fun _ _ =>
            .bind maintains_any fun _ _ => maintains_insertArtifact
        exact ((hkind env f trivial).of_ok hsave).1
      saveFile := by
        intro t env f artifact f' hsave
        have hkind : Maintains (fun _ => True) (s.store.saveFile t) fun a => a.kind = t.kind :=
          .bind maintains_any fun _ _ => .bind maintains_any fun _ _ =>
            .bind maintains_any fun _ _ => .bind maintains_any fun _ _ =>
              .bind maintains_any fun _ _ => maintains_insertArtifact
        exact ((hkind env f trivial).of_ok hsave).1 }
  rawText := by
    intro workspacePath env f parsed f' hparsed hraw
    have husable : Maintains (fun _ => True)
        (parseReviewVerdict s.platform.json s.manager.cwd workspacePath)
        fun parsed => parsed.unusableRawText.isSome = true → parsed.reviewerUnusable = true := by
      refine .bind maintains_any fun files _ => ?_
      dsimp only
      split
      · exact .ite (fun _ => .pure fun _ => rfl) fun _ => .pure fun _ => rfl
      · split
        · exact .pure fun h => by cases h
        · exact .pure fun _ => rfl
    exact ((husable env f trivial).of_ok hparsed).1 hraw

end services

/-! ## What is not read -/

section unread

variable {V : String → Option Stage} {α : Type}

/-- An event of types that no run appends. -/
theorem readEvent_of {types : List EventType} {projectId : String} {taskId : Option String}
    {sound : Prop} {e : EventEnvelope} (h : e.Of types projectId taskId sound)
    (htypes : ∀ t ∈ types, ∀ payload, letterOf t payload = none) : readEvent e = none := by
  unfold readEvent
  rw [htypes _ h.eventType]
  cases e.runId <;> rfl

theorem stageOf_append {b : Backend} {e : EventEnvelope} (he : readEvent e = none) :
    stageOf { b with events := b.events ++ [e] } = stageOf b := by
  funext r
  unfold stageOf
  dsimp only
  rw [said_concat_of_unread he]

/-- A log that grows by events that are not read. -/
theorem silent_log {P : EventEnvelope → Prop} {S : (α : Type) → ServiceM α → Prop}
    (hP : ∀ e, P e → readEvent e = none) :
    LogFrame P S (fun _ => True) fun b => stageOf b = V where
  quiet _ _ hevents _ hruns _ hb := (stageOf_congr hruns hevents).trans hb
  append _ e he hb := (stageOf_append (hP e he)).trans hb
  service _ _ _ _ hb _ := ensures_of_forall (fun _ _ _ => (stageOf_congr rfl rfl).trans hb)
    fun _ _ _ => (stageOf_congr rfl rfl).trans hb
  known _ _ _ _ := trivial

/-- The runs of a world are those of `V`. -/
def Silent (V : String → Option Stage) (w : World) : Prop := stageOf w.backend = V

/-- A handler, up to its release. -/
theorem silent_handlerFrame {services : HandlerServices} {entry : TaskQueueEntry} :
    HandlerFrame services entry (fun _ => True) (fun _ => True) (Silent V) where
  core _ _ _ hw := hw
  columns _ _ _ _ hw := hw
  log _ := by
    refine silent_log ?_
    have hquota : ∀ t ∈ quotaTypes, ∀ payload, letterOf t payload = none := by
      simp [quotaTypes, letterOf]
    rintro e (he | he | he)
    · exact readEvent_of he (by simp [letterOf])
    · exact readEvent_of he hquota
    · exact readEvent_of he hquota

theorem silent_releases {entry : TaskQueueEntry} {status : TaskStatus} {role : Role} {n : ℕ}
    {w w' : World} (hw : Silent V w) (h : Releases entry status role n w w') : Silent V w' := by
  obtain ⟨-, updatedAt, calls, rfl⟩ := h
  exact (stageOf_congr rfl rfl).trans hw

theorem silent_halfExited {entry : TaskQueueEntry} {n : ℕ} {w : World}
    (h : HalfExited (Silent V) entry n w) : Silent V w := by
  obtain ⟨w₁, status, role, hw₁, -, hrel⟩ := h
  exact silent_releases hw₁ hrel

/-- The event after a release is not a run's. -/
theorem silent_exited {entry : TaskQueueEntry} {n : ℕ} {w : World}
    (h : Exited (Silent V) entry n w) : Silent V w := by
  obtain ⟨w₁, w₂, status, role, hw₁, hstatus, hrel, e, calls, he, rfl⟩ := h
  have hw₂ : stageOf w₂.backend = V := silent_releases hw₁ hrel
  refine (stageOf_append (readEvent_of he.of fun t ht payload => ?_)).trans
    ((stageOf_congr rfl rfl).trans hw₂)
  have hexit : ∀ status ∈ exitStatuses, letterOf (eventOf status) payload = none := by
    simp [exitStatuses, eventOf, letterOf]
  rw [List.mem_singleton.mp ht]
  exact hexit status hstatus

/-! ## The programs outside a handler -/

theorem silent_storageCall {k : StorageCall} :
    Maintains (Silent V) (onBackend (storageCall k)) fun _ => True :=
  HandlerFrame.onBackend fun _ => (silent_log (P := fun _ => False) (S := fun _ _ => False)
    fun _ he => he.elim).storageCall

theorem silent_dateNow : Maintains (Silent V) (onBackend dateNow) fun _ => True :=
  HandlerFrame.onBackend fun _ => (silent_log (P := fun _ => False) (S := fun _ _ => False)
    fun _ he => he.elim).dateNow

theorem silent_modifyCore {f : Core → Core} : Maintains (Silent V) (modifyCore f) fun _ => True :=
  fun _ _ hw => ⟨trivial, hw⟩

theorem silent_enqueue (queueId : String) (workOrder : ParsedWorkOrderV1) (nextRole : Role) :
    Maintains (Silent V) (TaskQueue.enqueue queueId workOrder nextRole) fun _ => True := by
  refine .bind silent_dateNow fun ts _ => .bind (Q := fun _ => True) ?_ fun _ _ =>
    .bind silent_modifyCore fun _ _ => .bind silent_modifyCore fun _ _ => .pure trivial
  refine .bind silent_storageCall fun _ _ => .bind HandlerFrame.getCore fun c _ => ?_
  dsimp only
  split
  · exact HandlerFrame.onThrow
  · exact silent_modifyCore

theorem silent_getWorkOrder {taskId : String} :
    Maintains (Silent V) (QueueStore.getWorkOrder taskId) fun _ => True := by
  refine .bind silent_storageCall fun _ _ => .bind HandlerFrame.getCore fun c _ => ?_
  split
  · exact .pure trivial
  · exact .bind HandlerFrame.parseOrThrow fun _ _ => .pure trivial

theorem silent_computeDefaultLease :
    Maintains (Silent V) TaskQueue.computeDefaultLeaseForNextClaimable fun _ => True := by
  refine .bind (Q := fun _ => True) (.bind silent_storageCall fun _ _ =>
    .bind HandlerFrame.getCore fun _ _ => .pure trivial) fun all _ => ?_
  refine .bind silent_dateNow fun now _ => ?_
  split
  · exact .pure trivial
  · refine .bind HandlerFrame.getCore fun c _ => ?_
    split
    · exact .pure trivial
    · refine .tryCatch (.bind silent_getWorkOrder fun persisted _ => ?_) fun _ => .pure trivial
      split
      · exact .bind silent_modifyCore fun _ _ => .pure trivial
      · exact .pure trivial

theorem silent_claim (worker : String) :
    Maintains (Silent V) (TaskQueue.claim worker) fun _ => True := by
  refine .bind silent_computeDefaultLease fun lease _ => ?_
  refine .bind silent_dateNow fun now _ => .bind silent_dateNow fun now' _ => ?_
  refine .bind silent_storageCall fun _ _ => .bind HandlerFrame.getCore fun c _ => ?_
  split
  · exact .pure trivial
  · refine .bind silent_storageCall fun _ _ => .bind HandlerFrame.getCore fun c _ => ?_
    exact .ite (fun _ => .bind silent_modifyCore fun _ _ => .pure trivial) fun _ => .pure trivial

theorem silent_releaseAfterHandlerFailure (entry : TaskQueueEntry) :
    Maintains (Silent V) (Worker.releaseAfterHandlerFailure entry) fun _ => True := by
  refine .tryCatch (.bind (Q := fun _ => True) (.bind silent_storageCall fun _ _ =>
    .bind HandlerFrame.getCore fun _ _ => .pure trivial) fun existing? _ => ?_)
    fun _ => .pure trivial
  split
  · exact HandlerFrame.onThrow
  · exact .bind silent_dateNow fun _ _ => .bind silent_storageCall fun _ _ => silent_modifyCore

end unread

/-! ## The runs of a system -/

section systems

variable {services : HandlerServices} {runServices : V1RunTaskServices} {s s' : System}
  {w : String} {env : Env} {V : String → Option Stage}

/-- The runs of a system. -/
def System.stageOf (s : System) : String → Option Stage := OrchestratorV1.stageOf s.world.backend

/-- What one step does to the runs: nothing, or one run that had no row comes to its end. -/
def Spoke (V V' : String → Option Stage) : Prop :=
  V' = V ∨ ∃ runId stage, V runId = some .absent ∧ V' = Function.update V runId (some stage)

theorem stageOf_load (s : System) (w : String) : stageOf (s.load w).backend = s.stageOf :=
  stageOf_congr rfl rfl

/-- What a run does to the runs, and that its outcome fits. -/
def Ran (V V' : String → Option Stage) (result : EStateM.Result Err Backend RunOutcome) : Prop :=
  Spoke V V' ∧ ∀ o b, result = .ok o b → ∃ stage, V' o.runId = some stage ∧ EndsAt o stage

/-- `runTaskOnce`, whose exception is a value. -/
theorem ran_attempt (hservices : Regular runServices) {args : RunTaskArgs} {signal : AbortSignal}
    {b : Backend} (hb : ∀ r, (OrchestratorV1.stageOf b r).isSome = true) :
    Ensures (attempt (runTaskOnce runServices signal args)) env b
      (fun _ b' => Ran (OrchestratorV1.stageOf b) (OrchestratorV1.stageOf b')
        (runTaskOnce runServices signal args env b)) fun _ _ => False := by
  have hspeaks : ∃ runId, Ensures (runTaskOnce runServices signal args) env b _ _ :=
    speaks_runTaskOnce hservices hb
  obtain ⟨runId, hrun⟩ := hspeaks
  refine ensures_tryCatch.mpr (ensures_map.mpr ?_)
  refine ((ensures_self _ env b).and hrun).mono ?_ ?_
  · rintro o b' ⟨hok, habsent, stage, hb', hid, hend⟩
    refine ⟨.inr ⟨runId, stage, habsent, hb'⟩, ?_⟩
    rintro o' b'' hok'
    rw [hok] at hok'
    cases hok'
    refine ⟨stage, ?_, hend⟩
    rw [hb', hid, Function.update_self]
  · rintro e b' ⟨herror, hspoke⟩
    refine ⟨?_, ?_⟩
    · rcases hspoke with hsame | ⟨habsent, stage, hb'⟩
      · exact .inl hsame
      · exact .inr ⟨runId, stage, habsent, hb'⟩
    · rintro o b'' hok
      rw [herror] at hok
      cases hok

/-- The run of a step, and what the handler makes of it. -/
theorem ran_runAndSettle (hservices : Regular runServices) {worker : String} {l : Launch}
    {signal : AbortSignal} {aborted : Bool} {world : World}
    (hV : ∀ r, (OrchestratorV1.stageOf world.backend r).isSome = true) :
    Ensures (System.runAndSettle services worker l (runTaskOnce runServices signal) aborted) env
      world
      (fun _ w' => Ran (OrchestratorV1.stageOf world.backend) (OrchestratorV1.stageOf w'.backend)
        (runTaskOnce runServices signal l.runArgs env world.backend))
      fun _ w' => Ran (OrchestratorV1.stageOf world.backend) (OrchestratorV1.stageOf w'.backend)
        (runTaskOnce runServices signal l.runArgs env world.backend) := by
  refine ensures_bind.mpr (ensures_onBackend.mpr ?_)
  refine (ran_attempt hservices hV).mono (fun result b hran => ?_) fun _ _ he => he.elim
  have hafter : Ensures (handleAfterRun services worker l result aborted) env ⟨world.core, b⟩
      _ _ :=
    handleAfterRun_exits (silent_handlerFrame (V := OrchestratorV1.stageOf b)) rfl
      (fun _ _ => trivial) env ⟨world.core, b⟩ rfl
  refine hafter.mono (fun _ w' hexit => ?_) fun _ w' he => ?_
  · rw [silent_exited hexit]
    exact hran
  · have hsilent : Silent (OrchestratorV1.stageOf b) w' := he.elim id silent_halfExited
    rw [hsilent]
    exact hran

/-- The step gives a worker the outcome. -/
def System.Tells (runServices : V1RunTaskServices) (s : System) (l : Label) (o : RunOutcome) :
    Prop :=
  ∃ w env signal aborted launch b,
    l = .settle w env (runTaskOnce runServices signal) aborted ∧ s.pc w = .running launch ∧
    runTaskOnce runServices signal launch.runArgs env (s.load w).backend = .ok o b

/-- A step that is not a run leaves them all. -/
theorem System.stageOf_of_step {l : Label}
    (hnot : ∀ w env run aborted, l ≠ .settle w env run aborted)
    (hstep : System.Step services s l s') : s'.stageOf = s.stageOf := by
  unfold System.Step System.step at hstep
  cases l with
  | enqueue queueId workOrder nextRole env =>
    have hspec := silent_enqueue (V := s.stageOf) queueId workOrder nextRole env (s.load queueId)
      (stageOf_load s queueId)
    dsimp only at hstep
    split at hstep
    next entry world hrun =>
      cases hstep
      exact (hspec.of_ok hrun).2
    next e world hrun =>
      cases hstep
      exact hspec.of_error hrun
  | claim w env =>
    have hspec := silent_claim (V := s.stageOf) w env (s.load w) (stageOf_load s w)
    dsimp only at hstep
    split at hstep
    · split at hstep
      next world hrun =>
        cases hstep
        exact (hspec.of_ok hrun).2
      next entry world hrun =>
        cases hstep
        exact (hspec.of_ok hrun).2
      next e world hrun =>
        cases hstep
        exact hspec.of_error hrun
    · cases hstep
  | start w env aborted =>
    dsimp only at hstep
    split at hstep
    next entry hpc =>
      have hspec : Ensures (handleUntilLaunch services w entry aborted) env (s.load w) _ _ :=
        handleUntilLaunch_exits (silent_handlerFrame (V := s.stageOf)) env (s.load w)
          (stageOf_load s w)
      split at hstep
      next world hrun =>
        cases hstep
        rcases hspec.of_ok hrun with ⟨-, hexit⟩ | ⟨_, hnone, -⟩
        · have hworld : Silent s.stageOf world := silent_exited hexit
          exact hworld
        · cases hnone
      next launch world hrun =>
        cases hstep
        rcases hspec.of_ok hrun with ⟨hnone, -⟩ | ⟨_, -, -, hworld⟩
        · cases hnone
        · exact hworld
      next e world hrun =>
        cases hstep
        exact (hspec.of_error hrun).elim id silent_halfExited
    · cases hstep
  | settle w env run aborted => exact absurd rfl (hnot w env run aborted)
  | release w env =>
    dsimp only at hstep
    split at hstep
    next entry hpc =>
      have hspec := silent_releaseAfterHandlerFailure (V := s.stageOf) entry env (s.load w)
        (stageOf_load s w)
      split at hstep
      next world hrun =>
        cases hstep
        exact (hspec.of_ok hrun).2
      next e world hrun =>
        cases hstep
        exact hspec.of_error hrun
    · cases hstep
  | crash w =>
    cases hstep
    rfl

/-- **One step**: all runs but one stay where they are, and an outcome fits its run. -/
theorem System.spoke_of_step (hservices : Regular runServices) {l : Label}
    (hl : l.Uses runServices fun _ => True) (hs : ∀ r, (s.stageOf r).isSome = true)
    (hstep : System.Step services s l s') : Spoke s.stageOf s'.stageOf ∧
      ∀ o, s.Tells runServices l o → ∃ stage, s'.stageOf o.runId = some stage ∧ EndsAt o stage := by
  by_cases hsettle : ∃ w env run aborted, l = .settle w env run aborted
  swap
  · refine ⟨.inl (System.stageOf_of_step (fun w env run aborted h => hsettle ⟨w, env, run,
      aborted, h⟩) hstep), ?_⟩
    rintro o ⟨w, env, signal, aborted, -, -, rfl, -, -⟩
    exact absurd ⟨w, env, _, aborted, rfl⟩ hsettle
  obtain ⟨w, env, run, aborted, rfl⟩ := hsettle
  obtain ⟨signal, rfl⟩ := hl
  unfold System.Step System.step at hstep
  dsimp only at hstep
  split at hstep
  swap
  · cases hstep
  next launch hpc =>
    have hload : ∀ r, (OrchestratorV1.stageOf (s.load w).backend r).isSome = true := by
      intro r
      rw [stageOf_load]
      exact hs r
    have hran : Ensures (System.runAndSettle services w launch (runTaskOnce runServices signal)
        aborted) env (s.load w) _ _ := ran_runAndSettle hservices hload
    rw [stageOf_load] at hran
    have hend : ∀ V', Ran s.stageOf V'
        (runTaskOnce runServices signal launch.runArgs env (s.load w).backend) →
        Spoke s.stageOf V' ∧
        ∀ o, s.Tells runServices (.settle w env (runTaskOnce runServices signal) aborted) o →
          ∃ stage, V' o.runId = some stage ∧ EndsAt o stage := by
      rintro V' ⟨hspoke, hfits⟩
      refine ⟨hspoke, ?_⟩
      rintro o ⟨w', env', signal', aborted', launch', b, hlabel, hpc', hok⟩
      obtain ⟨rfl, rfl, hsame, -⟩ := Label.settle.inj hlabel
      rw [hpc] at hpc'
      cases hpc'
      refine hfits o b ?_
      rw [hsame]
      exact hok
    split at hstep
    next world hrun =>
      cases hstep
      exact hend (OrchestratorV1.stageOf world.backend) (hran.of_ok hrun)
    next e world hrun =>
      cases hstep
      exact hend (OrchestratorV1.stageOf world.backend) (hran.of_error hrun)

/-- Nobody gets behind the end of a run, and every run stays one of the protocol. -/
theorem Spoke.trans {V₁ V₂ V₃ : String → Option Stage} (h : Spoke V₁ V₂)
    (h' : ∀ r, V₂ r ≠ some .absent → V₃ r = V₂ r) :
    ∀ r, V₁ r ≠ some .absent → V₃ r = V₁ r := by
  intro r hr
  have hsame : V₂ r = V₁ r := by
    rcases h with rfl | ⟨runId, stage, habsent, rfl⟩
    · rfl
    · refine Function.update_of_ne ?_ _ _
      rintro rfl
      exact hr habsent
  rw [h' r (hsame ▸ hr), hsame]

/-- A whole run of the system. -/
theorem System.stages_of_steps (hservices : Regular runServices) {ls : List Label}
    (hls : ∀ l ∈ ls, l.Uses runServices fun _ => True) (hsteps : System.Steps services s ls s')
    (hs : ∀ r, (s.stageOf r).isSome = true) : (∀ r, (s'.stageOf r).isSome = true) ∧
      ∀ r, s.stageOf r ≠ some .absent → s'.stageOf r = s.stageOf r := by
  induction hsteps with
  | nil s => exact ⟨hs, fun _ _ => rfl⟩
  | @cons s s₁ s' l ls hstep _ ih =>
    have hspoke := (System.spoke_of_step hservices (hls _ List.mem_cons_self) hs hstep).1
    have hs₁ : ∀ r, (s₁.stageOf r).isSome = true := by
      intro r
      rcases hspoke with hsame | ⟨runId, stage, -, hupdate⟩
      · rw [hsame]
        exact hs r
      · rw [hupdate]
        by_cases hr : r = runId
        · rw [hr, Function.update_self]
          rfl
        · rw [Function.update_of_ne hr]
          exact hs r
    obtain ⟨hlegal, hclosed⟩ := ih (fun l hl => hls l (List.mem_cons_of_mem _ hl)) hs₁
    exact ⟨hlegal, hspoke.trans hclosed⟩

end systems

/-! ## The order of a log -/

/-- A run that has completed; it may have failed after that. -/
def Stage.hasCompleted : Stage → Bool
  | .succeeded | .settled | .reviewed | .concluded | .decided | .failed => true
  | _ => false

/-- A run that has failed. -/
def Stage.hasFailed : Stage → Bool
  | .failed | .refused | .returned => true
  | _ => false

theorem once_completed : runProtocol.Once .completed fun s => Stage.hasCompleted s = true where
  start := by decide
  stays s e s' hs hnext := by
    cases s <;> cases hs <;> cases e <;> cases hnext <;> rfl
  enters s s' hnext := by
    cases s <;> cases hnext <;> rfl
  silent s hs := by
    cases s <;> cases hs <;> rfl

theorem once_failed : runProtocol.Once .failed fun s => Stage.hasFailed s = true where
  start := by decide
  stays s e s' hs hnext := by
    cases s <;> cases hs <;> cases e <;> cases hnext
    rfl
  enters s s' hnext := by
    cases s <;> cases hnext <;> rfl
  silent s hs := by
    cases s <;> cases hs <;> rfl

/-- A log in which a run is in order. -/
structure InOrder (b : Backend) (runId : String) : Prop where
  /-- At every moment of the log, also while the run was going on. -/
  place : ∀ log, log <+: b.events → (runProtocol.place (said readEvent log runId)).isSome = true
  row : said readEvent b.events runId ≠ [] → (b.agentRuns.find? runId).isSome = true
  completed : (said readEvent b.events runId).count .completed ≤ 1
  failed : (said readEvent b.events runId).count .failed ≤ 1

theorem inOrder_of_isSome {b : Backend} {runId : String}
    (h : (OrchestratorV1.stageOf b runId).isSome = true) : InOrder b runId := by
  unfold OrchestratorV1.stageOf at h
  cases hrow : b.agentRuns.find? runId with
  | none =>
    rw [hrow] at h
    have hempty : said readEvent b.events runId = [] := by
      by_contra hne
      simp [hne] at h
    refine ⟨fun log hlog => ?_, fun hne => absurd hempty hne, ?_, ?_⟩
    · have hprefix : said readEvent log runId <+: said readEvent b.events runId :=
        hlog.filterMap _
      rw [hempty] at hprefix
      rw [List.prefix_nil.mp hprefix]
      rfl
    · simp [hempty]
    · simp [hempty]
  | some row =>
    rw [hrow] at h
    obtain ⟨stage, hstage⟩ := Option.isSome_iff_exists.mp h
    exact ⟨fun log hlog => Protocol.place_isSome_of_prefix (hlog.filterMap _) h,
      fun _ => by rw [hrow]; rfl, once_completed.count_le_one hstage,
      once_failed.count_le_one hstage⟩

/-- A run that has come to an outcome has a row. -/
theorem not_endsAt_absent {o : RunOutcome} : ¬ EndsAt o .absent := by
  cases o <;> simp [EndsAt]

/-- An outcome that a worker was given in a run of the system. -/
def System.Told (services : HandlerServices) (runServices : V1RunTaskServices) (s₀ : System)
    (ls : List Label) (o : RunOutcome) : Prop :=
  ∃ before l after s, ls = before ++ l :: after ∧ System.Steps services s₀ before s ∧
    s.Tells runServices l o

/-- **The runs of a log are in order**, in every run of any number of workers, whatever the services
do and whichever storage call throws; a run that is there is over, and what a worker was told about
one is where it has ended. -/
theorem runs_in_order {services : HandlerServices} {runServices : V1RunTaskServices}
    {s₀ s : System} {ls : List Label} (hservices : Regular runServices)
    (hls : ∀ l ∈ ls, l.Uses runServices fun _ => True)
    (h₀ : ∀ r, (s₀.stageOf r).isSome = true) (hsteps : System.Steps services s₀ ls s) :
    (∀ runId, InOrder s.world.backend runId) ∧
    (∀ runId, s₀.stageOf runId ≠ some .absent → s.stageOf runId = s₀.stageOf runId) ∧
    ∀ o, System.Told services runServices s₀ ls o →
      ∃ stage, s.stageOf o.runId = some stage ∧ EndsAt o stage := by
  obtain ⟨hlegal, hclosed⟩ := System.stages_of_steps hservices hls hsteps h₀
  refine ⟨fun runId => inOrder_of_isSome (hlegal runId), hclosed, ?_⟩
  rintro o ⟨before, l, after, s₁, rfl, hbefore, htells⟩
  obtain ⟨s₁', hbefore', hrest⟩ := Run.append_iff.mp hsteps
  obtain rfl : s₁ = s₁' := by
    have hsame := System.steps_iff.mp hbefore
    rw [System.steps_iff.mp hbefore'] at hsame
    exact (Option.some.inj hsame).symm
  obtain ⟨s₂, hstep, hafter⟩ := Run.cons_iff.mp hrest
  have huses : ∀ l' ∈ before, l'.Uses runServices fun _ => True := fun l' hl' =>
    hls l' (List.mem_append_left _ hl')
  have hlegal₁ := (System.stages_of_steps hservices huses hbefore h₀).1
  have hl : l.Uses runServices fun _ => True := hls l (by simp)
  obtain ⟨hspoke, hfits⟩ := System.spoke_of_step hservices hl hlegal₁ hstep
  obtain ⟨stage, hstage, hend⟩ := hfits o htells
  have hone : System.Steps services s₁ [l] s₂ := Run.cons hstep (.nil _)
  have hlegal₂ := (System.stages_of_steps hservices (by simpa using hl) hone hlegal₁).1
  have hclosed₂ := (System.stages_of_steps hservices (fun l' hl' => hls l' (by simp [hl'])) hafter
    hlegal₂).2
  refine ⟨stage, ?_, hend⟩
  rw [hclosed₂ o.runId, hstage]
  rw [hstage]
  rintro ⟨⟩
  exact not_endsAt_absent hend

/-! ## A task that is reviewed -/

namespace Sample

theorem runServices_regular : Regular runServices where
  store :=
    { saveText := by
        rintro t env f artifact f' ⟨⟩
        rfl
      saveFile := by
        rintro t env f artifact f' ⟨⟩
        rfl }
  rawText := by
    rintro workspacePath env f parsed f' ⟨⟩ hraw
    cases hraw

/-- Surroundings in which the next run gets another id. -/
def laterEnv : Env := { env with uuid := fun _ => "00000001" }

/-- An implementer's run, and a reviewer's. -/
def implementedAndReviewed : List Label :=
  .enqueue "main" workOrder .implementer env ::
    (attempt "w1" (runTaskOnce runServices .quiet) ++
      [.claim "w2" env, .start "w2" env false,
        .settle "w2" laterEnv (runTaskOnce runServices .quiet) false])

theorem implementedAndReviewed_uses :
    ∀ l ∈ implementedAndReviewed, l.Uses runServices fun _ => True := by
  have hrun : ∃ signal, runTaskOnce runServices .quiet = runTaskOnce runServices signal :=
    ⟨.quiet, rfl⟩
  simp [implementedAndReviewed, attempt, Label.Uses, hrun]

/-- Both are in order: the implementer has settled, and the reviewer has decided. -/
theorem reviewed_in_order : ∃ s, System.Steps services system implementedAndReviewed s ∧
    s.stageOf "R-00000000" = some .settled ∧ s.stageOf "R-00000001" = some .decided ∧
    (∀ runId, InOrder s.world.backend runId) := by
  have h : (system.steps services implementedAndReviewed).any (fun s =>
      decide (s.stageOf "R-00000000" = some .settled ∧ s.stageOf "R-00000001" = some .decided)) =
      true := by
    decide +kernel
  obtain ⟨s, hs, h⟩ := (Option.any_eq_true _ _).mp h
  obtain ⟨hsettled, hdecided⟩ := of_decide_eq_true h
  have hsteps := System.steps_iff.mpr hs
  exact ⟨s, hsteps, hsettled, hdecided,
    (runs_in_order runServices_regular implementedAndReviewed_uses (fun _ => rfl) hsteps).1⟩

end Sample

end AgentWorkflow
