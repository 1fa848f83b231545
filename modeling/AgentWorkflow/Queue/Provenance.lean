import AgentWorkflow.Core.RunFrame
import AgentWorkflow.Queue.HandlerExit
import AgentWorkflow.Queue.Worker

/-!
# Where rows and events come from

The tables the processes share, and who may write what into them in a run of the system.

* `Tables`, `Tables.Knows` — the shared tables; a task they have a row of, under the row's project.
* `EventSource`, `CallSource` — the events a process appends and the service calls it makes, with
  the entry it holds.
* `TablesFrame` — an invariant of the tables that survives every write: an insert, a write that
  leaves the ids of a row, an event, a service call, a write of a run's row.
* **`TablesFrame.kept_of_steps`** — it holds in every state of every run, and so does what each
  process holds: the entries in hand are known, and so are the agents.
-/

namespace AgentWorkflow

open Fallible WorkerTaskHandler OrchestratorV1

/-! ## The shared tables -/

/-- The tables the processes share, without the budgets and the metrics. -/
structure Tables where
  taskQueue : Table TaskRow.key
  events : List EventEnvelope
  agentRuns : Table RunRecord.id
  files : Files

/-- The tables of a state. -/
def World.tables (w : World) : Tables :=
  ⟨w.core.taskQueue, w.backend.events, w.backend.agentRuns, w.backend.files⟩

/-- The task has a row, under the project. -/
def Tables.Under (d : Tables) (taskId projectId : String) : Prop :=
  ∃ r, d.taskQueue.find? taskId = some r ∧ r.projectId = projectId

/-- The task of an entry has a row, under the project of the entry. -/
def Tables.Knows (d : Tables) (entry : TaskQueueEntry) : Prop :=
  d.Under entry.taskId entry.projectId

/-- The id of a run. -/
def IsRunId (id : String) : Prop := ∃ k, id = "R-" ++ k

/-- The row of a task when it is enqueued. -/
def enqueuedRow (workOrder : ParsedWorkOrderV1) (nextRole : Role) (ts : ℕ) : TaskRow :=
  ⟨TaskQueue.enqueuedEntry workOrder nextRole ts, workOrder.toJson, none, none⟩

section under

variable {d : Tables} {taskId projectId : String}

/-- A write that leaves the ids of the rows leaves their projects. -/
theorem Tables.Under.update (h : d.Under taskId projectId) {t : String} {f : TaskRow → TaskRow}
    (hf : ∀ r, (f r).key = r.key) (hfixed : ∀ r, (f r).fixed = r.fixed) :
    ({ d with taskQueue := d.taskQueue.update t f hf } : Tables).Under taskId projectId := by
  obtain ⟨r, hr, hproject⟩ := h
  have hkeep : (f r).projectId = r.projectId := congrArg (fun x => x.2.1) (hfixed r)
  unfold Tables.Under
  rw [Table.find?_update]
  split
  · exact ⟨f r, by rw [hr]; rfl, hkeep.trans hproject⟩
  · exact ⟨r, hr, hproject⟩

/-- An insert leaves the projects of the rows there are. -/
theorem Tables.Under.insert (h : d.Under taskId projectId) {r : TaskRow} {q : Table TaskRow.key}
    (hq : d.taskQueue.insert r = some q) :
    ({ d with taskQueue := q } : Tables).Under taskId projectId := by
  obtain ⟨r', hr', hproject⟩ := h
  refine ⟨r', ?_, hproject⟩
  rw [Table.find?_insert hq, if_neg ?_]
  · exact hr'
  · intro hkey
    rw [hkey, Table.find?_of_insert hq] at hr'
    cases hr'

end under

/-! ## Who writes -/

section sources

variable (services : HandlerServices) (runServices : V1RunTaskServices) (K : String → Prop)
  (d : Tables)

/-- An event that a process appends about the task of an entry that is known. -/
inductive EventSource (e : EventEnvelope) : Prop
  | enqueued {entry : TaskQueueEntry} (hentry : d.Knows entry)
    (h : e.Of [.taskEnqueued] entry.projectId (some entry.taskId) (blank entry.taskId = false))
  | handler {entry : TaskQueueEntry} (hentry : d.Knows entry)
    (h : HandlerEvent services entry K IsRunId e)
  | exit {entry : TaskQueueEntry} {status : TaskStatus} {role : Role} (hentry : d.Knows entry)
    (hstatus : status ∈ exitStatuses) (h : LifecycleEvent entry status role e)
  | run {args : RunTaskArgs} (hentry : d.Knows args.entry)
    (hagent : K args.agentProfile.agentId) (h : RunEvent runServices args e)

/-- A service call that a process makes for the task of an entry that is known. -/
inductive CallSource : (α : Type) → ServiceM α → Prop
  | handler {entry : TaskQueueEntry} {α : Type} {m : ServiceM α} (hentry : d.Knows entry)
    (h : HandlerCall services entry α m) : CallSource α m
  | run {args : RunTaskArgs} {α : Type} {m : ServiceM α} (hentry : d.Knows args.entry)
    (h : RunCall runServices args α m) : CallSource α m

end sources

/-- What survives every write of a process; `K` are the agents, and the work orders that are
enqueued meet `W`. -/
structure TablesFrame (services : HandlerServices) (runServices : V1RunTaskServices)
    (K : String → Prop) (W : ParsedWorkOrderV1 → Prop) (I : Tables → Prop) : Prop where
  insert : ∀ d workOrder nextRole ts q, W workOrder →
    d.taskQueue.insert (enqueuedRow workOrder nextRole ts) = some q → I d →
    I { d with taskQueue := q }
  /-- A claim, a release or a write of a JSON column. -/
  row : ∀ d t f hf, (∀ r : TaskRow, (f r).fixed = r.fixed) → I d →
    I { d with taskQueue := d.taskQueue.update t f hf }
  event : ∀ d e, EventSource services runServices K d e → I d →
    I { d with events := d.events ++ [e] }
  call : ∀ d (α : Type) (m : ServiceM α), CallSource services runServices d α m → I d → ∀ env,
    Ensures m env d.files (fun _ f => I { d with files := f }) fun _ f => I { d with files := f }
  run : ∀ d args runs, d.Knows args.entry → RunWrite args d.agentRuns runs → I d →
    I { d with agentRuns := runs }

/-- What holds of a state in which the entries of `E` are in hand. -/
structure Kept (I : Tables → Prop) (K : String → Prop) (E : TaskQueueEntry → Prop) (w : World) :
    Prop where
  tables : I w.tables
  knows : ∀ entry, E entry → w.tables.Knows entry
  agents : ∀ id ∈ w.backend.agentIds, K id

/-- The entry a worker holds. -/
def Pc.inHand : Pc → Option TaskQueueEntry
  | .claimed entry => some entry
  | .running launch => some launch.entry
  | .failed entry => some entry
  | .idle | .stopped => none

/-- Some worker holds the entry. -/
def System.InHand (s : System) (entry : TaskQueueEntry) : Prop :=
  ∃ w, (s.pc w).inHand = some entry

/-- What holds of a state of the system. -/
structure SystemKept (I : Tables → Prop) (K : String → Prop) (s : System) : Prop where
  tables : I s.world.tables
  knows : ∀ w entry, (s.pc w).inHand = some entry → s.world.tables.Knows entry
  agents : ∀ w, ∀ id ∈ (s.memory w).registry.rows.map InternalEntry.agentId, K id
  launched : ∀ w launch, s.pc w = .running launch → K launch.agentId

/-- A run is one of `runTaskOnce`, and what is enqueued meets `W`. -/
def Label.Uses (runServices : V1RunTaskServices) (W : ParsedWorkOrderV1 → Prop) : Label → Prop
  | .enqueue _ workOrder _ _ => W workOrder
  | .settle _ _ run _ => ∃ signal, run = runTaskOnce runServices signal
  | .claim .. | .start .. | .release .. | .crash _ => True

namespace TablesFrame

variable {services : HandlerServices} {runServices : V1RunTaskServices} {K : String → Prop}
  {W : ParsedWorkOrderV1 → Prop} {I : Tables → Prop} {E : TaskQueueEntry → Prop}
  {entry : TaskQueueEntry} {α : Type}

/-! ## The frames of a handler and of a run -/

section frames

variable (h : TablesFrame services runServices K W I)

include h

/-- A write that leaves the ids of the rows. -/
theorem kept_updateRow {w : World} {t : String} {f : TaskRow → TaskRow}
    {hf : ∀ r, (f r).key = r.key} {b : Backend} (hfixed : ∀ r, (f r).fixed = r.fixed)
    (hw : Kept I K E ⟨w.core, b⟩) : Kept I K E ⟨w.core.updateRow t f hf, b⟩ where
  tables := h.row _ t f hf hfixed hw.tables
  knows entry hentry := (hw.knows entry hentry).update hf hfixed
  agents := hw.agents

/-- One more event of a known task. -/
theorem kept_append {c : Core} {b : Backend} {e : EventEnvelope}
    (he : EventSource services runServices K (World.tables ⟨c, b⟩) e) (hw : Kept I K E ⟨c, b⟩) :
    Kept I K E ⟨c, { b with events := b.events ++ [e] }⟩ where
  tables := h.event _ e he hw.tables
  knows := hw.knows
  agents := hw.agents

omit h in
/-- Whatever leaves the tables and the agents. -/
theorem kept_congr {w w' : World} (htables : w'.tables = w.tables)
    (hids : w'.backend.agentIds = w.backend.agentIds) (hw : Kept I K E w) : Kept I K E w' where
  tables := htables ▸ hw.tables
  knows := htables ▸ hw.knows
  agents := hids ▸ hw.agents

/-- The log, for the events and the calls that have a source while `E` is known. -/
theorem kept_log {P : EventEnvelope → Prop} {S : (α : Type) → ServiceM α → Prop} {c : Core}
    (hP : ∀ d : Tables, (∀ entry, E entry → d.Knows entry) → ∀ e, P e →
      EventSource services runServices K d e)
    (hS : ∀ d : Tables, (∀ entry, E entry → d.Knows entry) → ∀ (α : Type) (m : ServiceM α),
      S α m → CallSource services runServices d α m) :
    LogFrame P S K fun b => Kept I K E ⟨c, b⟩ where
  quiet b b' hevents hfiles hruns hids hb := by
    refine kept_congr ?_ hids hb
    simp only [World.tables, hevents, hfiles, hruns]
  append b e he hb := h.kept_append (hP _ hb.knows e he) hb
  service α m hm b hb env :=
    (h.call _ α m (hS _ hb.knows α m hm) hb.tables env).mono
      (fun _ f hf => ⟨hf, hb.knows, hb.agents⟩) fun _ f hf => ⟨hf, hb.knows, hb.agents⟩
  known b hb := hb.agents

/-- A handler of an entry in hand. -/
theorem kept_handlerFrame (hentry : E entry) :
    HandlerFrame services entry K IsRunId (Kept I K E) where
  core w c hc hw := by
    refine kept_congr (w := w) ?_ rfl hw
    simp only [World.tables, hc]
  columns w f hf hwrite hw := h.kept_updateRow (w := w) hwrite.fixed hw
  log c := h.kept_log (fun _ hd _ he => .handler (hd _ hentry) he)
    fun _ hd _ _ hm => .handler (hd _ hentry) hm

/-- A run of an entry in hand. -/
theorem kept_runFrame (args : RunTaskArgs) (c : Core) (hentry : E args.entry)
    (hagent : K args.agentProfile.agentId) :
    RunFrame runServices args K fun b => Kept I K E ⟨c, b⟩ where
  log := h.kept_log (fun _ hd _ he => .run (hd _ hentry) hagent he)
    fun _ hd _ _ hm => .run (hd _ hentry) hm
  runs _ runs hrun hb := ⟨h.run _ args runs (hb.knows _ hentry) hrun hb.tables, hb.knows, hb.agents⟩

/-- The release of an entry. -/
theorem kept_releases {status : TaskStatus} {role : Role} {n : ℕ} {w w' : World}
    (hw : Kept I K E w) (hrel : Releases entry status role n w w') : Kept I K E w' := by
  obtain ⟨-, updatedAt, calls, rfl⟩ := hrel
  exact h.kept_updateRow (w := w) (fun _ => rfl) (kept_congr (w := w) rfl rfl hw)

theorem kept_halfExited {n : ℕ} {w : World} (hexit : HalfExited (Kept I K E) entry n w) :
    Kept I K E w := by
  obtain ⟨w₁, status, role, hw₁, -, hrel⟩ := hexit
  exact h.kept_releases hw₁ hrel

/-- A handler that has exited. -/
theorem kept_exited {n : ℕ} {w : World} (hentry : E entry)
    (hexit : Exited (Kept I K E) entry n w) : Kept I K E w := by
  obtain ⟨w₁, w₂, status, role, hw₁, hstatus, hrel, e, calls, he, rfl⟩ := hexit
  have hw₂ := h.kept_releases hw₁ hrel
  exact h.kept_append (b := { w₂.backend with calls }) (.exit (hw₂.knows _ hentry) hstatus he)
    (kept_congr (w := w₂) rfl rfl hw₂)

end frames

/-! ## The programs outside a handler -/

section programs

variable (h : TablesFrame services runServices K W I) {Q : α → Prop}

include h

theorem kept_storageCall {k : StorageCall} :
    Maintains (Kept I K E) (onBackend (storageCall k)) fun _ => True :=
  HandlerFrame.onBackend fun _ => (h.kept_log (P := fun _ => False) (S := fun _ _ => False)
    (fun _ _ _ he => he.elim) fun _ _ _ _ hm => hm.elim).storageCall

theorem kept_dateNow : Maintains (Kept I K E) (onBackend dateNow) fun _ => True :=
  HandlerFrame.onBackend fun _ => (h.kept_log (P := fun _ => False) (S := fun _ _ => False)
    (fun _ _ _ he => he.elim) fun _ _ _ _ hm => hm.elim).dateNow

omit h in
/-- A change of the core that leaves the queue. -/
theorem kept_modifyCore {f : Core → Core} (hf : ∀ c, (f c).taskQueue = c.taskQueue) :
    Maintains (Kept I K E) (modifyCore f) fun _ => True := by
  refine fun env w hw => ⟨trivial, kept_congr (w := w) ?_ rfl hw⟩
  simp only [World.tables, hf]

/-- The insert of a work order, and its entry. -/
theorem kept_enqueue (queueId : String) {workOrder : ParsedWorkOrderV1} (nextRole : Role)
    (hW : W workOrder) (env : Env) {w : World} (hw : Kept I K E w) :
    Ensures (TaskQueue.enqueue queueId workOrder nextRole) env w
      (fun entry w' => Kept I K (fun x => x = entry ∨ E x) w' ∧
        ∃ ts, entry = TaskQueue.enqueuedEntry workOrder nextRole ts) fun _ w' => Kept I K E w' := by
  simp only [TaskQueue.enqueue, ensures_bind, ensures_onBackend, ensures_dateNow]
  refine QueueStore.ensures_insert (fun _ _ => kept_congr (w := w) rfl rfl hw) fun q hq _ => ?_
  refine ⟨⟨h.insert w.tables workOrder nextRole _ q hW hq hw.tables, ?_, hw.agents⟩, _, rfl⟩
  rintro entry (rfl | hentry)
  · exact ⟨_, (Table.find?_insert hq _).trans (if_pos rfl), rfl⟩
  · exact (hw.knows entry hentry).insert hq

theorem kept_getWorkOrder {taskId : String} :
    Maintains (Kept I K E) (QueueStore.getWorkOrder taskId) fun _ => True := by
  refine .bind h.kept_storageCall fun _ _ => .bind HandlerFrame.getCore fun c _ => ?_
  split
  · exact .pure trivial
  · exact .bind HandlerFrame.parseOrThrow fun _ _ => .pure trivial

theorem kept_computeDefaultLease :
    Maintains (Kept I K E) TaskQueue.computeDefaultLeaseForNextClaimable fun _ => True := by
  refine .bind (Q := fun _ => True) (.bind h.kept_storageCall fun _ _ =>
    .bind HandlerFrame.getCore fun _ _ => .pure trivial) fun all _ => ?_
  refine .bind h.kept_dateNow fun now _ => ?_
  split
  · exact .pure trivial
  · refine .bind HandlerFrame.getCore fun c _ => ?_
    split
    · exact .pure trivial
    · refine .tryCatch (.bind h.kept_getWorkOrder fun persisted _ => ?_) fun _ => .pure trivial
      split
      · exact .bind (kept_modifyCore fun _ => rfl) fun _ _ => .pure trivial
      · exact .pure trivial

theorem kept_storeClaim {worker : String} {lease : ℚ} :
    Maintains (Kept I K E) (QueueStore.claim worker lease) fun _ => True := by
  refine .bind h.kept_dateNow fun now _ => .bind h.kept_dateNow fun now' _ => ?_
  refine .bind h.kept_storageCall fun _ _ => .bind HandlerFrame.getCore fun c _ => ?_
  split
  · exact .pure trivial
  · refine .bind h.kept_storageCall fun _ _ => .bind HandlerFrame.getCore fun c _ => ?_
    refine .ite (fun _ => ?_) fun _ => .pure trivial
    refine .bind (Q := fun _ => True) (fun env w hw => ⟨trivial, ?_⟩) fun _ _ => .pure trivial
    exact h.kept_updateRow (w := w) (fun _ => rfl) hw

/-- A claim, and its entry. -/
theorem kept_claim (worker : String) (env : Env) {w : World} (hw : Kept I K E w) :
    Ensures (TaskQueue.claim worker) env w
      (fun result w' => Kept I K (fun x => result = some x ∨ E x) w') fun _ w' => Kept I K E w' := by
  have hkept : Maintains (Kept I K E) (TaskQueue.claim worker) fun _ => True :=
    .bind h.kept_computeDefaultLease fun _ _ => h.kept_storeClaim
  have hentry : OnCore (TaskQueue.claim worker) env w.core
      (fun result c => ∀ entry, result = some entry →
        ∃ r, c.row entry.taskId = some r ∧ r.projectId = entry.projectId) fun _ _ => True := by
    refine TaskQueue.onCore_claim (fun _ _ => by simp) (fun c now lease row _ hselect => ?_)
      fun _ _ _ => trivial
    rintro _ ⟨⟩
    have hrow := (QueueStore.claimSelect_spec hselect).1
    refine ⟨QueueStore.claimedRow worker lease now row, ?_, rfl⟩
    show (c.updateRow row.taskId _ _).row row.taskId = _
    rw [row_updateRow_self, hrow]
    rfl
  refine ((hkept env w hw).and (hentry w rfl)).mono (fun result w' hboth => ?_)
    fun _ _ he => he.1
  obtain ⟨⟨-, hw'⟩, hknown⟩ := hboth
  refine ⟨hw'.tables, ?_, hw'.agents⟩
  rintro entry (hentry | hentry)
  · exact hknown entry hentry
  · exact hw'.knows entry hentry

/-- The release of the catch path. -/
theorem kept_releaseAfterHandlerFailure (entry : TaskQueueEntry) :
    Maintains (Kept I K E) (Worker.releaseAfterHandlerFailure entry) fun _ => True := by
  refine .tryCatch (.bind (Q := fun _ => True) (.bind h.kept_storageCall fun _ _ =>
    .bind HandlerFrame.getCore fun _ _ => .pure trivial) fun existing? _ => ?_) fun _ => .pure trivial
  have hrest : ∀ (existing : TaskQueueEntry) (updatedAt : ℕ), Maintains (Kept I K E) (do
      onBackend (storageCall .releaseTask)
      modifyCore fun c => c.updateRow entry.taskId
        (Worker.failurePatch.apply existing updatedAt) (QueueStore.key_apply _ _ _))
      fun _ => True := fun existing updatedAt =>
    .bind h.kept_storageCall fun _ _ => fun env w hw =>
      ⟨trivial, h.kept_updateRow (w := w) (fun _ => rfl) hw⟩
  split
  · exact HandlerFrame.onThrow
  · exact .bind h.kept_dateNow fun updatedAt _ => hrest _ updatedAt

end programs

/-! ## Runs of the system -/

section system

variable {s s' : System} {l : Label} {ls : List Label} {worker : String} {w' : World}

/-- Less may be in hand. -/
theorem kept_mono {E' : TaskQueueEntry → Prop} (hw : Kept I K E w') (hE : ∀ x, E' x → E x) :
    Kept I K E' w' := ⟨hw.tables, fun x hx => hw.knows x (hE x hx), hw.agents⟩

theorem kept_load (worker : String) (hs : SystemKept I K s) : Kept I K s.InHand (s.load worker) where
  tables := hs.tables
  knows := by
    rintro entry ⟨w, hw⟩
    exact hs.knows w entry hw
  agents := hs.agents worker

theorem kept_store (worker : String) (hs : SystemKept I K s) (hw : Kept I K s.InHand w') :
    SystemKept I K (s.store worker w') where
  tables := hw.tables
  knows x entry hx := hw.knows entry ⟨x, hx⟩
  agents x := by
    by_cases hx : x = worker
    · subst hx
      simpa [System.store, Backend.agentIds] using hw.agents
    · simpa [System.store, hx] using hs.agents x
  launched := hs.launched

theorem kept_goto {pc : Pc} (hs : SystemKept I K s)
    (hentry : ∀ entry, pc.inHand = some entry → s.world.tables.Knows entry)
    (hagent : ∀ launch, pc = .running launch → K launch.agentId) :
    SystemKept I K (s.goto worker pc) where
  tables := hs.tables
  knows x entry hx := by
    by_cases hxw : x = worker
    · subst hxw
      exact hentry entry (by simpa [System.goto] using hx)
    · exact hs.knows x entry (by simpa [System.goto, hxw] using hx)
  agents := hs.agents
  launched x launch hx := by
    by_cases hxw : x = worker
    · subst hxw
      exact hagent launch (by simpa [System.goto] using hx)
    · exact hs.launched x launch (by simpa [System.goto, hxw] using hx)

/-- A worker that holds nothing any more. -/
theorem kept_leave {pc : Pc} (hs : SystemKept I K s) (hpc : pc = .idle ∨ pc = .stopped) :
    SystemKept I K (s.goto worker pc) := by
  rcases hpc with rfl | rfl
  · exact kept_goto hs (by simp [Pc.inHand]) (by simp)
  · exact kept_goto hs (by simp [Pc.inHand]) (by simp)

theorem kept_note {call : Call} (hs : SystemKept I K s) : SystemKept I K (s.note worker call) :=
  ⟨hs.tables, hs.knows, hs.agents, hs.launched⟩

variable (h : TablesFrame services runServices K W I)

include h

/-- The run, and the rest of the handler. -/
theorem kept_runAndSettle (worker : String) {launch : Launch} (signal : AbortSignal)
    (aborted : Bool) (env : Env) {w : World} (hentry : E launch.entry) (hagent : K launch.agentId)
    (hw : Kept I K E w) :
    Ensures (System.runAndSettle services worker launch (runTaskOnce runServices signal) aborted)
      env w (fun _ w' => Kept I K E w') fun _ w' => Kept I K E w' := by
  have hrun : Maintains (Kept I K E)
      (onBackend (WorkerTaskHandler.attempt (runTaskOnce runServices signal launch.runArgs)))
      fun result => ∀ o, result = .ok o → IsRunId o.runId :=
    HandlerFrame.onBackend fun c => HandlerFrame.attempt
      (h.kept_runFrame launch.runArgs c hentry hagent).runTaskOnce
  refine ensures_bind.mpr ((hrun env w hw).mono (fun result w₁ hw₁ => ?_) fun _ _ he => he)
  refine (handleAfterRun_exits (h.kept_handlerFrame hentry) rfl hw₁.1 env w₁ hw₁.2).mono
    (fun _ w₂ hexit => h.kept_exited hentry hexit) fun _ w₂ he => ?_
  rcases he with he | hhalf
  · exact he
  · exact h.kept_halfExited hhalf

/-- What the half before the run leaves. -/
theorem kept_start {w : String} {env : Env} {aborted : Bool}
    (hstep : System.Step services s (.start w env aborted) s') (hs : SystemKept I K s) :
    SystemKept I K s' := by
  simp only [System.Step, System.step] at hstep
  split at hstep
  next entry hpc =>
    have hentry : s.InHand entry := ⟨w, by rw [hpc]; rfl⟩
    have hspec : Ensures (WorkerTaskHandler.handleUntilLaunch services w entry aborted) env
        (s.load w) _ _ :=
      handleUntilLaunch_exits (h.kept_handlerFrame hentry) env (s.load w) (kept_load w hs)
    split at hstep
    next world hrun =>
      cases hstep
      rcases hspec.of_ok hrun with ⟨-, hexit⟩ | ⟨_, hnone, -⟩
      · exact kept_leave (kept_note (kept_store w hs (h.kept_exited hentry hexit))) (.inl rfl)
      · cases hnone
    next launch world hrun =>
      cases hstep
      rcases hspec.of_ok hrun with ⟨hnone, -⟩ | ⟨_, hsome, ⟨hsame, hagent⟩, hworld⟩
      · cases hnone
      · cases hsome
        refine kept_goto (kept_store w hs hworld) ?_ ?_
        · rintro _ ⟨⟩
          rw [hsame]
          exact hworld.knows entry hentry
        · rintro _ ⟨⟩
          exact hagent
    next e world hrun =>
      cases hstep
      have hworld : Kept I K s.InHand world := by
        rcases hspec.of_error hrun with hworld | hhalf
        · exact hworld
        · exact h.kept_halfExited hhalf
      refine kept_goto (kept_note (kept_store w hs hworld)) ?_ (by simp)
      rintro _ ⟨⟩
      exact hworld.knows entry hentry
  · cases hstep

/-- **A step keeps the invariant**, and what the workers hold. -/
theorem kept_step (hl : l.Uses runServices W) (hstep : System.Step services s l s')
    (hs : SystemKept I K s) : SystemKept I K s' := by
  unfold System.Step System.step at hstep
  cases l with
  | enqueue queueId workOrder nextRole env =>
    have hspec := h.kept_enqueue queueId nextRole hl env (kept_load queueId hs)
    dsimp only at hstep
    split at hstep
    next entry world hrun =>
      cases hstep
      exact kept_store queueId hs (kept_mono (hspec.of_ok hrun).1 fun _ => Or.inr)
    next e world hrun =>
      cases hstep
      exact kept_store queueId hs (hspec.of_error hrun)
  | claim w env =>
    have hspec := h.kept_claim w env (kept_load w hs)
    dsimp only at hstep
    split at hstep
    · split at hstep
      next world hrun =>
        cases hstep
        exact kept_store w hs (kept_mono (hspec.of_ok hrun) fun _ => Or.inr)
      next entry world hrun =>
        cases hstep
        have hworld := hspec.of_ok hrun
        refine kept_goto (kept_store w hs (kept_mono hworld fun _ => Or.inr)) ?_ (by simp)
        rintro _ ⟨⟩
        exact hworld.knows entry (Or.inl rfl)
      next e world hrun =>
        cases hstep
        exact kept_leave (kept_store w hs (hspec.of_error hrun)) (.inr rfl)
    · cases hstep
  | start w env aborted => exact h.kept_start hstep hs
  | settle w env run aborted =>
    obtain ⟨signal, rfl⟩ := hl
    dsimp only at hstep
    split at hstep
    next launch hpc =>
      have hentry : s.InHand launch.entry := ⟨w, by rw [hpc]; rfl⟩
      have hspec := h.kept_runAndSettle w signal aborted env hentry (hs.launched w launch hpc)
        (kept_load w hs)
      split at hstep
      next world hrun =>
        cases hstep
        exact kept_leave (kept_note (kept_store w hs (hspec.of_ok hrun))) (.inl rfl)
      next e world hrun =>
        cases hstep
        have hworld := hspec.of_error hrun
        refine kept_goto (kept_note (kept_store w hs hworld)) ?_ (by simp)
        rintro _ ⟨⟩
        exact hworld.knows _ hentry
    · cases hstep
  | release w env =>
    dsimp only at hstep
    split at hstep
    next entry hpc =>
      have hspec := h.kept_releaseAfterHandlerFailure entry env (s.load w) (kept_load w hs)
      split at hstep
      next world hrun =>
        cases hstep
        exact kept_leave (kept_store w hs (hspec.of_ok hrun).2) (.inl rfl)
      next e world hrun =>
        cases hstep
        exact kept_leave (kept_store w hs (hspec.of_error hrun)) (.inl rfl)
    · cases hstep
  | crash w =>
    cases hstep
    exact kept_leave hs (.inr rfl)

/-- **The invariant holds in every state of every run**, and so does what the workers hold. -/
theorem kept_of_steps (hls : ∀ l ∈ ls, l.Uses runServices W) (hs : SystemKept I K s)
    (hsteps : System.Steps services s ls s') : SystemKept I K s' :=
  (hsteps.guarded_of_labels hls).invariant_of_guard hs fun _ _ _ hl hstep hs =>
    h.kept_step hl hstep hs

end system

end TablesFrame

end AgentWorkflow
