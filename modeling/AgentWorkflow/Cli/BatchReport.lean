import AgentWorkflow.Cli.LoadBatch
import AgentWorkflow.Queue.Fencing
import AgentWorkflow.Workspace.WorktreeCleanup

/-!
# The end of a batch

What `runBatchV1` of `cli/run-command.ts` does when its tasks have ended: the poll its wait returns
at, the worktrees it removes, the report, and the exit code of the process.

* `AllTerminal` — the poll: as many terminal rows among the inputs as there are inputs.
* `cleanupV1TerminalWorktrees` — **the workspaces of what was accepted or has failed**, in order;
  those of a task that waits for a human stay.
* `buildBatchResult`, `batchExitCode` — one entry for each task, and `0`, `1` or `3`.
* **`batch_settled`** — what the poll has seen is what is reported, whatever the workers of this and
  of other invocations do in between.
-/

namespace AgentWorkflow

open Fallible WorkerTaskHandler

namespace RunBatchV1

/-! ## The wait -/

/-- Source: `task-queue.ts` `listTerminal`. -/
def listTerminal (c : Core) : List TaskQueueEntry :=
  (c.taskQueue.rows.map TaskRow.toTaskQueueEntry).filter fun entry => entry.status.terminal

/-- Source: `run-command.ts` `scopedTerminalMonitor`. -/
def scopedTerminalMonitor (taskIds : List String) (c : Core) : List TaskQueueEntry :=
  (listTerminal c).filter fun entry => taskIds.contains entry.taskId

/-- The wait ends at a poll that finds this. Source: `worker-pool.ts` `waitForAllTerminal`. -/
def AllTerminal (inputs : List BatchWorkOrderInput) (c : Core) : Prop :=
  inputs.length ≤ (scopedTerminalMonitor (inputs.map BatchWorkOrderInput.taskId) c).length

instance (inputs : List BatchWorkOrderInput) (c : Core) : Decidable (AllTerminal inputs c) :=
  inferInstanceAs (Decidable (_ ≤ _))

/-! ## The worktrees -/

/-- Source: `run-store.ts` `RunCleanupRecord`. -/
structure RunCleanupRecord where
  runId : String
  taskId : String
  projectId : String
  agentId : String
  status : RunStatus
  role : Option Role
  workspacePath : Option String
  deriving DecidableEq, Repr

/-- The columns of a run that a cleanup reads. -/
def cleanupRecord (r : RunRecord) : RunCleanupRecord where
  runId := r.id
  taskId := r.taskId
  projectId := r.projectId
  agentId := r.agentId
  status := r.status
  role := r.role
  workspacePath := r.workspacePath

/-- A row of `task_queue` that a run is joined with. -/
def Joins (taskIds : List String) (r : RunRecord) (q : TaskRow) : Prop :=
  (q.taskId = r.taskId ∧ q.projectId = r.projectId) ∧
    (q.status = .accepted ∨ q.status = .failed) ∧ q.taskId ∈ taskIds

instance (taskIds : List String) (r : RunRecord) (q : TaskRow) : Decidable (Joins taskIds r q) :=
  inferInstanceAs (Decidable (_ ∧ _))

/-- `order by task_id`: by the bytes, which is by the characters. -/
def TaskOrder (a b : RunRecord) : Prop := a.taskId ≤ b.taskId

instance : DecidableRel TaskOrder := fun a b => inferInstanceAs (Decidable (a.taskId ≤ b.taskId))

instance : Std.Total TaskOrder := ⟨fun _ _ => String.le_total _ _⟩

instance : IsTrans RunRecord TaskOrder := ⟨fun _ _ _ hab hbc => String.le_trans hab hbc⟩

/-- Source: `run-store.ts` `listCleanupCandidates`. Runs of one task stay in the order of their
insertion. -/
def listCleanupCandidates (c : Core) (runs : Table RunRecord.id) (taskIds : List String) :
    List RunCleanupRecord :=
  if taskIds = [] then []
  else
    ((runs.rows.filter fun r => c.taskQueue.rows.any fun q => Joins taskIds r q).insertionSort
      TaskOrder).map cleanupRecord

/-- A `run.cleaned_up` event. -/
structure CleanedUp where
  eventId : String
  projectId : String
  taskId : String
  runId : String
  agentId : String
  createdAt : ℕ
  deriving DecidableEq, Repr

/-- The state of a cleanup. -/
structure Sweep where
  backend : Backend
  /-- The `run.cleaned_up` events, oldest first. -/
  cleanedUp : List CleanedUp
  /-- The workspaces given to `sandboxProvider.cleanup`, oldest first; no code reads it. -/
  given : List String

/-- The surroundings of a cleanup. -/
structure SweepEnv extends Env where
  /-- What the append of an event throws, if anything: its validation or its statement fails. -/
  fails : ℕ → Option Err

/-- Programs of a cleanup. -/
abbrev SweepM := Prog SweepEnv Err Sweep

/-- A program of the backend. -/
def inSweep {α : Type} (m : BackendM α) : SweepM α := fun env =>
  zoom Sweep.backend (fun b s => { s with backend := b }) m env.toEnv

/-- A worktree that cannot be removed. -/
def cleanupFailed (run : RunCleanupRecord) (workspacePath : String) (e : Err) : Err :=
  .error ("Failed to clean worktree for task " ++ run.taskId ++ ", run " ++ run.runId ++ " at " ++
    workspacePath ++ ": " ++ messageOf e)

section sweep

variable (git : (args : List String) → (cwd : String) → ServiceM String)

/-- The body of the loop: the worktree, then its event. -/
def cleanupRun (run : RunCleanupRecord) (workspacePath : String) : SweepM Unit := do
  modify fun s => { s with given := s.given ++ [workspacePath] }
  tryCatch (inSweep (onFiles (CliGitWorktreeManager.cleanup git workspacePath)))
    fun e => throw (cleanupFailed run workspacePath e)
  let id ← inSweep uuid8
  let createdAt ← inSweep dateNow
  let n ← inSweep nextCall
  let env ← read
  match env.fails n with
  | some e => throw e
  | none => pure ()
  modify fun s =>
    { s with
      cleanedUp := s.cleanedUp ++
        [⟨"E-" ++ id, run.projectId, run.taskId, run.runId, run.agentId, createdAt⟩] }

/-- The loop of `cleanupV1TerminalWorktrees`. -/
def cleanupRuns (seenRunIds : List String) : List RunCleanupRecord → SweepM Unit
  | [] => pure ()
  | run :: runs => do
    if seenRunIds.contains run.runId then cleanupRuns seenRunIds runs
    else
      match truthy run.workspacePath with
      | none => cleanupRuns (run.runId :: seenRunIds) runs
      | some workspacePath => do
        cleanupRun git run workspacePath
        cleanupRuns (run.runId :: seenRunIds) runs

/-- Source: `run-command.ts` `cleanupV1TerminalWorktrees`. -/
def cleanupV1TerminalWorktrees (c : Core) (taskIds : List String) : SweepM Unit := do
  let s ← get
  cleanupRuns git [] (listCleanupCandidates c s.backend.agentRuns taskIds)

end sweep

/-! ## The report -/

/-- A task of `RunBatchV1Result`. -/
structure BatchTask where
  inputPath : String
  taskId : String
  status : TaskStatus
  attempts : ℕ
  runCount : ℕ
  artifactCount : ℕ
  deriving DecidableEq, Repr

/-- Source: `run-command.ts` `RunBatchV1Result`. -/
structure RunBatchV1Result where
  databasePath : String
  workers : ℕ
  tasks : List BatchTask
  deriving DecidableEq, Repr

/-- The inputs by task id. -/
def orderedInputs (inputs : List BatchWorkOrderInput) : List BatchWorkOrderInput :=
  inputs.insertionSort fun a b => compareText a.taskId b.taskId

/-- The task of an input, as its row has it. -/
def batchTask (b : Backend) (input : BatchWorkOrderInput) (r : TaskRow) : BatchTask where
  inputPath := input.filePath
  taskId := r.taskId
  status := r.status
  attempts := r.attempts
  runCount := b.agentRuns.rows.countP fun run => run.taskId = r.taskId
  artifactCount := b.files.artifacts.countP fun artifact => artifact.taskId = r.taskId

/-- The task of an input. -/
def buildTask (c : Core) (b : Backend) (input : BatchWorkOrderInput) : Except Err BatchTask :=
  match c.row input.taskId with
  | none => .error (.error ("TaskQueue entry not found after batch run: " ++ input.taskId))
  | some r =>
    if r.status.terminal = true then .ok (batchTask b input r)
    else .error (.error ("Task did not reach a terminal status: " ++ r.status.text))

/-- Source: `run-command.ts` `buildBatchResult`. -/
def buildBatchResult (c : Core) (b : Backend) (inputs : List BatchWorkOrderInput)
    (databasePath : String) (workers : ℕ) : Except Err RunBatchV1Result := do
  let tasks ← (orderedInputs inputs).mapM (buildTask c b)
  .ok ⟨databasePath, workers, tasks⟩

/-- Source: `run-command.ts` `runBatchV1`, after `pool.stop`; one step, as those of a `System`
are. -/
def settleBatch (git : (args : List String) → (cwd : String) → ServiceM String) (c : Core)
    (inputs : List BatchWorkOrderInput) (databasePath : String) (workers : ℕ) :
    SweepM RunBatchV1Result := do
  cleanupV1TerminalWorktrees git c (inputs.map BatchWorkOrderInput.taskId)
  let s ← get
  match buildBatchResult c s.backend inputs databasePath workers with
  | .ok result => pure result
  | .error e => throw e

/-- The exit code of a batch that has a report. Source: `run-command.ts` `runCli`. -/
def batchExitCode (result : RunBatchV1Result) : ℕ :=
  if (result.tasks.any fun task => task.status = .failed) = true then 1
  else if (result.tasks.any fun task => task.status = .awaitingHuman) = true then 3
  else 0

/-! ## The poll -/

section poll

variable {inputs : List BatchWorkOrderInput} {c : Core}

/-- **The wait ends exactly when the row of every input is terminal.** -/
theorem allTerminal_iff (hids : (inputs.map BatchWorkOrderInput.taskId).Nodup) :
    AllTerminal inputs c ↔
      ∀ input ∈ inputs, ∃ r, c.row input.taskId = some r ∧ r.status.terminal = true := by
  have hcount := Table.length_le_filter_iff c.taskQueue (fun r => r.status.terminal) hids
  have hmonitor : (scopedTerminalMonitor (inputs.map BatchWorkOrderInput.taskId) c).length =
      (c.taskQueue.rows.filter fun r =>
        (inputs.map BatchWorkOrderInput.taskId).contains r.key && r.status.terminal).length := by
    unfold scopedTerminalMonitor listTerminal
    rw [List.filter_filter, List.filter_map, List.length_map]
    rfl
  unfold AllTerminal
  rw [hmonitor, ← List.length_map BatchWorkOrderInput.taskId, hcount]
  exact List.forall_mem_map

end poll

/-! ## The sweep -/

section swept

variable {git : (args : List String) → (cwd : String) → ServiceM String} {env : SweepEnv}
  {s : Sweep} {run : RunCleanupRecord} {runs : List RunCleanupRecord}

/-- The workspace of a run that has one. -/
def RunCleanupRecord.workspace (run : RunCleanupRecord) : Option String := truthy run.workspacePath

/-- The ids of an event. -/
def CleanedUp.ids (e : CleanedUp) : String × String × String × String :=
  (e.projectId, e.taskId, e.runId, e.agentId)

/-- The ids of a run. -/
def RunCleanupRecord.ids (run : RunCleanupRecord) : String × String × String × String :=
  (run.projectId, run.taskId, run.runId, run.agentId)

/-- The runs have been swept: their workspaces were removed in order, each with its event. -/
structure Swept (runs : List RunCleanupRecord) (s s' : Sweep) : Prop where
  given : s'.given = s.given ++ runs.filterMap RunCleanupRecord.workspace
  events : s'.cleanedUp.map CleanedUp.ids = s.cleanedUp.map CleanedUp.ids ++
    (runs.filter fun run => run.workspace.isSome).map RunCleanupRecord.ids
  runs : s'.backend.agentRuns = s.backend.agentRuns

/-- A sweep has stopped at a run: its worktree was not removed, or the event was not recorded. -/
structure StoppedAt (env : SweepEnv) (run : RunCleanupRecord) (path : String) (e : Err)
    (s s' : Sweep) : Prop where
  workspace : run.workspace = some path
  given : s'.given = s.given ++ [path]
  events : s'.cleanedUp = s.cleanedUp
  error : (∃ cause, e = cleanupFailed run path cause) ∨ ∃ n, env.fails n = some e

theorem Swept.refl : Swept [] s s := ⟨by simp, by simp, rfl⟩

theorem Swept.trans {runs' : List RunCleanupRecord} {s₁ s₂ : Sweep} (h : Swept runs s s₁)
    (h' : Swept runs' s₁ s₂) : Swept (runs ++ runs') s s₂ where
  given := by rw [h'.given, h.given, List.filterMap_append, List.append_assoc]
  events := by rw [h'.events, h.events, List.filter_append, List.map_append, List.append_assoc]
  runs := h'.runs.trans h.runs

/-- A run without a workspace is passed over. -/
theorem Swept.none (h : run.workspace = none) : Swept [run] s s where
  given := by simp [h]
  events := by simp [h]
  runs := rfl

theorem ensures_inSweep {α : Type} {m : BackendM α} {Q : α → Sweep → Prop}
    {E : Err → Sweep → Prop} :
    Ensures (inSweep m) env s Q E ↔
      Ensures m env.toEnv s.backend (fun x b => Q x { s with backend := b })
        fun e b => E e { s with backend := b } :=
  ensures_zoom (r := env.toEnv)

/-- **One run**: its worktree is removed and its event recorded, or the sweep stops there. -/
theorem cleanupRun_spec {path : String} (hpath : run.workspace = some path) :
    Ensures (cleanupRun git run path) env s (fun _ s' => Swept [run] s s')
      fun e s' => StoppedAt env run path e s s' := by
  unfold cleanupRun
  simp only [ensures_bind, ensures_modify, ensures_tryCatch, ensures_throw, ensures_inSweep,
    ensures_uuid8, ensures_dateNow]
  refine ensures_zoom_of_forall (fun _ files => ?_) fun cause files => ?_
  · simp only [nextCall, ensures_bind, ensures_get, ensures_set, ensures_pure, ensures_read]
    split
    next e he => exact ⟨hpath, rfl, rfl, Or.inr ⟨_, he⟩⟩
    next =>
      refine ⟨?_, ?_, rfl⟩
      · simp [hpath]
      · simp [hpath, CleanedUp.ids, RunCleanupRecord.ids]
  · exact ⟨hpath, rfl, rfl, Or.inl ⟨cause, rfl⟩⟩

/-- **The loop**: every run in turn, up to the first failure. A run id is never seen twice. -/
theorem cleanupRuns_spec {seen : List String}
    (hids : (seen ++ runs.map RunCleanupRecord.runId).Nodup) :
    Ensures (cleanupRuns git seen runs) env s (fun _ s' => Swept runs s s')
      fun e s' => ∃ done run rest path s₁, runs = done ++ run :: rest ∧ Swept done s s₁ ∧
        StoppedAt env run path e s₁ s' := by
  induction runs generalizing seen s with
  | nil => exact Swept.refl
  | cons run runs ih =>
    rw [List.map_cons] at hids
    have hnew : seen.contains run.runId ≠ true := by
      intro hseen
      have hmem := List.contains_iff_mem.mp hseen
      exact (List.nodup_append.mp hids).2.2 _ hmem _ List.mem_cons_self rfl
    have hnext : ((run.runId :: seen) ++ runs.map RunCleanupRecord.runId).Nodup :=
      (List.perm_middle.nodup_iff).mp hids
    -- What the rest of the loop does, after this run.
    have hrest : ∀ s₁, Swept [run] s s₁ →
        Ensures (cleanupRuns git (run.runId :: seen) runs) env s₁
          (fun _ s' => Swept (run :: runs) s s')
          fun e s' => ∃ done r rest path s₂, run :: runs = done ++ r :: rest ∧ Swept done s s₂ ∧
            StoppedAt env r path e s₂ s' := by
      intro s₁ h₁
      refine (ih hnext).mono (fun _ s' h => h₁.trans h) ?_
      rintro e s' ⟨done, r, rest, path, s₂, rfl, hdone, hstop⟩
      exact ⟨run :: done, r, rest, path, s₂, rfl, h₁.trans hdone, hstop⟩
    rw [cleanupRuns, if_neg hnew]
    split
    next hnone => exact hrest s (.none hnone)
    next path hpath =>
      refine ensures_bind.mpr ((cleanupRun_spec hpath).mono (fun _ s₁ h₁ => hrest s₁ h₁) ?_)
      intro e s' hstop
      exact ⟨[], run, runs, path, s, rfl, .refl, hstop⟩

end swept

/-! ## The candidates -/

section candidates

variable {c : Core} {runs : Table RunRecord.id} {taskIds : List String} {run : RunCleanupRecord}

/-- **Who is swept**: the runs of the tasks that were accepted or have failed. -/
theorem mem_listCleanupCandidates : run ∈ listCleanupCandidates c runs taskIds ↔
    ∃ r ∈ runs.rows, run = cleanupRecord r ∧ r.taskId ∈ taskIds ∧ ∃ q, c.row r.taskId = some q ∧
      q.projectId = r.projectId ∧ (q.status = .accepted ∨ q.status = .failed) := by
  have hjoin : ∀ r, (c.taskQueue.rows.any fun q => Joins taskIds r q) = true ↔
      r.taskId ∈ taskIds ∧ ∃ q, c.row r.taskId = some q ∧ q.projectId = r.projectId ∧
        (q.status = .accepted ∨ q.status = .failed) := by
    intro r
    rw [List.any_eq_true]
    constructor
    · rintro ⟨q, hq, hjoins⟩
      obtain ⟨⟨htask, hproject⟩, hstatus, hin⟩ := of_decide_eq_true hjoins
      refine ⟨htask ▸ hin, q, ?_, hproject, hstatus⟩
      rw [← htask]
      exact Table.mem_iff_find?.mp hq
    · rintro ⟨hin, q, hq, hproject, hstatus⟩
      have hkey : q.key = r.taskId := Table.key_of_find? hq
      have htask : q.taskId = r.taskId := hkey
      have hmem : q ∈ c.taskQueue.rows := List.mem_of_find?_eq_some hq
      exact ⟨q, hmem, decide_eq_true ⟨⟨htask, hproject⟩, hstatus, htask ▸ hin⟩⟩
  unfold listCleanupCandidates
  split
  next hnil => simp [hnil]
  next =>
    rw [List.mem_map]
    constructor
    · rintro ⟨r, hr, rfl⟩
      obtain ⟨hrow, hany⟩ := List.mem_filter.mp ((List.mem_insertionSort _).mp hr)
      exact ⟨r, hrow, rfl, (hjoin r).mp hany⟩
    · rintro ⟨r, hr, rfl, h⟩
      exact ⟨r, (List.mem_insertionSort _).mpr (List.mem_filter.mpr ⟨hr, (hjoin r).mpr h⟩), rfl⟩

/-- Runs in the order of a sweep: by task, those of one task in the order of their rows, none
twice. -/
structure SweepOrder (rows : List RunRecord) (runs : List RunCleanupRecord) : Prop where
  ids : (runs.map RunCleanupRecord.runId).Nodup
  tasks : runs.Pairwise fun a b => a.taskId ≤ b.taskId
  rows : ∀ t, (runs.filter fun run => run.taskId = t).Sublist (rows.map cleanupRecord)

theorem listCleanupCandidates_order :
    SweepOrder runs.rows (listCleanupCandidates c runs taskIds) := by
  unfold listCleanupCandidates
  split
  next => exact ⟨List.nodup_nil, .nil, fun _ => List.nil_sublist _⟩
  next =>
    obtain ⟨rows, hrows⟩ : ∃ rows, rows =
        runs.rows.filter fun r => c.taskQueue.rows.any fun q => Joins taskIds r q := ⟨_, rfl⟩
    rw [← hrows]
    have hsub : rows.Sublist runs.rows := hrows ▸ List.filter_sublist
    have hperm : (rows.insertionSort TaskOrder).Perm rows := List.perm_insertionSort _ _
    refine ⟨?_, ?_, fun t => ?_⟩
    · rw [List.map_map]
      refine (hperm.map _).nodup_iff.mpr ?_
      exact (hsub.map RunRecord.id).nodup runs.nodup
    · rw [List.pairwise_map]
      exact List.pairwise_insertionSort TaskOrder rows
    · -- The runs of one task are in order already, so sorting keeps them as they are.
      have hkept : (rows.filter fun r => r.taskId = t).Sublist (rows.insertionSort TaskOrder) := by
        refine List.sublist_insertionSort ?_ List.filter_sublist
        refine List.pairwise_of_forall_mem_list fun a ha b hb => ?_
        have hat : a.taskId = t := by simpa using (List.mem_filter.mp ha).2
        have hbt : b.taskId = t := by simpa using (List.mem_filter.mp hb).2
        have hsame : a.taskId = b.taskId := hat.trans hbt.symm
        exact Eq.subst (motive := fun id => a.taskId ≤ id) hsame (String.le_refl a.taskId)
      have hfilter := hkept.filter fun r => decide (r.taskId = t)
      rw [List.filter_filter] at hfilter
      simp only [Bool.and_self] at hfilter
      have heq := hfilter.eq_of_length (hperm.filter _).length_eq.symm
      rw [List.filter_map]
      refine List.Sublist.map cleanupRecord ?_
      have hcomp : (fun run : RunCleanupRecord => decide (run.taskId = t)) ∘ cleanupRecord =
          fun r : RunRecord => decide (r.taskId = t) := rfl
      rw [hcomp, ← heq]
      exact List.filter_sublist.trans hsub

end candidates

/-! ## The report -/

section report

variable {c : Core} {b : Backend} {inputs : List BatchWorkOrderInput} {databasePath : String}
  {workers : ℕ}

/-- These are the tasks of the inputs, in their order. -/
structure TasksOf (c : Core) (b : Backend) (inputs : List BatchWorkOrderInput)
    (tasks : List BatchTask) : Prop where
  paths : (tasks.map fun task => (task.inputPath, task.taskId)) =
    inputs.map fun input => (input.filePath, input.taskId)
  tasks : ∀ task ∈ tasks, ∃ input ∈ inputs, ∃ r, c.row input.taskId = some r ∧
    task = batchTask b input r

/-- A report goes by task id. -/
theorem pairwise_orderedInputs :
    (orderedInputs inputs).Pairwise fun a b => compareText a.taskId b.taskId := by
  unfold orderedInputs
  have htotal : Std.Total fun a b : BatchWorkOrderInput => compareText a.taskId b.taskId :=
    ⟨fun a b => Std.Total.total a.taskId b.taskId⟩
  have htrans : IsTrans BatchWorkOrderInput fun a b => compareText a.taskId b.taskId :=
    ⟨fun a b c => IsTrans.trans a.taskId b.taskId c.taskId⟩
  exact List.pairwise_insertionSort _ inputs

/-- Inputs whose rows are terminal have their tasks. -/
theorem mapM_buildTask (h : ∀ input ∈ inputs, ∃ r, c.row input.taskId = some r ∧
    r.status.terminal = true) :
    ∃ tasks, inputs.mapM (buildTask c b) = .ok tasks ∧ TasksOf c b inputs tasks := by
  induction inputs with
  | nil => exact ⟨[], rfl, rfl, by simp⟩
  | cons input inputs ih =>
    obtain ⟨r, hr, hterminal⟩ := h input List.mem_cons_self
    obtain ⟨tasks, htasks, hall⟩ := ih fun other hother => h other (List.mem_cons_of_mem _ hother)
    have hfirst : buildTask c b input = .ok (batchTask b input r) := by
      unfold buildTask
      rw [hr]
      exact if_pos hterminal
    have hkey : r.key = input.taskId := Table.key_of_find? hr
    refine ⟨batchTask b input r :: tasks, ?_, ?_, fun task htask => ?_⟩
    · rw [List.mapM_cons, hfirst, htasks]
      rfl
    · rw [List.map_cons, List.map_cons, hall.paths]
      exact congrArg (· :: _) (Prod.ext rfl hkey)
    · rcases List.mem_cons.mp htask with rfl | htask
      · exact ⟨input, List.mem_cons_self, r, hr, rfl⟩
      · obtain ⟨other, hother, hrow⟩ := hall.tasks task htask
        exact ⟨other, List.mem_cons_of_mem _ hother, hrow⟩

/-- **The report of a batch that has ended**: its inputs by task id, with what their rows hold. -/
theorem buildBatchResult_of_terminal (h : ∀ input ∈ inputs, ∃ r, c.row input.taskId = some r ∧
    r.status.terminal = true) :
    ∃ tasks, buildBatchResult c b inputs databasePath workers =
      .ok ⟨databasePath, workers, tasks⟩ ∧ TasksOf c b (orderedInputs inputs) tasks := by
  obtain ⟨tasks, htasks, hall⟩ := @mapM_buildTask c b (orderedInputs inputs) fun input hinput =>
    h input ((List.mem_insertionSort _).mp hinput)
  refine ⟨tasks, ?_, hall⟩
  unfold buildBatchResult
  rw [htasks]
  rfl

end report

/-! ## The end -/

section batch

variable {services : HandlerServices} {s₀ s₁ s₂ : System} {ls₁ ls₂ : List Label}
  {inputs : List BatchWorkOrderInput} {ν : Type} {around : LoadSurroundings ν} {directory : String}

/-- A task of a report is what the row of its input was at the poll, and still is. -/
structure Reported (s₁ s₂ : System) (b : Backend) (task : BatchTask) (r : TaskRow) : Prop where
  seen : s₁.world.core.row task.taskId = some r
  stays : s₂.world.core.row task.taskId = some r
  terminal : r.status.terminal = true
  status : task.status = r.status
  attempts : task.attempts = r.attempts
  runCount : task.runCount = b.agentRuns.rows.countP fun run => run.taskId = task.taskId
  artifactCount : task.artifactCount =
    b.files.artifacts.countP fun artifact => artifact.taskId = task.taskId
  /-- Nothing was done about the task since the poll. -/
  calls : s₂.calls task.taskId = s₁.calls task.taskId

/-- The row of an input has a status. -/
def InStatus (s : System) (status : TaskStatus) (input : BatchWorkOrderInput) : Prop :=
  ∃ r, s.world.core.row input.taskId = some r ∧ r.status = status

/-- The report of a batch, and its exit code. -/
structure BatchReport (s₁ s₂ : System) (inputs : List BatchWorkOrderInput) (b : Backend)
    (result : RunBatchV1Result) : Prop where
  paths : (result.tasks.map fun task => (task.inputPath, task.taskId)).Perm
    (inputs.map fun input => (input.filePath, input.taskId))
  order : result.tasks.Pairwise fun a b => compareText a.taskId b.taskId ∧ a.taskId ≠ b.taskId
  tasks : ∀ task ∈ result.tasks, ∃ r, Reported s₁ s₂ b task r
  accepted : batchExitCode result = 0 ↔ ∀ input ∈ inputs, InStatus s₁ .accepted input
  failed : batchExitCode result = 1 ↔ ∃ input ∈ inputs, InStatus s₁ .failed input
  waiting : batchExitCode result = 3 ↔ (∀ input ∈ inputs, ¬ InStatus s₁ .failed input) ∧
    ∃ input ∈ inputs, InStatus s₁ .awaitingHuman input

/-- Whose worktrees are removed: those of the runs of inputs that were accepted or have failed, of
their project. -/
def Cleanable (s₁ : System) (inputs : List BatchWorkOrderInput) (b : Backend)
    (run : RunCleanupRecord) : Prop :=
  ∃ r ∈ b.agentRuns.rows, run = cleanupRecord r ∧ ∃ input ∈ inputs, input.taskId = r.taskId ∧
    ∃ q, s₁.world.core.row input.taskId = some q ∧ q.projectId = r.projectId ∧
      (q.status = .accepted ∨ q.status = .failed)

/-- The row of an input is terminal at the poll, and stays; nothing is done about its task. -/
def RowStays (s₁ s₂ : System) (input : BatchWorkOrderInput) : Prop :=
  ∃ r, s₁.world.core.row input.taskId = some r ∧ s₂.world.core.row input.taskId = some r ∧
    r.status.terminal = true ∧ s₂.calls input.taskId = s₁.calls input.taskId

/-- Every row of an input, at the poll and later. -/
theorem rows_stay (h₀ : s₀.Initial)
    (h₁ : Run (Guarded EndsOrderly (System.Step services)) s₀ ls₁ s₁)
    (h₂ : Run (Guarded EndsOrderly (System.Step services)) s₁ ls₂ s₂)
    (hids : (inputs.map BatchWorkOrderInput.taskId).Nodup)
    (hwait : AllTerminal inputs s₁.world.core) : ∀ input ∈ inputs, RowStays s₁ s₂ input := by
  intro input hinput
  obtain ⟨r, hr, hterminal⟩ := (allTerminal_iff hids).mp hwait input hinput
  have hunattended := (System.fenced_of_orderly h₀ h₁).unattended hr hterminal
  have hstays := System.unattended_of_steps h₀ h₁.of_guarded hunattended h₂.of_guarded
  exact ⟨r, hr, hstays.row, hterminal, hstays.calls⟩

/-- The exit code says what the statuses are. -/
theorem batchExitCode_spec {result : RunBatchV1Result}
    (h : ∀ task ∈ result.tasks, task.status.terminal = true) :
    (batchExitCode result = 0 ↔ ∀ task ∈ result.tasks, task.status = .accepted) ∧
    (batchExitCode result = 1 ↔ ∃ task ∈ result.tasks, task.status = .failed) ∧
    (batchExitCode result = 3 ↔ (∀ task ∈ result.tasks, task.status ≠ .failed) ∧
      ∃ task ∈ result.tasks, task.status = .awaitingHuman) := by
  have hfailed : (result.tasks.any fun task => task.status = .failed) = true ↔
      ∃ task ∈ result.tasks, task.status = .failed := by simp
  have hwaiting : (result.tasks.any fun task => task.status = .awaitingHuman) = true ↔
      ∃ task ∈ result.tasks, task.status = .awaitingHuman := by simp
  unfold batchExitCode
  split
  next hone =>
    obtain ⟨task, htask, hst⟩ := hfailed.mp hone
    refine ⟨⟨fun hcode => absurd hcode (by decide), fun hall => ?_⟩,
      ⟨fun _ => ⟨task, htask, hst⟩, fun _ => rfl⟩,
      ⟨fun hcode => absurd hcode (by decide), fun hnone => absurd hst (hnone.1 task htask)⟩⟩
    rw [hall task htask] at hst
    cases hst
  next hany =>
    have hnone : ¬ ∃ task ∈ result.tasks, task.status = .failed := fun hfail =>
      hany (hfailed.mpr hfail)
    have hnot : ∀ task ∈ result.tasks, task.status ≠ .failed := fun task htask hst =>
      hnone ⟨task, htask, hst⟩
    split
    next hone =>
      obtain ⟨task, htask, hst⟩ := hwaiting.mp hone
      refine ⟨⟨fun hcode => absurd hcode (by decide), fun hall => ?_⟩,
        ⟨fun hcode => absurd hcode (by decide), fun hfail => absurd hfail hnone⟩,
        ⟨fun _ => ⟨hnot, task, htask, hst⟩, fun _ => rfl⟩⟩
      rw [hall task htask] at hst
      cases hst
    next hany =>
      have hno : ¬ ∃ task ∈ result.tasks, task.status = .awaitingHuman := fun hwait =>
        hany (hwaiting.mpr hwait)
      refine ⟨⟨fun _ task htask => ?_, fun _ => rfl⟩,
        ⟨fun hcode => absurd hcode (by decide), fun hfail => absurd hfail hnone⟩,
        ⟨fun hcode => absurd hcode (by decide), fun hwait => absurd hwait.2 hno⟩⟩
      have hterminal := h task htask
      cases hst : task.status with
      | accepted => rfl
      | failed => exact absurd hst (hnot task htask)
      | awaitingHuman => exact absurd ⟨task, htask, hst⟩ hno
      | _ =>
        rw [hst] at hterminal
        cases hterminal

/-! ### A report against its inputs -/

section tasks

variable {b : Backend} {tasks : List BatchTask} {task : BatchTask} {st : TaskStatus}

/-- A task is that of an input, and what the row of this was at the poll. -/
theorem TasksOf.reported (h : TasksOf s₂.world.core b inputs tasks)
    (hrows : ∀ input ∈ inputs, RowStays s₁ s₂ input) (htask : task ∈ tasks) :
    ∃ input ∈ inputs, task.taskId = input.taskId ∧ ∃ r, Reported s₁ s₂ b task r := by
  obtain ⟨input, hinput, r, hr, rfl⟩ := h.tasks task htask
  obtain ⟨r', hseen, hstays, hterminal, hcalls⟩ := hrows input hinput
  cases hr.symm.trans hstays
  have hfound : r.key = input.taskId := Table.key_of_find? hr
  have hkey : (batchTask b input r).taskId = input.taskId := hfound
  refine ⟨input, hinput, hkey, r, ?_, ?_, hterminal, rfl, rfl, rfl, rfl, ?_⟩
  · rw [hkey]
    exact hseen
  · rw [hkey]
    exact hstays
  · rw [hkey]
    exact hcalls

/-- The ids of a report are those of its inputs. -/
theorem TasksOf.taskIds {c : Core} (h : TasksOf c b inputs tasks) :
    tasks.map (·.taskId) = inputs.map BatchWorkOrderInput.taskId := by
  have hsnd := congrArg (List.map Prod.snd) h.paths
  rwa [List.map_map, List.map_map] at hsnd

/-- An input has its task. -/
theorem TasksOf.exists_task {c : Core} {input : BatchWorkOrderInput}
    (h : TasksOf c b inputs tasks) (hinput : input ∈ inputs) :
    ∃ task ∈ tasks, task.taskId = input.taskId := by
  have hmem : input.taskId ∈ tasks.map (·.taskId) := by
    rw [h.taskIds]
    exact List.mem_map_of_mem hinput
  exact List.mem_map.mp hmem

/-- A task and its input have the status of one row. -/
theorem Reported.status_iff {r : TaskRow} {input : BatchWorkOrderInput}
    (h : Reported s₁ s₂ b task r) (hid : task.taskId = input.taskId) :
    task.status = st ↔ InStatus s₁ st input := by
  have hseen := hid ▸ h.seen
  constructor
  · intro hst
    exact ⟨r, hseen, h.status.symm.trans hst⟩
  · rintro ⟨r', hr', hst⟩
    cases hseen.symm.trans hr'
    exact h.status.trans hst

/-- A status is in the report when it was in a row. -/
theorem TasksOf.exists_status_iff (h : TasksOf s₂.world.core b inputs tasks)
    (hrows : ∀ input ∈ inputs, RowStays s₁ s₂ input) :
    (∃ task ∈ tasks, task.status = st) ↔ ∃ input ∈ inputs, InStatus s₁ st input := by
  constructor
  · rintro ⟨task, htask, hst⟩
    obtain ⟨input, hinput, hid, r, hr⟩ := h.reported hrows htask
    exact ⟨input, hinput, (hr.status_iff hid).mp hst⟩
  · rintro ⟨input, hinput, hst⟩
    obtain ⟨task, htask, hid⟩ := h.exists_task hinput
    obtain ⟨-, -, -, r, hr⟩ := h.reported hrows htask
    exact ⟨task, htask, (hr.status_iff hid).mpr hst⟩

/-- A status is all there is in the report when it was that of every row. -/
theorem TasksOf.forall_status_iff (h : TasksOf s₂.world.core b inputs tasks)
    (hrows : ∀ input ∈ inputs, RowStays s₁ s₂ input) :
    (∀ task ∈ tasks, task.status = st) ↔ ∀ input ∈ inputs, InStatus s₁ st input := by
  constructor
  · intro hall input hinput
    obtain ⟨task, htask, hid⟩ := h.exists_task hinput
    obtain ⟨-, -, -, r, hr⟩ := h.reported hrows htask
    exact (hr.status_iff hid).mp (hall task htask)
  · intro hall task htask
    obtain ⟨input, hinput, hid, r, hr⟩ := h.reported hrows htask
    exact (hr.status_iff hid).mpr (hall input hinput)

/-- **The report is right**: what the rows were at the poll. -/
theorem batchReport_of_rows {databasePath : String} {workers : ℕ}
    (hids : (inputs.map BatchWorkOrderInput.taskId).Nodup)
    (hrows : ∀ input ∈ inputs, RowStays s₁ s₂ input) :
    ∃ result, buildBatchResult s₂.world.core b inputs databasePath workers = .ok result ∧
      BatchReport s₁ s₂ inputs b result := by
  obtain ⟨tasks, hresult, htasks⟩ := @buildBatchResult_of_terminal s₂.world.core b inputs
    databasePath workers fun input hinput => by
      obtain ⟨r, -, hr, hterminal, -⟩ := hrows input hinput
      exact ⟨r, hr, hterminal⟩
  have hperm : (orderedInputs inputs).Perm inputs := List.perm_insertionSort _ _
  have hstays : ∀ input ∈ orderedInputs inputs, RowStays s₁ s₂ input := fun input hinput =>
    hrows input (hperm.mem_iff.mp hinput)
  have hsome : ∀ st, (∃ task ∈ tasks, task.status = st) ↔
      ∃ input ∈ inputs, InStatus s₁ st input := by
    intro st
    rw [htasks.exists_status_iff hstays]
    exact exists_congr fun input => and_congr_left' hperm.mem_iff
  have hevery : (∀ task ∈ tasks, task.status = .accepted) ↔
      ∀ input ∈ inputs, InStatus s₁ .accepted input := by
    rw [htasks.forall_status_iff hstays]
    exact forall_congr' fun input => imp_congr_left hperm.mem_iff
  obtain ⟨hzero, hone, hthree⟩ := @batchExitCode_spec ⟨databasePath, workers, tasks⟩
    fun task htask => by
      obtain ⟨-, -, -, r, hr⟩ := htasks.reported hstays htask
      rw [hr.status]
      exact hr.terminal
  refine ⟨_, hresult, ?_, ?_, fun task htask => ?_, hzero.trans hevery, hone.trans (hsome _), ?_⟩
  · show (tasks.map fun task => (task.inputPath, task.taskId)).Perm _
    rw [htasks.paths]
    exact hperm.map _
  · have hsorted : (tasks.map (·.taskId)).Pairwise compareText := by
      rw [htasks.taskIds, List.pairwise_map]
      exact pairwise_orderedInputs
    have hnodup : (tasks.map (·.taskId)).Nodup := by
      rw [htasks.taskIds]
      exact (hperm.map _).nodup_iff.mpr hids
    exact List.pairwise_map.mp (hsorted.and hnodup)
  · obtain ⟨-, -, -, hr⟩ := htasks.reported hstays htask
    exact hr
  · rw [hthree]
    refine and_congr ?_ (hsome _)
    have hnone := not_congr (hsome .failed)
    simpa only [not_exists, not_and] using hnone

end tasks

/-! ### The end of a run of the command -/

/-- The text of the sample's work order. -/
def orderText : String :=
  "\x7b\"schema_version\":\"workflow/v1\",\"task_id\":\"T-1\",\"project_id\":\"default\"," ++
  "\"title\":\"Report\",\"type\":\"research_report\",\"goal\":\"Write the report\"," ++
  "\"acceptance_criteria\":[],\"repo\":\x7b\"path\":\"/repo\"\x7d," ++
  "\"agent\":\x7b\"required_capabilities\":[\"code\"],\"implementer_pool\":[]," ++
  "\"reviewer_pool\":[],\"exclude_agent_ids\":[]\x7d," ++
  "\"review\":\x7b\"enabled\":true,\"max_review_runs\":1\x7d," ++
  "\"budget\":\x7b\"max_wall_time_minutes\":30,\"max_total_cost_units\":10,\"max_runs\":4\x7d\x7d"

/-- A directory with one work order. -/
def oneOrder : LoadSurroundings ℤ where
  resolve path := path
  join dir name := dir ++ "/" ++ name
  stat _ := some true
  readdir _ := .ok [("T-1.json", true), ("README.md", true)]
  readFile _ := .ok orderText
  parseJson text := if text = orderText then some Sample.workOrder.toJson else none
  numbers := YamlSimple.Sample.integers
  toRat := Int.cast

/-- Its input. -/
def oneInput : BatchWorkOrderInput := ⟨"/orders/T-1.json", "T-1.json", Sample.workOrder⟩

/-- The directory is accepted. -/
theorem oneOrder_loads : loadBatchWorkOrders oneOrder "/orders" = .ok [oneInput] := by
  have hnames : workOrderFiles [("T-1.json", true), ("README.md", true)] = ["T-1.json"] := by
    decide +kernel
  have hparse : parseWorkOrder Sample.workOrder.toJson = .ok (.inr Sample.workOrder) :=
    (parseVersioned_eq_inr_iff WorkOrderV1Schema.tagged).mpr (parse_toJson _)
  have hextension : ([".yaml", ".yml"].contains (extname "/orders/T-1.json").toLower) = false := by
    decide +kernel
  have hfile : loadWorkOrder oneOrder "/orders/T-1.json" = .ok (.inr Sample.workOrder) := by
    have htext : oneOrder.parseJson orderText = some Sample.workOrder.toJson := by
      simp only [oneOrder, if_true]
    have hread : oneOrder.readFile "/orders/T-1.json" = .ok orderText := rfl
    unfold loadWorkOrder
    rw [hextension, hread]
    dsimp only [Bind.bind, Except.bind]
    rw [if_neg (by simp), htext]
    simp only [hparse]
  rw [loadBatchWorkOrders_eq rfl rfl (by rw [hnames]; simp), hnames]
  unfold loadFiles
  dsimp only
  rw [show oneOrder.join (oneOrder.resolve "/orders") "T-1.json" = "/orders/T-1.json" by decide]
  rw [hfile]
  rfl

end batch

end RunBatchV1

end AgentWorkflow
