import AgentWorkflow.Lib.Fallible
import AgentWorkflow.Lib.Patch
import AgentWorkflow.Lib.Posix
import AgentWorkflow.Lib.Table
import AgentWorkflow.Core.SchemasV1

/-!
# The database, the clock and the failures of storage

The state the modelled code reads and writes, in two layers, and what it asks of its surroundings.

* `Core` — the queue and the budget of the tasks, and the work orders a queue instance has cached.
  Its `trace` lists the service calls of the handlers in order; no code reads it, the properties of
  runs are stated over it.
* `Backend` — everything else: events, run rows, agent metrics, files, and a worker's registry and
  set of emitted budget events. **A program over `Backend` cannot touch `Core`**: it runs there
  through `onBackend`.
* `Env` — the clock, the random ids and the storage faults of one step. A step numbers its readings
  and storage calls, so that any two of them may differ: the clock may tick, **any storage call may
  throw**.
-/

namespace AgentWorkflow

open Fallible

/-! ## Surroundings -/

/-- What the code throws: the abort error, or any other error with its message. -/
inductive Err
  | aborted
  | error (message : String)
  deriving DecidableEq, Repr

/-- Source: `abort-error.ts` `isOperationAbortedError`. -/
def Err.isOperationAborted : Err → Bool
  | .aborted => true
  | .error _ => false

/-- The statements the code sends to the database. -/
inductive StorageCall
  | insertTask
  | claimSelect
  | claimUpdate
  | releaseTask
  | getTask
  | getWorkOrderJson
  | updateWorkOrderJson
  | getReviewContextJson
  | updateReviewContextJson
  | getHandoffPacketUri
  | updateHandoffPacketUri
  | listTasks
  | insertBudget
  | getBudget
  | updateBudget
  | appendEvent (eventType : EventType)
  | insertRun
  | getRun
  | updateRun
  | insertMetric
  | rollingMetrics
  | insertArtifact
  deriving DecidableEq, Repr

/-- The surroundings of one step, by the number of the reading. -/
structure Env where
  /-- The clock, in milliseconds. -/
  clock : ℕ → ℕ
  /-- The first eight characters of a random UUID. -/
  uuid : ℕ → String
  /-- Whether a storage call throws. -/
  throws : ℕ → StorageCall → Bool

/-- Some call of the statement would throw. -/
def Env.MayThrow (env : Env) (c : StorageCall) : Prop := ∃ n, env.throws n c = true

/-- No storage call throws. -/
def Env.Faultless (env : Env) : Prop := ∀ c, ¬ env.MayThrow c

/-! ## Rows -/

/-- A row of `task_queue`. The JSON columns hold the values they are the text of. -/
structure TaskRow extends TaskQueueEntry where
  workorderJson : Json
  reviewContextJson : Option ReviewContextRecord
  handoffPacketUri : Option String

/-- The primary key of `task_queue`. -/
def TaskRow.key (r : TaskRow) : String := r.taskId

/-- A row of `agent_runs`. Source: `run-store.ts` `RunRecord`. -/
structure RunRecord where
  id : String
  projectId : String
  taskId : String
  agentId : String
  status : RunStatus
  workspacePath : Option String
  baseCommit : Option String
  branchName : Option String
  runManifestRef : Option String
  startedAt : Option ℕ
  endedAt : Option ℕ
  role : Option Role
  parentRunId : Option String
  handoffPacketUri : Option String
  deriving DecidableEq, Repr

/-- A row of `agent_metrics`. -/
structure MetricRow where
  agentId : String
  runId : String
  success : Bool
  wallTimeMs : ℚ
  actualCostUnits : Option ℚ
  createdAt : ℕ
  deriving DecidableEq, Repr

/-- An agent as a registry holds it. Source: `agent-registry.ts` `InternalEntry`. -/
structure InternalEntry where
  profile : AgentProfileV1
  loadedFrom : String
  rollingMetrics : RollingMetrics
  quotaHealth : QuotaHealth
  deriving DecidableEq, Repr

/-- The key of a registry's map. -/
def InternalEntry.agentId (e : InternalEntry) : String := e.profile.agentId

/-! ## The state -/

/-- A row of `artifacts`. -/
structure ArtifactRow where
  id : String
  projectId : String
  taskId : String
  runId : String
  kind : ArtifactKind
  uri : String
  path : String
  checksum : String
  summary : Option String
  createdAt : ℕ
  deriving DecidableEq, Repr

/-- Texts by path: a commit, an index or a working tree. -/
abbrev FileTree := Patching.Tree String String

/-- A git worktree. -/
structure Worktree where
  index : FileTree
  worktree : FileTree
  deriving DecidableEq, Repr

/-- What the external services work on, and the table of what they stored. -/
structure Files where
  /-- Readings and storage calls of the services so far. -/
  calls : ℕ
  disk : Posix.Disk
  /-- `artifacts`, oldest first. -/
  artifacts : List ArtifactRow
  /-- The git worktrees, by the path of their workspace. -/
  worktrees : List (String × Worktree)

/-- Nothing yet. -/
def Files.empty : Files := ⟨0, ⟨[], []⟩, [], []⟩

/-- The state outside the queue and the budget. -/
structure Backend where
  /-- Readings and storage calls so far. -/
  calls : ℕ
  /-- `task_events`, oldest first. -/
  events : List EventEnvelope
  agentRuns : Table RunRecord.id
  /-- `agent_metrics`, oldest first. -/
  agentMetrics : List MetricRow
  files : Files
  /-- The quota health shared by the workers' registries. -/
  sharedQuotaHealth : List (String × QuotaHealth)
  /-- The worker's registry, in load order. -/
  registry : Table InternalEntry.agentId
  /-- The keys `task::low` and `task::exhausted` the worker's budget manager has emitted. -/
  emitted : List String

/-- A service call of a handler or an enqueuer, as the properties of runs speak of it. -/
inductive Call
  /-- The task of a work order was enqueued, for a first role. -/
  | enqueued (workOrder : ParsedWorkOrderV1) (nextRole : Role)
  /-- `scheduler.decide`, with its exclude list and its result. -/
  | decided (taskId : String) (role : Role) (excludeAgentIds : List String)
      (pickedAgentId : Option String)
  /-- `runTaskOnce` is called, from a handle whose budget gate read `gate`. -/
  | launched (taskId : String) (role : Role) (agentId : String) (gate : BudgetState)
      (reviewContext : Option ReviewContextRecord)
  /-- `runTaskOnce` has settled. -/
  | settled (taskId : String) (role : Role) (agentId : String)
      (reviewContext : Option ReviewContextRecord) (outcome : Except Err RunOutcome)
  /-- `handoffManager.build`, with its result. -/
  | packetBuilt (taskId : String) (packet : HandoffPacket)
  /-- `queue.addWorkOrderExcludeAgentIds` has written the row. -/
  | excluded (taskId : String) (agentIds : List String)
  /-- `handle` has returned. -/
  | returned (taskId : String)
  /-- `handle` has thrown. -/
  | threw (taskId : String)

/-- The task a call is about. -/
def Call.taskId : Call → String
  | .enqueued workOrder _ => workOrder.taskId
  | .decided taskId .. => taskId
  | .launched taskId .. => taskId
  | .settled taskId .. => taskId
  | .packetBuilt taskId _ => taskId
  | .excluded taskId _ => taskId
  | .returned taskId => taskId
  | .threw taskId => taskId

/-- The queue, the budget, a queue instance's cache and the record of calls. -/
structure Core where
  taskQueue : Table TaskRow.key
  taskBudget : Table BudgetState.taskId
  /-- The queue instance's `workOrders` map. -/
  workOrders : List (String × ParsedWorkOrderV1)
  /-- The handlers' service calls with the worker that made them, oldest first. -/
  trace : List (String × Call)

/-- The queue row of a task. -/
def Core.row (c : Core) (taskId : String) : Option TaskRow := c.taskQueue.find? taskId

/-- The budget row of a task. -/
def Core.budget (c : Core) (taskId : String) : Option BudgetState := c.taskBudget.find? taskId

/-- The cached work order of a task. -/
def Core.cached (c : Core) (taskId : String) : Option ParsedWorkOrderV1 :=
  c.workOrders.lookup taskId

/-- `update task_queue set … where task_id = taskId`; the key is not among the columns set. -/
def Core.updateRow (c : Core) (taskId : String) (f : TaskRow → TaskRow)
    (hf : ∀ r, (f r).key = r.key) : Core :=
  { c with taskQueue := c.taskQueue.update taskId f hf }

/-- `update task_budget set … where task_id = taskId`. -/
def Core.updateBudget (c : Core) (taskId : String) (f : BudgetState → BudgetState)
    (hf : ∀ b, (f b).taskId = b.taskId) : Core :=
  { c with taskBudget := c.taskBudget.update taskId f hf }

/-- `this.workOrders.set(taskId, workOrder)`. -/
def Core.cache (c : Core) (taskId : String) (w : ParsedWorkOrderV1) : Core :=
  { c with workOrders := (taskId, w) :: c.workOrders }

/-- Note a worker's service call. -/
def Core.note (c : Core) (worker : String) (call : Call) : Core :=
  { c with trace := c.trace ++ [(worker, call)] }

/-- The whole state. -/
structure World where
  core : Core
  backend : Backend

/-- Programs of the external services. -/
abbrev ServiceM := Prog Env Err Files

/-- Programs that leave the queue and the budget alone. -/
abbrev BackendM := Prog Env Err Backend

/-- Programs on the whole state. -/
abbrev WorldM := Prog Env Err World

/-- A program of the backend, run in the world. -/
def onBackend {α : Type} (m : BackendM α) : WorldM α :=
  zoom World.backend (fun b w => { w with backend := b }) m

/-- A program of an external service, run in the backend. -/
def onFiles {α : Type} (m : ServiceM α) : BackendM α :=
  zoom Backend.files (fun f b => { b with files := f }) m

/-! ## Readings -/

/-- The number of the next reading. -/
def nextCall : BackendM ℕ := do
  let b ← get
  set { b with calls := b.calls + 1 }
  pure b.calls

/-- `new Date()`. -/
def dateNow : BackendM ℕ := do
  let n ← nextCall
  let env ← read
  pure (env.clock n)

/-- `randomUUID().slice(0, 8)`. -/
def uuid8 : BackendM String := do
  let n ← nextCall
  let env ← read
  pure (env.uuid n)

/-- Send a statement to the database: it may throw, and then changes nothing. -/
def storageCall (c : StorageCall) : BackendM Unit := do
  let n ← nextCall
  let env ← read
  if env.throws n c = true then throw (Err.error "SqliteError") else pure ()

/-- Run a computation that may throw and has no effects. -/
def ofExcept {α : Type} : Except Err α → BackendM α
  | .ok a => pure a
  | .error e => throw e

/-- The core of the state. -/
def getCore : WorldM Core := do
  let w ← get
  pure w.core

/-- Change the core of the state. -/
def modifyCore (f : Core → Core) : WorldM Unit :=
  modify fun w => { w with core := f w.core }

/-- Note a service call in the trace. -/
def record (worker : String) (call : Call) : WorldM Unit :=
  modifyCore fun c => c.note worker call

/-- Source: `abort-error.ts` `throwIfAborted`. -/
def throwIfAborted (aborted : Bool) : BackendM Unit :=
  if aborted = true then throw Err.aborted else pure ()

/-! ## Specifications of the readings -/

section readings

variable {env : Env} {b : Backend} {E : Err → Backend → Prop}

@[simp] theorem ensures_dateNow {Q : ℕ → Backend → Prop} :
    Ensures dateNow env b Q E ↔ Q (env.clock b.calls) { b with calls := b.calls + 1 } := Iff.rfl

@[simp] theorem ensures_uuid8 {Q : String → Backend → Prop} :
    Ensures uuid8 env b Q E ↔ Q (env.uuid b.calls) { b with calls := b.calls + 1 } := Iff.rfl

/-- A storage call throws, or it only counts. -/
theorem ensures_storageCall_iff {k : StorageCall} {Q : Unit → Backend → Prop} :
    Ensures (storageCall k) env b Q E ↔
      (env.throws b.calls k = true →
        E (.error "SqliteError") { b with calls := b.calls + 1 }) ∧
      (env.throws b.calls k = false → Q () { b with calls := b.calls + 1 }) := by
  simp only [storageCall, nextCall, ensures_bind, ensures_get, ensures_set, ensures_pure,
    ensures_read, ensures_ite, ensures_throw, Bool.not_eq_true]

/-- A program of the backend, run in the world. -/
theorem ensures_onBackend {α : Type} {m : BackendM α} {w : World} {Q : α → World → Prop}
    {E : Err → World → Prop} :
    Ensures (onBackend m) env w Q E ↔
      Ensures m env w.backend (fun a b => Q a ⟨w.core, b⟩) (fun e b => E e ⟨w.core, b⟩) :=
  ensures_zoom

theorem ensures_modifyCore {f : Core → Core} {w : World} {Q : Unit → World → Prop}
    {E : Err → World → Prop} :
    Ensures (modifyCore f) env w Q E ↔ Q () ⟨f w.core, w.backend⟩ := Iff.rfl

theorem ensures_ofExcept {α : Type} {x : Except Err α} {Q : α → Backend → Prop} :
    Ensures (ofExcept x) env b Q E ↔ (∀ a, x = .ok a → Q a b) ∧ ∀ e, x = .error e → E e b := by
  cases x <;> simp [ofExcept]

end readings

/-! ## Reading a changed core -/

section reading

variable (c : Core) (t k : String) (f : TaskRow → TaskRow) (hf : ∀ r, (f r).key = r.key)
  (g : BudgetState → BudgetState) (hg : ∀ b, (g b).taskId = b.taskId) (w : ParsedWorkOrderV1)
  (worker : String) (call : Call)

theorem row_updateRow :
    (c.updateRow t f hf).row k = if k = t then (c.row k).map f else c.row k :=
  Table.find?_update c.taskQueue t f hf k

@[simp] theorem row_updateRow_self : (c.updateRow t f hf).row t = (c.row t).map f := by
  rw [row_updateRow, if_pos rfl]

@[simp] theorem budget_updateRow : (c.updateRow t f hf).budget k = c.budget k := rfl

@[simp] theorem cached_updateRow : (c.updateRow t f hf).cached k = c.cached k := rfl

@[simp] theorem trace_updateRow : (c.updateRow t f hf).trace = c.trace := rfl

@[simp] theorem row_updateBudget : (c.updateBudget t g hg).row k = c.row k := rfl

theorem budget_updateBudget :
    (c.updateBudget t g hg).budget k = if k = t then (c.budget k).map g else c.budget k :=
  Table.find?_update c.taskBudget t g hg k

@[simp] theorem budget_updateBudget_self :
    (c.updateBudget t g hg).budget t = (c.budget t).map g := by
  rw [budget_updateBudget, if_pos rfl]

@[simp] theorem cached_updateBudget : (c.updateBudget t g hg).cached k = c.cached k := rfl

@[simp] theorem trace_updateBudget : (c.updateBudget t g hg).trace = c.trace := rfl

@[simp] theorem row_cache : (c.cache t w).row k = c.row k := rfl

@[simp] theorem budget_cache : (c.cache t w).budget k = c.budget k := rfl

theorem cached_cache : (c.cache t w).cached k = if k = t then some w else c.cached k :=
  by
  unfold Core.cached Core.cache
  by_cases h : k = t
  · simp [h]
  · simp [List.lookup_cons, h, beq_false_of_ne h]

@[simp] theorem cached_cache_self : (c.cache t w).cached t = some w := by
  rw [cached_cache, if_pos rfl]

@[simp] theorem trace_cache : (c.cache t w).trace = c.trace := rfl

@[simp] theorem row_note : (c.note worker call).row k = c.row k := rfl

@[simp] theorem budget_note : (c.note worker call).budget k = c.budget k := rfl

@[simp] theorem cached_note : (c.note worker call).cached k = c.cached k := rfl

@[simp] theorem trace_note : (c.note worker call).trace = c.trace ++ [(worker, call)] := rfl

end reading

/-! ## Specifications on the core

`OnCore` is the specification of a program by what it does to the core, for every backend. The
rules for the primitives follow; the rules for sequencing, branching and catching are those of
`EnsuresVia`. -/

/-- From the core `c`, with any backend, the results of `m` meet the postconditions. -/
abbrev OnCore {α : Type} (m : WorldM α) (env : Env) (c : Core) (Q : α → Core → Prop)
    (E : Err → Core → Prop) : Prop :=
  EnsuresVia World.core m env c Q E

section specs

variable {env : Env} {c : Core} {α : Type} {E : Err → Core → Prop}

/-- A backend program leaves the core; its results are what its own specification says. -/
theorem onCore_onBackend_of {m : BackendM α} {P : α → Prop} {F : Err → Prop}
    {Q : α → Core → Prop} (hm : ∀ b, Ensures m env b (fun a _ => P a) (fun e _ => F e))
    (hQ : ∀ a, P a → Q a c) (hE : ∀ e, F e → E e c) : OnCore (onBackend m) env c Q E := by
  rintro w rfl
  exact ensures_zoom.mpr ((hm w.backend).mono (fun a _ h => hQ a h) (fun e _ h => hE e h))

/-- A backend program leaves the core, whatever it does. -/
theorem onCore_onBackend {m : BackendM α} {Q : α → Core → Prop} (hQ : ∀ a, Q a c)
    (hE : ∀ e, E e c) : OnCore (onBackend m) env c Q E := by
  rintro w rfl
  exact ensures_zoom_of_forall (fun a _ => hQ a) (fun e _ => hE e)

/-- A storage call throws only where the surroundings say so. -/
theorem ensures_storageCall (k : StorageCall) (b : Backend) :
    Ensures (storageCall k) env b (fun _ _ => True) (fun _ _ => env.MayThrow k) := by
  exact ensures_storageCall_iff.mpr ⟨fun h => ⟨_, h⟩, fun _ => trivial⟩

theorem onCore_storageCall {k : StorageCall} {Q : Unit → Core → Prop} (hQ : Q () c)
    (hE : env.MayThrow k → ∀ e, E e c) : OnCore (onBackend (storageCall k)) env c Q E :=
  onCore_onBackend_of (ensures_storageCall k) (fun _ _ => hQ) (fun e h => hE h e)

theorem onCore_getCore {Q : Core → Core → Prop} (hQ : Q c c) : OnCore getCore env c Q E := by
  rintro w rfl
  exact hQ

theorem onCore_modifyCore {f : Core → Core} {Q : Unit → Core → Prop} (hQ : Q () (f c)) :
    OnCore (modifyCore f) env c Q E := by
  rintro w rfl
  exact hQ

theorem onCore_record {worker : String} {call : Call} {Q : Unit → Core → Prop}
    (hQ : Q () (c.note worker call)) : OnCore (record worker call) env c Q E :=
  onCore_modifyCore hQ

theorem onCore_dateNow {Q : ℕ → Core → Prop} (hQ : ∀ n, Q n c) :
    OnCore (onBackend dateNow) env c Q E :=
  onCore_onBackend_of (P := fun _ => True) (F := fun _ => False)
    (fun b => by simp) (fun n _ => hQ n) (fun _ h => h.elim)

theorem onCore_throw {α : Type} {e : Err} {Q : α → Core → Prop} (hE : E e c) :
    OnCore (onBackend (throw e)) env c Q E :=
  onCore_onBackend_of (P := fun _ => False) (F := fun e' => e' = e)
    (fun b => by simp) (fun _ h => h.elim) (fun _ h => h ▸ hE)

theorem onCore_ofExcept {α : Type} {x : Except Err α} {Q : α → Core → Prop}
    (hQ : ∀ a, x = .ok a → Q a c) (hE : ∀ e, E e c) :
    OnCore (onBackend (ofExcept x)) env c Q E := by
  refine onCore_onBackend_of (P := fun a => x = .ok a) (F := fun _ => True)
    (fun b => ?_) hQ (fun e _ => hE e)
  cases x <;> simp [ofExcept]

end specs

end AgentWorkflow
