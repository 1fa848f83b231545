import AgentWorkflow.Queue.Worker

/-!
# A pool of workers

`DefaultWorker` of `queue/worker.ts` and `DefaultWorkerPool` of `queue/worker-pool.ts`: the flags of
a worker, where its `loop` awaits, and every call of the pool's `stop` with the place it has
reached.

* `DefaultWorker` — the fields of a worker; `start`, `stop` and the abort of its handler.
* `StopCall` — a call of `stop`: before its first `await` is over, while the workers stop, resolved.
* `DefaultWorkerPool.step` — one step, to the next `await`: a call of `start` or `stop`, a
  continuation of a `stop` that has been called, a step of a worker's loop. What a worker does to
  the database is a step of `System`; between the steps of one activity **any others may come**.

Timers are not modelled: a backoff or a grace period may end at any time after it began. The names
of the workers come from `randomUUID`.
-/

namespace AgentWorkflow

/-- Where `loop` is. -/
inductive LoopPc
  /-- `start` has not been called. -/
  | unstarted
  /-- At the condition of `while`. -/
  | head
  | backoff
  /-- From the claim of an entry to the end of the catch path's release. -/
  | handling
  | ended
  deriving DecidableEq

/-- A worker. -/
structure DefaultWorker where
  stopRequested : Bool
  started : Bool
  running : Bool
  /-- `currentAbortController`, with whether it has aborted. -/
  controller : Option Bool
  loop : LoopPc
  deriving DecidableEq

namespace DefaultWorker

/-- Source: `worker.ts` the constructor. -/
def new : DefaultWorker := ⟨false, false, false, none, .unstarted⟩

/-- Source: `worker.ts` `start`, with the call of `loop` up to its condition. -/
def start (x : DefaultWorker) : DefaultWorker :=
  if x.started = true then x
  else { x with started := true, running := true, stopRequested := false, loop := .head }

/-- Source: `worker.ts` `stop`, up to its first `await`. -/
def stop (x : DefaultWorker) : DefaultWorker := { x with stopRequested := true }

/-- `this.currentAbortController?.abort()`. -/
def abort (x : DefaultWorker) : DefaultWorker :=
  { x with controller := x.controller.map fun _ => true }

/-- The signal of the current handler. -/
def aborted (x : DefaultWorker) : Bool := x.controller.getD false

/-- The `finally` of `loop`: `stoppedPromise` is resolved. -/
def finish (x : DefaultWorker) : DefaultWorker := { x with running := false, loop := .ended }

/-- An entry is claimed: its handler gets a new signal. -/
def enter (x : DefaultWorker) : DefaultWorker :=
  { x with controller := some false, loop := .handling }

/-- The `finally` after `handle`, and back to the condition. -/
def leave (x : DefaultWorker) : DefaultWorker := { x with controller := none, loop := .head }

/-- `waitForBackoff`. -/
def backOff (x : DefaultWorker) : DefaultWorker := { x with loop := .backoff }

end DefaultWorker

/-- Where a call of the pool's `stop` is. -/
inductive StopPc
  /-- At `await this.pendingStartFailureCleanup`. -/
  | called
  /-- The workers are told to stop; the grace of these is not over. -/
  | stopping (graces : List String)
  | resolved
  deriving DecidableEq

/-- A call of `stop`. -/
structure StopCall where
  graceMs : Option ℚ
  pc : StopPc

/-- A pool, with the database its workers share. -/
structure DefaultWorkerPool where
  system : System
  worker : String → DefaultWorker
  /-- `this.workers`. -/
  workers : List String
  started : Bool
  stopped : Bool
  /-- What `cleanupAfterStartFailure` has still to stop; `pendingStartFailureCleanup` is resolved
  when there is nothing. -/
  cleanup : List String
  /-- The calls of `stop`, oldest first. -/
  stops : List StopCall
  /-- The tasks that were claimed, with their workers, oldest first. -/
  claims : List (String × String)

/-- A step of a pool. -/
inductive PoolLabel
  /-- The main process enqueues a task. -/
  | enqueue (queueId : String) (workOrder : ParsedWorkOrderV1) (nextRole : Role) (env : Env)
  /-- `start` with these new ids; `factory.create` throws at the index `created`, or not if there
  are fewer workers. -/
  | start (ids : List String) (created : ℕ)
  | cleanUp
  | stop (graceMs : Option ℚ)
  /-- A call of `stop` goes on after its first `await`. -/
  | resume (call : ℕ)
  /-- In a call of `stop`, the grace of a worker is over. -/
  | expire (call : ℕ) (w : String)
  /-- The workers of a call of `stop` have stopped. -/
  | resolve (call : ℕ)
  | claim (w : String) (env : Env)
  /-- The handler, up to the run. -/
  | handle (w : String) (env : Env)
  /-- The run, and the rest of the handler. -/
  | settle (w : String) (env : Env) (runTaskOnce : RunTaskArgs → BackendM RunOutcome)
  | release (w : String) (env : Env)
  /-- The backoff is over. -/
  | wake (w : String)
  /-- The loop sees that stop is requested. -/
  | quit (w : String)

namespace PoolLabel

/-- A call of `claim`. -/
def isClaim : PoolLabel → Bool
  | .claim .. => true
  | _ => false

/-- A step of a worker's loop. -/
def isLoop : PoolLabel → Bool
  | .claim .. | .handle .. | .settle .. | .release .. | .wake _ | .quit _ => true
  | _ => false

end PoolLabel

namespace DefaultWorkerPool

/-- A worker changes. -/
def set (s : DefaultWorkerPool) (w : String) (x : DefaultWorker) : DefaultWorkerPool :=
  { s with worker := Function.update s.worker w x }

/-- A call of `stop` is at another place. -/
def setStop (s : DefaultWorkerPool) (k : ℕ) (pc : StopPc) : DefaultWorkerPool :=
  { s with stops := s.stops.modify k fun call => { call with pc } }

/-- Source: `worker-pool.ts` `start`. A throw leaves the pool, or the records of the failed start
with their cleanup. -/
def start (s : DefaultWorkerPool) (ids : List String) (created : ℕ) : DefaultWorkerPool :=
  if s.started = true then s
  else if ids.length < 1 ∨ 16 < ids.length then s
  else if created < ids.length then
    { s with
      started := true
      worker := fun w => if w ∈ ids.take created then .new else s.worker w
      cleanup := (ids.take created).reverse }
  else
    { s with
      started := true
      worker := fun w => if w ∈ ids then DefaultWorker.new.start else s.worker w
      workers := s.workers ++ ids }

/-- Every worker's `stop` is called. -/
def stopWorkers (s : DefaultWorkerPool) : DefaultWorkerPool :=
  { s with
    stopped := true
    worker := fun w => if w ∈ s.workers then (s.worker w).stop else s.worker w }

/-- Source: `worker-pool.ts` `stop`, from its first `await` to the next. Without a grace period no
worker is aborted. -/
def resume (s : DefaultWorkerPool) (k : ℕ) (graceMs : Option ℚ) : DefaultWorkerPool :=
  if s.stopped = true then s.setStop k .resolved
  else
    s.stopWorkers.setStop k
      (.stopping (if graceMs.isSome then s.workers.filter fun w => (s.worker w).running else []))

/-- The loop after its call of `claim`. -/
def afterClaim (s : DefaultWorkerPool) (w : String) (system : System) : DefaultWorkerPool :=
  match system.pc w with
  | .claimed entry =>
    { s with system, claims := s.claims ++ [(w, entry.taskId)] }.set w (s.worker w).enter
  -- `claim` has thrown.
  | .stopped => { s with system }.set w (s.worker w).finish
  | _ => { s with system }.set w (s.worker w).backOff

/-- The loop after a part of its call of `handle`: the handler has returned, or goes on, or its
exception has been caught. -/
def afterHandle (s : DefaultWorkerPool) (w : String) (system : System) : DefaultWorkerPool :=
  match system.pc w with
  | .idle => { s with system }.set w (s.worker w).leave
  | _ => { s with system }

/-- The loop after the catch path's release. -/
def afterRelease (s : DefaultWorkerPool) (w : String) (system : System) : DefaultWorkerPool :=
  if (s.worker w).stopRequested = true then { s with system }.set w (s.worker w).leave
  else { s with system }.set w (s.worker w).backOff

/-- One step of a pool; none where it is not possible. -/
def step (services : HandlerServices) (s : DefaultWorkerPool) :
    PoolLabel → Option DefaultWorkerPool
  | .enqueue queueId workOrder nextRole env =>
    (s.system.step services (.enqueue queueId workOrder nextRole env)).map fun system =>
      { s with system }
  | .start ids created => some (s.start ids created)
  | .cleanUp =>
    match s.cleanup with
    | [] => none
    -- The worker was never started, so its `stop` does not wait.
    | w :: rest => some ({ s with cleanup := rest }.set w (s.worker w).stop)
  | .stop graceMs => some { s with stops := s.stops ++ [⟨graceMs, .called⟩] }
  | .resume k =>
    match s.stops[k]? with
    | some ⟨graceMs, .called⟩ => if s.cleanup = [] then some (s.resume k graceMs) else none
    | _ => none
  | .expire k w =>
    match s.stops[k]? with
    | some ⟨_, .stopping graces⟩ =>
      if w ∈ graces then
        some ((s.set w (s.worker w).abort).setStop k (.stopping (graces.erase w)))
      else none
    | _ => none
  | .resolve k =>
    match s.stops[k]? with
    | some ⟨_, .stopping _⟩ =>
      if ∀ w ∈ s.workers, (s.worker w).running = false then some (s.setStop k .resolved) else none
    | _ => none
  | .claim w env =>
    if (s.worker w).loop = .head ∧ (s.worker w).stopRequested = false then
      (s.system.step services (.claim w env)).map (s.afterClaim w)
    else none
  | .handle w env =>
    if (s.worker w).loop = .handling then
      (s.system.step services (.start w env (s.worker w).aborted)).map (s.afterHandle w)
    else none
  | .settle w env runTaskOnce =>
    if (s.worker w).loop = .handling then
      (s.system.step services (.settle w env runTaskOnce (s.worker w).aborted)).map
        (s.afterHandle w)
    else none
  | .release w env =>
    if (s.worker w).loop = .handling then
      (s.system.step services (.release w env)).map (s.afterRelease w)
    else none
  | .wake w =>
    if (s.worker w).loop = .backoff then some (s.set w (s.worker w).leave) else none
  | .quit w =>
    if (s.worker w).loop = .head ∧ (s.worker w).stopRequested = true then
      some (s.set w (s.worker w).finish)
    else none

/-- The step relation. -/
def Step (services : HandlerServices) (s : DefaultWorkerPool) (l : PoolLabel)
    (s' : DefaultWorkerPool) : Prop :=
  s.step services l = some s'

/-- The runs of a pool. -/
abbrev Steps (services : HandlerServices) :
    DefaultWorkerPool → List PoolLabel → DefaultWorkerPool → Prop :=
  Run (Step services)

/-- A pool that has been constructed, over any content of the queue. -/
structure Initial (s : DefaultWorkerPool) : Prop where
  worker : ∀ w, s.worker w = .new
  pc : ∀ w, s.system.pc w = .idle
  workers : s.workers = []
  started : s.started = false
  stopped : s.stopped = false
  cleanup : s.cleanup = []
  stops : s.stops = []
  claims : s.claims = []

end DefaultWorkerPool

end AgentWorkflow
