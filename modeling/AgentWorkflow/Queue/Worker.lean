import AgentWorkflow.Queue.OutcomeSpec
import Mathlib.Logic.Function.Basic

/-!
# Workers over one database

`DefaultWorker` of `queue/worker.ts`, and the system of any number of workers and enqueuers over one
database, each with its own queue instance, registry and budget manager.

* `Pc` — where a worker is in the loop of `loop`: before a claim, with a claimed entry, while
  `runTaskOnce` runs, or after `handle` threw and before its catch path has run.
* `System.step` — one step: enqueue, claim, the half of `handle` before the run, the run and the
  half after it, the catch path's release, a crash. A step runs to the next `await`; between the
  steps of one worker **any steps of the others may come**.
* `System.Initial`, `System.Steps` — an empty database, and the runs from it.

A run of `runTaskOnce` is any program over the backend, so it may end in any outcome, throw or
abort. A worker that has stopped is a worker that takes no more steps.
-/

namespace AgentWorkflow

open Fallible

/-- Where a worker is in its loop. -/
inductive Pc
  | idle
  | claimed (entry : TaskQueueEntry)
  | running (launch : Launch)
  /-- `handle` has thrown; `releaseAfterHandlerFailure` is next. -/
  | failed (entry : TaskQueueEntry)
  /-- Crashed, or left the loop over an exception of `claim`. -/
  | stopped

/-- The task a worker is at. -/
def Pc.taskId? : Pc → Option String
  | .claimed entry => some entry.taskId
  | .running launch => some launch.entry.taskId
  | .failed entry => some entry.taskId
  | .idle | .stopped => none

/-- A worker is at a task. -/
def Pc.busy : Pc → Bool
  | .claimed _ | .running _ | .failed _ => true
  | .idle | .stopped => false

/-- What the services of a process keep in memory. -/
structure Memory where
  workOrders : List (String × ParsedWorkOrderV1)
  registry : Table InternalEntry.agentId
  emitted : List String

/-- The database, and each process's memory and place. -/
structure System where
  /-- The parts of `world` that belong to a process are those of the one that ran last. -/
  world : World
  memory : String → Memory
  pc : String → Pc

/-- A step, with its surroundings. -/
inductive Label
  | enqueue (queueId : String) (workOrder : ParsedWorkOrderV1) (nextRole : Role) (env : Env)
  | claim (worker : String) (env : Env)
  /-- `handle` up to the run; `aborted` is its signal. -/
  | start (worker : String) (env : Env) (aborted : Bool)
  /-- The run, and the rest of `handle`; `aborted` is the signal where the run's exception is
  caught. -/
  | settle (worker : String) (env : Env) (runTaskOnce : RunTaskArgs → BackendM RunOutcome)
      (aborted : Bool)
  | release (worker : String) (env : Env)
  | crash (worker : String)

/-- The surroundings of a step. -/
def Label.env : Label → Option Env
  | .enqueue _ _ _ env => some env
  | .claim _ env => some env
  | .start _ env _ => some env
  | .settle _ env _ _ => some env
  | .release _ env => some env
  | .crash _ => none

/-- No storage call of the step throws. -/
def Label.Faultless (l : Label) : Prop := ∀ env, l.env = some env → env.Faultless

/-- The process that takes a step. -/
def Label.worker : Label → String
  | .enqueue queueId .. => queueId
  | .claim worker _ => worker
  | .start worker .. => worker
  | .settle worker .. => worker
  | .release worker _ => worker
  | .crash worker => worker

namespace Worker

/-- The patch of the catch path. -/
def failurePatch : QueueStore.Patch where
  status := some .queued
  currentOwnerRunId := some none
  leaseExpiresAt := some none

/-- Source: `worker.ts` `releaseAfterHandlerFailure`. -/
def releaseAfterHandlerFailure (entry : TaskQueueEntry) : WorldM Unit :=
  tryCatch (QueueStore.release entry.taskId failurePatch) fun _ => pure ()

/-- The columns the catch path writes. -/
def requeuedRow (updatedAt : ℕ) (r : TaskRow) : TaskRow :=
  { r with status := .queued, currentOwnerRunId := none, leaseExpiresAt := none, updatedAt }

/-- The catch path rewrites the row, or leaves it when a call throws. -/
theorem onCore_releaseAfterHandlerFailure {env : Env} {c : Core} {entry : TaskQueueEntry}
    {Q : Unit → Core → Prop} {E : Err → Core → Prop}
    (hsome : ∀ r u, c.row entry.taskId = some r →
      Q () (c.updateRow entry.taskId (failurePatch.apply r.toTaskQueueEntry u)
        (QueueStore.key_apply _ _ _)))
    (hnone : c.row entry.taskId = none → Q () c) (hskip : ¬ env.Faultless → Q () c) :
    OnCore (releaseAfterHandlerFailure entry) env c Q E :=
  .tryCatch (QueueStore.onCore_release rfl hsome (fun h _ => .pure (hnone h))
    fun h _ => .pure (hskip h))

end Worker

namespace System

/-- The world as a process sees it. -/
def load (s : System) (w : String) : World where
  core := { s.world.core with workOrders := (s.memory w).workOrders }
  backend := { s.world.backend with
    registry := (s.memory w).registry, emitted := (s.memory w).emitted }

/-- The system after a process has left the world as given. -/
def store (s : System) (w : String) (world : World) : System :=
  { s with
    world
    memory := Function.update s.memory w
      ⟨world.core.workOrders, world.backend.registry, world.backend.emitted⟩ }

/-- The system with a worker at another place. -/
def goto (s : System) (w : String) (pc : Pc) : System :=
  { s with pc := Function.update s.pc w pc }

/-- The system after a call was noted. -/
def note (s : System) (w : String) (call : Call) : System :=
  { s with world := { s.world with core := s.world.core.note w call } }

/-- The run and the rest of `handle`. -/
def runAndSettle (services : HandlerServices) (w : String) (l : Launch)
    (runTaskOnce : RunTaskArgs → BackendM RunOutcome) (aborted : Bool) : WorldM Unit := do
  let result ← onBackend (WorkerTaskHandler.attempt (runTaskOnce l.runArgs))
  WorkerTaskHandler.handleAfterRun services w l result aborted

/-- The entry a claim gets. -/
def claimed (s : System) (w : String) (env : Env) : Option TaskQueueEntry :=
  match TaskQueue.claim w env (s.load w) with
  | .ok claimed _ => claimed
  | .error _ _ => none

/-- One step of the system; none where the worker is not at that step. -/
def step (services : HandlerServices) (s : System) : Label → Option System
  | .enqueue queueId workOrder nextRole env =>
    match TaskQueue.enqueue queueId workOrder nextRole env (s.load queueId) with
    | .ok _ world => some (s.store queueId world)
    | .error _ world => some (s.store queueId world)
  | .claim w env =>
    match s.pc w with
    | .idle =>
      match TaskQueue.claim w env (s.load w) with
      | .ok none world => some (s.store w world)
      | .ok (some entry) world => some ((s.store w world).goto w (.claimed entry))
      -- The exception leaves `loop`.
      | .error _ world => some ((s.store w world).goto w .stopped)
    | _ => none
  | .start w env aborted =>
    match s.pc w with
    | .claimed entry =>
      match WorkerTaskHandler.handleUntilLaunch services w entry aborted env (s.load w) with
      | .ok none world =>
        some (((s.store w world).note w (.returned entry.taskId)).goto w .idle)
      | .ok (some launch) world => some ((s.store w world).goto w (.running launch))
      | .error _ world =>
        some (((s.store w world).note w (.threw entry.taskId)).goto w (.failed entry))
    | _ => none
  | .settle w env runTaskOnce aborted =>
    match s.pc w with
    | .running l =>
      match runAndSettle services w l runTaskOnce aborted env (s.load w) with
      | .ok _ world =>
        some (((s.store w world).note w (.returned l.entry.taskId)).goto w .idle)
      | .error _ world =>
        some (((s.store w world).note w (.threw l.entry.taskId)).goto w (.failed l.entry))
    | _ => none
  | .release w env =>
    match s.pc w with
    | .failed entry =>
      match Worker.releaseAfterHandlerFailure entry env (s.load w) with
      | .ok _ world => some ((s.store w world).goto w .idle)
      | .error _ world => some ((s.store w world).goto w .idle)
    | _ => none
  | .crash w => some (s.goto w .stopped)

/-- The step relation. -/
def Step (services : HandlerServices) (s : System) (l : Label) (s' : System) : Prop :=
  s.step services l = some s'

/-- The runs of the system. -/
abbrev Steps (services : HandlerServices) : System → List Label → System → Prop :=
  Run (Step services)

/-- Take steps while they are possible. -/
def steps (services : HandlerServices) : System → List Label → Option System
  | s, [] => some s
  | s, l :: ls => (s.step services l).bind fun s' => s'.steps services ls

/-- The runs are what `steps` computes. -/
theorem steps_iff {services : HandlerServices} {s s' : System} {ls : List Label} :
    Steps services s ls s' ↔ s.steps services ls = some s' := by
  induction ls generalizing s with
  | nil => simp [steps]
  | cons l ls ih =>
    refine Run.cons_iff.trans (Iff.trans ?_ Option.bind_eq_some_iff.symm)
    exact exists_congr fun s₁ => and_congr_right fun _ => ih

/-- Take steps while they are possible and meet `C`. -/
def guardedSteps (services : HandlerServices) (C : System → Label → Prop)
    [∀ s l, Decidable (C s l)] : System → List Label → Option System
  | s, [] => some s
  | s, l :: ls =>
    if C s l then (s.step services l).bind fun s' => s'.guardedSteps services C ls else none

theorem guardedSteps_iff {services : HandlerServices} {C : System → Label → Prop}
    [∀ s l, Decidable (C s l)] {s s' : System} {ls : List Label} :
    Run (Guarded C (Step services)) s ls s' ↔ s.guardedSteps services C ls = some s' := by
  induction ls generalizing s with
  | nil => simp [guardedSteps]
  | cons l ls ih =>
    rw [guardedSteps, Run.cons_iff]
    by_cases hC : C s l
    · rw [if_pos hC, Option.bind_eq_some_iff]
      exact exists_congr fun s₁ => and_congr (and_iff_right hC) ih
    · rw [if_neg hC]
      constructor
      · rintro ⟨s₁, ⟨hC', -⟩, -⟩
        exact absurd hC' hC
      · intro h
        cases h

/-- The calls about a task, oldest first. -/
def calls (s : System) (t : String) : List (String × Call) :=
  s.world.core.trace.filter fun call => call.2.taskId = t

/-- An empty database; every process is at its start. -/
structure Initial (s : System) : Prop where
  taskQueue : s.world.core.taskQueue = Table.empty
  taskBudget : s.world.core.taskBudget = Table.empty
  trace : s.world.core.trace = []
  workOrders : ∀ w, (s.memory w).workOrders = []
  pc : ∀ w, s.pc w = .idle

end System

/-! ## A small system

One task that is reviewed, two implementers and a reviewer; the runs that show what the system can
do are runs of it. -/

namespace Sample

/-- A work order with the default review and budget. -/
def workOrder : ParsedWorkOrderV1 where
  taskId := "T-1"
  projectId := "default"
  title := "Report"
  type := .researchReport
  goal := "Write the report"
  acceptanceCriteria := []
  repo := ⟨"/repo", none⟩
  constraints := none
  verification := none
  agent := ⟨["code"], [], [], []⟩
  review := ReviewSettings.default
  budget := BudgetSettings.default
  valid := by decide +kernel

def coll : Collation where
  le a b := decide (a ≤ b)
  total a b := by simpa using String.le_total a b
  trans a b c hab hbc := by
    rw [decide_eq_true_eq] at hab hbc ⊢
    exact String.le_trans hab hbc
  antisymm a b hab hba := by
    rw [decide_eq_true_eq] at hab hba
    exact String.le_antisymm hab hba

def artifactRef (kind : ArtifactKind) (name : String) : ArtifactRef where
  uri := "artifact://" ++ name
  kind := kind
  checksum := none
  summary := none

def artifactStore : ArtifactStore where
  saveText t := pure (artifactRef t.kind t.filename)
  saveFile t := pure (artifactRef t.kind t.filename)
  readText _ := pure "text"

def services : HandlerServices where
  coll := coll
  json := ⟨fun _ => "text", fun _ => none⟩
  artifactStore := artifactStore
  registryOptions := {}
  projectId := "default"

def agent (agentId : String) (h : agentId ≠ "") (role : Role) : InternalEntry where
  profile :=
    { agentId, agentId_min := h, kinds := ["code"], roles := [role], costProfile := none,
      failureClassification := none, initialSuccessRate := 1, initialAvgLatencyMs := 0,
      timeoutSeconds := none }
  loadedFrom := "/agents"
  rollingMetrics := ⟨1, 0, 0, 0, 0⟩
  quotaHealth := .healthy

def registry : Table InternalEntry.agentId where
  rows := [agent "alice" (by decide) .implementer, agent "bob" (by decide) .implementer,
    agent "rita" (by decide) .reviewer]
  nodup := by decide

/-- Nothing throws, and the clock ticks. -/
def env : Env where
  clock n := 1000 + n
  uuid _ := "00000000"
  throws _ _ := false

theorem env_faultless : env.Faultless := by
  rintro k ⟨n, hn⟩
  cases hn

/-- One statement throws. -/
def envWithout (k : StorageCall) : Env := { env with throws := fun _ k' => k' = k }

def system : System where
  world := ⟨⟨Table.empty, Table.empty, [], []⟩,
    ⟨0, [], Table.empty, [], Files.empty, [], Table.empty, []⟩⟩
  memory _ := ⟨[], registry, []⟩
  pc _ := .idle

theorem initial : system.Initial := ⟨rfl, rfl, rfl, fun _ => rfl, fun _ => rfl⟩

/-- An implementer's success. -/
def implemented : RunTaskArgs → BackendM RunOutcome := fun _ =>
  pure (.implementerSucceeded "R-1" "artifact://diff.patch" none none)

/-- A reviewer's verdict. -/
def changesRequested : RunTaskArgs → BackendM RunOutcome := fun _ =>
  pure (.reviewerChangesRequested "R-2" "artifact://verdict.json")

/-- A reviewer's approval. -/
def approved : RunTaskArgs → BackendM RunOutcome := fun _ =>
  pure (.reviewerApproved "R-2" "artifact://verdict.json")

/-- An attempt of a worker in which nothing throws. -/
def attempt (w : String) (run : RunTaskArgs → BackendM RunOutcome) : List Label :=
  [.claim w env, .start w env false, .settle w env run false]

theorem attempt_faultless {w : String} {run : RunTaskArgs → BackendM RunOutcome} {l : Label}
    (hl : l ∈ attempt w run) : l.Faultless := by
  intro e he
  simp only [attempt, List.mem_cons, List.not_mem_nil, or_false] at hl
  rcases hl with rfl | rfl | rfl
  all_goals
    cases he
    exact env_faultless

end Sample

end AgentWorkflow
