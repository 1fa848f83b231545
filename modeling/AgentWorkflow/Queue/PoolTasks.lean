import AgentWorkflow.Queue.HandleOnce
import AgentWorkflow.Queue.TaskView
import AgentWorkflow.Queue.WorkerPool

/-!
# The tasks of a pool

What the steps of a pool do to the rows of the queue, over any content.

* `TaskRow.Free` — nobody has the task: it is queued or has ended, without owner and lease.
* `AtTask t w s s'` — **a step of the handler of `t`** leaves the other rows, and `t` either with
  its worker or free. `atTask_start`, `atTask_settle`, `atTask_release`: the parts of a handling.
* `claim_rows`, `enqueue_rows` — the other steps that write a row.
* **`Tasks`** — a worker is at a task only from its claim to the end of its handling, and every task
  that no worker is at is free, or as the pool found it and never claimed. `Tasks.step`.
-/

namespace AgentWorkflow

open Fallible WorkerTaskHandler

/-! ## Rows -/

/-- Nobody has the task: it is queued or has ended. -/
structure TaskRow.Free (r : TaskRow) : Prop where
  status : r.status = .queued ∨ r.status.terminal = true
  owner : r.currentOwnerRunId = none
  lease : r.leaseExpiresAt = none

/-- What a claim or a release may have written in a task's row. -/
def Core.standing (c : Core) (t : String) :
    Option (TaskStatus × Role × Option String × Option ℕ × ℕ) :=
  (c.row t).map TaskRow.standing

/-- The task has a row, and nobody has it. -/
def Core.FreeAt (c : Core) (t : String) : Prop := ∃ r, c.row t = some r ∧ r.Free

section rows

variable {c c' : Core} {t k : String} {r r' : TaskRow}

theorem TaskRow.Free.of_standing (h : r.Free) (heq : r'.standing = r.standing) : r'.Free := by
  simp only [TaskRow.standing, Prod.mk.injEq] at heq
  obtain ⟨hstatus, -, howner, hlease, -⟩ := heq
  exact ⟨hstatus ▸ h.status, howner ▸ h.owner, hlease ▸ h.lease⟩

theorem Core.FreeAt.of_standing (h : c.FreeAt t) (heq : c'.standing t = c.standing t) :
    c'.FreeAt t := by
  obtain ⟨r, hr, hfree⟩ := h
  unfold Core.standing at heq
  rw [hr] at heq
  obtain ⟨r', hr', hstanding⟩ := Option.map_eq_some_iff.mp heq
  exact ⟨r', hr', hfree.of_standing hstanding⟩

/-- A standing is that of a row. -/
theorem isSome_of_standing (heq : c'.standing t = c.standing t) (h : (c.row t).isSome = true) :
    (c'.row t).isSome = true := by
  have hmap := congrArg Option.isSome heq
  unfold Core.standing at hmap
  rwa [Option.isSome_map, Option.isSome_map, h] at hmap

theorem standing_updateRow_of_ne {f : TaskRow → TaskRow} {hf : ∀ r, (f r).key = r.key}
    (hk : k ≠ t) : (c.updateRow t f hf).standing k = c.standing k := by
  rw [Core.standing, Core.standing, row_updateRow, if_neg hk]

/-- A handler releases a task into a status of `exitStatuses`. -/
theorem free_releasedRow {status : TaskStatus} {role : Role} {n u : ℕ}
    (h : status ∈ exitStatuses) : (releasedRow status role n u r).Free := by
  refine ⟨?_, rfl, rfl⟩
  simp only [exitStatuses, List.mem_cons, List.not_mem_nil, or_false] at h
  rcases h with rfl | rfl | rfl | rfl
  · exact Or.inl rfl
  · exact Or.inr rfl
  · exact Or.inr rfl
  · exact Or.inr rfl

end rows

/-! ## The steps of a handler -/

section exits

variable {entry : TaskQueueEntry} {w₀ w w' : World} {n : ℕ} {k : String}

/-- A release frees its task, and no other row changes. -/
theorem Releases.rows {status : TaskStatus} {role : Role} (h : Releases entry status role n w w')
    (hstatus : status ∈ exitStatuses) :
    (∀ k, k ≠ entry.taskId → w'.core.standing k = w.core.standing k) ∧
      w'.core.FreeAt entry.taskId := by
  obtain ⟨⟨r, hr⟩, updatedAt, calls, rfl⟩ := h
  refine ⟨fun k hk => ?_, releasedRow status role n updatedAt r, ?_, free_releasedRow hstatus⟩
  · exact congrArg (Option.map TaskRow.standing) (Update.row_apply_of_ne _ _ _ hk)
  · rw [Update.row_apply, hr]
    rfl

/-- A world in which a handler is still at its task, or has released it. -/
def LeftBy (entry : TaskQueueEntry) (c : Core) (done : Prop) (w' : World) : Prop :=
  (∀ k, k ≠ entry.taskId → w'.core.standing k = c.standing k) ∧
    (w'.core.FreeAt entry.taskId ∨ ¬ done ∧ w'.core.standing entry.taskId = c.standing entry.taskId)

theorem leftBy_of_quiet {done : Prop} (h : QuietRun entry.taskId w₀ w) (hdone : ¬ done) :
    LeftBy entry w₀.core done w :=
  ⟨fun k _ => h.standing k, Or.inr ⟨hdone, h.standing _⟩⟩

/-- A handler that has returned, or has thrown after its release. -/
theorem leftBy_of_releases {status : TaskStatus} {role : Role} {done : Prop}
    (h : QuietRun entry.taskId w₀ w) (hstatus : status ∈ exitStatuses)
    (hrel : Releases entry status role n w w') : LeftBy entry w₀.core done w' := by
  obtain ⟨hothers, hfree⟩ := hrel.rows hstatus
  exact ⟨fun k hk => (hothers k hk).trans (h.standing k), Or.inl hfree⟩

theorem leftBy_of_exited (h : Exited (QuietRun entry.taskId w₀) entry n w') :
    LeftBy entry w₀.core True w' := by
  obtain ⟨w₁, w₂, status, role, hquiet, hstatus, hrel, e, calls, -, rfl⟩ := h
  have hleft : LeftBy entry w₀.core True w₂ := leftBy_of_releases hquiet hstatus hrel
  exact hleft

theorem leftBy_of_thrown (h : QuietRun entry.taskId w₀ w' ∨
    HalfExited (QuietRun entry.taskId w₀) entry n w') : LeftBy entry w₀.core False w' := by
  rcases h with hquiet | ⟨w₁, status, role, hquiet, hstatus, hrel⟩
  · exact leftBy_of_quiet hquiet id
  · exact leftBy_of_releases hquiet hstatus hrel

end exits

/-- A step of a worker at the task `t`: the other rows and workers stay; the task stays with the
worker, or is free. -/
structure AtTask (t w : String) (s s' : System) : Prop where
  others : ∀ k, k ≠ t → s'.world.core.standing k = s.world.core.standing k
  pcs : ∀ x, x ≠ w → s'.pc x = s.pc x
  row : (s.world.core.row t).isSome = true → (s'.world.core.row t).isSome = true
  task : (s'.pc w).taskId? = some t ∨ s'.pc w = .idle ∧ s'.world.core.FreeAt t

namespace System

variable {services : HandlerServices} {s s' : System} {w : String} {env : Env}
  {entry : TaskQueueEntry}

theorem pc_goto_of_ne {x : String} {pc : Pc} (hx : x ≠ w) : (s.goto w pc).pc x = s.pc x :=
  Function.update_of_ne hx _ _

theorem pc_goto_self {pc : Pc} : (s.goto w pc).pc w = pc := Function.update_self ..

/-- What a part of a handler leaves is a step at its task. -/
theorem atTask_of_leftBy {done : Prop} {c : Core} {world : World} {pc : Pc}
    (h : LeftBy entry c done world) (hc : c.taskQueue = s.world.core.taskQueue)
    (hworld : s'.world.core.taskQueue = world.core.taskQueue)
    (hpcs : s'.pc = Function.update s.pc w pc)
    (hpc : pc.taskId? = some entry.taskId ∨ done ∧ pc = .idle) : AtTask entry.taskId w s s' := by
  have hrow : ∀ k, s'.world.core.row k = world.core.row k := fun k =>
    congrArg (Table.find? · k) hworld
  have hstanding : ∀ k, s'.world.core.standing k = world.core.standing k := fun k =>
    congrArg (Option.map TaskRow.standing) (hrow k)
  have hbefore : ∀ k, c.standing k = s.world.core.standing k := fun k =>
    congrArg (fun q => Option.map TaskRow.standing (Table.find? q k)) hc
  obtain ⟨hothers, htask⟩ := h
  refine ⟨fun k hk => ((hstanding k).trans (hothers k hk)).trans (hbefore k), fun x hx => ?_,
    fun hsome => ?_, ?_⟩
  · rw [hpcs, Function.update_of_ne hx]
  · rw [hrow]
    rcases htask with ⟨r, hr, -⟩ | ⟨-, hsame⟩
    · rw [hr]
      rfl
    · exact isSome_of_standing (hsame.trans (hbefore _)) hsome
  · rw [hpcs, Function.update_self]
    rcases hpc with hpc | ⟨hdone, rfl⟩
    · exact Or.inl hpc
    · rcases htask with hfree | ⟨hnot, -⟩
      · exact Or.inr ⟨rfl, hfree.of_standing (hstanding _)⟩
      · exact absurd hdone hnot

/-- **The half of `handle` before the run.** -/
theorem atTask_start {aborted : Bool} (h : Step services s (.start w env aborted) s') :
    ∃ t, (s.pc w).taskId? = some t ∧ AtTask t w s s' := by
  simp only [Step, step] at h
  split at h
  next entry hpc =>
    refine ⟨entry.taskId, by rw [hpc]; rfl, ?_⟩
    have huntil : ExitsOr (QuietRun entry.taskId (s.load w)) entry (fun l => l.entry = entry ∧ True)
        (handleUntilLaunch services w entry aborted) :=
      handleUntilLaunch_exits (quiet_handlerFrame services entry (s.load w))
    have hexit := huntil env (s.load w) .refl
    split at h
    next world hres =>
      cases h
      rcases hexit.of_ok hres with ⟨-, hexit⟩ | ⟨l, hl, -⟩
      · exact atTask_of_leftBy (leftBy_of_exited hexit) rfl rfl rfl (Or.inr ⟨trivial, rfl⟩)
      · cases hl
    next l world hres =>
      cases h
      rcases hexit.of_ok hres with ⟨hnone, -⟩ | ⟨l', hl', ⟨hentry, -⟩, hquiet⟩
      · cases hnone
      · cases hl'
        have hid : (Pc.running l).taskId? = some entry.taskId :=
          congrArg (fun e : TaskQueueEntry => some e.taskId) hentry
        exact atTask_of_leftBy (leftBy_of_quiet hquiet not_false) rfl rfl rfl (Or.inl hid)
    next e world hres =>
      cases h
      exact atTask_of_leftBy (leftBy_of_thrown (hexit.of_error hres)) rfl rfl rfl (Or.inl rfl)
  next => cases h

/-- **The run and the half after it.** -/
theorem atTask_settle {run : RunTaskArgs → BackendM RunOutcome} {aborted : Bool}
    (h : Step services s (.settle w env run aborted) s') :
    ∃ t, (s.pc w).taskId? = some t ∧ AtTask t w s s' := by
  simp only [Step, step] at h
  split at h
  next l hpc =>
    refine ⟨l.entry.taskId, by rw [hpc]; rfl, ?_⟩
    have hexit : Ensures (runAndSettle services w l run aborted) env (s.load w)
        (fun _ world => LeftBy l.entry (s.load w).core True world)
        fun _ world => LeftBy l.entry (s.load w).core False world := by
      unfold runAndSettle
      refine ensures_bind.mpr (ensures_onBackend.mpr (ensures_of_forall (fun result b _ => ?_)
        fun e b _ => ⟨fun _ _ => rfl, Or.inr ⟨id, rfl⟩⟩))
      have hafter : Exits (QuietRun l.entry.taskId ⟨(s.load w).core, b⟩) l.entry
          (attemptsAfter l.entry result) (handleAfterRun services w l result aborted) :=
        handleAfterRun_exits (quiet_handlerFrame services l.entry _) rfl fun _ _ => trivial
      refine (hafter env ⟨(s.load w).core, b⟩ .refl).mono (fun _ world hexit => ?_)
        fun _ world hexit => ?_
      · have hleft := leftBy_of_exited hexit
        exact hleft
      · have hleft := leftBy_of_thrown hexit
        exact hleft
    split at h
    next world hres =>
      cases h
      exact atTask_of_leftBy (hexit.of_ok hres) rfl rfl rfl (Or.inr ⟨trivial, rfl⟩)
    next e world hres =>
      cases h
      exact atTask_of_leftBy (hexit.of_error hres) rfl rfl rfl (Or.inl rfl)
  next => cases h

/-- **The catch path**, when no call of it throws. -/
theorem atTask_release (henv : env.Faultless) (h : Step services s (.release w env) s') :
    ∃ t, (s.pc w).taskId? = some t ∧
      ((s.world.core.row t).isSome = true → AtTask t w s s' ∧ s'.pc w = .idle) := by
  simp only [Step, step] at h
  split at h
  next entry hpc =>
    refine ⟨entry.taskId, by rw [hpc]; rfl, fun hsome => ?_⟩
    have hspec : OnCore (Worker.releaseAfterHandlerFailure entry) env (s.load w).core
        (fun _ c' => (∀ k, k ≠ entry.taskId → c'.standing k = s.world.core.standing k) ∧
          c'.FreeAt entry.taskId) fun _ _ => False := by
      refine Worker.onCore_releaseAfterHandlerFailure (fun r u hr => ?_) (fun hnone => ?_)
        fun hfault => absurd henv hfault
      · refine ⟨fun k hk => standing_updateRow_of_ne hk, ?_⟩
        refine ⟨_, (row_updateRow_self ..).trans (congrArg (Option.map _) hr), Or.inl rfl, rfl, rfl⟩
      · have hrow : (s.load w).core.row entry.taskId = s.world.core.row entry.taskId := rfl
        rw [← hrow, hnone] at hsome
        cases hsome
    split at h
    next world hres =>
      cases h
      obtain ⟨hothers, hfree⟩ := hspec.of_ok hres
      have hleft : LeftBy entry s.world.core True world := ⟨hothers, Or.inl hfree⟩
      exact ⟨atTask_of_leftBy hleft rfl rfl rfl (Or.inr ⟨trivial, rfl⟩), pc_goto_self⟩
    next e world hres => exact (hspec.of_error hres).elim
  next => cases h

/-! ## Claims and enqueues -/

/-- **A claim writes one row, or none.** -/
theorem claim_rows (h : Step services s (.claim w env) s') :
    (∀ x, x ≠ w → s'.pc x = s.pc x) ∧
    (((s'.pc w = .idle ∨ s'.pc w = .stopped) ∧
        ∀ k, s'.world.core.standing k = s.world.core.standing k) ∨
      ∃ entry, s'.pc w = .claimed entry ∧ (s'.world.core.row entry.taskId).isSome = true ∧
        ∀ k, k ≠ entry.taskId → s'.world.core.standing k = s.world.core.standing k) := by
  have hcached : ∀ c', TaskQueue.CachesPersisted (s.load w).core c' →
      ∀ k, c'.row k = s.world.core.row k := by
    rintro c' (rfl | ⟨t, r, wo, -, -, -, rfl⟩) k
    · rfl
    · rfl
  have hspec := @claim_claimedAs w (s.load w).core env
  simp only [Step, step] at h
  split at h
  next hpc =>
    split at h
    next world hres =>
      cases h
      refine ⟨fun _ _ => rfl, Or.inl ⟨Or.inl hpc, fun k => ?_⟩⟩
      exact congrArg (Option.map _) (hcached _ (hspec.of_ok hres) k)
    next entry world hres =>
      cases h
      obtain ⟨c₁, now, lease, row, hc₁, hsel, rfl, hworld⟩ := hspec.of_ok hres
      refine ⟨fun x hx => pc_goto_of_ne hx, Or.inr ⟨_, pc_goto_self, ?_, fun k hk => ?_⟩⟩
      · have hrow : world.core.row row.taskId = some (QueueStore.claimedRow w lease now row) := by
          rw [hworld, row_updateRow_self, (QueueStore.claimSelect_spec hsel).1]
          rfl
        exact Option.isSome_of_eq_some hrow
      · have hsame : world.core.standing k = c₁.standing k := by
          rw [hworld]
          exact standing_updateRow_of_ne hk
        exact hsame.trans (congrArg (Option.map _) (hcached c₁ hc₁ k))
    next e world hres =>
      cases h
      refine ⟨fun x hx => pc_goto_of_ne hx, Or.inl ⟨Or.inr pc_goto_self, fun k => ?_⟩⟩
      exact congrArg (Option.map _) (hcached _ (hspec.of_error hres) k)
  next => cases h

/-- A task that is enqueued has no row, and gets a free one. -/
theorem enqueue_rows {queueId : String} {workOrder : ParsedWorkOrderV1} {nextRole : Role}
    (h : Step services s (.enqueue queueId workOrder nextRole env) s') :
    s'.pc = s.pc ∧ ∀ k, s'.world.core.standing k = s.world.core.standing k ∨
      s.world.core.row k = none ∧ s'.world.core.FreeAt k := by
  have hspec : OnCore (TaskQueue.enqueue queueId workOrder nextRole) env (s.load queueId).core
      (fun _ c' => ∀ k, c'.standing k = s.world.core.standing k ∨
        s.world.core.row k = none ∧ c'.FreeAt k)
      (fun _ c' => c' = (s.load queueId).core) := by
    refine TaskQueue.onCore_enqueue (fun ts q hq k => ?_) fun _ => rfl
    have hinsert := Table.find?_insert hq k
    by_cases hk : k = workOrder.taskId
    · refine Or.inr ⟨?_, _, hinsert.trans (if_pos hk), Or.inl rfl, rfl, rfl⟩
      rw [hk]
      exact Table.find?_of_insert hq
    · exact Or.inl (congrArg (Option.map _) (hinsert.trans (if_neg hk)))
  simp only [Step, step] at h
  split at h
  next entry world hres =>
    cases h
    exact ⟨rfl, hspec.of_ok hres⟩
  next e world hres =>
    cases h
    refine ⟨rfl, fun k => Or.inl ?_⟩
    have hcore : world.core = (s.load queueId).core := hspec.of_error hres
    have hrow : world.core.row k = s.world.core.row k := by rw [hcore]; rfl
    exact congrArg (Option.map _) hrow

end System

namespace DefaultWorkerPool

/-! ## The loops -/

/-- What the step of a worker's loop leaves, and what it does to the worker. -/
structure LoopStep (w : String) (s s' : DefaultWorkerPool) : Prop where
  stops : s'.stops = s.stops
  workers : s'.workers = s.workers
  started : s'.started = s.started
  stopped : s'.stopped = s.stopped
  others : ∀ x, x ≠ w → s'.worker x = s.worker x
  active : (s.worker w).loop ≠ .unstarted ∧ (s.worker w).loop ≠ .ended
  goes : (s'.worker w).loop ≠ .unstarted
  requested : (s'.worker w).stopRequested = (s.worker w).stopRequested
  running : (s'.worker w).running = (s.worker w).running ∨ (s'.worker w).loop = .ended

section loops

variable {services : HandlerServices} {s s' : DefaultWorkerPool} {w : String} {x : DefaultWorker}
  {system : System}

@[simp] theorem worker_set_self : (s.set w x).worker w = x := Function.update_self ..

theorem worker_set_of_ne {y : String} (h : y ≠ w) : (s.set w x).worker y = s.worker y :=
  Function.update_of_ne h _ _

/-- The loop of an active worker goes on. -/
theorem loopStep_set {claims : List (String × String)}
    (hactive : (s.worker w).loop ≠ .unstarted ∧ (s.worker w).loop ≠ .ended)
    (hgoes : x.loop ≠ .unstarted) (hrequested : x.stopRequested = (s.worker w).stopRequested)
    (hrunning : x.running = (s.worker w).running ∨ x.loop = .ended) :
    LoopStep w s ({ s with system, claims }.set w x) where
  stops := rfl
  workers := rfl
  started := rfl
  stopped := rfl
  others y hy := Function.update_of_ne hy _ _
  active := hactive
  goes := by rwa [worker_set_self]
  requested := by rwa [worker_set_self]
  running := by rwa [worker_set_self]

theorem loopStep_afterClaim
    (hactive : (s.worker w).loop ≠ .unstarted ∧ (s.worker w).loop ≠ .ended) :
    LoopStep w s (s.afterClaim w system) := by
  unfold afterClaim
  split
  · exact loopStep_set hactive nofun rfl (Or.inl rfl)
  · exact loopStep_set hactive nofun rfl (Or.inr rfl)
  · exact loopStep_set hactive nofun rfl (Or.inl rfl)

theorem loopStep_afterHandle
    (hactive : (s.worker w).loop ≠ .unstarted ∧ (s.worker w).loop ≠ .ended) :
    LoopStep w s (s.afterHandle w system) := by
  unfold afterHandle
  split
  · exact loopStep_set hactive nofun rfl (Or.inl rfl)
  · exact ⟨rfl, rfl, rfl, rfl, fun _ _ => rfl, hactive, hactive.1, rfl, Or.inl rfl⟩

theorem loopStep_afterRelease
    (hactive : (s.worker w).loop ≠ .unstarted ∧ (s.worker w).loop ≠ .ended) :
    LoopStep w s (s.afterRelease w system) := by
  unfold afterRelease
  split
  · exact loopStep_set hactive nofun rfl (Or.inl rfl)
  · exact loopStep_set hactive nofun rfl (Or.inl rfl)

/-- **A step of a loop.** -/
theorem loopStep_of_isLoop {l : PoolLabel} (h : Step services s l s') (hl : l.isLoop = true) :
    ∃ w, LoopStep w s s' := by
  have hactive : ∀ {w pc}, (s.worker w).loop = pc → pc ≠ .unstarted → pc ≠ .ended →
      (s.worker w).loop ≠ .unstarted ∧ (s.worker w).loop ≠ .ended :=
    fun hpc hunstarted hended => ⟨hpc ▸ hunstarted, hpc ▸ hended⟩
  cases l with
  | claim w env =>
    simp only [Step, step, Option.ite_none_right_eq_some] at h
    obtain ⟨⟨hhead, -⟩, hstep⟩ := h
    obtain ⟨system, -, rfl⟩ := Option.map_eq_some_iff.mp hstep
    exact ⟨w, loopStep_afterClaim (hactive hhead nofun nofun)⟩
  | handle w env =>
    simp only [Step, step, Option.ite_none_right_eq_some] at h
    obtain ⟨hhandling, hstep⟩ := h
    obtain ⟨system, -, rfl⟩ := Option.map_eq_some_iff.mp hstep
    exact ⟨w, loopStep_afterHandle (hactive hhandling nofun nofun)⟩
  | settle w env run =>
    simp only [Step, step, Option.ite_none_right_eq_some] at h
    obtain ⟨hhandling, hstep⟩ := h
    obtain ⟨system, -, rfl⟩ := Option.map_eq_some_iff.mp hstep
    exact ⟨w, loopStep_afterHandle (hactive hhandling nofun nofun)⟩
  | release w env =>
    simp only [Step, step, Option.ite_none_right_eq_some] at h
    obtain ⟨hhandling, hstep⟩ := h
    obtain ⟨system, -, rfl⟩ := Option.map_eq_some_iff.mp hstep
    exact ⟨w, loopStep_afterRelease (hactive hhandling nofun nofun)⟩
  | wake w =>
    simp only [Step, step, Option.ite_none_right_eq_some] at h
    obtain ⟨hbackoff, h⟩ := h
    cases h
    exact ⟨w, loopStep_set (hactive hbackoff nofun nofun) nofun rfl (Or.inl rfl)⟩
  | quit w =>
    simp only [Step, step, Option.ite_none_right_eq_some] at h
    obtain ⟨⟨hhead, -⟩, h⟩ := h
    cases h
    exact ⟨w, loopStep_set (hactive hhead nofun nofun) nofun rfl (Or.inr rfl)⟩
  | _ => cases hl

end loops

/-! ## The tasks -/

/-- A task that no worker is at: it is free, or as the pool found it and never claimed. -/
def Rests (s₀ s : DefaultWorkerPool) (t : String) : Prop :=
  s.system.world.core.FreeAt t ∨ (∀ w, (w, t) ∉ s.claims) ∧
    s.system.world.core.standing t = s₀.system.world.core.standing t

/-- Where the workers of a pool and the tasks are. -/
structure Tasks (s₀ s : DefaultWorkerPool) : Prop where
  busy : ∀ w, (s.worker w).loop ≠ .handling → (s.system.pc w).taskId? = none
  row : ∀ w t, (s.system.pc w).taskId? = some t → (s.system.world.core.row t).isSome = true
  rest : ∀ t, (∀ w, (s.system.pc w).taskId? ≠ some t) → Rests s₀ s t

section tasks

variable {services : HandlerServices} {s₀ s s' : DefaultWorkerPool} {w t : String}

theorem Rests.of_standing (h : Rests s₀ s t) (hclaims : ∀ w, (w, t) ∈ s'.claims → (w, t) ∈ s.claims)
    (hstanding : s'.system.world.core.standing t = s.system.world.core.standing t) :
    Rests s₀ s' t := by
  rcases h with hfree | ⟨hnot, hsame⟩
  · exact Or.inl (hfree.of_standing hstanding)
  · exact Or.inr ⟨fun w hw => hnot w (hclaims w hw), hstanding.trans hsame⟩

theorem Initial.tasks (h : s.Initial) : Tasks s s where
  busy w _ := by rw [h.pc w]; rfl
  row w t ht := by
    rw [h.pc w] at ht
    cases ht
  rest t _ := by
    refine Or.inr ⟨fun w hw => ?_, rfl⟩
    rw [h.claims] at hw
    cases hw

/-- A step that does not come to the database. -/
theorem Tasks.of_loops (h : Tasks s₀ s) (hsystem : s'.system = s.system)
    (hclaims : s'.claims = s.claims)
    (hloops : ∀ w, (s'.worker w).loop ≠ .handling → (s.worker w).loop ≠ .handling) :
    Tasks s₀ s' where
  busy w hw := by
    rw [hsystem]
    exact h.busy w (hloops w hw)
  row w t ht := by
    rw [hsystem] at ht ⊢
    exact h.row w t ht
  rest t ht := by
    rw [hsystem] at ht
    exact (h.rest t ht).of_standing (fun w hw => hclaims ▸ hw) (by rw [hsystem])

/-- **A part of a handling.** -/
theorem Tasks.atTask (h : Tasks s₀ s) (ht : (s.system.pc w).taskId? = some t)
    (hat : AtTask t w s.system s'.system) (hclaims : s'.claims = s.claims)
    (hothers : ∀ x, x ≠ w → s'.worker x = s.worker x)
    (hbusy : (s'.worker w).loop ≠ .handling → s'.system.pc w = .idle) : Tasks s₀ s' where
  busy x hx := by
    by_cases hxw : x = w
    · subst hxw
      rw [hbusy hx]
      rfl
    · rw [hothers x hxw] at hx
      rw [hat.pcs x hxw]
      exact h.busy x hx
  row x k hk := by
    have hsome : ∀ k, (s.system.world.core.row k).isSome = true →
        (s'.system.world.core.row k).isSome = true := fun k hk => by
      by_cases hkt : k = t
      · subst hkt
        exact hat.row hk
      · exact isSome_of_standing (hat.others k hkt) hk
    by_cases hxw : x = w
    · subst hxw
      rcases hat.task with htask | ⟨hidle, -⟩
      · rw [htask] at hk
        cases hk
        exact hsome _ (h.row x _ ht)
      · rw [hidle] at hk
        cases hk
    · rw [hat.pcs x hxw] at hk
      exact hsome k (h.row x k hk)
  rest k hk := by
    by_cases hkt : k = t
    · -- the worker has left the task
      subst hkt
      rcases hat.task with htask | ⟨-, hfree⟩
      · exact absurd htask (hk w)
      · exact Or.inl hfree
    · refine (h.rest k fun x hx => ?_).of_standing (fun w hw => hclaims ▸ hw) (hat.others k hkt)
      by_cases hxw : x = w
      · subst hxw
        rw [ht] at hx
        exact hkt (Option.some.inj hx).symm
      · exact hk x (by rwa [hat.pcs x hxw])

/-- A claim. -/
theorem Tasks.afterClaim {env : Env} {system : System} (h : Tasks s₀ s)
    (hhead : (s.worker w).loop = .head)
    (hstep : System.Step services s.system (.claim w env) system) :
    Tasks s₀ (s.afterClaim w system) := by
  obtain ⟨hpcs, hrows⟩ := System.claim_rows hstep
  have hwas : (s.system.pc w).taskId? = none := h.busy w (by rw [hhead]; nofun)
  -- before the claim, no worker was at a task that none is at now
  have hbefore : ∀ t, (∀ x, (system.pc x).taskId? ≠ some t) →
      ∀ x, (s.system.pc x).taskId? ≠ some t := fun t ht x hx => by
    by_cases hxw : x = w
    · subst hxw
      rw [hwas] at hx
      cases hx
    · exact ht x (by rwa [hpcs x hxw])
  have hbusy : ∀ (x : DefaultWorker) (claims : List (String × String)),
      (x.loop ≠ .handling → (system.pc w).taskId? = none) → ∀ y,
      (({ s with system, claims }.set w x).worker y).loop ≠ .handling →
        (system.pc y).taskId? = none := fun x claims hx y hy => by
    by_cases hyw : y = w
    · subst hyw
      exact hx (by rwa [worker_set_self] at hy)
    · rw [worker_set_of_ne hyw] at hy
      rw [hpcs y hyw]
      exact h.busy y hy
  rcases hrows with ⟨hidle, hsame⟩ | ⟨entry, hclaimed, hrow, hothers⟩
  · have hnone : (system.pc w).taskId? = none := by
      rcases hidle with hidle | hidle
      · rw [hidle]
        rfl
      · rw [hidle]
        rfl
    have hall : ∀ x : DefaultWorker, Tasks s₀ ({ s with system }.set w x) := fun x => by
      refine ⟨hbusy x s.claims fun _ => hnone, fun y t ht => ?_, fun t ht => ?_⟩
      · by_cases hyw : y = w
        · subst hyw
          exact absurd (hnone.symm.trans ht) nofun
        · refine isSome_of_standing (hsame t) (h.row y t ?_)
          rw [← hpcs y hyw]
          exact ht
      · exact (h.rest t (hbefore t ht)).of_standing (fun _ hw => hw) (hsame t)
    unfold DefaultWorkerPool.afterClaim
    split
    next entry hpc =>
      rw [hpc] at hnone
      cases hnone
    · exact hall _
    · exact hall _
  · unfold DefaultWorkerPool.afterClaim
    rw [hclaimed]
    refine ⟨hbusy _ _ (fun hne => absurd rfl hne), fun y t ht => ?_, fun t ht => ?_⟩
    · by_cases hte : t = entry.taskId
      · subst hte
        exact hrow
      · by_cases hyw : y = w
        · subst hyw
          refine absurd ?_ hte
          have hpc : (system.pc y).taskId? = some t := ht
          rw [hclaimed] at hpc
          exact (Option.some.inj hpc).symm
        · refine isSome_of_standing (hothers t hte) (h.row y t ?_)
          rw [← hpcs y hyw]
          exact ht
    · have hte : t ≠ entry.taskId := by
        rintro rfl
        exact ht w (congrArg Pc.taskId? hclaimed)
      refine (h.rest t (hbefore t ht)).of_standing (fun x hx => ?_) (hothers t hte)
      rcases List.mem_append.mp hx with hx | hx
      · exact hx
      · exact absurd (Prod.ext_iff.mp (List.mem_singleton.mp hx)).2 hte

/-- A part of the handler. -/
theorem Tasks.afterHandle {system : System} (h : Tasks s₀ s)
    (hhandling : (s.worker w).loop = .handling)
    (hat : ∃ t, (s.system.pc w).taskId? = some t ∧ AtTask t w s.system system) :
    Tasks s₀ (s.afterHandle w system) := by
  obtain ⟨t, ht, hat⟩ := hat
  unfold DefaultWorkerPool.afterHandle
  split
  next hidle =>
    exact h.atTask ht hat rfl (fun x hx => worker_set_of_ne hx) fun _ => hidle
  next => exact h.atTask ht hat rfl (fun _ _ => rfl) fun hne => absurd hhandling hne

/-- The catch path. -/
theorem Tasks.afterRelease {env : Env} {system : System} (h : Tasks s₀ s) (henv : env.Faultless)
    (hstep : System.Step services s.system (.release w env) system) :
    Tasks s₀ (s.afterRelease w system) := by
  obtain ⟨t, ht, hat⟩ := System.atTask_release henv hstep
  obtain ⟨hat, hidle⟩ := hat (h.row w t ht)
  unfold DefaultWorkerPool.afterRelease
  split
  · exact h.atTask ht hat rfl (fun x hx => worker_set_of_ne hx) fun _ => hidle
  · exact h.atTask ht hat rfl (fun x hx => worker_set_of_ne hx) fun _ => hidle

/-- The main process enqueues a task. -/
theorem Tasks.enqueue {env : Env} {queueId : String} {workOrder : ParsedWorkOrderV1}
    {nextRole : Role} {system : System} (h : Tasks s₀ s)
    (hstep : System.Step services s.system (.enqueue queueId workOrder nextRole env) system) :
    Tasks s₀ { s with system } := by
  obtain ⟨hpc, hrows⟩ := System.enqueue_rows hstep
  refine ⟨fun w hw => ?_, fun w t ht => ?_, fun t ht => ?_⟩
  · rw [hpc]
    exact h.busy w hw
  · have hsome := h.row w t (by rw [← hpc]; exact ht)
    rcases hrows t with hsame | ⟨hnone, -⟩
    · exact isSome_of_standing hsame hsome
    · rw [hnone] at hsome
      cases hsome
  · rcases hrows t with hsame | ⟨-, hfree⟩
    · refine (h.rest t fun w hw => ht w ?_).of_standing (fun _ hw => hw) hsame
      rw [← hpc] at hw
      exact hw
    · exact Or.inl hfree

end tasks

end DefaultWorkerPool

end AgentWorkflow
