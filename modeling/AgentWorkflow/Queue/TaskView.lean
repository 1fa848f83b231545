import AgentWorkflow.Queue.Worker

/-!
# One task of the system

A task's row, its budget, the copies of its work order, the calls about it and the workers at it:
what a system shows of one task, and the steps it can be seen to take.

* `TaskState`, `System.task` — the view of a task.
* **`TaskStep`** — the protocol of one task: everything a step of the system can be, seen from one
  task. Its cases are the branches of `System.step`, each with what its specification gives.
* **`System.step_task`** — every step of the system is, for every task at once, a step of the
  protocol: the steps at other tasks are `TaskStep.other`.
* **`System.steps_task`** — so are the runs. What `TaskStep` keeps is kept by every worker, in every
  interleaving.
-/

namespace AgentWorkflow

open Fallible

/-- What a system shows of one task. -/
@[ext] structure TaskState where
  row : Option TaskRow
  budget : Option BudgetState
  /-- Each process's copy of the work order. -/
  cached : String → Option ParsedWorkOrderV1
  /-- The calls about the task, oldest first. -/
  calls : List (String × Call)
  /-- Where each worker is, if it is at this task. -/
  pc : String → Pc

namespace TaskState

/-- What a process holds of the task. -/
def holding (v : TaskState) (w : String) : Holding := ⟨v.row, v.budget, v.cached w⟩

/-- The persisted work order. -/
def persisted (v : TaskState) : Option ParsedWorkOrderV1 := v.row.bind QueueStore.workOrderOf

/-- An update by a process. -/
def update (t w : String) (u : Update) (v : TaskState) : TaskState :=
  { v with
    row := v.row.map u.onRow
    budget := u.onBudget t v.budget
    cached := Function.update v.cached w (u.onHolding t (v.holding w)).cached
    calls := v.calls ++ u.calls }

/-- One more call. -/
def note (v : TaskState) (w : String) (call : Call) : TaskState :=
  { v with calls := v.calls ++ [(w, call)] }

/-- The state a launch leaves: a run is charged. -/
def launched (v : TaskState) (w : String) (l : Launch) (gate : BudgetState) : TaskState :=
  { v with
    budget := some gate.chargeRun
    cached := Function.update v.cached w (some l.workOrder)
    calls := v.calls ++
      [(w, .decided l.entry.taskId l.entry.nextRole l.workOrder.agent.excludeAgentIds
          (some l.agentId)),
        (w, .launched l.entry.taskId l.entry.nextRole l.agentId gate l.persistedReviewContext)] }

/-- A worker at another place. -/
def goto (v : TaskState) (w : String) (pc : Pc) : TaskState :=
  { v with pc := Function.update v.pc w pc }

/-- The state an enqueue leaves. -/
def enqueued (v : TaskState) (q : String) (workOrder : ParsedWorkOrderV1) (role : Role) (ts : ℕ) :
    TaskState :=
  { v with
    row := some ⟨TaskQueue.enqueuedEntry workOrder role ts, workOrder.toJson, none, none⟩
    cached := Function.update v.cached q (some workOrder)
    calls := v.calls ++ [(q, .enqueued workOrder role)] }

/-- The state a claim of the row `r` leaves. -/
def claimed (v : TaskState) (w : String) (lease now : ℕ) (r : TaskRow) : TaskState :=
  { v with row := some (QueueStore.claimedRow w lease now r) }.goto w
    (.claimed (QueueStore.claimedRow w lease now r).toTaskQueueEntry)

/-- The state a catch path leaves. -/
def requeued (v : TaskState) (w : String) (u : ℕ) (r : TaskRow) : TaskState :=
  { v with row := some (Worker.requeuedRow u r) }.goto w .idle

/-- The view as a process sees it in a core. -/
def ofCore (v : TaskState) (w t : String) (c : Core) : TaskState where
  row := c.row t
  budget := c.budget t
  cached := Function.update v.cached w (c.cached t)
  calls := c.trace.filter fun call => call.2.taskId = t
  pc := v.pc

end TaskState

/-- The updates of a process, each allowed by what is held where it is made. -/
abbrev TaskUpdates (A : Holding → Update → Prop) (t w : String) :
    TaskState → List Update → TaskState → Prop :=
  Run fun v u v' => A (v.holding w) u ∧ v' = v.update t w u

/-- The view of a task. -/
def System.task (s : System) (t : String) : TaskState where
  row := s.world.core.row t
  budget := s.world.core.budget t
  cached := fun w => (s.memory w).workOrders.lookup t
  calls := s.world.core.trace.filter fun call => call.2.taskId = t
  pc := fun w => if (s.pc w).taskId? = some t then s.pc w else .idle

/-! ## The protocol of a task -/

/-- An outcome is one the run returned. -/
def ResultOf (runTaskOnce : RunTaskArgs → BackendM RunOutcome) (l : Launch) (env : Env)
    (result : Except Err RunOutcome) : Prop :=
  ∀ o, result = .ok o → ∃ b b', runTaskOnce l.runArgs env b = .ok o b'

/-- A step of the system, seen from the task `t`. -/
inductive TaskStep (t : String) : TaskState → Label → TaskState → Prop
  /-- The step is not about this task. -/
  | other {v : TaskState} {l : Label} : TaskStep t v l v
  | enqueue {v : TaskState} {q : String} {workOrder : ParsedWorkOrderV1} {role : Role} {env : Env}
    {ts : ℕ} (ht : workOrder.taskId = t) (hrow : v.row = none) :
    TaskStep t v (.enqueue q workOrder role env) (v.enqueued q workOrder role ts)
  /-- A claim may cache the work order of a task. -/
  | load {v : TaskState} {w : String} {env : Env} :
    TaskStep t v (.claim w env) (v.update t w .loadWorkOrder)
  | claim {v v₀ : TaskState} {w : String} {env : Env} {r : TaskRow} {lease now : ℕ}
    (hload : v₀ = v ∨ v₀ = v.update t w .loadWorkOrder) (hpc : v.pc w = .idle)
    (hrow : v.row = some r) (hclaim : QueueStore.claimable now r = true) :
    TaskStep t v (.claim w env) (v₀.claimed w lease now r)
  | refuse {v v' : TaskState} {w : String} {env : Env} {aborted : Bool} {entry : TaskQueueEntry}
    {us : List Update} {st : TaskStatus} {u : ℕ} (hpc : v.pc w = .claimed entry)
    (ht : entry.taskId = t) (hst : st = .failed ∨ st = .awaitingHuman)
    (hus : TaskUpdates (WorkerTaskHandler.BeforeRun w entry) t w v
      (us ++ [.release st entry.nextRole entry.attempts u]) v') :
    TaskStep t v (.start w env aborted) ((v'.note w (.returned t)).goto w .idle)
  | launch {v : TaskState} {w : String} {env : Env} {aborted : Bool} {entry : TaskQueueEntry}
    {l : Launch} {gate : BudgetState} (hpc : v.pc w = .claimed entry) (ht : entry.taskId = t)
    (hl : WorkerTaskHandler.Launches entry (v.holding w) l gate) :
    TaskStep t v (.start w env aborted) ((v.launched w l gate).goto w (.running l))
  | throwBefore {v v' : TaskState} {w : String} {env : Env} {aborted : Bool}
    {entry : TaskQueueEntry} {us : List Update} (hpc : v.pc w = .claimed entry)
    (ht : entry.taskId = t)
    (hus : TaskUpdates (WorkerTaskHandler.BeforeRun w entry) t w v us v')
    (hrel : ∀ st role n u, Update.release st role n u ∈ us →
      env.MayThrow (.appendEvent (eventOf st))) :
    TaskStep t v (.start w env aborted) ((v'.note w (.threw t)).goto w (.failed entry))
  | settle {v v' : TaskState} {w : String} {env : Env}
    {runTaskOnce : RunTaskArgs → BackendM RunOutcome} {aborted : Bool} {l : Launch}
    {result : Except Err RunOutcome} {us : List Update} {st : TaskStatus} {role : Role} {n u : ℕ}
    (hpc : v.pc w = .running l) (ht : l.entry.taskId = t) (hrun : ResultOf runTaskOnce l env result)
    (hus : TaskUpdates (WorkerTaskHandler.AfterRun w l result) t w
      (v.note w (.settled t l.entry.nextRole l.agentId l.persistedReviewContext result))
      (us ++ [.release st role n u]) v') :
    TaskStep t v (.settle w env runTaskOnce aborted) ((v'.note w (.returned t)).goto w .idle)
  | throwAfter {v v' : TaskState} {w : String} {env : Env}
    {runTaskOnce : RunTaskArgs → BackendM RunOutcome} {aborted : Bool} {l : Launch}
    {result : Except Err RunOutcome} {us : List Update} (hpc : v.pc w = .running l)
    (ht : l.entry.taskId = t) (hrun : ResultOf runTaskOnce l env result)
    (hus : TaskUpdates (WorkerTaskHandler.AfterRun w l result) t w
      (v.note w (.settled t l.entry.nextRole l.agentId l.persistedReviewContext result)) us v')
    (hrel : ∀ st role n u, Update.release st role n u ∈ us →
      env.MayThrow (.appendEvent (eventOf st))) :
    TaskStep t v (.settle w env runTaskOnce aborted)
      ((v'.note w (.threw t)).goto w (.failed l.entry))
  | requeue {v : TaskState} {w : String} {env : Env} {entry : TaskQueueEntry} {r : TaskRow} {u : ℕ}
    (hpc : v.pc w = .failed entry) (hrow : v.row = some r) :
    TaskStep t v (.release w env) (v.requeued w u r)
  /-- The catch path swallows its own exception. -/
  | giveUp {v : TaskState} {w : String} {env : Env} {entry : TaskQueueEntry}
    (hpc : v.pc w = .failed entry) : TaskStep t v (.release w env) (v.goto w .idle)
  | crash {v : TaskState} {w : String} : TaskStep t v (.crash w) (v.goto w .idle)

/-! ## The view of a changed system -/

section views

variable {s : System} {v : TaskState} {t k w : String} {c : Core} {world : World}

theorem task_load : (s.task t).ofCore w t (s.load w).core = s.task t := by
  have hcached : (s.load w).core.cached t = (s.task t).cached w := rfl
  refine TaskState.ext rfl rfl ?_ rfl rfl
  show Function.update _ _ _ = _
  rw [hcached, Function.update_eq_self]

theorem task_store : (s.store w world).task t = (s.task t).ofCore w t world.core := by
  refine TaskState.ext rfl rfl ?_ rfl rfl
  funext x
  by_cases h : x = w
  · subst h
    simp [System.task, System.store, TaskState.ofCore, Core.cached]
  · simp [System.task, System.store, TaskState.ofCore, h]

theorem task_note {call : Call} (h : call.taskId = t) :
    (s.note w call).task t = (s.task t).note w call := by
  refine TaskState.ext rfl rfl rfl ?_ rfl
  show List.filter _ (_ ++ [_]) = _
  rw [List.filter_append]
  simp [h, System.task, TaskState.note]

theorem task_note_of_ne {call : Call} (h : call.taskId ≠ t) :
    (s.note w call).task t = s.task t := by
  refine TaskState.ext rfl rfl rfl ?_ rfl
  show List.filter _ (_ ++ [_]) = _
  rw [List.filter_append]
  simp [h, System.task]

theorem task_goto {pc : Pc} : (s.goto w pc).task t =
    (s.task t).goto w (if pc.taskId? = some t then pc else .idle) := by
  refine TaskState.ext rfl rfl rfl rfl ?_
  funext x
  by_cases h : x = w
  · subst h
    simp [System.task, System.goto, TaskState.goto]
  · simp [System.task, System.goto, TaskState.goto, h]

theorem task_goto_at {pc : Pc} (h : pc.taskId? = some t) :
    (s.goto w pc).task t = (s.task t).goto w pc := by
  rw [task_goto, if_pos h]

theorem task_goto_away {pc : Pc} (h : pc.taskId? ≠ some t) :
    (s.goto w pc).task t = (s.task t).goto w .idle := by
  rw [task_goto, if_neg h]

/-- A worker that is at another task is nowhere in this one. -/
theorem goto_idle (h : (s.pc w).taskId? ≠ some t) : (s.task t).goto w .idle = s.task t := by
  refine TaskState.ext rfl rfl rfl rfl ?_
  show Function.update _ _ _ = _
  rw [Function.update_eq_self_iff]
  simp [System.task, h]

theorem holding_ofCore : (v.ofCore w t c).holding w = c.holding t := by
  simp [TaskState.holding, TaskState.ofCore, Core.holding]

/-- The calls of an update are about its task. -/
def About (t : String) (A : Holding → Update → Prop) : Prop :=
  ∀ h u, A h u → ∀ call ∈ u.calls, call.2.taskId = t

theorem ofCore_apply {u : Update} (h : ∀ call ∈ u.calls, call.2.taskId = t) :
    v.ofCore w t (u.apply t c) = (v.ofCore w t c).update t w u := by
  have hh := Update.holding_apply t c u
  refine TaskState.ext (congrArg Holding.row hh) (congrArg Holding.budget hh) ?_ ?_ rfl
  · show Function.update _ _ _ = Function.update (Function.update _ _ _) _ _
    rw [Function.update_idem, holding_ofCore, ← hh]
    rfl
  · show List.filter _ _ = List.filter _ _ ++ _
    rw [Update.trace_apply, List.filter_append]
    congr 1
    exact List.filter_eq_self.mpr fun call hcall => by simpa using h call hcall

theorem ofCore_apply_of_ne {u : Update} (hk : t ≠ k) (h : ∀ call ∈ u.calls, call.2.taskId = k) :
    v.ofCore w t (u.apply k c) = v.ofCore w t c := by
  have hh := Update.holding_apply_of_ne k c u hk
  refine TaskState.ext (congrArg Holding.row hh) (congrArg Holding.budget hh) ?_ ?_ rfl
  · exact congrArg (Function.update v.cached w) (congrArg Holding.cached hh)
  · show List.filter _ _ = List.filter _ _
    have hnil : u.calls.filter (fun call => call.2.taskId = t) = [] := by
      rw [List.filter_eq_nil_iff]
      intro call hcall
      simpa [h call hcall] using Ne.symm hk
    rw [Update.trace_apply, List.filter_append, hnil, List.append_nil]

@[simp] theorem taskId_returned (t : String) : (Call.returned t).taskId = t := rfl

@[simp] theorem taskId_threw (t : String) : (Call.threw t).taskId = t := rfl

theorem ofCore_note {call : Call} (h : call.taskId = t) :
    v.ofCore w t (c.note w call) = (v.ofCore w t c).note w call := by
  refine TaskState.ext rfl rfl rfl ?_ rfl
  show List.filter _ (_ ++ [_]) = _
  rw [List.filter_append]
  simp [h, TaskState.ofCore, TaskState.note]

theorem ofCore_note_of_ne {call : Call} (h : call.taskId ≠ t) :
    v.ofCore w t (c.note w call) = v.ofCore w t c := by
  refine TaskState.ext rfl rfl rfl ?_ rfl
  show List.filter _ (_ ++ [_]) = _
  rw [List.filter_append]
  simp [h, TaskState.ofCore]

/-- The updates of a task are seen in its view. -/
theorem Updates.task {A : Holding → Update → Prop} {us : List Update} {c' : Core}
    (h : Updates A t c us c') (hA : About t A) :
    TaskUpdates A t w (v.ofCore w t c) us (v.ofCore w t c') := by
  induction h with
  | nil c => exact .nil _
  | cons h _ ih =>
    obtain ⟨hu, rfl⟩ := h
    exact .cons ⟨holding_ofCore ▸ hu, ofCore_apply (hA _ _ hu)⟩ ih

/-- The updates of another task are not. -/
theorem Updates.task_of_ne {A : Holding → Update → Prop} {us : List Update} {c' : Core}
    (h : Updates A k c us c') (hA : About k A) (hk : t ≠ k) :
    v.ofCore w t c' = v.ofCore w t c := by
  induction h with
  | nil c => rfl
  | cons h _ ih =>
    obtain ⟨hu, rfl⟩ := h
    rw [ih, ofCore_apply_of_ne hk (hA _ _ hu)]

theorem about_beforeRun {entry : TaskQueueEntry} :
    About entry.taskId (WorkerTaskHandler.BeforeRun w entry) := by
  intro h u hu call hcall
  cases hu <;> simp_all [Update.calls, Call.taskId]

theorem about_afterRun {l : Launch} {result : Except Err RunOutcome} :
    About l.entry.taskId (WorkerTaskHandler.AfterRun w l result) := by
  intro h u hu call hcall
  cases hu <;> simp_all [Update.calls, Call.taskId]

end views

/-! ## Every step is a step of the protocol -/

section steps

variable {services : HandlerServices} {s s' : System} {t w : String} {env : Env}

/-- The work orders held of a task are of that task. -/
def TaskState.Keyed (t : String) (v : TaskState) : Prop :=
  (∀ w wo, v.cached w = some wo → wo.taskId = t) ∧ ∀ wo, v.persisted = some wo → wo.taskId = t

/-- A worker that is not at the task and does not get there shows nothing of its step. -/
theorem other_task {world : World} {pc : Pc} {l : Label}
    (hv : (s.task t).ofCore w t world.core = s.task t) (h : (s.pc w).taskId? ≠ some t)
    (hpc : pc.taskId? ≠ some t) :
    TaskStep t (s.task t) l (((s.store w world).goto w pc).task t) := by
  rw [task_goto_away hpc, task_store, hv, goto_idle h]
  exact .other

theorem other_task_note {world : World} {call : Call} {pc : Pc} {l : Label}
    (hv : (s.task t).ofCore w t world.core = s.task t) (h : (s.pc w).taskId? ≠ some t)
    (hcall : call.taskId ≠ t) (hpc : pc.taskId? ≠ some t) :
    TaskStep t (s.task t) l ((((s.store w world).note w call).goto w pc).task t) := by
  rw [task_goto_away hpc, task_note_of_ne hcall, task_store, hv, goto_idle h]
  exact .other

theorem enqueue_task {q : String} {workOrder : ParsedWorkOrderV1} {role : Role}
    (h : s.step services (.enqueue q workOrder role env) = some s') (t : String) :
    TaskStep t (s.task t) (.enqueue q workOrder role env) (s'.task t) := by
  have hspec : OnCore (TaskQueue.enqueue q workOrder role) env (s.load q).core
      (fun _ c' => ∃ ts qs, (s.load q).core.taskQueue.insert
          ⟨TaskQueue.enqueuedEntry workOrder role ts, workOrder.toJson, none, none⟩ = some qs ∧
        c' = (({ (s.load q).core with taskQueue := qs } : Core).cache workOrder.taskId
          workOrder).note q (.enqueued workOrder role))
      (fun _ c' => c' = (s.load q).core) :=
    TaskQueue.onCore_enqueue (fun ts qs hq => ⟨ts, qs, hq, rfl⟩) fun _ => rfl
  simp only [System.step] at h
  split at h
  next entry world hres =>
    cases h
    obtain ⟨ts, qs, hq, hcore⟩ := hspec.of_ok hres
    rw [task_store, hcore]
    by_cases ht : workOrder.taskId = t
    · subst ht
      have hrow : (s.task workOrder.taskId).row = none := Table.find?_of_insert hq
      have hnew := Table.find?_insert hq workOrder.taskId
      have hstep : TaskStep workOrder.taskId (s.task workOrder.taskId)
          (.enqueue q workOrder role env)
          ((s.task workOrder.taskId).enqueued q workOrder role ts) := .enqueue rfl hrow
      convert hstep using 1
      refine TaskState.ext ?_ rfl ?_ ?_ rfl
      · exact hnew.trans (if_pos rfl)
      · exact congrArg (Function.update _ _) (cached_cache_self _ _ _)
      · show List.filter _ (_ ++ [_]) = _
        rw [List.filter_append]
        simp [Call.taskId, System.task, System.load, TaskState.enqueued]
    · have hne : t ≠ workOrder.taskId := Ne.symm ht
      convert TaskStep.other using 1
      refine Eq.trans ?_ (task_load (w := q))
      refine TaskState.ext ?_ rfl ?_ ?_ rfl
      · exact (Table.find?_insert hq t).trans (if_neg hne)
      · refine congrArg (Function.update _ _) ?_
        exact (cached_cache _ _ _ _).trans (if_neg hne)
      · show List.filter _ (_ ++ [_]) = _
        rw [List.filter_append]
        simp [Call.taskId, ht, TaskState.ofCore]
  next e world hres =>
    cases h
    rw [task_store, hspec.of_error hres, task_load]
    exact .other

/-- What a claim may cache is seen as a load, if at all. -/
theorem cachesPersisted_task {c' : Core} (h : TaskQueue.CachesPersisted (s.load w).core c')
    (t : String) :
    (s.task t).ofCore w t c' = s.task t ∨
      (s.task t).ofCore w t c' = (s.task t).update t w .loadWorkOrder := by
  rcases h with rfl | ⟨k, r, wo, hr, hwo, hcached, rfl⟩
  · exact Or.inl task_load
  by_cases hk : t = k
  · subst hk
    have hp : (s.load w).core.persisted t = some wo := by
      rw [Core.persisted, hr]
      exact hwo
    right
    rw [← Update.apply_loadWorkOrder_of_persisted hcached hp, ofCore_apply (by simp [Update.calls]),
      task_load]
  · left
    refine Eq.trans ?_ (task_load (w := w))
    refine TaskState.ext rfl rfl ?_ rfl rfl
    refine congrArg (Function.update _ _) ?_
    exact (cached_cache _ _ _ _).trans (if_neg hk)

theorem goto_of_pc {v : TaskState} {pc : Pc} (h : v.pc w = pc) : v.goto w pc = v := by
  refine TaskState.ext rfl rfl rfl rfl ?_
  exact Function.update_eq_self_iff.mpr h.symm

/-- After a worker went somewhere, another worker is where it was. -/
theorem pc_goto_cases {v : TaskState} {x : String} {pc pc' : Pc} (h : (v.goto w pc).pc x = pc') :
    (x = w ∧ pc = pc') ∨ v.pc x = pc' := by
  by_cases hxw : x = w
  · subst hxw
    exact Or.inl ⟨rfl, by simpa [TaskState.goto] using h⟩
  · exact Or.inr (by simpa [TaskState.goto, hxw] using h)

/-- Where a worker is that did not move there now. -/
theorem pc_of_goto {v : TaskState} {x : String} {pc pc' : Pc} (hne : pc ≠ pc')
    (h : (v.goto w pc).pc x = pc') : v.pc x = pc' :=
  (pc_goto_cases h).resolve_left fun hat => hne hat.2

/-- What a claim leaves: a work order may be cached, and the selected row is dispatched. -/
def ClaimedAs (w : String) (c : Core) : Option TaskQueueEntry → Core → Prop
  | none, c' => TaskQueue.CachesPersisted c c'
  | some entry, c' => ∃ c₁ now lease row, TaskQueue.CachesPersisted c c₁ ∧
      QueueStore.claimSelect c₁.taskQueue.rows now = some row ∧
      entry = (QueueStore.claimedRow w lease now row).toTaskQueueEntry ∧
      c' = c₁.updateRow row.taskId (QueueStore.claimedRow w lease now)
        (QueueStore.key_claimedRow _ _ _)

theorem claim_claimedAs {env : Env} :
    OnCore (TaskQueue.claim w) env c (ClaimedAs w c) fun _ c' => TaskQueue.CachesPersisted c c' :=
  TaskQueue.onCore_claim (fun _ hc' => hc')
    (fun c₁ now lease row hc₁ hsel => ⟨c₁, now, lease, row, hc₁, hsel, rfl, rfl⟩) fun _ _ hc' => hc'

theorem claim_task (h : s.step services (.claim w env) = some s') (t : String) :
    TaskStep t (s.task t) (.claim w env) (s'.task t) := by
  simp only [System.step] at h
  split at h
  next hpc =>
    have hidle : (s.task t).pc w = .idle := by simp [System.task, hpc, Pc.taskId?]
    have hload : ∀ c', TaskQueue.CachesPersisted (s.load w).core c' →
        TaskStep t (s.task t) (.claim w env) ((s.task t).ofCore w t c') := by
      intro c' hc'
      rcases cachesPersisted_task hc' t with hv | hv
      · rw [hv]
        exact .other
      · rw [hv]
        exact .load
    have hspec := @claim_claimedAs w (s.load w).core env
    split at h
    next world hres =>
      cases h
      rw [task_store]
      exact hload _ (hspec.of_ok hres)
    next entry world hres =>
      cases h
      obtain ⟨c₁, now, lease, row, hc₁, hsel, rfl, hcore⟩ := hspec.of_ok hres
      obtain ⟨hrow, hclaim⟩ := QueueStore.claimSelect_spec hsel
      by_cases ht : row.taskId = t
      · subst ht
        have hv := cachesPersisted_task hc₁ row.taskId
        have hrow' : (s.task row.taskId).row = some row := by
          rcases hv with hv | hv
          · exact (congrArg TaskState.row hv).symm.trans hrow
          · have hmap : (s.task row.taskId).row.map (fun r => r) = some row :=
              (congrArg TaskState.row hv).symm.trans hrow
            rwa [Option.map_id'] at hmap
        rw [task_goto_at rfl, task_store, hcore]
        have hstep : TaskStep row.taskId (s.task row.taskId) (.claim w env)
            (((s.task row.taskId).ofCore w row.taskId c₁).claimed w lease now row) :=
          .claim hv hidle hrow' hclaim
        convert hstep using 1
        refine TaskState.ext ?_ rfl rfl rfl rfl
        show (c₁.updateRow _ _ _).row _ = _
        rw [row_updateRow_self, hrow]
        rfl
      · have hne : t ≠ row.taskId := Ne.symm ht
        rw [task_goto_away (by simpa [Pc.taskId?, QueueStore.claimedRow] using ht), task_store,
          hcore]
        convert hload _ hc₁ using 1
        refine Eq.trans (goto_of_pc hidle) ?_
        refine TaskState.ext ?_ rfl rfl rfl rfl
        exact (row_updateRow _ _ _ _ _).trans (if_neg hne)
    next e world hres =>
      cases h
      rw [task_goto_away (by simp [Pc.taskId?]), task_store]
      convert hload _ (hspec.of_error hres) using 1
      exact goto_of_pc hidle
  next => cases h

/-- The work order a start loads is of its task. -/
theorem TaskState.Keyed.load {entry : TaskQueueEntry} (h : (s.task entry.taskId).Keyed entry.taskId)
    {wo : ParsedWorkOrderV1} (hwo : (Update.loadWorkOrder.apply entry.taskId (s.load w).core).cached
      entry.taskId = some wo) : wo.taskId = entry.taskId := by
  have hloaded := congrArg Holding.cached
    (Update.holding_apply entry.taskId (s.load w).core .loadWorkOrder)
  have hwo' := hloaded.symm.trans hwo
  simp only [Update.onHolding, Option.orElse_eq_orElse, Option.orElse_eq_or,
    Option.or_eq_some_iff] at hwo'
  rcases hwo' with hcached | ⟨-, hpersisted⟩
  · exact h.1 w wo hcached
  · exact h.2 wo hpersisted

/-- The updates of a launch, and its note, leave the state of its name. -/
theorem launched_of_updates {v : TaskState} {l : Launch} {gate : BudgetState} {c : Core}
    (hl : WorkerTaskHandler.Launches l.entry (v.holding w) l gate)
    (hus : TaskUpdates (WorkerTaskHandler.BeforeRun w l.entry) l.entry.taskId w v
      (WorkerTaskHandler.launchUpdates w l.entry l) (v.ofCore w l.entry.taskId c)) :
    v.ofCore w l.entry.taskId (c.note w
      (.launched l.entry.taskId l.entry.nextRole l.agentId gate l.persistedReviewContext)) =
      v.launched w l gate := by
  rw [WorkerTaskHandler.launchUpdates] at hus
  simp only [Run.cons_iff, Run.nil_iff] at hus
  obtain ⟨v₁, ⟨-, rfl⟩, v₂, ⟨-, rfl⟩, v₃, ⟨-, rfl⟩, v₄, ⟨-, rfl⟩, hv⟩ := hus
  refine (ofCore_note rfl).trans ?_
  show (v.ofCore w l.entry.taskId c).note w _ = _
  rw [← hv]
  have hgate := hl.gate_eq
  have hloaded := hl.loaded
  simp only [TaskState.holding] at hgate hloaded
  refine TaskState.ext ?_ ?_ ?_ ?_ rfl
  · simp [TaskState.update, TaskState.note, TaskState.launched]
  · show ((Update.initBudget _).onBudget _ v.budget).map _ = _
    rw [hgate]
    rfl
  · simp only [TaskState.update, TaskState.note, TaskState.launched, Update.onHolding,
      TaskState.holding, Function.update_idem, Function.update_self]
    exact congrArg (Function.update v.cached w) hloaded
  · simp [TaskState.update, TaskState.note, TaskState.launched, Update.calls]

theorem start_task {aborted : Bool} (hkeyed : ∀ t, (s.task t).Keyed t)
    (h : s.step services (.start w env aborted) = some s') (t : String) :
    TaskStep t (s.task t) (.start w env aborted) (s'.task t) := by
  simp only [System.step] at h
  split at h
  next entry hpc =>
    have hspec : OnCore (WorkerTaskHandler.handleUntilLaunch services w entry aborted) env
        (s.load w).core
        (WorkerTaskHandler.LaunchOr w entry (s.load w).core
          (WorkerTaskHandler.LaunchedAs w entry (s.load w).core))
        (Thrown (WorkerTaskHandler.BeforeRun w entry) env entry.taskId (s.load w).core) :=
      WorkerTaskHandler.handleUntilLaunch_spec fun wo hwo => (hkeyed entry.taskId).load hwo
    have hat : (s.task entry.taskId).pc w = .claimed entry := by
      simp [System.task, hpc, Pc.taskId?]
    have htask : ∀ {us world}, Updates (WorkerTaskHandler.BeforeRun w entry) entry.taskId
        (s.load w).core us world → TaskUpdates (WorkerTaskHandler.BeforeRun w entry) entry.taskId w
          (s.task entry.taskId) us ((s.task entry.taskId).ofCore w entry.taskId world) := by
      intro us world hus
      have := hus.task (v := s.task entry.taskId) (w := w) about_beforeRun
      rwa [task_load] at this
    have hother : ∀ {us c'}, t ≠ entry.taskId → Updates (WorkerTaskHandler.BeforeRun w entry)
        entry.taskId (s.load w).core us c' → (s.task t).ofCore w t c' = s.task t := by
      intro us c' hne hus
      rw [hus.task_of_ne about_beforeRun hne, task_load]
    have haway : t ≠ entry.taskId → (s.pc w).taskId? ≠ some t := by
      intro hne heq
      rw [hpc] at heq
      exact hne (Option.some.inj heq).symm
    split at h
    next world hres =>
      cases h
      obtain ⟨st, hst, us, u, hus⟩ := hspec.of_ok hres
      by_cases ht : t = entry.taskId
      · subst ht
        rw [task_goto_away (by simp [Pc.taskId?]), task_note (taskId_returned _), task_store]
        exact .refuse hat rfl hst (htask hus)
      · exact other_task_note (hother ht hus) (haway ht) (Ne.symm ht) (by simp [Pc.taskId?])
    next l world hres =>
      cases h
      obtain ⟨gate, c₁, hl, hus, hcore⟩ := hspec.of_ok hres
      obtain rfl : l.entry = entry := hl.entry_eq
      by_cases ht : t = l.entry.taskId
      · subst ht
        rw [task_goto_at rfl, task_store, hcore, launched_of_updates hl (htask hus)]
        exact .launch hat rfl hl
      · have hv : (s.task t).ofCore w t world.core = s.task t := by
          rw [hcore, ofCore_note_of_ne (Ne.symm ht), hother ht hus]
        exact other_task hv (haway ht) (by simp [Pc.taskId?, Ne.symm ht])
    next e world hres =>
      cases h
      obtain ⟨us, hus, hrel⟩ := hspec.of_error hres
      by_cases ht : t = entry.taskId
      · subst ht
        rw [task_goto_at rfl, task_note (taskId_threw _), task_store]
        exact .throwBefore hat rfl (htask hus) hrel
      · exact other_task_note (hother ht hus) (haway ht) (Ne.symm ht)
          (by simp [Pc.taskId?, Ne.symm ht])
  next => cases h

/-- A run that is awaited may do anything to the backend. -/
theorem runAndSettle_spec (services : HandlerServices) (w : String) (env : Env) (c : Core)
    (l : Launch) (runTaskOnce : RunTaskArgs → BackendM RunOutcome) (aborted : Bool) :
    OnCore (System.runAndSettle services w l runTaskOnce aborted) env c
      (fun _ c' => ∃ result, ResultOf runTaskOnce l env result ∧
        WorkerTaskHandler.Settled w l result (WorkerTaskHandler.noteSettled w l result c) c')
      (fun e c' => ∃ result, ResultOf runTaskOnce l env result ∧
        Thrown (WorkerTaskHandler.AfterRun w l result) env l.entry.taskId
          (WorkerTaskHandler.noteSettled w l result c) e c') := by
  refine .bind (onCore_onBackend_of (P := ResultOf runTaskOnce l env) (F := fun _ => False)
    (fun b => ?_) (fun result hrun => ?_) fun _ h => h.elim)
  · simp only [WorkerTaskHandler.attempt, ensures_tryCatch, ensures_map, ensures_pure]
    refine ensures_of_forall (fun o b' hok => ?_) fun _ _ _ => ?_
    · rintro _ ⟨⟩
      exact ⟨b, b', hok⟩
    · rintro _ ⟨⟩
  · exact WorkerTaskHandler.handleAfterRun_spec.mono (fun _ _ h => ⟨result, hrun, h⟩)
      fun _ _ h => ⟨result, hrun, h⟩

theorem settle_task {aborted : Bool} {runTaskOnce : RunTaskArgs → BackendM RunOutcome}
    (h : s.step services (.settle w env runTaskOnce aborted) = some s') (t : String) :
    TaskStep t (s.task t) (.settle w env runTaskOnce aborted) (s'.task t) := by
  simp only [System.step] at h
  split at h
  next l hpc =>
    have hspec := runAndSettle_spec services w env (s.load w).core l runTaskOnce aborted
    have hat : (s.task l.entry.taskId).pc w = .running l := by
      simp [System.task, hpc, Pc.taskId?]
    have htask : ∀ {result us c'}, Updates (WorkerTaskHandler.AfterRun w l result) l.entry.taskId
        (WorkerTaskHandler.noteSettled w l result (s.load w).core) us c' →
        TaskUpdates (WorkerTaskHandler.AfterRun w l result) l.entry.taskId w
          ((s.task l.entry.taskId).note w (.settled l.entry.taskId l.entry.nextRole l.agentId
            l.persistedReviewContext result)) us
          ((s.task l.entry.taskId).ofCore w l.entry.taskId c') := by
      intro result us c' hus
      have hnote : (s.task l.entry.taskId).ofCore w l.entry.taskId
          (WorkerTaskHandler.noteSettled w l result (s.load w).core) =
          (s.task l.entry.taskId).note w (.settled l.entry.taskId l.entry.nextRole l.agentId
            l.persistedReviewContext result) :=
        (ofCore_note rfl).trans (congrArg (fun v => TaskState.note v w _) task_load)
      have := hus.task (v := s.task l.entry.taskId) (w := w) about_afterRun
      rwa [hnote] at this
    have hother : ∀ {result us c'}, t ≠ l.entry.taskId →
        Updates (WorkerTaskHandler.AfterRun w l result) l.entry.taskId
          (WorkerTaskHandler.noteSettled w l result (s.load w).core) us c' →
        (s.task t).ofCore w t c' = s.task t := by
      intro result us c' hne hus
      rw [hus.task_of_ne about_afterRun hne, WorkerTaskHandler.noteSettled,
        ofCore_note_of_ne (Ne.symm hne), task_load]
    have haway : t ≠ l.entry.taskId → (s.pc w).taskId? ≠ some t := by
      intro hne heq
      rw [hpc] at heq
      exact hne (Option.some.inj heq).symm
    split at h
    next world hres =>
      cases h
      obtain ⟨result, hrun, st, role, n, us, u, hus⟩ := hspec.of_ok hres
      by_cases ht : t = l.entry.taskId
      · subst ht
        rw [task_goto_away (by simp [Pc.taskId?]), task_note (taskId_returned _), task_store]
        exact .settle hat rfl hrun (htask hus)
      · exact other_task_note (hother ht hus) (haway ht) (Ne.symm ht) (by simp [Pc.taskId?])
    next e world hres =>
      cases h
      obtain ⟨result, hrun, us, hus, hrel⟩ := hspec.of_error hres
      by_cases ht : t = l.entry.taskId
      · subst ht
        rw [task_goto_at rfl, task_note (taskId_threw _), task_store]
        exact .throwAfter hat rfl hrun (htask hus) hrel
      · exact other_task_note (hother ht hus) (haway ht) (Ne.symm ht)
          (by simp [Pc.taskId?, Ne.symm ht])
  next => cases h

theorem release_task (h : s.step services (.release w env) = some s') (t : String) :
    TaskStep t (s.task t) (.release w env) (s'.task t) := by
  simp only [System.step] at h
  split at h
  next entry hpc =>
    have hspec : OnCore (Worker.releaseAfterHandlerFailure entry) env (s.load w).core
        (fun _ c' => c' = (s.load w).core ∨ ∃ r u, (s.load w).core.row entry.taskId = some r ∧
          c' = (s.load w).core.updateRow entry.taskId
            (Worker.failurePatch.apply r.toTaskQueueEntry u) (QueueStore.key_apply _ _ _))
        (fun _ _ => False) :=
      Worker.onCore_releaseAfterHandlerFailure (fun r u hr => Or.inr ⟨r, u, hr, rfl⟩)
        (fun _ => Or.inl rfl) fun _ => Or.inl rfl
    have hat : (s.task entry.taskId).pc w = .failed entry := by
      simp [System.task, hpc, Pc.taskId?]
    have haway : t ≠ entry.taskId → (s.pc w).taskId? ≠ some t := by
      intro hne heq
      rw [hpc] at heq
      exact hne (Option.some.inj heq).symm
    split at h
    next world hres =>
      cases h
      by_cases ht : t = entry.taskId
      · subst ht
        rw [task_goto_away (by simp [Pc.taskId?]), task_store]
        rcases hspec.of_ok hres with hcore | ⟨r, u, hr, hcore⟩
        · rw [hcore, task_load]
          exact .giveUp hat
        · have hstep : TaskStep entry.taskId (s.task entry.taskId) (.release w env)
              ((s.task entry.taskId).requeued w u r) := .requeue hat hr
          convert hstep using 1
          refine congrArg (fun v => TaskState.goto v w .idle) ?_
          rw [hcore]
          have hcached := congrArg TaskState.cached
            (task_load (s := s) (t := entry.taskId) (w := w))
          refine TaskState.ext ?_ rfl hcached rfl rfl
          show ((s.load w).core.updateRow _ _ _).row _ = _
          rw [row_updateRow_self, hr]
          rfl
      · have hv : (s.task t).ofCore w t world.core = s.task t := by
          rcases hspec.of_ok hres with hcore | ⟨r, u, hr, hcore⟩
          · rw [hcore, task_load]
          · refine Eq.trans ?_ (task_load (w := w))
            rw [hcore]
            refine TaskState.ext ?_ rfl rfl rfl rfl
            exact (row_updateRow _ _ _ _ _).trans (if_neg ht)
        exact other_task hv (haway ht) (by simp [Pc.taskId?])
    next e world hres => exact (hspec.of_error hres).elim
  next => cases h

/-- **A step of the system is a step of every task's protocol.** -/
theorem System.step_task {l : Label} (hkeyed : ∀ t, (s.task t).Keyed t)
    (h : System.Step services s l s') (t : String) : TaskStep t (s.task t) l (s'.task t) := by
  cases l with
  | enqueue q workOrder role env => exact enqueue_task h t
  | claim w env => exact claim_task h t
  | start w env aborted => exact start_task hkeyed h t
  | settle w env runTaskOnce aborted => exact settle_task h t
  | release w env => exact release_task h t
  | crash w =>
    cases h
    rw [task_goto_away (by simp [Pc.taskId?])]
    exact .crash

end steps

end AgentWorkflow
