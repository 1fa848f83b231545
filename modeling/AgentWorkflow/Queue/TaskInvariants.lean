import AgentWorkflow.Queue.TaskView

/-!
# Invariants of a task

What holds of a task in every state of every run.

* **`Closed`** — the rule for invariants of the protocol: what every update, and each of the few
  other moves of a worker, keeps. `Closed.step` turns it into an invariant of `TaskStep`.
* `HeldAs` — the work order every process holds of a task is the enqueued one with some exclude
  list; a task has been enqueued once.
* **`System.steps_task`** — every run of the system is a run of the protocol of every task.
-/

namespace AgentWorkflow

open WorkerTaskHandler

/-! ## The rule -/

/-- What every move at the task `t` keeps. -/
structure Closed (t : String) (I : TaskState → Prop) : Prop where
  enqueue : ∀ v q workOrder role ts, I v → workOrder.taskId = t → v.row = none →
    I (v.enqueued q workOrder role ts)
  load : ∀ v w, I v → I (v.update t w .loadWorkOrder)
  claim : ∀ v w lease now r, I v → v.pc w = .idle → v.row = some r →
    QueueStore.claimable now r = true → I (v.claimed w lease now r)
  beforeRun : ∀ v w entry u, I v → v.pc w = .claimed entry → entry.taskId = t →
    BeforeRun w entry (v.holding w) u → I (v.update t w u)
  launch : ∀ v w entry l gate, I v → v.pc w = .claimed entry → entry.taskId = t →
    Launches entry (v.holding w) l gate → I ((v.launched w l gate).goto w (.running l))
  settled : ∀ v w l result, I v → v.pc w = .running l → l.entry.taskId = t →
    I (v.note w (.settled t l.entry.nextRole l.agentId l.persistedReviewContext result))
  afterRun : ∀ v w l result u, I v → v.pc w = .running l → l.entry.taskId = t →
    AfterRun w l result (v.holding w) u → I (v.update t w u)
  returned : ∀ v w, I v → v.pc w ≠ .idle → I ((v.note w (.returned t)).goto w .idle)
  threw : ∀ v w entry, I v →
    (v.pc w = .claimed entry ∨ ∃ l, v.pc w = .running l ∧ l.entry = entry) →
    I ((v.note w (.threw t)).goto w (.failed entry))
  requeue : ∀ v w entry u r, I v → v.pc w = .failed entry → v.row = some r → I (v.requeued w u r)
  leave : ∀ v w, I v → I (v.goto w .idle)

section closed

variable {t : String} {I : TaskState → Prop} {v v' : TaskState} {w : String}

@[simp] theorem row_update_loadWorkOrder : (v.update t w .loadWorkOrder).row = v.row := by
  simp [TaskState.update]

/-- Updates leave the workers where they are. -/
theorem pc_of_updates {A : Holding → Update → Prop} {us : List Update}
    (h : TaskUpdates A t w v us v') : v'.pc = v.pc := by
  refine h.invariant (I := fun v₁ => v₁.pc = v.pc) rfl ?_
  rintro v₁ u v₂ ⟨-, rfl⟩ h₁
  exact h₁

/-- What each update keeps, a sequence of them keeps. -/
theorem TaskUpdates.keep {A : Holding → Update → Prop} {us : List Update}
    (h : TaskUpdates A t w v us v') (hI : I v)
    (hstep : ∀ v₁ u, I v₁ → v₁.pc = v.pc → A (v₁.holding w) u → I (v₁.update t w u)) : I v' := by
  have hboth : I v' ∧ v'.pc = v.pc := by
    refine h.invariant (I := fun v₁ => I v₁ ∧ v₁.pc = v.pc) ⟨hI, rfl⟩ ?_
    rintro v₁ u v₂ ⟨hA, rfl⟩ ⟨h₁, hpc⟩
    exact ⟨hstep v₁ u h₁ hpc hA, hpc⟩
  exact hboth.1

/-- **What the moves keep, the protocol keeps.** -/
theorem Closed.step {l : Label} (hI : Closed t I) (h : TaskStep t v l v') (hv : I v) : I v' := by
  cases h with
  | other => exact hv
  | enqueue ht hrow => exact hI.enqueue _ _ _ _ _ hv ht hrow
  | load => exact hI.load _ _ hv
  | claim hload hpc hrow hclaim =>
    rcases hload with rfl | rfl
    · exact hI.claim _ _ _ _ _ hv hpc hrow hclaim
    · exact hI.claim _ _ _ _ _ (hI.load _ _ hv) hpc (by simpa using hrow) hclaim
  | @refuse v₁ w env aborted entry us st u hpc ht hst hus =>
    have h₁ : I v₁ := TaskUpdates.keep hus hv fun v₂ u h₂ hpc₂ hA =>
      hI.beforeRun _ _ _ _ h₂ (by rw [hpc₂, hpc]) ht hA
    exact hI.returned _ _ h₁ (by rw [pc_of_updates hus, hpc]; simp)
  | launch hpc ht hl => exact hI.launch _ _ _ _ _ hv hpc ht hl
  | @throwBefore v₁ w env aborted entry us hpc ht hus hrel =>
    have h₁ : I v₁ := TaskUpdates.keep hus hv fun v₂ u h₂ hpc₂ hA =>
      hI.beforeRun _ _ _ _ h₂ (by rw [hpc₂, hpc]) ht hA
    exact hI.threw _ _ _ h₁ (Or.inl (by rw [pc_of_updates hus, hpc]))
  | @settle v₁ w env run aborted l result us st role n u hpc ht hrun hus =>
    have h₁ : I v₁ := TaskUpdates.keep hus (hI.settled _ _ _ _ hv hpc ht) fun v₂ u h₂ hpc₂ hA =>
      hI.afterRun _ _ _ _ _ h₂ (by rw [hpc₂]; exact hpc) ht hA
    have hpc₁ : v₁.pc w = .running l := by
      rw [pc_of_updates hus]
      exact hpc
    exact hI.returned _ _ h₁ (by simp [hpc₁])
  | @throwAfter v₁ w env run aborted l result us hpc ht hrun hus hrel =>
    have h₁ : I v₁ := TaskUpdates.keep hus (hI.settled _ _ _ _ hv hpc ht) fun v₂ u h₂ hpc₂ hA =>
      hI.afterRun _ _ _ _ _ h₂ (by rw [hpc₂]; exact hpc) ht hA
    exact hI.threw _ _ _ h₁ (Or.inr ⟨l, by rw [pc_of_updates hus]; exact hpc, rfl⟩)
  | requeue hpc hrow => exact hI.requeue _ _ _ _ _ hv hpc hrow
  | giveUp hpc => exact hI.leave _ _ hv
  | crash => exact hI.leave _ _ hv

end closed

/-! ## Work orders -/

/-- Nothing is known of a task that has not been enqueued. -/
def TaskState.fresh : TaskState := ⟨none, none, fun _ => none, [], fun _ => .idle⟩

/-- A call that enqueues a task. -/
def Call.IsEnqueued (call : Call) : Prop := ∃ workOrder role, call = .enqueued workOrder role

/-- A call of `runTaskOnce`. -/
def Call.isLaunched : Call → Bool
  | .launched .. => true
  | _ => false

/-- What is held of a task that was enqueued with the work order `wo`, for a first role. -/
structure HeldAs (t : String) (wo : ParsedWorkOrderV1) (role : Role) (v : TaskState) : Prop where
  taskId : wo.taskId = t
  enqueued : ∃ q rest, v.calls = (q, .enqueued wo role) :: rest ∧
    ∀ call ∈ rest, ¬ call.2.IsEnqueued
  persisted : ∃ ids, v.persisted = some (wo.withExcludeAgentIds ids)
  cached : ∀ w w', v.cached w = some w' → ∃ ids, w' = wo.withExcludeAgentIds ids
  caps : ∀ b, v.budget = some b → b.caps = BudgetManager.capsOf wo

/-- What is held of a task. -/
def Held (t : String) (v : TaskState) : Prop := v = TaskState.fresh ∨ ∃ wo role, HeldAs t wo role v

/-- An update keeps the work order of a row, up to its exclude list, which it may extend. -/
theorem workOrderOf_onRow {r : TaskRow} {w : ParsedWorkOrderV1} (u : Update)
    (h : QueueStore.workOrderOf r = some w) :
    ∃ ids, QueueStore.workOrderOf (u.onRow r) = some (w.withExcludeAgentIds ids) ∧
      (∀ id ∈ w.agent.excludeAgentIds, id ∈ ids) ∧
      ∀ agentIds at', u = .exclude agentIds at' → ∀ id ∈ agentIds, id ∈ ids := by
  have hkeep : QueueStore.workOrderOf r = some (w.withExcludeAgentIds w.agent.excludeAgentIds) := h
  cases u with
  | exclude agentIds at' =>
    refine ⟨dedupeFirstSeen (w.agent.excludeAgentIds ++ agentIds), ?_, fun id hid => ?_, ?_⟩
    · simp only [Update.onRow, excludedRow, h]
      exact parse_withExcludeAgentIds h _
    · exact mem_dedupeFirstSeen.mpr (List.mem_append_left _ hid)
    · rintro _ _ ⟨⟩ id hid
      exact mem_dedupeFirstSeen.mpr (List.mem_append_right _ hid)
  | _ => exact ⟨w.agent.excludeAgentIds, hkeep, fun _ h => h, by simp⟩

section held

variable {t w : String} {v v' : TaskState} {wo : ParsedWorkOrderV1} {role : Role}

theorem persisted_update (u : Update) :
    (v.update t w u).persisted = (v.row.map u.onRow).bind QueueStore.workOrderOf := rfl

theorem HeldAs.row (h : HeldAs t wo role v) : ∃ r, v.row = some r := by
  obtain ⟨ids, hids⟩ := h.persisted
  obtain ⟨r, hr, -⟩ := Option.bind_eq_some_iff.mp hids
  exact ⟨r, hr⟩

/-- An update that enqueues nothing, and gives a budget the caps of the work order, keeps what is
held. -/
theorem HeldAs.update (h : HeldAs t wo role v) (u : Update)
    (hu : ∀ call ∈ u.calls, ¬ call.2.IsEnqueued)
    (hcaps : ∀ caps, u = .initBudget caps → caps = BudgetManager.capsOf wo) :
    HeldAs t wo role (v.update t w u) := by
  obtain ⟨q, rest, hcalls, hrest⟩ := h.enqueued
  obtain ⟨ids, hids⟩ := h.persisted
  obtain ⟨r, hr, hwo⟩ := Option.bind_eq_some_iff.mp hids
  obtain ⟨ids', hids', -, -⟩ := workOrderOf_onRow u hwo
  have hpersisted : (v.update t w u).persisted = some (wo.withExcludeAgentIds ids') := by
    rw [persisted_update, hr]
    exact hids'
  refine ⟨h.taskId, ⟨q, rest ++ u.calls, ?_, ?_⟩, ⟨ids', hpersisted⟩, fun x w' hx => ?_,
    fun b hb => ?_⟩
  · rw [TaskState.update, hcalls]
    rfl
  · intro call hcall
    rcases List.mem_append.mp hcall with hcall | hcall
    · exact hrest call hcall
    · exact hu call hcall
  · by_cases hxw : x = w
    · subst hxw
      simp only [TaskState.update, Function.update_self] at hx
      cases u with
      | loadWorkOrder =>
        simp only [Update.onHolding, Option.orElse_eq_orElse, Option.orElse_eq_or,
          Option.or_eq_some_iff] at hx
        rcases hx with hx | ⟨-, hx⟩
        · exact h.cached x w' hx
        · exact ⟨ids, Option.some.inj (hx.symm.trans hids)⟩
      | exclude agentIds at' =>
        simp only [Update.onHolding, Option.orElse_eq_orElse, Option.orElse_eq_or,
          Option.or_eq_some_iff] at hx
        rcases hx with hx | ⟨-, hx⟩
        · exact ⟨ids', Option.some.inj (hx.symm.trans hpersisted)⟩
        · exact h.cached x w' hx
      | _ => exact h.cached x w' hx
    · refine h.cached x w' ?_
      simpa [TaskState.update, hxw] using hx
  · have hb' : u.onBudget t v.budget = some b := hb
    cases hbudget : v.budget with
    | none =>
      rw [hbudget] at hb'
      cases u with
      | initBudget caps =>
        cases hb'
        exact hcaps caps rfl
      | _ => cases hb'
    | some b₀ =>
      have hcaps₀ := h.caps b₀ hbudget
      rw [hbudget] at hb'
      cases u <;> cases hb' <;> exact hcaps₀

/-- A row with the same work order, and other calls. -/
theorem HeldAs.congr (h : HeldAs t wo role v) (hpersisted : v'.persisted = v.persisted)
    (hcached : ∀ x w', v'.cached x = some w' →
      v.cached x = some w' ∨ ∃ ids, w' = wo.withExcludeAgentIds ids)
    (hcaps : ∀ b, v'.budget = some b → b.caps = BudgetManager.capsOf wo)
    (calls : List (String × Call)) (hcalls : v'.calls = v.calls ++ calls)
    (hnew : ∀ call ∈ calls, ¬ call.2.IsEnqueued) : HeldAs t wo role v' := by
  obtain ⟨q, rest, hq, hrest⟩ := h.enqueued
  refine ⟨h.taskId, ⟨q, rest ++ calls, by rw [hcalls, hq]; rfl, ?_⟩, hpersisted ▸ h.persisted, ?_,
    hcaps⟩
  · intro call hcall
    rcases List.mem_append.mp hcall with hcall | hcall
    · exact hrest call hcall
    · exact hnew call hcall
  · intro x w' hx
    rcases hcached x w' hx with hx | hx
    · exact h.cached x w' hx
    · exact hx

theorem Held.of_row (h : Held t v) {r : TaskRow} (hr : v.row = some r) :
    ∃ wo role, HeldAs t wo role v := by
  rcases h with rfl | h
  · cases hr
  · exact h

theorem Held.of_pc (h : Held t v) (hpc : v.pc w ≠ .idle) : ∃ wo role, HeldAs t wo role v := by
  rcases h with rfl | h
  · exact absurd rfl hpc
  · exact h

/-- What a launch loaded is a copy. -/
theorem HeldAs.launched {entry : TaskQueueEntry} {l : Launch} {gate : BudgetState}
    (h : HeldAs t wo role v) (hl : Launches entry (v.holding w) l gate) :
    ∃ ids, l.workOrder = wo.withExcludeAgentIds ids := by
  have hloaded := hl.loaded
  simp only [Update.onHolding, Option.orElse_eq_orElse, Option.orElse_eq_or,
    Option.or_eq_some_iff] at hloaded
  rcases hloaded with hcached | ⟨-, hpersisted⟩
  · exact h.cached w _ hcached
  · obtain ⟨ids, hids⟩ := h.persisted
    exact ⟨ids, Option.some.inj (hpersisted.symm.trans hids)⟩

/-- **What is held of a task comes from its enqueueing.** -/
theorem closed_held : Closed t (Held t) where
  enqueue v q workOrder role ts h ht hrow := by
    rcases h with rfl | ⟨wo, role', h⟩
    · refine Or.inr ⟨workOrder, role, ht, ⟨q, [], rfl, by simp⟩, ?_, ?_, fun b hb => by cases hb⟩
      · exact ⟨_, parse_toJson workOrder⟩
      · intro x w' hx
        by_cases hxq : x = q
        · subst hxq
          simp only [TaskState.enqueued, Function.update_self] at hx
          cases hx
          exact ⟨_, rfl⟩
        · simp [TaskState.enqueued, TaskState.fresh, hxq] at hx
    · obtain ⟨r, hr⟩ := h.row
      rw [hrow] at hr
      cases hr
  load v w h := by
    rcases h with rfl | ⟨wo, role, h⟩
    · left
      refine TaskState.ext rfl rfl ?_ rfl rfl
      exact Function.update_eq_self_iff.mpr rfl
    · exact Or.inr ⟨wo, role, h.update _ (by simp [Update.calls]) (by simp)⟩
  claim v w lease now r h hpc hrow hclaim := by
    obtain ⟨wo, role, h⟩ := h.of_row hrow
    refine Or.inr ⟨wo, role, h.congr ?_ (fun x w' hx => Or.inl hx) h.caps [] (by simp
      [TaskState.claimed, TaskState.goto]) (by simp)⟩
    rw [TaskState.persisted, TaskState.persisted, hrow]
    rfl
  beforeRun v w entry u h hpc ht hA := by
    obtain ⟨wo, role, h⟩ := h.of_pc (w := w) (by simp [hpc])
    refine Or.inr ⟨wo, role, h.update _ ?_ fun caps hcaps => ?_⟩
    · cases hA <;> simp [Update.calls, Call.IsEnqueued]
    · subst hcaps
      cases hA with
      | init hw =>
        obtain ⟨ids, rfl⟩ := h.cached w _ hw
        rfl
  launch v w entry l gate h hpc ht hl := by
    obtain ⟨wo, role, h⟩ := h.of_pc (w := w) (by simp [hpc])
    obtain ⟨ids, hids⟩ := h.launched hl
    refine Or.inr ⟨wo, role, h.congr rfl (fun x w' hx => ?_) (fun b hb => ?_) _ rfl
      (by simp [Call.IsEnqueued])⟩
    · by_cases hxw : x = w
      · subst hxw
        simp only [TaskState.goto, TaskState.launched, Function.update_self] at hx
        exact Or.inr ⟨ids, (Option.some.inj hx).symm.trans hids⟩
      · left
        simpa [TaskState.goto, TaskState.launched, hxw] using hx
    · obtain rfl : gate.chargeRun = b := Option.some.inj hb
      have hgate : (Update.initBudget (BudgetManager.capsOf l.workOrder)).onBudget entry.taskId
        v.budget = some gate := hl.gate_eq
      cases hbudget : v.budget with
      | none =>
        rw [hbudget] at hgate
        cases hgate
        rw [hids]
        rfl
      | some b₀ =>
        have hcaps₀ := h.caps b₀ hbudget
        rw [hbudget] at hgate
        cases hgate
        exact hcaps₀
  settled v w l result h hpc ht := by
    obtain ⟨wo, role, h⟩ := h.of_pc (w := w) (by simp [hpc])
    exact Or.inr ⟨wo, role, h.congr rfl (fun _ _ hx => Or.inl hx) h.caps _ rfl
      (by simp [Call.IsEnqueued])⟩
  afterRun v w l result u h hpc ht hA := by
    obtain ⟨wo, role, h⟩ := h.of_pc (w := w) (by simp [hpc])
    refine Or.inr ⟨wo, role, h.update _ ?_ ?_⟩
    · cases hA <;> simp [Update.calls, Call.IsEnqueued]
    · rintro caps rfl
      cases hA
  returned v w h hpc := by
    obtain ⟨wo, role, h⟩ := h.of_pc hpc
    exact Or.inr ⟨wo, role, h.congr rfl (fun _ _ hx => Or.inl hx) h.caps _ rfl
      (by simp [Call.IsEnqueued])⟩
  threw v w entry h hpc := by
    have hne : v.pc w ≠ .idle := by
      rcases hpc with hpc | ⟨l, hpc, -⟩
      · simp [hpc]
      · simp [hpc]
    obtain ⟨wo, role, h⟩ := h.of_pc hne
    exact Or.inr ⟨wo, role, h.congr rfl (fun _ _ hx => Or.inl hx) h.caps _ rfl
      (by simp [Call.IsEnqueued])⟩
  requeue v w entry u r h hpc hrow := by
    obtain ⟨wo, role, h⟩ := h.of_row hrow
    refine Or.inr ⟨wo, role, h.congr ?_ (fun x w' hx => Or.inl hx) h.caps [] (by simp
      [TaskState.requeued, TaskState.goto]) (by simp)⟩
    rw [TaskState.persisted, TaskState.persisted, hrow]
    rfl
  leave v w h := by
    rcases h with rfl | ⟨wo, role, h⟩
    · exact Or.inl (goto_of_pc rfl)
    · exact Or.inr ⟨wo, role, h.congr rfl (fun _ _ hx => Or.inl hx) h.caps []
        (by simp [TaskState.goto]) (by simp)⟩

theorem Held.keyed (h : Held t v) : v.Keyed t := by
  rcases h with rfl | ⟨wo, role, h⟩
  · exact ⟨by simp [TaskState.fresh], by simp [TaskState.fresh, TaskState.persisted]⟩
  · refine ⟨fun w w' hw => ?_, fun w' hw => ?_⟩
    · obtain ⟨ids, rfl⟩ := h.cached w w' hw
      exact h.taskId
    · obtain ⟨ids, hids⟩ := h.persisted
      cases hids.symm.trans hw
      exact h.taskId

end held

/-! ## Runs -/

section runs

variable {services : HandlerServices} {s₀ s s' : System} {l : Label} {ls : List Label}

/-- A task of an initial system. -/
theorem System.Initial.task (h : s₀.Initial) (t : String) : s₀.task t = TaskState.fresh := by
  refine TaskState.ext ?_ ?_ ?_ ?_ ?_
  · simp [System.task, Core.row, h.taskQueue, TaskState.fresh]
  · simp [System.task, Core.budget, h.taskBudget, TaskState.fresh]
  · simp [System.task, h.workOrders, TaskState.fresh]
  · simp [System.task, h.trace, TaskState.fresh]
  · simp [System.task, h.pc, TaskState.fresh]

theorem System.held_of_steps (h₀ : s₀.Initial) (h : System.Steps services s₀ ls s) (t : String) :
    Held t (s.task t) := by
  have hall : ∀ t, Held t (s.task t) := by
    refine h.invariant (I := fun s => ∀ t, Held t (s.task t)) ?_ ?_
    · exact fun t => Or.inl (h₀.task t)
    · intro s l s' hstep hs t
      exact closed_held.step (System.step_task (fun t => (hs t).keyed) hstep t) (hs t)
  exact hall t

/-- A reachable step is a step of the protocol. -/
theorem System.step_task_of_steps (h₀ : s₀.Initial) (h : System.Steps services s₀ ls s)
    (hstep : System.Step services s l s') (t : String) : TaskStep t (s.task t) l (s'.task t) :=
  System.step_task (fun t => (System.held_of_steps h₀ h t).keyed) hstep t

/-- **Every run of the system is a run of the protocol of every task.** -/
theorem System.steps_task (h₀ : s₀.Initial) (h : System.Steps services s₀ ls s) (t : String) :
    Run (TaskStep t) TaskState.fresh ls (s.task t) := by
  have hboth : ∀ ls₁ ls₂ s₁, System.Steps services s₀ ls₁ s₁ → System.Steps services s₁ ls₂ s →
      Run (TaskStep t) (s₁.task t) ls₂ (s.task t) := by
    intro ls₁ ls₂
    induction ls₂ generalizing ls₁ with
    | nil =>
      intro s₁ _ h₂
      rw [Run.nil_iff.mp h₂]
      exact .nil _
    | cons l ls₂ ih =>
      intro s₁ h₁ h₂
      obtain ⟨s₂, hstep, h₂⟩ := Run.cons_iff.mp h₂
      exact .cons (System.step_task_of_steps h₀ h₁ hstep t)
        (ih (ls₁ ++ [l]) s₂ (Run.snoc_iff.mpr ⟨s₁, h₁, hstep⟩) h₂)
  rw [← h₀.task t]
  exact hboth [] ls s₀ (.nil s₀) h

/-- An invariant of the protocol of a task, in the runs whose steps all meet a condition. -/
theorem System.task_invariant {C : System → Label → Prop} {t : String} {I : TaskState → Prop}
    (h₀ : s₀.Initial) (h : Run (Guarded C (System.Step services)) s₀ ls s)
    (hfresh : I TaskState.fresh)
    (hstep : ∀ s l s', C s l → System.Step services s l s' →
      TaskStep t (s.task t) l (s'.task t) → Held t (s.task t) → I (s.task t) → I (s'.task t)) :
    I (s.task t) := by
  have hboth : I (s.task t) ∧ ∀ t, Held t (s.task t) := by
    refine h.invariant (I := fun s => I (s.task t) ∧ ∀ t, Held t (s.task t)) ⟨?_, ?_⟩ ?_
    · rw [h₀.task t]
      exact hfresh
    · exact fun t => Or.inl (h₀.task t)
    · rintro s l s' ⟨hC, hl⟩ ⟨hI, hheld⟩
      have htask := System.step_task (fun t => (hheld t).keyed) hl
      exact ⟨hstep s l s' hC hl (htask t) (hheld t) hI,
        fun t => closed_held.step (htask t) (hheld t)⟩
  exact hboth.1

/-- What the protocol of a task keeps from a reachable state on, the continuations of a run keep. -/
theorem System.task_continues {t : String} {I : TaskState → Prop} {ls' : List Label}
    (h₀ : s₀.Initial) (h : System.Steps services s₀ ls s) (hI : I (s.task t))
    (hstep : ∀ v l v', TaskStep t v l v' → Held t v → I v → I v')
    (h' : System.Steps services s ls' s') : I (s'.task t) := by
  have hboth : I (s'.task t) ∧ ∃ ls, System.Steps services s₀ ls s' := by
    refine h'.invariant (I := fun s' => I (s'.task t) ∧ ∃ ls, System.Steps services s₀ ls s')
      ⟨hI, ls, h⟩ ?_
    rintro s₁ l s₂ hl ⟨h₁, ls₁, hls₁⟩
    refine ⟨?_, ls₁ ++ [l], Run.snoc_iff.mpr ⟨s₁, hls₁, hl⟩⟩
    exact hstep _ _ _ (System.step_task_of_steps h₀ hls₁ hl t) (System.held_of_steps h₀ hls₁ t) h₁
  exact hboth.1

/-- An invariant of the protocol of a task, in every run. -/
theorem System.task_invariant' {t : String} {I : TaskState → Prop} (h₀ : s₀.Initial)
    (h : System.Steps services s₀ ls s) (hfresh : I TaskState.fresh)
    (hstep : ∀ v l v', TaskStep t v l v' → Held t v → I v → I v') : I (s.task t) := by
  refine System.task_continues h₀ (.nil s₀) ?_ hstep h
  rw [h₀.task t]
  exact hfresh

end runs

end AgentWorkflow
