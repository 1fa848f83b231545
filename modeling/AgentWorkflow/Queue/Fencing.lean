import AgentWorkflow.Queue.Lease

/-!
# Fencing

Who may write a row, and what a terminal status is worth. A release names no owner, so nothing in
`release` or `releaseAfterHandlerFailure` stops a worker that has lost its task from writing its
row.

* `FencedTask P` — the invariant that does: a worker that handles a task owns its row, one whose
  `handle` threw owns it or left it released with a status in `P`, and no two workers are at a task.
* `FencedClaim` — **the one thing that breaks it**: a claim of a task while the catch path of
  another worker is still to come for it. `fencedClaims_iff` says so exactly.
* `TerminalEventsAppend` — the other half of what keeps terminal statuses: when the event after a
  terminal release cannot be appended, the catch path queues the task again.
* **`terminal_row_stays`** — with both conditions a terminal row is final.
-/

namespace AgentWorkflow

open Fallible WorkerTaskHandler

/-! ## The invariant -/

/-- A worker owns the row of the task. -/
def Owned (v : TaskState) (w : String) : Prop :=
  ∃ r, v.row = some r ∧ r.status = .dispatched ∧ r.currentOwnerRunId = some w

/-- A worker owns the row, or has released it into a status of `P`. -/
def LeftIn (P : TaskStatus → Prop) (v : TaskState) (w : String) : Prop :=
  Owned v w ∨ ∃ r, v.row = some r ∧ r.currentOwnerRunId = none ∧ P r.status

/-- A worker is in `handle`. -/
def Pc.handling : Pc → Bool
  | .claimed _ | .running _ => true
  | .idle | .failed _ | .stopped => false

/-- Who is at a task, and whose its row is. -/
structure FencedTask (P : TaskStatus → Prop) (v : TaskState) : Prop where
  handling : ∀ w, (v.pc w).handling = true → Owned v w
  failed : ∀ w entry, v.pc w = .failed entry → LeftIn P v w
  unique : ∀ w w', (v.pc w).busy = true → (v.pc w').busy = true → w = w'

section invariant

variable {P : TaskStatus → Prop} {t w : String} {v v' : TaskState}

/-- A task nobody is at. -/
theorem FencedTask.of_free (h : ∀ w, (v.pc w).busy = false) : FencedTask P v where
  handling w hw := by
    have := h w
    cases hpc : v.pc w <;> simp_all [Pc.busy, Pc.handling]
  failed w entry hw := by
    have := h w
    rw [hw] at this
    cases this
  unique w w' hw := by
    rw [h w] at hw
    cases hw

theorem FencedTask.fresh : FencedTask P TaskState.fresh := .of_free fun _ => rfl

/-- A task only one worker is at. -/
theorem FencedTask.of_single (hothers : ∀ x, x ≠ w → (v.pc x).busy = false)
    (hhandling : (v.pc w).handling = true → Owned v w)
    (hfailed : ∀ entry, v.pc w = .failed entry → LeftIn P v w) : FencedTask P v := by
  have hat : ∀ x, (v.pc x).busy = true → x = w := by
    intro x hx
    by_contra hne
    rw [hothers x hne] at hx
    cases hx
  refine ⟨fun x hx => ?_, fun x entry hx => ?_, fun x y hx hy => ?_⟩
  · obtain rfl := hat x (by cases hpc : v.pc x <;> simp_all [Pc.busy, Pc.handling])
    exact hhandling hx
  · obtain rfl := hat x (by simp [hx, Pc.busy])
    exact hfailed entry hx
  · rw [hat x hx, hat y hy]

/-- Nobody else is at the task of a worker. -/
theorem FencedTask.others (h : FencedTask P v) (hw : (v.pc w).busy = true) :
    ∀ x, x ≠ w → (v.pc x).busy = false := by
  intro x hx
  by_contra hne
  exact hx (h.unique x w (by simpa using hne) hw)

/-- Nobody handles a task whose row is not dispatched. -/
theorem FencedTask.not_handling (h : FencedTask P v) {r : TaskRow} (hr : v.row = some r)
    (hst : r.status ≠ .dispatched) (x : String) : (v.pc x).handling = false := by
  by_contra hx
  obtain ⟨r', hr', hst', -⟩ := h.handling x (by simpa using hx)
  cases hr.symm.trans hr'
  exact hst hst'

/-- The invariant reads the row and the workers. -/
theorem FencedTask.congr (h : FencedTask P v) (hrow : v'.row = v.row) (hpc : v'.pc = v.pc) :
    FencedTask P v' where
  handling w hw := by
    rw [hpc] at hw
    obtain ⟨r, hr, hst, howner⟩ := h.handling w hw
    exact ⟨r, hrow.trans hr, hst, howner⟩
  failed w entry hw := by
    rw [hpc] at hw
    rcases h.failed w entry hw with ⟨r, hr, hst, howner⟩ | ⟨r, hr, howner, hst⟩
    · exact Or.inl ⟨r, hrow.trans hr, hst, howner⟩
    · exact Or.inr ⟨r, hrow.trans hr, howner, hst⟩
  unique w w' hw hw' := h.unique w w' (by rwa [hpc] at hw) (by rwa [hpc] at hw')

/-- A worker leaves the task. -/
theorem FencedTask.leave {v₁ : TaskState} (h : FencedTask P v) (hrow : v₁.row = v.row)
    (hpc : v₁.pc = v.pc) : FencedTask P (v₁.goto w .idle) := by
  by_cases hw : (v.pc w).busy = true
  · refine .of_free fun x => ?_
    by_cases hx : x = w
    · subst hx
      simp [TaskState.goto, Pc.busy]
    · simp [TaskState.goto, hx, hpc, h.others hw x hx]
  · refine ⟨fun x hx => ?_, fun x entry hx => ?_, fun x y hx hy => ?_⟩
    all_goals
      have hat : ∀ y, y ≠ w → (v₁.goto w .idle).pc y = v.pc y := by
        intro y hy
        simp [TaskState.goto, hy, hpc]
      have hself : (v₁.goto w .idle).pc w = .idle := by simp [TaskState.goto]
    · have hne : x ≠ w := by
        rintro rfl
        rw [hself] at hx
        cases hx
      rw [hat x hne] at hx
      obtain ⟨r, hr, hst, howner⟩ := h.handling x hx
      exact ⟨r, hrow.trans hr, hst, howner⟩
    · have hne : x ≠ w := by
        rintro rfl
        rw [hself] at hx
        cases hx
      rw [hat x hne] at hx
      rcases h.failed x entry hx with ⟨r, hr, hst, howner⟩ | ⟨r, hr, howner, hst⟩
      · exact Or.inl ⟨r, hrow.trans hr, hst, howner⟩
      · exact Or.inr ⟨r, hrow.trans hr, howner, hst⟩
    · have hx' : x ≠ w := by
        rintro rfl
        rw [hself] at hx
        cases hx
      have hy' : y ≠ w := by
        rintro rfl
        rw [hself] at hy
        cases hy
      rw [hat x hx'] at hx
      rw [hat y hy'] at hy
      exact h.unique x y hx hy

/-- The only worker at a task moves on, and leaves nobody at it. -/
theorem FencedTask.free_of_left {v₁ : TaskState} (h : FencedTask P v) (hw : (v.pc w).busy = true)
    (hpc : v₁.pc = v.pc) (x : String) : ((v₁.goto w .idle).pc x).busy = false := by
  by_cases hx : x = w
  · subst hx
    simp [TaskState.goto, Pc.busy]
  · simp [TaskState.goto, hx, hpc, h.others hw x hx]

theorem FencedTask.left {v₁ : TaskState} (h : FencedTask P v) (hw : (v.pc w).busy = true)
    (hpc : v₁.pc = v.pc) : FencedTask P (v₁.goto w .idle) :=
  .of_free (h.free_of_left hw hpc)

/-- The only worker at a task goes to its catch path. -/
theorem FencedTask.threw {v₁ : TaskState} {entry : TaskQueueEntry} (h : FencedTask P v)
    (hw : (v.pc w).busy = true) (hpc : v₁.pc = v.pc) (hleft : LeftIn P v₁ w) :
    FencedTask P (v₁.goto w (.failed entry)) := by
  refine .of_single (w := w) (fun x hx => ?_) (fun hh => ?_) fun _ _ => hleft
  · simp [TaskState.goto, hx, hpc, h.others hw x hx]
  · simp [TaskState.goto, Pc.handling] at hh

/-- An update keeps what a worker left, when its releases are into `P`. -/
theorem LeftIn.update {u : Update} (h : LeftIn P v w)
    (hu : ∀ st role n at', u = .release st role n at' → P st) : LeftIn P (v.update t w u) w := by
  have hrow : ∀ r, v.row = some r → (v.update t w u).row = some (u.onRow r) := by
    intro r hr
    rw [TaskState.update, hr]
    rfl
  cases u with
  | release st role n at' =>
    have hr : ∃ r, v.row = some r := by
      rcases h with ⟨r, hr, -⟩ | ⟨r, hr, -⟩
      · exact ⟨r, hr⟩
      · exact ⟨r, hr⟩
    obtain ⟨r, hr⟩ := hr
    exact Or.inr ⟨_, hrow r hr, rfl, hu st role n at' rfl⟩
  | exclude agentIds at' =>
    have hsame : ∀ r : TaskRow, ((Update.exclude agentIds at').onRow r).status = r.status ∧
        ((Update.exclude agentIds at').onRow r).currentOwnerRunId = r.currentOwnerRunId := by
      intro r
      simp only [Update.onRow, excludedRow]
      split
      · exact ⟨rfl, rfl⟩
      · exact ⟨rfl, rfl⟩
    rcases h with ⟨r, hr, hst, howner⟩ | ⟨r, hr, howner, hst⟩
    · exact Or.inl ⟨_, hrow r hr, (hsame r).1.trans hst, (hsame r).2.trans howner⟩
    · exact Or.inr ⟨_, hrow r hr, (hsame r).2.trans howner, (hsame r).1 ▸ hst⟩
  | _ =>
    rcases h with ⟨r, hr, hst, howner⟩ | ⟨r, hr, howner, hst⟩
    · exact Or.inl ⟨_, hrow r hr, hst, howner⟩
    · exact Or.inr ⟨_, hrow r hr, howner, hst⟩

/-- So does a sequence of updates. -/
theorem LeftIn.updates {A : Holding → Update → Prop} {us : List Update}
    (hus : TaskUpdates A t w v us v') (h : LeftIn P v w)
    (hP : ∀ h st role n u, A h (.release st role n u) → Update.release st role n u ∈ us → P st) :
    LeftIn P v' w := by
  refine hus.mem_labels.invariant (I := fun v => LeftIn P v w) h ?_
  rintro v₁ u v₂ ⟨⟨hA, rfl⟩, hmem⟩ h₁
  refine h₁.update fun st role n at' hu => ?_
  subst hu
  exact hP _ st role n at' hA hmem

/-- **A step keeps the invariant** when the statuses its worker may leave a task in are in `P`, and
no claim takes a task from a catch path. -/
theorem FencedTask.step {l : Label} (hstep : TaskStep t v l v') (hheld : Held t v)
    (hP : ∀ env, l.env = some env → ∀ st, st = .queued ∨ st.terminal = true →
      env.MayThrow (.appendEvent (eventOf st)) → P st)
    (hclaim : ∀ w env, l = .claim w env → (v'.pc w).busy = true → P .queued →
      ∀ x entry, v.pc x ≠ .failed entry)
    (h : FencedTask P v) : FencedTask P v' := by
  cases hstep with
  | other => exact h
  | enqueue ht hrow =>
    rcases hheld with rfl | ⟨wo, role, hheld⟩
    · exact .of_free fun _ => rfl
    · obtain ⟨r, hr⟩ := hheld.row
      rw [hrow] at hr
      cases hr
  | load => exact h.congr (by simp) rfl
  | @claim v₀ w env r lease now hload hpc hrow hcl =>
    have hqueued := queued_of_claimable hcl
    have hpc₀ : v₀.pc = v.pc := by
      rcases hload with rfl | rfl
      · rfl
      · rfl
    have hidle := h.not_handling hrow (by simp [hqueued])
    have hfree : ∀ x, (v.pc x).busy = false := by
      intro x
      have hx := hidle x
      cases hpcx : v.pc x with
      | failed entry =>
        exfalso
        rcases h.failed x entry hpcx with ⟨r', hr', hst, -⟩ | ⟨r', hr', -, hPr⟩
        · cases hrow.symm.trans hr'
          rw [hqueued] at hst
          cases hst
        · cases hrow.symm.trans hr'
          rw [hqueued] at hPr
          refine hclaim w env rfl ?_ hPr x entry hpcx
          simp [TaskState.claimed, TaskState.goto, Pc.busy]
      | _ => simp_all [Pc.handling, Pc.busy]
    refine .of_single (w := w) (fun x hx => ?_) (fun _ => ?_) fun entry hentry => ?_
    · simp [TaskState.claimed, TaskState.goto, hx, hpc₀, hfree x]
    · exact ⟨_, rfl, rfl, rfl⟩
    · simp [TaskState.claimed, TaskState.goto] at hentry
  | @refuse v₁ w env aborted entry us st u hpc ht hst hus =>
    have hpc₁ : (v₁.note w (.returned t)).pc = v.pc := (pc_of_updates hus).trans rfl
    exact h.left (by simp [hpc, Pc.busy]) hpc₁
  | @launch w env aborted entry l gate hpc ht hln =>
    have hbusy : (v.pc w).busy = true := by simp [hpc, Pc.busy]
    refine .of_single (w := w) (fun x hx => ?_) (fun _ => ?_) fun entry' hentry => ?_
    · simp [TaskState.launched, TaskState.goto, hx, h.others hbusy x hx]
    · exact h.handling w (by simp [hpc, Pc.handling])
    · simp [TaskState.launched, TaskState.goto] at hentry
  | @throwBefore v₁ w env aborted entry us hpc ht hus hrel =>
    have hleft : LeftIn P v₁ w := by
      refine LeftIn.updates hus (Or.inl (h.handling w (by simp [hpc, Pc.handling]))) ?_
      intro _ st role n u hA hmem
      exact hP env rfl st (beforeRun_release hA) (hrel st role n u hmem)
    have hpc₁ : (v₁.note w (.threw t)).pc = v.pc := (pc_of_updates hus).trans rfl
    exact h.threw (by simp [hpc, Pc.busy]) hpc₁ hleft
  | @settle v₁ w env run aborted l result us st role n u hpc ht hrun hus =>
    have hpc₁ : (v₁.note w (.returned t)).pc = v.pc := (pc_of_updates hus).trans rfl
    exact h.left (by simp [hpc, Pc.busy]) hpc₁
  | @throwAfter v₁ w env run aborted l result us hpc ht hrun hus hrel =>
    have hpc₁ : (v₁.note w (.threw t)).pc = v.pc := (pc_of_updates hus).trans rfl
    have howned : Owned (v.note w (.settled t l.entry.nextRole l.agentId
        l.persistedReviewContext result)) w := h.handling w (by simp [hpc, Pc.handling])
    have hleft : LeftIn P v₁ w := by
      refine LeftIn.updates hus (Or.inl howned) ?_
      intro _ st role n u hA hmem
      exact hP env rfl st (afterRun_release hA) (hrel st role n u hmem)
    exact h.threw (by simp [hpc, Pc.busy]) hpc₁ hleft
  | @requeue w env entry r u hpc hrow =>
    have hpc₁ : ({ v with row := some (Worker.requeuedRow u r) } : TaskState).pc = v.pc := rfl
    exact h.left (by simp [hpc, Pc.busy]) hpc₁
  | giveUp hpc => exact h.leave rfl rfl
  | crash => exact h.leave rfl rfl

end invariant

/-! ## Systems -/

section systems

variable {services : HandlerServices} {P : TaskStatus → Prop} {s₀ s s' s₁ s₂ : System}
  {l : Label} {ls ls₁ ls₂ : List Label} {t w : String} {r : TaskRow}

/-- At most one worker is at any task. -/
def Exclusive (s : System) : Prop :=
  ∀ w w' t, (s.pc w).taskId? = some t → (s.pc w').taskId? = some t → w = w'

/-- A step leaves the rows that other workers own alone. -/
def KeepsOthers (s : System) (l : Label) (s' : System) : Prop :=
  ∀ t r w, s.world.core.row t = some r → r.currentOwnerRunId = some w → w ≠ l.worker →
    s'.world.core.row t = some r

/-- No claim takes a task while the catch path of another worker is still to come for it. -/
def FencedClaim (s : System) (l : Label) : Prop :=
  ∀ w env entry, l = .claim w env → s.claimed w env = some entry →
    ∀ w' entry', s.pc w' = .failed entry' → entry'.taskId ≠ entry.taskId

/-- The events that follow a release into a status of `P` can be appended. -/
def EventsAppend (P : TaskStatus → Prop) (l : Label) : Prop :=
  ∀ env, l.env = some env → ∀ st, P st → ¬ env.MayThrow (.appendEvent (eventOf st))

/-- The invariants of every task. -/
def System.Fenced (P : TaskStatus → Prop) (s : System) : Prop :=
  ∀ t, Held t (s.task t) ∧ Leased (s.task t) ∧ FencedTask P (s.task t)

theorem System.Initial.fenced (h : s₀.Initial) : s₀.Fenced P := by
  intro t
  rw [h.task t]
  exact ⟨Or.inl rfl, by simp [Leased, TaskState.fresh], .fresh⟩

/-- A worker a claim step takes to a task has claimed it. -/
theorem System.claimed_of_step {env : Env} (h : System.Step services s (.claim w env) s')
    (hw : (s'.pc w).taskId? = some t) : ∃ entry, s.claimed w env = some entry ∧ entry.taskId = t := by
  simp only [System.Step, System.step] at h
  split at h
  next hidle =>
    split at h
    next world hres =>
      cases h
      have hpc : (s.pc w).taskId? = some t := hw
      rw [hidle] at hpc
      cases hpc
    next entry world hres =>
      cases h
      refine ⟨entry, by simp [System.claimed, hres], ?_⟩
      simpa [System.goto, Pc.taskId?] using hw
    next e world hres =>
      cases h
      simp [System.goto, Pc.taskId?] at hw
  next => cases h

theorem taskId?_of_busy (h : ((s.task t).pc w).busy = true) : (s.pc w).taskId? = some t := by
  by_contra hne
  simp [System.task, hne, Pc.busy] at h

theorem busy_of_taskId? (h : (s.pc w).taskId? = some t) : ((s.task t).pc w).busy = true := by
  have hpc : (s.task t).pc w = s.pc w := by simp [System.task, h]
  rw [hpc]
  cases hw : s.pc w <;> simp_all [Pc.taskId?, Pc.busy]

theorem pc_of_failed {entry : TaskQueueEntry} (h : (s.task t).pc w = .failed entry) :
    s.pc w = .failed entry ∧ entry.taskId = t := by
  have hat : (s.pc w).taskId? = some t := taskId?_of_busy (by simp [h, Pc.busy])
  have hpc : (s.task t).pc w = s.pc w := by simp [System.task, hat]
  have hw : s.pc w = .failed entry := hpc.symm.trans h
  rw [hw] at hat
  exact ⟨hw, Option.some.inj hat⟩

/-- Nobody is at a task twice. -/
theorem System.Fenced.exclusive (h : s.Fenced P) : Exclusive s := by
  intro w w' t hw hw'
  obtain ⟨-, -, hfenced⟩ := h t
  exact hfenced.unique w w' (busy_of_taskId? hw) (busy_of_taskId? hw')

/-- **A step keeps the invariants** when the statuses its worker may leave a task in are in `P`, and
its claim is fenced. -/
theorem System.Fenced.step (h : s.Fenced P) (hstep : System.Step services s l s')
    (hP : EventsAppend (fun st => (st = .queued ∨ st.terminal = true) ∧ ¬ P st) l)
    (hclaim : P .queued → FencedClaim s l) : s'.Fenced P := by
  intro t
  obtain ⟨hheld, hleased, hfenced⟩ := h t
  have htask := System.step_task (fun t => (h t).1.keyed) hstep t
  refine ⟨closed_held.step htask hheld, closed_leased.step htask hleased, ?_⟩
  refine hfenced.step htask hheld ?_ ?_
  · intro env henv st hst hthrow
    by_contra hne
    exact hP env henv st ⟨hst, hne⟩ hthrow
  · rintro w env rfl hbusy hqueued x entry hx
    obtain ⟨entry', hentry', hid⟩ := System.claimed_of_step hstep (taskId?_of_busy hbusy)
    obtain ⟨hpc, hid'⟩ := pc_of_failed hx
    exact hclaim hqueued w env entry' rfl hentry' x entry hpc (hid'.trans hid.symm)

/-- **A step leaves the rows of others alone.** -/
theorem System.Fenced.keepsOthers (h : s.Fenced P) (hstep : System.Step services s l s') :
    KeepsOthers s l s' := by
  intro t r o hr howner hne
  obtain ⟨-, hleased, hfenced⟩ := h t
  have htask := System.step_task (fun t => (h t).1.keyed) hstep t
  have hrow : (s.task t).row = some r := hr
  have hrule : LeaseRule r := hleased r hrow
  have hnot : ∀ {w}, Owned (s.task t) w → w = l.worker → False := by
    rintro w ⟨r', hr', -, howner'⟩ rfl
    cases hrow.symm.trans hr'
    exact hne (Option.some.inj (howner.symm.trans howner'))
  generalize hv : s.task t = v at *
  generalize hv' : s'.task t = v' at *
  have hgoal : v'.row = some r := by
    cases htask with
    | other => exact hrow
    | enqueue ht hnone => exact absurd hrow (by simp [hnone])
    | load => simpa using hrow
    | claim hload hpc hr' hclaim =>
      cases hrow.symm.trans hr'
      have hst := hrule.owner.mp (by simp [howner])
      rw [queued_of_claimable hclaim] at hst
      cases hst
    | @refuse _ w _ _ _ _ _ _ hpc =>
      exact (hnot (hfenced.handling w (by simp [hpc, Pc.handling])) rfl).elim
    | @launch w _ _ _ _ _ hpc =>
      exact (hnot (hfenced.handling w (by simp [hpc, Pc.handling])) rfl).elim
    | @throwBefore _ w _ _ _ _ hpc =>
      exact (hnot (hfenced.handling w (by simp [hpc, Pc.handling])) rfl).elim
    | @settle _ w _ _ _ _ _ _ _ _ _ _ hpc =>
      exact (hnot (hfenced.handling w (by simp [hpc, Pc.handling])) rfl).elim
    | @throwAfter _ w _ _ _ _ _ _ hpc =>
      exact (hnot (hfenced.handling w (by simp [hpc, Pc.handling])) rfl).elim
    | @requeue w _ entry r' _ hpc hr' =>
      rcases hfenced.failed w entry hpc with howned | ⟨r₁, hr₁, hnone, -⟩
      · exact (hnot howned rfl).elim
      · cases hrow.symm.trans hr₁
        rw [hnone] at howner
        cases howner
    | giveUp => exact hrow
    | crash => exact hrow
  subst hv'
  exact hgoal

/-! ## Exclusion of workers -/

/-- A step that leaves at most one worker at a task came from a fenced claim. -/
theorem Exclusive.fencedClaim (h : Exclusive s') (hstep : System.Step services s l s') :
    FencedClaim s l := by
  rintro w env entry rfl hclaimed w' entry' hpc hid
  have hidle : s.pc w = .idle := by
    simp only [System.Step, System.step] at hstep
    split at hstep
    · assumption
    · cases hstep
  have hne : w' ≠ w := by
    rintro rfl
    rw [hidle] at hpc
    cases hpc
  have hw : (s'.pc w).taskId? = some entry.taskId ∧ s'.pc w' = s.pc w' := by
    simp only [System.claimed] at hclaimed
    simp only [System.Step, System.step, hidle] at hstep
    split at hclaimed
    next claimed world hres =>
      subst hclaimed
      rw [hres] at hstep
      cases hstep
      simp [System.goto, System.store, Pc.taskId?, hne]
    next => cases hclaimed
  refine hne (h w' w entry.taskId ?_ hw.1)
  rw [hw.2, hpc]
  exact congrArg some hid

/-- **Workers exclude each other exactly in the runs whose claims are fenced.** There at most one
worker is at any task, and no step writes a row that another worker owns. -/
theorem exclusive_iff_fencedClaims (h₀ : s₀.Initial) :
    Run (Guarded FencedClaim (System.Step services)) s₀ ls s ↔
      Run (fun s l s' => System.Step services s l s' ∧ Exclusive s' ∧ KeepsOthers s l s') s₀ ls s := by
  constructor
  · intro h
    refine h.strengthen (I := System.Fenced fun _ => True) h₀.fenced ?_
    rintro s₁ l s₂ ⟨hclaim, hstep⟩ hfenced
    have hfenced' : s₂.Fenced fun _ => True := by
      refine hfenced.step hstep ?_ fun _ => hclaim
      rintro env henv st ⟨-, hst⟩
      exact absurd trivial hst
    exact ⟨⟨hstep, hfenced'.exclusive, hfenced.keepsOthers hstep⟩, hfenced'⟩
  · intro h
    exact h.mono fun s₁ l s₂ ⟨hstep, hexclusive, _⟩ => ⟨hexclusive.fencedClaim hstep, hstep⟩

/-- The claims of a run are fenced when the event after a requeue can always be appended. -/
theorem fencedClaims_of_eventsAppend (h₀ : s₀.Initial)
    (h : Run (Guarded (fun _ => EventsAppend (· = .queued)) (System.Step services)) s₀ ls s) :
    Run (Guarded FencedClaim (System.Step services)) s₀ ls s := by
  refine h.strengthen (I := System.Fenced fun st => st.terminal = true) h₀.fenced ?_
  rintro s₁ l s₂ ⟨hevents, hstep⟩ hfenced
  have hfenced' : s₂.Fenced fun st => st.terminal = true := by
    refine hfenced.step hstep ?_ fun hqueued => ?_
    · rintro env henv st ⟨rfl | hst, hne⟩
      · exact hevents env henv .queued rfl
      · exact absurd hst hne
    · cases hqueued
  exact ⟨⟨hfenced'.exclusive.fencedClaim hstep, hstep⟩, hfenced'⟩

theorem Label.Faultless.eventsAppend (h : l.Faultless) : EventsAppend P l :=
  fun env henv _ _ => h env henv _

/-- The first worker's handoff to review cannot be recorded after its row was queued, and a second
worker claims the row before the catch path of the first. -/
def overlapping : List Label :=
  [.enqueue "main" Sample.workOrder .implementer Sample.env, .claim "w1" Sample.env,
    .start "w1" Sample.env false,
    .settle "w1" (Sample.envWithout (.appendEvent .taskRequeued)) Sample.implemented false,
    .claim "w2" Sample.env]

/-- Two workers at a task, and a release that takes the row of the second. -/
theorem release_unfenced :
    ∃ s s', System.Steps Sample.services Sample.system overlapping s ∧ ¬ Exclusive s ∧
      System.Step Sample.services s (.release "w1" Sample.env) s' ∧
      ¬ KeepsOthers s (.release "w1" Sample.env) s' := by
  have h : (Sample.system.steps Sample.services overlapping).any (fun s =>
      (s.step Sample.services (.release "w1" Sample.env)).any fun s' =>
        (s.world.core.row "T-1").any fun r => (s'.world.core.row "T-1").any fun r' =>
          (s.pc "w1").taskId? = some "T-1" ∧ (s.pc "w2").taskId? = some "T-1" ∧
          r.currentOwnerRunId = some "w2" ∧ r'.currentOwnerRunId = none) = true := by
    decide +kernel
  obtain ⟨s, hs, hp⟩ := (Option.any_eq_true _ _).mp h
  obtain ⟨s', hs', hp⟩ := (Option.any_eq_true _ _).mp hp
  obtain ⟨r, hr, hp⟩ := (Option.any_eq_true _ _).mp hp
  obtain ⟨r', hr', hp⟩ := (Option.any_eq_true _ _).mp hp
  obtain ⟨hw₁, hw₂, howner, hnone⟩ := of_decide_eq_true hp
  refine ⟨s, s', System.steps_iff.mpr hs, fun hexclusive => ?_, hs', fun hkeeps => ?_⟩
  · exact absurd (hexclusive "w1" "w2" "T-1" hw₁ hw₂) (by decide)
  · have hsame := hkeeps "T-1" r "w2" hr howner (by decide)
    cases hsame.symm.trans hr'
    rw [howner] at hnone
    cases hnone

/-- A worker claims and runs the task, another claims it after its release. -/
def handedOver : List Label :=
  .enqueue "main" Sample.workOrder .implementer Sample.env ::
    (Sample.attempt "w1" Sample.implemented ++ [.claim "w2" Sample.env])

theorem exclusive_iff_fencedClaims_handedOver :
    ∃ s, Run (fun s l s' => System.Step Sample.services s l s' ∧ Exclusive s' ∧
      KeepsOthers s l s') Sample.system handedOver s ∧ (s.pc "w2").taskId? = some "T-1" := by
  have h : (Sample.system.steps Sample.services handedOver).any (fun s =>
      (s.pc "w2").taskId? = some "T-1") = true := by
    decide +kernel
  obtain ⟨s, hs, hp⟩ := (Option.any_eq_true _ _).mp h
  refine ⟨s, ?_, of_decide_eq_true hp⟩
  refine (exclusive_iff_fencedClaims Sample.initial).mp ?_
  refine fencedClaims_of_eventsAppend Sample.initial ?_
  refine (System.steps_iff.mpr hs).guarded_of_labels fun l hl => Label.Faultless.eventsAppend ?_
  simp only [handedOver, List.mem_cons, List.mem_append, List.not_mem_nil, or_false] at hl
  rcases hl with rfl | hl | rfl
  · rintro env ⟨⟩
    exact Sample.env_faultless
  · exact Sample.attempt_faultless hl
  · rintro env ⟨⟩
    exact Sample.env_faultless

/-! ## Terminal rows -/

/-- The claim of a step is fenced, and the event after a terminal release can be appended. -/
def EndsOrderly (s : System) (l : Label) : Prop :=
  FencedClaim s l ∧ EventsAppend (fun st => st.terminal = true) l

/-- Orderly steps leave a task in its catch path only as its worker's, or queued. -/
theorem System.fenced_of_orderly (h₀ : s₀.Initial)
    (h : Run (Guarded EndsOrderly (System.Step services)) s₀ ls s) :
    s.Fenced fun st => st = .queued := by
  refine h.invariant h₀.fenced ?_
  rintro s₁ l s₂ ⟨⟨hclaim, hevents⟩, hstep⟩ hfenced
  refine hfenced.step hstep ?_ fun _ => hclaim
  rintro env henv st ⟨rfl | hst, hne⟩
  · exact absurd rfl hne
  · exact hevents env henv st hst

/-- A run in which no storage call throws is orderly. -/
theorem System.orderly_of_faultless (h₀ : s₀.Initial) (h : System.Steps services s₀ ls s)
    (hls : ∀ l ∈ ls, l.Faultless) : Run (Guarded EndsOrderly (System.Step services)) s₀ ls s := by
  have hfenced : Run (Guarded FencedClaim (System.Step services)) s₀ ls s :=
    fencedClaims_of_eventsAppend h₀ (h.guarded_of_labels fun l hl => (hls l hl).eventsAppend)
  refine hfenced.mem_labels.mono ?_
  rintro s₁ l s₂ ⟨⟨hclaim, hstep⟩, hl⟩
  exact ⟨⟨hclaim, (hls l hl).eventsAppend⟩, hstep⟩

/-- Nobody is at a task with a terminal row. -/
theorem System.Fenced.unattended (h : s.Fenced fun st => st = .queued)
    (hr : s.world.core.row t = some r) (hterminal : r.status.terminal = true) :
    Unattended r (s.task t).calls (s.task t) := by
  obtain ⟨-, -, hfenced⟩ := h t
  have hst : r.status ≠ .queued ∧ r.status ≠ .dispatched := by
    constructor
    · intro hst
      rw [hst] at hterminal
      cases hterminal
    · intro hst
      rw [hst] at hterminal
      cases hterminal
  have hidle := hfenced.not_handling hr hst.2
  refine ⟨hr, hst.1, rfl, fun w => ?_⟩
  have hw := hidle w
  cases hpc : (s.task t).pc w with
  | failed entry =>
    exfalso
    rcases hfenced.failed w entry hpc with ⟨r', hr', hst', -⟩ | ⟨r', hr', -, hst'⟩
    · cases hr'.symm.trans hr
      exact hst.2 hst'
    · cases hr'.symm.trans hr
      exact hst.1 hst'
  | _ => simp_all [Pc.handling, Pc.busy]

/-- **A terminal row is final** in the runs whose steps are orderly: no later step changes it, and
nothing is done about its task any more. -/
theorem terminal_row_stays (h₀ : s₀.Initial)
    (h₁ : Run (Guarded EndsOrderly (System.Step services)) s₀ ls₁ s₁)
    (h₂ : Run (Guarded EndsOrderly (System.Step services)) s₁ ls₂ s₂)
    (hr : s₁.world.core.row t = some r) (hterminal : r.status.terminal = true) :
    s₂.world.core.row t = some r ∧ s₂.calls t = s₁.calls t := by
  have hunattended := (System.fenced_of_orderly h₀ h₁).unattended hr hterminal
  have hstays := System.unattended_of_steps h₀ h₁.of_guarded hunattended h₂.of_guarded
  exact ⟨hstays.row, hstays.calls⟩

/-- An implementation and its approval, whose `task.completed` cannot be recorded. -/
def approvedUnrecorded : List Label :=
  .enqueue "main" Sample.workOrder .implementer Sample.env ::
    (Sample.attempt "w1" Sample.implemented ++
      [.claim "w1" Sample.env, .start "w1" Sample.env false,
        .settle "w1" (Sample.envWithout (.appendEvent .taskCompleted)) Sample.approved false])

/-- The catch path, and the next attempt. -/
def reopened : List Label :=
  [.release "w1" Sample.env, .claim "w1" Sample.env, .start "w1" Sample.env false]

/-- An accepted task is queued again and run once more. -/
theorem terminal_row_reopened :
    ∃ s₁ s₂ r r', System.Steps Sample.services Sample.system approvedUnrecorded s₁ ∧
      System.Steps Sample.services s₁ reopened s₂ ∧ s₁.world.core.row "T-1" = some r ∧
      r.status = .accepted ∧ s₂.world.core.row "T-1" = some r' ∧ r'.status = .dispatched ∧
      (s₁.calls "T-1").countP (·.2.isLaunched) < (s₂.calls "T-1").countP (·.2.isLaunched) := by
  have h : (Sample.system.steps Sample.services approvedUnrecorded).any (fun s₁ =>
      (s₁.steps Sample.services reopened).any fun s₂ =>
        (s₁.world.core.row "T-1").any fun r => (s₂.world.core.row "T-1").any fun r' =>
          r.status = .accepted ∧ r'.status = .dispatched ∧
          (s₁.calls "T-1").countP (·.2.isLaunched) <
            (s₂.calls "T-1").countP (·.2.isLaunched)) = true := by
    decide +kernel
  obtain ⟨s₁, hs₁, hp⟩ := (Option.any_eq_true _ _).mp h
  obtain ⟨s₂, hs₂, hp⟩ := (Option.any_eq_true _ _).mp hp
  obtain ⟨r, hr, hp⟩ := (Option.any_eq_true _ _).mp hp
  obtain ⟨r', hr', hp⟩ := (Option.any_eq_true _ _).mp hp
  obtain ⟨haccepted, hdispatched, hlaunched⟩ := of_decide_eq_true hp
  exact ⟨s₁, s₂, r, r', System.steps_iff.mpr hs₁, System.steps_iff.mpr hs₂, hr, haccepted, hr',
    hdispatched, hlaunched⟩

/-- An implementation and its approval, and a worker that looks for more. -/
def reviewed : List Label :=
  .enqueue "main" Sample.workOrder .implementer Sample.env ::
    (Sample.attempt "w1" Sample.implemented ++ Sample.attempt "w1" Sample.approved)

theorem terminal_row_stays_reviewed :
    ∃ s₁ s₂ r, System.Steps Sample.services Sample.system reviewed s₁ ∧
      System.Steps Sample.services s₁ [.claim "w2" Sample.env] s₂ ∧
      s₁.world.core.row "T-1" = some r ∧ r.status = .accepted ∧
      s₂.world.core.row "T-1" = some r := by
  have h : (Sample.system.steps Sample.services (reviewed ++ [.claim "w2" Sample.env])).isSome ∧
      (Sample.system.steps Sample.services reviewed).any (fun s =>
        (s.world.core.row "T-1").any fun r => r.status = .accepted) = true := by
    decide +kernel
  obtain ⟨hs, haccepted⟩ := h
  obtain ⟨s₂, hs₂⟩ := Option.isSome_iff_exists.mp hs
  have horderly := System.orderly_of_faultless Sample.initial (System.steps_iff.mpr hs₂) (by
    intro l hl
    simp only [reviewed, List.mem_cons, List.mem_append, List.not_mem_nil, or_false] at hl
    rcases hl with (rfl | hl | hl) | rfl
    · rintro env ⟨⟩
      exact Sample.env_faultless
    · exact Sample.attempt_faultless hl
    · exact Sample.attempt_faultless hl
    · rintro env ⟨⟩
      exact Sample.env_faultless)
  obtain ⟨s₁, h₁, h₂⟩ := Run.append_iff.mp horderly
  rw [System.steps_iff.mp h₁.of_guarded, Option.any_some] at haccepted
  obtain ⟨r, hr, hp⟩ := (Option.any_eq_true _ _).mp haccepted
  have hst : r.status = .accepted := of_decide_eq_true hp
  have hstays := terminal_row_stays Sample.initial h₁ h₂ hr (by simp [hst, TaskStatus.terminal])
  exact ⟨s₁, s₂, r, h₁.of_guarded, h₂.of_guarded, hr, hst, hstays.1⟩

end systems

end AgentWorkflow
