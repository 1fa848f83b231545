import AgentWorkflow.Lib.Lineup
import AgentWorkflow.Queue.HandlerExit
import AgentWorkflow.Queue.Lease

/-!
# Which task comes next

The order of `claimSelectStmt` and what a failed attempt does to it: nothing, since a release does
not write `enqueued_at`.

* `ahead` — the rows before a task in the claim order; `claimSelect` takes the first claimable row
  of that order (`claimSelect_eq_find?`).
* `Requeued` — the queue after any part of an attempt: only the row of the task differs, in the same
  place, and it has no owner when it is queued.
* **`next_claim_other_iff`** — after a failed attempt of a task the worker's next claim gets another
  one only if none else is claimable, or if a lease ahead of the task has run out meanwhile.
* **`failing_task_first`** — so a worker whose attempts of a task fail gets it again and again.
-/

namespace AgentWorkflow

open Fallible WorkerTaskHandler

/-! ## The claim order -/

/-- The rows a claim looks at before the task `t`. -/
def ahead (rows : List TaskRow) (t : String) : List TaskRow :=
  rows.ahead (fun r => r.enqueuedAt) fun r => r.taskId = t

/-- The first claimable row of the order. -/
theorem claimSelect_eq_find? {rows : List TaskRow} {now : ℕ} :
    QueueStore.claimSelect rows now =
      (rows.lineup fun r => r.enqueuedAt).find? (QueueStore.claimable now) :=
  List.find?_lineup

section order

variable {q : Table TaskRow.key} {t : String} {r r' : TaskRow} {now : ℕ}

/-- A task has one row. -/
theorem eq_of_taskId (hr : r ∈ q.rows) (hr' : r' ∈ q.rows) (h : r'.taskId = r.taskId) :
    r' = r := by
  have hfind := Table.mem_iff_find?.mp hr'
  rw [show r'.key = r.key from h, Table.mem_iff_find?.mp hr] at hfind
  exact (Option.some.inj hfind).symm

/-- A change of the task's row that leaves its place leaves the rows ahead. -/
theorem ahead_update {f : TaskRow → TaskRow} {hf : ∀ r, (f r).key = r.key}
    (hfixed : ∀ r, (f r).fixed = r.fixed) : ahead (q.update t f hf).rows t = ahead q.rows t := by
  have htime : ∀ r, (f r).enqueuedAt = r.enqueuedAt := fun r =>
    congrArg (fun x => x.2.2) (hfixed r)
  refine List.ahead_map (fun r => ?_) (fun r => ?_) fun r hr => if_neg ?_
  · split
    · exact htime r
    · rfl
  · split
    · exact congrArg (fun k => decide (k = t)) (hf r)
    · rfl
  · exact of_decide_eq_false hr

/-- Nothing ahead of a selected row is claimable. -/
theorem not_claimable_of_ahead (h : QueueStore.claimSelect q.rows now = some r)
    (ha : r' ∈ ahead q.rows r.taskId) : QueueStore.claimable now r' = false := by
  rw [claimSelect_eq_find?] at h
  have hmem : r ∈ q.rows := (List.mem_insertionSort _).mp (List.mem_of_find?_eq_some h)
  exact List.not_of_mem_ahead h (by simp)
    (fun b hb hid => eq_of_taskId hmem hb (of_decide_eq_true hid)) ha

/-- Where a task is claimable, another one is selected exactly when one ahead is claimable too. -/
theorem claimSelect_other_iff (hr : r ∈ q.rows) (hclaim : QueueStore.claimable now r = true)
    (h : QueueStore.claimSelect q.rows now = some r') :
    r'.taskId ≠ r.taskId ↔ ∃ a ∈ ahead q.rows r.taskId, QueueStore.claimable now a = true := by
  rw [claimSelect_eq_find?] at h
  refine Iff.trans ?_ (List.find?_lineup_of_mem hr (p := fun x => x.taskId = r.taskId) (by simp)
    (fun b hb hid => eq_of_taskId hr hb (of_decide_eq_true hid)) hclaim h)
  simp

end order

/-! ## Claims -/

/-- The time a claim takes for the present: it is read after the default lease was computed. -/
def TaskQueue.claimTime (env : Env) (w : World) : ℕ :=
  match computeDefaultLeaseForNextClaimable env w with
  | .ok _ w' => env.clock w'.backend.calls
  | .error _ w' => env.clock w'.backend.calls

/-- A claim that gets an entry dispatches the row it selects at its time. -/
theorem TaskQueue.claim_ok {worker : String} {env : Env} {w w' : World} {entry : TaskQueueEntry}
    (h : TaskQueue.claim worker env w = .ok (some entry) w') :
    ∃ row lease, QueueStore.claimSelect w.core.taskQueue.rows (TaskQueue.claimTime env w) =
        some row ∧ entry.taskId = row.taskId ∧
      w'.core.taskQueue = w.core.taskQueue.update row.taskId
        (QueueStore.claimedRow worker lease (TaskQueue.claimTime env w))
        (QueueStore.key_claimedRow _ _ _) := by
  unfold TaskQueue.claim at h
  cases hlease : computeDefaultLeaseForNextClaimable env w with
  | error e w₁ =>
    rw [bind_of_error hlease] at h
    cases h
  | ok lease w₁ =>
    rw [bind_of_ok hlease] at h
    have htime : TaskQueue.claimTime env w = env.clock w₁.backend.calls := by
      simp only [TaskQueue.claimTime, hlease]
    have hqueue : w₁.core.taskQueue = w.core.taskQueue := by
      have hspec : OnCore computeDefaultLeaseForNextClaimable env w.core
          (fun _ c' => c'.taskQueue = w.core.taskQueue) fun _ _ => True := by
        refine TaskQueue.onCore_computeDefaultLease (fun _ c' hc' => ?_) fun _ => trivial
        rcases hc' with rfl | ⟨k, r, wo, -, -, -, rfl⟩ <;> rfl
      exact hspec.of_ok hlease
    have hspec : Ensures (QueueStore.claim worker lease) env w₁ (fun claimed w' => ∀ entry,
        claimed = some entry → ∃ row lease,
          QueueStore.claimSelect w₁.core.taskQueue.rows (env.clock w₁.backend.calls) = some row ∧
          entry.taskId = row.taskId ∧ w'.core.taskQueue = w₁.core.taskQueue.update row.taskId
            (QueueStore.claimedRow worker lease (env.clock w₁.backend.calls))
            (QueueStore.key_claimedRow _ _ _)) fun _ _ => True := by
      unfold QueueStore.claim
      simp only [ensures_bind, ensures_onBackend, ensures_dateNow, ensures_storageCall_iff,
        getCore, ensures_get, ensures_pure, implies_true, true_and]
      intro _
      split
      · rintro entry ⟨⟩
      next row hrow =>
        simp only [ensures_bind, ensures_onBackend, ensures_storageCall_iff, ensures_get,
          ensures_pure, ensures_ite, modifyCore, ensures_modify, implies_true, true_and]
        refine fun _ => ⟨fun _ => ?_, fun _ => ?_⟩
        · rintro entry ⟨⟩
          exact ⟨row, _, hrow, rfl, rfl⟩
        · rintro entry ⟨⟩
    rw [htime, ← hqueue]
    exact hspec.of_ok h entry rfl

/-! ## Attempts -/

/-- The queue after a part of an attempt of `t`, from the queue `q₀` before it. -/
def Requeued (t : String) (q₀ q : Table TaskRow.key) : Prop :=
  ∃ (g : TaskRow → TaskRow) (hg : ∀ r, (g r).key = r.key),
    (∀ r, (g r).fixed = r.fixed) ∧
    (∀ r, (g r).status = .queued → (g r).currentOwnerRunId = none) ∧ q = q₀.update t g hg

section requeued

variable {t : String} {q₀ q : Table TaskRow.key} {f : TaskRow → TaskRow}

/-- Two updates of one row are one. -/
theorem Table.update_update {g : TaskRow → TaskRow} {hf : ∀ r, (f r).key = r.key}
    {hg : ∀ r, (g r).key = r.key} :
    (q.update t g hg).update t f hf = q.update t (f ∘ g) fun r => (hf (g r)).trans (hg r) := by
  have hrows : ((q.update t g hg).update t f hf).rows =
      (q.update t (f ∘ g) fun r => (hf (g r)).trans (hg r)).rows := by
    refine (List.map_map ..).trans (List.map_congr_left fun r _ => ?_)
    by_cases hk : r.key = t
    · simp [hk, hg]
    · simp [hk]
  cases h₁ : (q.update t g hg).update t f hf
  cases h₂ : q.update t (f ∘ g) fun r => (hf (g r)).trans (hg r)
  rw [h₁, h₂] at hrows
  cases hrows
  rfl

/-- A write of a release: the place stays, and a queued row has no owner. -/
theorem Requeued.release (hf : ∀ r, (f r).key = r.key) (h : Requeued t q₀ q)
    (hfixed : ∀ r, (f r).fixed = r.fixed)
    (howner : ∀ r, (f r).status = .queued → (f r).currentOwnerRunId = none) :
    Requeued t q₀ (q.update t f hf) := by
  obtain ⟨g, hg, hgfixed, -, rfl⟩ := h
  exact ⟨f ∘ g, fun r => (hf (g r)).trans (hg r), fun r => (hfixed (g r)).trans (hgfixed r),
    fun r => howner (g r), Table.update_update⟩

/-- A write of another column. -/
theorem Requeued.column (hf : ∀ r, (f r).key = r.key) (h : Requeued t q₀ q)
    (hwrite : ColumnWrite f) :
    Requeued t q₀ (q.update t f hf) := by
  obtain ⟨g, hg, hgfixed, howner, rfl⟩ := h
  refine ⟨f ∘ g, fun r => (hf (g r)).trans (hg r), fun r => (hwrite.fixed (g r)).trans (hgfixed r),
    fun r hst => ?_, Table.update_update⟩
  have hstanding := hwrite.standing (g r)
  simp only [TaskRow.standing, Prod.mk.injEq] at hstanding
  obtain ⟨hstatus, -, hown, -⟩ := hstanding
  exact hown.trans (howner r (hstatus.symm.trans hst))

/-- **What a handler does keeps the queue so**, whatever the log and the services do. -/
theorem requeued_handlerFrame (services : HandlerServices) (entry : TaskQueueEntry)
    (q₀ : Table TaskRow.key) :
    HandlerFrame services entry (fun _ => True) (fun _ => True)
      fun w => Requeued entry.taskId q₀ w.core.taskQueue where
  core w c hc hw := by
    show Requeued entry.taskId q₀ c.taskQueue
    rwa [hc]
  columns _ _ hf hwrite hw := hw.column hf hwrite
  log c :=
    { quiet := fun _ _ _ _ _ _ hb => hb
      append := fun _ _ _ hb => hb
      service := fun _ _ _ _ hb _ => ensures_of_forall (fun _ _ _ => hb) fun _ _ _ => hb
      known := fun _ _ _ _ => trivial }

/-- So does its release. -/
theorem Releases.requeued {entry : TaskQueueEntry} {status : TaskStatus} {role : Role} {n : ℕ}
    {w w' : World} (h : Releases entry status role n w w')
    (hw : Requeued entry.taskId q₀ w.core.taskQueue) :
    Requeued entry.taskId q₀ w'.core.taskQueue := by
  obtain ⟨-, updatedAt, calls, rfl⟩ := h
  have howner : ∀ r, (releasedRow status role n updatedAt r).currentOwnerRunId = none :=
    fun _ => rfl
  exact hw.release (Update.key_onRow (.release status role n updatedAt)) (fun _ => rfl)
    fun r _ => howner r

end requeued

/-- A step of `handle` by a worker. -/
def Label.Handles (w : String) : Label → Prop
  | .start w' _ _ => w' = w
  | .settle w' _ _ _ => w' = w
  | _ => False

/-- An attempt that throws: a claim, steps of `handle`, and the catch path. -/
def failedAttempt (w : String) (e₁ : Env) (hs : List Label) (e₂ : Env) : List Label :=
  .claim w e₁ :: (hs ++ [.release w e₂])

namespace System

variable {services : HandlerServices} {s s' : System} {w : String} {e₁ e₂ e₃ : Env}
  {hs : List Label} {entry next : TaskQueueEntry} {t : String}

/-- The queue of the system and the place of a worker during an attempt of `t`. -/
structure Attempting (w t : String) (q₀ : Table TaskRow.key) (s : System) : Prop where
  queue : Requeued t q₀ s.world.core.taskQueue
  pc : ∀ t', (s.pc w).taskId? = some t' → t' = t

/-- The queue after an exit of `handle`, complete or not. -/
theorem requeued_of_exit {q₀ : Table TaskRow.key} {world : World} {n : ℕ}
    (h : Exited (fun w => Requeued entry.taskId q₀ w.core.taskQueue) entry n world ∨
      Requeued entry.taskId q₀ world.core.taskQueue ∨
      HalfExited (fun w => Requeued entry.taskId q₀ w.core.taskQueue) entry n world) :
    Requeued entry.taskId q₀ world.core.taskQueue := by
  rcases h with ⟨w₁, w₂, status, role, hw₁, -, hrel, e, calls, -, rfl⟩ | hw | ⟨w₁, status, role, hw₁,
    -, hrel⟩
  · exact hrel.requeued hw₁
  · exact hw
  · exact hrel.requeued hw₁

/-- A step of `handle`. -/
theorem Attempting.handles {q₀ : Table TaskRow.key} {l : Label} (h : Attempting w t q₀ s)
    (hl : l.Handles w) (hstep : Step services s l s') : Attempting w t q₀ s' := by
  cases l with
  | start w' env aborted =>
    obtain rfl : w' = w := hl
    simp only [Step, step] at hstep
    split at hstep
    next entry hpc =>
      obtain rfl : entry.taskId = t := h.pc _ (by rw [hpc]; rfl)
      have hexits : ExitsOr _ entry (fun l => l.entry = entry ∧ True)
          (handleUntilLaunch services w' entry aborted) :=
        handleUntilLaunch_exits (requeued_handlerFrame services entry q₀)
      have hexit := hexits env (s.load w') h.queue
      split at hstep
      next world hres =>
        cases hstep
        rcases hexit.of_ok hres with ⟨-, hexit⟩ | ⟨l, hl, -⟩
        · have hqueue := requeued_of_exit (Or.inl hexit)
          exact ⟨hqueue, by simp [System.goto, Pc.taskId?]⟩
        · cases hl
      next l world hres =>
        cases hstep
        rcases hexit.of_ok hres with ⟨hnone, -⟩ | ⟨l', hl', ⟨hentry, -⟩, hw⟩
        · cases hnone
        · cases hl'
          exact ⟨hw, by simp [System.goto, Pc.taskId?, hentry]⟩
      next e world hres =>
        cases hstep
        have hqueue := requeued_of_exit (Or.inr (hexit.of_error hres))
        exact ⟨hqueue, by simp [System.goto, Pc.taskId?]⟩
    next => cases hstep
  | settle w' env run aborted =>
    obtain rfl : w' = w := hl
    simp only [Step, step] at hstep
    split at hstep
    next l hpc =>
      obtain rfl : l.entry.taskId = t := h.pc _ (by rw [hpc]; rfl)
      have hexits : Ensures (runAndSettle services w' l run aborted) env (s.load w')
          (fun _ world => Requeued l.entry.taskId q₀ world.core.taskQueue)
          fun _ world => Requeued l.entry.taskId q₀ world.core.taskQueue := by
        unfold runAndSettle
        refine ensures_bind.mpr (ensures_onBackend.mpr (ensures_of_forall (fun result b _ => ?_)
          fun _ _ _ => h.queue))
        have hafter : Exits (fun w => Requeued l.entry.taskId q₀ w.core.taskQueue) l.entry
            (attemptsAfter l.entry result) (handleAfterRun services w' l result aborted) :=
          handleAfterRun_exits (requeued_handlerFrame services l.entry q₀) rfl fun _ _ => trivial
        exact (hafter env ⟨(s.load w').core, b⟩ h.queue).mono
          (fun _ _ hexit => requeued_of_exit (Or.inl hexit))
          fun _ _ hexit => requeued_of_exit (Or.inr hexit)
      split at hstep
      next world hres =>
        cases hstep
        have hqueue := hexits.of_ok hres
        exact ⟨hqueue, by simp [System.goto, Pc.taskId?]⟩
      next e world hres =>
        cases hstep
        have hqueue := hexits.of_error hres
        exact ⟨hqueue, by simp [System.goto, Pc.taskId?]⟩
    next => cases hstep
  | _ => exact hl.elim

/-- The catch path. -/
theorem Attempting.releases {q₀ : Table TaskRow.key} (h : Attempting w t q₀ s)
    (hstep : Step services s (.release w e₂) s') : Requeued t q₀ s'.world.core.taskQueue := by
  simp only [Step, step] at hstep
  split at hstep
  next entry hpc =>
    obtain rfl : entry.taskId = t := h.pc _ (by rw [hpc]; rfl)
    have hspec : OnCore (Worker.releaseAfterHandlerFailure entry) e₂ (s.load w).core
        (fun _ c' => Requeued entry.taskId q₀ c'.taskQueue)
        fun _ c' => Requeued entry.taskId q₀ c'.taskQueue :=
      Worker.onCore_releaseAfterHandlerFailure
        (fun r u _ => h.queue.release (QueueStore.key_apply Worker.failurePatch r.toTaskQueueEntry u)
          (fun _ => rfl) fun _ _ => rfl) (fun _ => h.queue)
        fun _ => h.queue
    split at hstep
    next world hres =>
      cases hstep
      exact hspec.of_ok hres
    next e world hres =>
      cases hstep
      exact hspec.of_error hres
  next => cases hstep

/-- **A failed attempt leaves the queue as it was**, but for the row of its task. -/
theorem requeued_of_failedAttempt (hhs : ∀ l ∈ hs, l.Handles w)
    (h : Steps services s (failedAttempt w e₁ hs e₂) s') (hentry : s.claimed w e₁ = some entry) :
    Requeued entry.taskId s.world.core.taskQueue s'.world.core.taskQueue := by
  obtain ⟨s₁, hclaim, h⟩ := Run.cons_iff.mp h
  obtain ⟨s₂, hhandle, hrelease⟩ := Run.snoc_iff.mp h
  have hstart : Attempting w entry.taskId s.world.core.taskQueue s₁ := by
    unfold claimed at hentry
    simp only [Step, step] at hclaim
    split at hclaim
    next hpc =>
      split at hclaim
      next world hres =>
        rw [hres] at hentry
        cases hentry
      next entry' world hres =>
        rw [hres] at hentry
        obtain rfl : entry' = entry := Option.some.inj hentry
        cases hclaim
        obtain ⟨row, lease, -, hid, hqueue⟩ := TaskQueue.claim_ok hres
        refine ⟨⟨QueueStore.claimedRow w lease (TaskQueue.claimTime e₁ (s.load w)),
          QueueStore.key_claimedRow _ _ _, fun _ => rfl, fun r hst => ?_, ?_⟩, ?_⟩
        · cases hst
        · rw [hid]
          exact hqueue
        · simp [System.goto, Pc.taskId?]
      next e world hres =>
        rw [hres] at hentry
        cases hentry
    next => cases hclaim
  have hend : Attempting w entry.taskId s.world.core.taskQueue s₂ :=
    (hhandle.guarded_of_labels hhs).invariant_of_guard hstart
      fun _ _ _ hl hstep hI => hI.handles hl hstep
  exact hend.releases hrelease

/-! ## The next claim -/

/-- The time of a worker's claim. -/
def claimTime (s : System) (w : String) (env : Env) : ℕ := TaskQueue.claimTime env (s.load w)

/-- A task other than `t` is claimable. -/
def OtherClaimable (s : System) (t : String) (now : ℕ) : Prop :=
  ∃ r ∈ s.world.core.taskQueue.rows, r.taskId ≠ t ∧ QueueStore.claimable now r = true

/-- A row ahead of `t` is queued with an owner whose lease ends between two times. -/
def LeaseEndsAhead (s : System) (t : String) (before after : ℕ) : Prop :=
  ∃ a ∈ ahead s.world.core.taskQueue.rows t, a.status = .queued ∧ a.currentOwnerRunId ≠ none ∧
    ∃ lease, a.leaseExpiresAt = some lease ∧ before ≤ lease ∧ lease < after

/-- A row that becomes claimable has a lease that ends. -/
theorem claimable_later_iff {a : TaskRow} {before after : ℕ}
    (h : QueueStore.claimable before a = false) :
    QueueStore.claimable after a = true ↔ a.status = .queued ∧ a.currentOwnerRunId ≠ none ∧
      ∃ lease, a.leaseExpiresAt = some lease ∧ before ≤ lease ∧ lease < after := by
  simp only [QueueStore.claimable, decide_eq_false_iff_not, decide_eq_true_eq, not_and, not_or] at h ⊢
  constructor
  · rintro ⟨hst, howner⟩
    obtain ⟨hnone, hlease⟩ := h hst
    refine ⟨hst, hnone, ?_⟩
    rcases howner with howner | howner
    · exact absurd howner hnone
    · obtain ⟨lease, hl, hlt⟩ := (Option.any_eq_true _ _).mp howner
      refine ⟨lease, hl, ?_, of_decide_eq_true hlt⟩
      simpa [hl] using hlease
  · rintro ⟨hst, -, lease, hl, -, hlt⟩
    exact ⟨hst, Or.inr (by simpa [hl] using hlt)⟩

/-- The row a claim of the system selects. -/
theorem claimSelect_of_claimed (h : s.claimed w e₁ = some entry) : ∃ row,
    QueueStore.claimSelect s.world.core.taskQueue.rows (s.claimTime w e₁) = some row ∧
      entry.taskId = row.taskId := by
  unfold claimed at h
  split at h
  next claimed world hres =>
    rw [h] at hres
    obtain ⟨row, lease, hsel, hid, -⟩ := TaskQueue.claim_ok hres
    exact ⟨row, hsel, hid⟩
  next => cases h

/-- After a failed attempt the next claim gets another task exactly when a lease has run out ahead
of it. -/
theorem next_claim_other (hhs : ∀ l ∈ hs, l.Handles w)
    (h : Steps services s (failedAttempt w e₁ hs e₂) s') (hentry : s.claimed w e₁ = some entry)
    {r : TaskRow} (hr : s'.world.core.row entry.taskId = some r) (hq : r.status = .queued)
    (hnext : s'.claimed w e₃ = some next) :
    next.taskId ≠ entry.taskId ↔
      LeaseEndsAhead s entry.taskId (s.claimTime w e₁) (s'.claimTime w e₃) := by
  obtain ⟨row, hsel, hid⟩ := claimSelect_of_claimed hentry
  obtain ⟨row', hsel', hid'⟩ := claimSelect_of_claimed hnext
  obtain ⟨g, hg, hfixed, howner, hqueue⟩ := requeued_of_failedAttempt hhs h hentry
  have hmem : r ∈ s'.world.core.taskQueue.rows := List.mem_of_find?_eq_some hr
  have hkey : r.key = entry.taskId := Table.key_of_find? hr
  rw [show r.key = r.taskId from rfl] at hkey
  have hclaim : QueueStore.claimable (s'.claimTime w e₃) r = true := by
    have hrow : s'.world.core.row entry.taskId =
        (s.world.core.row entry.taskId).map g := by
      unfold Core.row
      rw [hqueue, Table.find?_update_self]
    rw [hr] at hrow
    obtain ⟨r₀, -, rfl⟩ := Option.map_eq_some_iff.mp hrow.symm
    simp [QueueStore.claimable, hq, howner r₀ hq]
  rw [hid', ← hkey, claimSelect_other_iff hmem hclaim hsel', hkey, hqueue, ahead_update hfixed]
  refine exists_congr fun a => and_congr_right fun ha => claimable_later_iff ?_
  rw [hid] at ha
  exact not_claimable_of_ahead hsel ha

/-- **A failed attempt does not send its task back.** After it the worker's next claim gets another
task whenever one is claimable, exactly when none is or a lease has run out ahead of the task. -/
theorem next_claim_other_iff (hhs : ∀ l ∈ hs, l.Handles w)
    (h : Steps services s (failedAttempt w e₁ hs e₂) s') (hentry : s.claimed w e₁ = some entry)
    {r : TaskRow} (hr : s'.world.core.row entry.taskId = some r) (hq : r.status = .queued)
    (hnext : s'.claimed w e₃ = some next) :
    (OtherClaimable s' entry.taskId (s'.claimTime w e₃) → next.taskId ≠ entry.taskId) ↔
      ¬ OtherClaimable s' entry.taskId (s'.claimTime w e₃) ∨
        LeaseEndsAhead s entry.taskId (s.claimTime w e₁) (s'.claimTime w e₃) := by
  rw [imp_iff_not_or, next_claim_other hhs h hentry hr hq hnext]

/-! ## Runs -/

/-- A row of a system that began empty is claimable exactly while it is queued. -/
theorem claimable_iff_of_steps {s₀ : System} {ls : List Label} (h₀ : s₀.Initial)
    (h : Steps services s₀ ls s) {r : TaskRow} (hr : r ∈ s.world.core.taskQueue.rows) (now : ℕ) :
    QueueStore.claimable now r = true ↔ r.status = .queued := by
  have hrule := leased_of_steps h₀ h r.taskId r (Table.mem_iff_find?.mp hr)
  exact ⟨queued_of_claimable, fun hq => hrule.claimable_of_queued hq now⟩

/-- Whoever claims there, and whenever, gets the same task. -/
theorem claimed_unique {s₀ : System} {ls : List Label} (h₀ : s₀.Initial)
    (h : Steps services s₀ ls s) {w' : String} (hentry : s.claimed w e₁ = some entry)
    (hnext : s.claimed w' e₂ = some next) : next.taskId = entry.taskId := by
  obtain ⟨row, hsel, hid⟩ := claimSelect_of_claimed hentry
  obtain ⟨row', hsel', hid'⟩ := claimSelect_of_claimed hnext
  have hfilter : s.world.core.taskQueue.rows.filter (QueueStore.claimable (s.claimTime w e₁)) =
      s.world.core.taskQueue.rows.filter (QueueStore.claimable (s.claimTime w' e₂)) := by
    refine List.filter_congr fun r hr => ?_
    rw [Bool.eq_iff_iff, claimable_iff_of_steps h₀ h hr, claimable_iff_of_steps h₀ h hr]
  unfold QueueStore.claimSelect at hsel hsel'
  rw [hfilter, hsel'] at hsel
  rw [hid, hid', Option.some.inj hsel]

/-- **The task whose attempt failed comes first again**, in every run. -/
theorem failing_task_first {s₀ : System} {ls : List Label} (h₀ : s₀.Initial)
    (hs₀ : Steps services s₀ ls s) (hhs : ∀ l ∈ hs, l.Handles w)
    (h : Steps services s (failedAttempt w e₁ hs e₂) s') (hentry : s.claimed w e₁ = some entry)
    {r : TaskRow} (hr : s'.world.core.row entry.taskId = some r) (hq : r.status = .queued)
    (hnext : s'.claimed w e₃ = some next) : next.taskId = entry.taskId := by
  by_contra hne
  obtain ⟨a, ha, hst, howner, -⟩ := (next_claim_other hhs h hentry hr hq hnext).mp hne
  have hmem : a ∈ s.world.core.taskQueue.rows :=
    (List.mem_insertionSort _).mp ((List.takeWhile_sublist _).mem ha)
  have hrule := leased_of_steps h₀ hs₀ a.taskId a (Table.mem_iff_find?.mp hmem)
  have hdispatched := hrule.owner.mp (Option.isSome_iff_ne_none.mpr howner)
  rw [hst] at hdispatched
  cases hdispatched

/-- Failed attempts of a worker, one after the other, each of which leaves its task queued. -/
inductive FailedAttempts (services : HandlerServices) (w : String) (s : System) : System → Prop
  | nil : FailedAttempts services w s s
  | snoc {s₁ s₂ : System} {e₁ e₂ : Env} {hs : List Label} {entry : TaskQueueEntry} {r : TaskRow}
    (h : FailedAttempts services w s s₁) (hhs : ∀ l ∈ hs, l.Handles w)
    (hentry : s₁.claimed w e₁ = some entry)
    (hrun : Steps services s₁ (failedAttempt w e₁ hs e₂) s₂)
    (hr : s₂.world.core.row entry.taskId = some r) (hq : r.status = .queued) :
    FailedAttempts services w s s₂

theorem FailedAttempts.steps (h : FailedAttempts services w s s') :
    ∃ ls, Steps services s ls s' := by
  induction h with
  | nil => exact ⟨[], .nil s⟩
  | snoc _ _ _ hrun _ _ ih =>
    obtain ⟨ls, hls⟩ := ih
    exact ⟨_, Run.append_iff.mpr ⟨_, hls, hrun⟩⟩

/-- **A task whose handling always throws keeps the worker**: after any number of failed attempts
its claim still gets the task it got first. -/
theorem failing_task_starves {s₀ : System} {ls : List Label} (h₀ : s₀.Initial)
    (hs₀ : Steps services s₀ ls s) (h : FailedAttempts services w s s')
    (hentry : s.claimed w e₁ = some entry) (hnext : s'.claimed w e₃ = some next) :
    next.taskId = entry.taskId := by
  induction h generalizing e₃ next with
  | nil => exact claimed_unique h₀ hs₀ hentry hnext
  | snoc hprev hhs hentry₁ hrun hr hq ih =>
    obtain ⟨ls', hls'⟩ := hprev.steps
    have hreach := Run.append_iff.mpr ⟨_, hs₀, hls'⟩
    exact (failing_task_first h₀ hreach hhs hrun hentry₁ hr hq hnext).trans (ih hentry₁)

/-! ### Two tasks -/

theorem secondOrder_valid :
    ({ Sample.workOrder.toWorkOrderV1 with taskId := "T-2" } : WorkOrderV1).Valid := by
  decide +kernel

/-- A second task. -/
def secondOrder : ParsedWorkOrderV1 :=
  { Sample.workOrder with
    taskId := "T-2"
    valid := secondOrder_valid }

/-- Both tasks are enqueued. -/
def bothQueued : List Label :=
  [.enqueue "main" Sample.workOrder .implementer Sample.env,
    .enqueue "main" secondOrder .implementer Sample.env]

/-- An attempt in which no budget can be read. -/
def unreadBudget : List Label := [.start "w1" (Sample.envWithout .getBudget) false]

theorem handles_unreadBudget : ∀ l ∈ unreadBudget, l.Handles "w1" := by
  intro l hl
  obtain rfl := List.mem_singleton.mp hl
  rfl

theorem otherClaimable_iff {s : System} {t : String} {now : ℕ} : OtherClaimable s t now ↔
    (s.world.core.taskQueue.rows.any fun r =>
      decide (r.taskId ≠ t) && QueueStore.claimable now r) = true := by
  simp [OtherClaimable]

/-- After a failed attempt of the first task its worker gets it again, though the second one is
claimable. -/
theorem next_claim_same : ∃ s s' entry r next,
    System.Steps Sample.services Sample.system bothQueued s ∧
    System.Steps Sample.services s (failedAttempt "w1" Sample.env unreadBudget Sample.env) s' ∧
    s.claimed "w1" Sample.env = some entry ∧
    s'.world.core.row entry.taskId = some r ∧ r.status = .queued ∧
    s'.claimed "w1" Sample.env = some next ∧
    OtherClaimable s' entry.taskId (s'.claimTime "w1" Sample.env) ∧
    next.taskId = entry.taskId := by
  have h : (Sample.system.steps Sample.services bothQueued).any (fun s =>
      (s.claimed "w1" Sample.env).any fun entry =>
        (s.steps Sample.services (failedAttempt "w1" Sample.env unreadBudget Sample.env)).any
          fun s' => (s'.world.core.row entry.taskId).any (·.status = .queued) &&
            (s'.claimed "w1" Sample.env).any fun next => next.taskId = entry.taskId &&
              s'.world.core.taskQueue.rows.any fun r => decide (r.taskId ≠ entry.taskId) &&
                QueueStore.claimable (s'.claimTime "w1" Sample.env) r) = true := by
    decide +kernel
  obtain ⟨s, hs, hp⟩ := (Option.any_eq_true _ _).mp h
  obtain ⟨entry, hentry, hp⟩ := (Option.any_eq_true _ _).mp hp
  obtain ⟨s', hs', hp⟩ := (Option.any_eq_true _ _).mp hp
  obtain ⟨hrow, hp⟩ := Bool.and_eq_true_iff.mp hp
  obtain ⟨r, hr, hq⟩ := (Option.any_eq_true _ _).mp hrow
  obtain ⟨next, hnext, hp⟩ := (Option.any_eq_true _ _).mp hp
  obtain ⟨hsame, hother⟩ := Bool.and_eq_true_iff.mp hp
  exact ⟨s, s', entry, r, next, System.steps_iff.mpr hs, System.steps_iff.mpr hs', hentry, hr,
    of_decide_eq_true hq, hnext, otherClaimable_iff.mpr hother, of_decide_eq_true hsame⟩

/-- A row that waits with an owner, whose lease ends at `1500`. -/
def ownedRow : TaskRow where
  taskId := "T-2"
  projectId := "default"
  status := .queued
  nextRole := .implementer
  currentOwnerRunId := some "w2"
  leaseExpiresAt := some 1500
  attempts := 0
  enqueuedAt := 1
  updatedAt := 1
  workorderJson := secondOrder.toJson
  reviewContextJson := none
  handoffPacketUri := none

/-- A row that waits. -/
def waitingRow : TaskRow :=
  { ownedRow with
    taskId := "T-1"
    currentOwnerRunId := none
    leaseExpiresAt := none
    enqueuedAt := 2
    workorderJson := Sample.workOrder.toJson }

theorem nodup_bothRows : ([ownedRow, waitingRow].map TaskRow.key).Nodup := by decide

/-- The queue with both rows. -/
def leasedAhead : System :=
  { Sample.system with
    world := { Sample.system.world with
      core := { Sample.system.world.core with
        taskQueue := ⟨[ownedRow, waitingRow], nodup_bothRows⟩ } } }

/-- The lease ends before the second claim, which gets its task. -/
theorem next_claim_other_iff_lease : ∃ s' next,
    System.Steps Sample.services leasedAhead
      (failedAttempt "w1" Sample.env unreadBudget Sample.env) s' ∧
    s'.claimed "w1" (later 4000) = some next ∧
    OtherClaimable s' "T-1" (s'.claimTime "w1" (later 4000)) ∧ next.taskId ≠ "T-1" := by
  have h : (leasedAhead.claimed "w1" Sample.env).any (fun entry => entry.taskId = "T-1" &&
      (leasedAhead.steps Sample.services
        (failedAttempt "w1" Sample.env unreadBudget Sample.env)).any fun s' =>
          (s'.world.core.row entry.taskId).any (·.status = .queued) &&
            ((s'.claimed "w1" (later 4000)).isSome &&
              ((s'.world.core.taskQueue.rows.any fun r => decide (r.taskId ≠ entry.taskId) &&
                QueueStore.claimable (s'.claimTime "w1" (later 4000)) r) &&
              (ahead leasedAhead.world.core.taskQueue.rows entry.taskId).any fun a =>
                decide (a.status = .queued ∧ a.currentOwnerRunId ≠ none) &&
                  a.leaseExpiresAt.any fun lease =>
                    decide (leasedAhead.claimTime "w1" Sample.env ≤ lease ∧
                      lease < s'.claimTime "w1" (later 4000))))) = true := by
    decide +kernel
  obtain ⟨entry, hentry, hp⟩ := (Option.any_eq_true _ _).mp h
  obtain ⟨hid, hp⟩ := Bool.and_eq_true_iff.mp hp
  obtain ⟨s', hs', hp⟩ := (Option.any_eq_true _ _).mp hp
  obtain ⟨hrow, hp⟩ := Bool.and_eq_true_iff.mp hp
  obtain ⟨r, hr, hq⟩ := (Option.any_eq_true _ _).mp hrow
  obtain ⟨hnext, hp⟩ := Bool.and_eq_true_iff.mp hp
  obtain ⟨next, hnext⟩ := Option.isSome_iff_exists.mp hnext
  obtain ⟨hother, hp⟩ := Bool.and_eq_true_iff.mp hp
  obtain ⟨a, ha, hp⟩ := List.any_eq_true.mp hp
  obtain ⟨hst, hp⟩ := Bool.and_eq_true_iff.mp hp
  obtain ⟨lease, hlease, hp⟩ := (Option.any_eq_true _ _).mp hp
  have hid : entry.taskId = "T-1" := of_decide_eq_true hid
  have hother := otherClaimable_iff.mpr hother
  have hends : LeaseEndsAhead leasedAhead entry.taskId (leasedAhead.claimTime "w1" Sample.env)
      (s'.claimTime "w1" (later 4000)) :=
    ⟨a, ha, (of_decide_eq_true hst).1, (of_decide_eq_true hst).2, lease, hlease,
      of_decide_eq_true hp⟩
  have hsteps := System.steps_iff.mpr hs'
  have hne := (next_claim_other_iff handles_unreadBudget hsteps hentry hr (of_decide_eq_true hq)
    hnext).mpr (Or.inr hends) hother
  rw [hid] at hother hne
  exact ⟨s', next, hsteps, hnext, hother, hne⟩

end System

end AgentWorkflow
