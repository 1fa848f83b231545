import AgentWorkflow.Queue.RunBudget

/-!
# The requeue loop

How often `handle` is called for a task. The loop from implementer to reviewer and back is driven
by outcomes and spread over several requeue branches; what bounds it is that each of them passes
`preLaunch` and checks the budget after the run.

* `Ready` — one run is charged for each call so far, and the budget is not exhausted.
* `Counted` — **while no `handle` throws, a row that waits or was just claimed is `Ready`**, so its
  calls are fewer than `max_runs`.
* **`handle_calls_bounded`** — after `max_runs` calls the task is terminal, and each call before
  ends terminal or requeues the task with exactly one more run charged.
-/

namespace AgentWorkflow

open Fallible WorkerTaskHandler

/-! ## Counting calls -/

/-- A `handle` that returned. -/
def Call.isReturned : Call → Bool
  | .returned _ => true
  | _ => false

/-- A `handle` that threw. -/
def Call.isThrew : Call → Bool
  | .threw _ => true
  | _ => false

/-- No `handle` of these calls threw. -/
def NoneThrew (calls : List (String × Call)) : Prop := ∀ call ∈ calls, call.2.isThrew = false

instance (calls : List (String × Call)) : Decidable (NoneThrew calls) :=
  inferInstanceAs (Decidable (∀ call ∈ calls, call.2.isThrew = false))

/-- The calls of `handle` that returned. -/
def TaskState.returned (v : TaskState) : ℕ := v.calls.countP (·.2.isReturned)

/-- One run is charged for each call, and the budget is not exhausted. -/
structure Ready (v : TaskState) : Prop where
  runs : v.runsUsed = v.returned
  open' : ∀ b, v.budget = some b → b.status ≠ .exhausted

/-- The calls of a task whose work order allows `m` runs. -/
structure Counted (m : ℕ) (v : TaskState) : Prop where
  fenced : FencedTask (fun _ => True) v
  unfailed : ∀ w entry, v.pc w ≠ .failed entry
  queued : ∀ r, v.row = some r → r.status = .queued → Ready v
  claimed : ∀ w entry, v.pc w = .claimed entry → Ready v
  running : ∀ w l, v.pc w = .running l → v.runsUsed = v.returned + 1
  below : ∀ r, v.row = some r → r.status.terminal = false → v.returned < m
  bounded : v.returned ≤ m

section counting

variable {t w : String} {v v' : TaskState} {wo : ParsedWorkOrderV1} {role : Role} {l : Label}
  {m : ℕ}

/-! ## Calls only accumulate -/

/-- Calls that are no returns leave the count alone. -/
theorem returned_append (calls : List (String × Call)) (hcalls : v'.calls = v.calls ++ calls)
    (hquiet : ∀ call ∈ calls, call.2.isReturned = false) : v'.returned = v.returned := by
  have hnone : calls.countP (·.2.isReturned) = 0 := by
    rw [List.countP_eq_zero]
    intro call hcall
    simp [hquiet call hcall]
  rw [TaskState.returned, hcalls, List.countP_append, hnone, Nat.add_zero, TaskState.returned]

theorem returned_note_returned : (v.note w (.returned t)).returned = v.returned + 1 := by
  unfold TaskState.returned
  rw [TaskState.note, List.countP_append]
  rfl

theorem returned_of_updates {A : Holding → Update → Prop} {us : List Update}
    (hus : TaskUpdates A t w v us v')
    (hA : ∀ h u, A h u → ∀ call ∈ u.calls, call.2.isReturned = false) :
    v'.returned = v.returned := by
  refine TaskUpdates.keep (I := fun v₁ => v₁.returned = v.returned) hus rfl ?_
  intro v₁ u h₁ _ hu
  exact (returned_append u.calls rfl (hA _ _ hu)).trans h₁

/-- A step appends calls. -/
theorem closed_calls {calls : List (String × Call)} : Closed t fun v => calls <+: v.calls where
  enqueue _ _ _ _ _ h _ _ := h.trans (List.prefix_append _ _)
  load _ _ h := h.trans (List.prefix_append _ _)
  claim _ _ _ _ _ h _ _ _ := h
  beforeRun _ _ _ _ h _ _ _ := h.trans (List.prefix_append _ _)
  launch _ _ _ _ _ h _ _ _ := h.trans (List.prefix_append _ _)
  settled _ _ _ _ h _ _ := h.trans (List.prefix_append _ _)
  afterRun _ _ _ _ _ h _ _ _ := h.trans (List.prefix_append _ _)
  returned _ _ h _ := h.trans (List.prefix_append _ _)
  threw _ _ _ h _ := h.trans (List.prefix_append _ _)
  requeue _ _ _ _ _ h _ _ := h
  leave _ _ h := h

theorem TaskStep.calls_prefix (h : TaskStep t v l v') : v.calls <+: v'.calls :=
  closed_calls.step h List.prefix_rfl

theorem NoneThrew.of_prefix {calls calls' : List (String × Call)} (h : NoneThrew calls')
    (hpre : calls <+: calls') : NoneThrew calls := fun call hcall => h call (hpre.subset hcall)

theorem HeldAs.enqueued_mem (h : HeldAs t wo role v) : ∃ q, (q, .enqueued wo role) ∈ v.calls := by
  obtain ⟨q, rest, hcalls, -⟩ := h.enqueued
  exact ⟨q, hcalls ▸ List.mem_cons_self⟩

/-- The work order of a task is the one it is held as before the step. -/
theorem HeldAs.back {wo' : ParsedWorkOrderV1} {role' : Role} (h' : HeldAs t wo' role' v')
    (hstep : TaskStep t v l v') (h : HeldAs t wo role v) : wo' = wo := by
  obtain ⟨q, hq⟩ := h.enqueued_mem
  exact (h'.enqueued_eq (hstep.calls_prefix.subset hq)).symm

/-! ## The invariant -/

theorem beforeRun_returned {entry : TaskQueueEntry} {h : Holding} {u : Update}
    (hA : BeforeRun w entry h u) : ∀ call ∈ u.calls, call.2.isReturned = false := by
  cases hA <;> simp [Update.calls, Call.isReturned]

theorem afterRun_returned {l : Launch} {result : Except Err RunOutcome} {h : Holding} {u : Update}
    (hA : AfterRun w l result h u) : ∀ call ∈ u.calls, call.2.isReturned = false := by
  cases hA <;> simp [Update.calls, Call.isReturned]

/-- The updates after a run charge no run. -/
theorem runsUsed_afterRun {l : Launch} {result : Except Err RunOutcome} {us : List Update}
    (hus : TaskUpdates (AfterRun w l result) t w v us v') : v'.runsUsed = v.runsUsed := by
  refine TaskUpdates.keep (I := fun v₁ => v₁.runsUsed = v.runsUsed) hus rfl ?_
  intro v₁ u h₁ _ hA
  refine Eq.trans ?_ h₁
  cases hA with
  | charge =>
    cases hb : v₁.budget with
    | none => simp [TaskState.runsUsed, TaskState.update, hb, Update.onBudget]
    | some b => simp [TaskState.runsUsed, TaskState.update, hb, Update.onBudget,
        BudgetState.chargeUsage]
  | _ => rfl

/-- An outcome queues a task only while the budget is not exhausted. -/
theorem transition_queued {l : Launch} {o : RunOutcome} {status : BudgetStatus} {role : Role}
    (h : transition l o status = (.queued, role)) : status ≠ .exhausted := by
  rintro rfl
  cases o with
  | _ =>
    simp only [transition, requeueUnlessExhausted] at h
    split at h
    · simp at h
    · simp at h

/-- The row after a sequence of updates that ends with a release. -/
theorem released_of_updates {A : Holding → Update → Prop} {us : List Update} {st : TaskStatus}
    {n u : ℕ} (hus : TaskUpdates A t w v (us ++ [.release st role n u]) v') :
    ∃ v₁ : TaskState, A (v₁.holding w) (.release st role n u) ∧ v'.budget = v₁.budget ∧
      ∀ r', v'.row = some r' → r'.status = st := by
  obtain ⟨v₁, hv₁, hlast⟩ := Run.snoc_iff.mp hus
  obtain ⟨hA, rfl⟩ := hlast
  refine ⟨v₁, hA, rfl, fun r' hr' => ?_⟩
  obtain ⟨r, -, rfl⟩ := Option.map_eq_some_iff.mp hr'
  rfl

/-- A release after a run that queues the task leaves its budget open. -/
theorem open_of_queued {l : Launch} {result : Except Err RunOutcome} {us : List Update} {n u : ℕ}
    (hus : TaskUpdates (AfterRun w l result) t w v (us ++ [.release .queued role n u]) v') :
    ∃ b, v'.budget = some b ∧ b.status ≠ .exhausted := by
  obtain ⟨v₁, hA, hbudget, -⟩ := released_of_updates hus
  cases hA with
  | @release _ _ b _ _ _ hb hst _ => exact ⟨b, hbudget.trans hb, transition_queued hst⟩

theorem Counted.fresh : Counted m TaskState.fresh where
  fenced := .fresh
  unfailed _ _ := by simp [TaskState.fresh]
  queued _ hr := by simp [TaskState.fresh] at hr
  claimed _ _ hw := by simp [TaskState.fresh] at hw
  running _ _ hw := by simp [TaskState.fresh] at hw
  below _ hr := by simp [TaskState.fresh] at hr
  bounded := Nat.zero_le _

/-- A task that nobody is at any more. -/
theorem Counted.of_free (hfree : ∀ x, (v.pc x).busy = false)
    (hqueued : ∀ r, v.row = some r → r.status = .queued → Ready v)
    (hbelow : ∀ r, v.row = some r → r.status.terminal = false → v.returned < m)
    (hbounded : v.returned ≤ m) : Counted m v where
  fenced := .of_free hfree
  unfailed x entry hx := by
    have := hfree x
    simp [hx, Pc.busy] at this
  queued := hqueued
  claimed x entry hx := by
    have := hfree x
    simp [hx, Pc.busy] at this
  running x l hx := by
    have := hfree x
    simp [hx, Pc.busy] at this
  below := hbelow
  bounded := hbounded

/-- Counts after a change that touches neither the row nor the counters. -/
theorem Counted.congr (h : Counted m v) (hrow : v'.row = v.row) (hbudget : v'.budget = v.budget)
    (hcalls : v'.calls = v.calls) (hfenced : FencedTask (fun _ => True) v')
    (hpc : ∀ x, v'.pc x = v.pc x ∨ v'.pc x = .idle) : Counted m v' := by
  have hreturned : v'.returned = v.returned := by
    rw [TaskState.returned, hcalls, TaskState.returned]
  have hused : v'.runsUsed = v.runsUsed := by
    rw [TaskState.runsUsed, hbudget, TaskState.runsUsed]
  have hready : Ready v → Ready v' := fun hr =>
    ⟨by rw [hused, hreturned, hr.runs], fun b hb => hr.open' b (hbudget ▸ hb)⟩
  refine ⟨hfenced, fun x entry hx => ?_, fun r hr hst => hready (h.queued r (hrow ▸ hr) hst),
    fun x entry hx => ?_, fun x l hx => ?_, fun r hr hst => ?_, hreturned ▸ h.bounded⟩
  · rcases hpc x with heq | heq
    · exact h.unfailed x entry (heq ▸ hx)
    · rw [heq] at hx
      cases hx
  · rcases hpc x with heq | heq
    · exact hready (h.claimed x entry (heq ▸ hx))
    · rw [heq] at hx
      cases hx
  · rcases hpc x with heq | heq
    · rw [hused, hreturned]
      exact h.running x l (heq ▸ hx)
    · rw [heq] at hx
      cases hx
  · rw [hreturned]
    exact h.below r (hrow ▸ hr) hst

/-- The call of a worker at a task is one more call, below the cap. -/
theorem Counted.below_of_handling (h : Counted m v) (hw : (v.pc w).handling = true) :
    v.returned < m := by
  obtain ⟨r, hr, hst, -⟩ := h.fenced.handling w hw
  exact h.below r hr (by rw [hst]; rfl)

/-- A call that ends one more call, of a worker that handled the task. -/
theorem Counted.returned {v₁ : TaskState} {st : TaskStatus} (h : Counted m v)
    (hw : (v.pc w).handling = true) (hpc : v₁.pc = v.pc) (hreturned : v₁.returned = v.returned)
    (hst : ∀ r, v₁.row = some r → r.status = st)
    (hqueued : st = .queued → v₁.runsUsed = v.returned + 1 ∧ v.returned + 1 < m ∧
      ∀ b, v₁.budget = some b → b.status ≠ .exhausted)
    (hrelease : st = .queued ∨ st.terminal = true) :
    Counted m ((v₁.note w (.returned t)).goto w .idle) := by
  have hbusy : (v.pc w).busy = true := by
    cases hpcw : v.pc w <;> simp_all [Pc.handling, Pc.busy]
  have hcount : ((v₁.note w (.returned t)).goto w .idle).returned = v.returned + 1 :=
    hreturned ▸ returned_note_returned
  have hbelow := h.below_of_handling hw
  have hpc' : (v₁.note w (.returned t)).pc = v.pc := hpc
  refine .of_free (h.fenced.free_of_left hbusy hpc') (fun r hr hq => ?_) (fun r hr hopen => ?_) ?_
  · obtain ⟨hused, -, hopen⟩ := hqueued ((hst r hr).symm.trans hq)
    exact ⟨hused.trans hcount.symm, hopen⟩
  · rcases hrelease with rfl | hterminal
    · obtain ⟨-, hlt, -⟩ := hqueued rfl
      rw [hcount]
      exact hlt
    · rw [hst r hr, hterminal] at hopen
      cases hopen
  · rw [hcount]
    omega

/-- A load of the work order changes none of the counts. -/
theorem Counted.load (h : Counted m v) : Counted m (v.update t w .loadWorkOrder) :=
  h.congr (by simp) rfl (by simp [TaskState.update, Update.calls])
    (h.fenced.congr (by simp) rfl) fun _ => Or.inl rfl

/-- A claim of a task that is ready. -/
theorem Counted.claim {r : TaskRow} {lease now : ℕ} (h : Counted m v)
    (hfenced : FencedTask (fun _ => True) (v.claimed w lease now r)) (hrow : v.row = some r)
    (hclaim : QueueStore.claimable now r = true) : Counted m (v.claimed w lease now r) := by
  have hready := h.queued r hrow (queued_of_claimable hclaim)
  have hbelow := h.below r hrow (by rw [queued_of_claimable hclaim]; rfl)
  have hreturned : (v.claimed w lease now r).returned = v.returned :=
    returned_append [] (by simp [TaskState.claimed, TaskState.goto]) (by simp)
  have hused : (v.claimed w lease now r).runsUsed = v.runsUsed := rfl
  have hready' : Ready (v.claimed w lease now r) :=
    ⟨by rw [hused, hreturned, hready.runs], hready.open'⟩
  refine ⟨hfenced, fun x entry hx => ?_, fun _ _ _ => hready', fun _ _ _ => hready',
    fun x l hx => ?_, fun _ _ _ => ?_, hreturned ▸ h.bounded⟩
  · exact h.unfailed x entry (pc_of_goto (by simp) hx)
  · rw [hused, hreturned]
    exact h.running x l (pc_of_goto (by simp) hx)
  · rw [hreturned]
    exact hbelow

/-- A launch charges the run of its call. -/
theorem Counted.launch {entry : TaskQueueEntry} {l : Launch} {gate : BudgetState} (h : Counted m v)
    (hfenced : FencedTask (fun _ => True) ((v.launched w l gate).goto w (.running l)))
    (hpc : v.pc w = .claimed entry) (hl : Launches entry (v.holding w) l gate) :
    Counted m ((v.launched w l gate).goto w (.running l)) := by
  have hready := h.claimed w entry hpc
  have hbusy : (v.pc w).busy = true := by simp [hpc, Pc.busy]
  have hused := runsUsed_launched hl
  have hreturned : ((v.launched w l gate).goto w (.running l)).returned = v.returned :=
    returned_append _ rfl (by simp [Call.isReturned])
  have hat : ∀ x, x ≠ w → (((v.launched w l gate).goto w (.running l)).pc x).busy = false := by
    intro x hx
    simp [TaskState.goto, TaskState.launched, hx, h.fenced.others hbusy x hx]
  obtain ⟨r, hr, hst, -⟩ := h.fenced.handling w (by simp [hpc, Pc.handling])
  refine ⟨hfenced, fun x entry hx => ?_, fun r' hr' hq => ?_, fun x entry hx => ?_,
    fun x l' hx => ?_, fun r' hr' hopen => ?_, hreturned ▸ h.bounded⟩
  · exact h.unfailed x entry (pc_of_goto (v := v.launched w l gate) (by simp) hx)
  · cases hr.symm.trans hr'
    rw [hst] at hq
    cases hq
  · by_cases hxw : x = w
    · subst hxw
      simp [TaskState.goto] at hx
    · have := hat x hxw
      simp [hx, Pc.busy] at this
  · rw [hused, hreturned, hready.runs]
  · rw [hreturned]
    exact h.below r' hr' hopen

/-- A refusal ends its call. -/
theorem Counted.refuse {v₁ : TaskState} {entry : TaskQueueEntry} {us : List Update}
    {st : TaskStatus} {u : ℕ} (h : Counted m v) (hpc : v.pc w = .claimed entry)
    (hst : st = .failed ∨ st = .awaitingHuman)
    (hus : TaskUpdates (BeforeRun w entry) t w v
      (us ++ [.release st entry.nextRole entry.attempts u]) v₁) :
    Counted m ((v₁.note w (.returned t)).goto w .idle) := by
  have hcount : v₁.returned = v.returned :=
    returned_of_updates hus fun _ _ hA => beforeRun_returned hA
  obtain ⟨v₂, -, -, hrow⟩ := released_of_updates hus
  refine h.returned (by simp [hpc, Pc.handling]) (pc_of_updates hus) hcount hrow ?_ ?_
  · rintro rfl
    rcases hst with hst | hst
    · cases hst
    · cases hst
  · rcases hst with rfl | rfl
    · exact Or.inr rfl
    · exact Or.inr rfl

/-- A run that is settled ends its call; the task is put back only with a run left. -/
theorem Counted.settle {v₁ : TaskState} {l : Launch} {result : Except Err RunOutcome}
    {us : List Update} {st : TaskStatus} {role : Role} {n u : ℕ} (h : Counted m v)
    (hpc : v.pc w = .running l) (hwithin : ∀ b, v₁.budget = some b → WithinCap b)
    (hcap : ∀ b, v₁.budget = some b → b.caps.maxRuns = m)
    (hus : TaskUpdates (AfterRun w l result) t w
      (v.note w (.settled t l.entry.nextRole l.agentId l.persistedReviewContext result))
      (us ++ [.release st role n u]) v₁) :
    Counted m ((v₁.note w (.returned t)).goto w .idle) := by
  have hcount : v₁.returned = v.returned :=
    (returned_of_updates hus fun _ _ hA => afterRun_returned hA).trans
      (returned_append _ rfl (by simp [Call.isReturned]))
  have hpc₁ : v₁.pc = v.pc := (pc_of_updates hus).trans rfl
  have hused : v₁.runsUsed = v.returned + 1 :=
    (runsUsed_afterRun hus).trans (h.running w l hpc)
  obtain ⟨v₂, hA, -, hrow⟩ := released_of_updates hus
  refine h.returned (by simp [hpc, Pc.handling]) hpc₁ hcount hrow ?_ (afterRun_release hA)
  rintro rfl
  obtain ⟨b, hb, hopen⟩ := open_of_queued hus
  have hruns := (hwithin b hb).below hopen
  refine ⟨hused, ?_, fun b' hb' => ?_⟩
  · have hlt := hruns.runs
    rw [hcap b hb, ← runsUsed_of_some hb, hused] at hlt
    exact hlt
  · cases hb.symm.trans hb'
    exact hopen

/-- **A step that throws nothing keeps the counts.** -/
theorem Counted.step {role' : Role} (hstep : TaskStep t v l v') (hheld : HeldAs t wo role v)
    (hheld' : HeldAs t wo role' v') (hbudgeted : Budgeted v') (hnone : NoneThrew v'.calls)
    (h : Counted wo.budget.maxRuns v) : Counted wo.budget.maxRuns v' := by
  have hfenced : FencedTask (fun _ => True) v' :=
    h.fenced.step hstep (Or.inr ⟨wo, role, hheld⟩) (fun _ _ _ _ _ => trivial)
      fun _ _ _ _ _ x entry => h.unfailed x entry
  have hcap : ∀ b, v'.budget = some b → b.caps.maxRuns = wo.budget.maxRuns := by
    intro b hb
    rw [hheld'.caps b hb]
    rfl
  cases hstep with
  | other => exact h
  | enqueue ht hrow =>
    obtain ⟨r, hr⟩ := hheld.row
    rw [hrow] at hr
    cases hr
  | load => exact h.load
  | claim hload hpc hrow hclaim =>
    rcases hload with rfl | rfl
    · exact h.claim hfenced hrow hclaim
    · exact h.load.claim hfenced (by simpa using hrow) hclaim
  | refuse hpc ht hst hus => exact h.refuse hpc hst hus
  | launch hpc ht hl => exact h.launch hfenced hpc hl
  | throwBefore => exact absurd (hnone _ List.mem_concat_self) (by simp [Call.isThrew])
  | settle hpc ht hrun hus => exact h.settle hpc hbudgeted.within hcap hus
  | throwAfter => exact absurd (hnone _ List.mem_concat_self) (by simp [Call.isThrew])
  | requeue hpc => exact absurd hpc (h.unfailed _ _)
  | giveUp hpc => exact absurd hpc (h.unfailed _ _)
  | @crash w =>
    refine h.congr rfl rfl rfl hfenced fun x => ?_
    by_cases hx : x = w
    · subst hx
      exact Or.inr (by simp [TaskState.goto])
    · exact Or.inl (by simp [TaskState.goto, hx])

/-- A step returns from at most one `handle`, whose release is into the queue or terminal. -/
theorem TaskStep.returned (h : TaskStep t v l v') : v'.returned = v.returned ∨
    (v'.returned = v.returned + 1 ∧
      ∀ r, v'.row = some r → r.status = .queued ∨ r.status.terminal = true) := by
  cases h with
  | other => exact Or.inl rfl
  | enqueue => exact Or.inl (returned_append _ rfl (by simp [Call.isReturned]))
  | load => exact Or.inl (returned_append _ rfl (by simp [Update.calls]))
  | claim hload =>
    rcases hload with rfl | rfl
    · exact Or.inl rfl
    · exact Or.inl (returned_append _ rfl (by simp [Update.calls]))
  | @refuse v₁ w env aborted entry us st u hpc ht hst hus =>
    obtain ⟨v₂, hA, -, hrow⟩ := released_of_updates hus
    have hsame : v₁.returned = v.returned :=
      returned_of_updates hus fun _ _ hA => beforeRun_returned hA
    exact Or.inr ⟨hsame ▸ returned_note_returned, fun r hr => hrow r hr ▸ beforeRun_release hA⟩
  | launch => exact Or.inl (returned_append _ rfl (by simp [Call.isReturned]))
  | throwBefore hpc ht hus hrel =>
    refine Or.inl ((returned_append _ rfl (by simp [Call.isReturned])).trans ?_)
    exact returned_of_updates hus fun _ _ hA => beforeRun_returned hA
  | @settle v₁ w env run aborted l result us st role n u hpc ht hrun hus =>
    obtain ⟨v₂, hA, -, hrow⟩ := released_of_updates hus
    have hsame : v₁.returned = v.returned :=
      (returned_of_updates hus fun _ _ hA => afterRun_returned hA).trans
        (returned_append _ rfl (by simp [Call.isReturned]))
    exact Or.inr ⟨hsame ▸ returned_note_returned, fun r hr => hrow r hr ▸ afterRun_release hA⟩
  | throwAfter hpc ht hrun hus hrel =>
    refine Or.inl ((returned_append _ rfl (by simp [Call.isReturned])).trans ?_)
    exact (returned_of_updates hus fun _ _ hA => afterRun_returned hA).trans
      (returned_append _ rfl (by simp [Call.isReturned]))
  | requeue => exact Or.inl rfl
  | giveUp => exact Or.inl rfl
  | crash => exact Or.inl rfl

/-- What is known of a task once it is enqueued: its accounts, and its counts while nothing
throws. -/
def Looping (t : String) (v : TaskState) : Prop :=
  Budgeted v ∧ (NoneThrew v.calls → ∀ wo role, HeldAs t wo role v → Counted wo.budget.maxRuns v)

theorem Looping.fresh : Looping t TaskState.fresh := ⟨.fresh, fun _ _ _ _ => .fresh⟩

/-- An enqueued task waits with nothing used. -/
theorem Counted.enqueued {q : String} {ts : ℕ} :
    Counted wo.budget.maxRuns (TaskState.fresh.enqueued q wo role ts) := by
  refine .of_free (fun _ => rfl) (fun r hr hst => ⟨rfl, fun b hb => by cases hb⟩)
    (fun r hr hopen => wo.valid.maxRuns) (Nat.zero_le _)

/-- **Every step keeps them.** -/
theorem Looping.step (hstep : TaskStep t v l v') (hheld : Held t v) (h : Looping t v) :
    Looping t v' := by
  have hbudgeted := closed_budgeted.step hstep h.1
  refine ⟨hbudgeted, fun hnone wo' role' hheld' => ?_⟩
  rcases hheld with rfl | ⟨wo, role, hheld⟩
  · cases hstep with
    | enqueue ht hrow =>
      obtain ⟨q', hq'⟩ := hheld'.enqueued_mem
      obtain rfl := hheld'.enqueued_eq (List.mem_singleton.mpr rfl)
      exact .enqueued
    | claim hload hpc hrow hclaim => cases hrow
    | refuse hpc ht hst hus => cases hpc
    | launch hpc ht hl => cases hpc
    | throwBefore hpc ht hus hrel => cases hpc
    | settle hpc ht hrun hus => cases hpc
    | throwAfter hpc ht hrun hus hrel => cases hpc
    | requeue hpc hrow => cases hrow
    | giveUp hpc => cases hpc
    | _ =>
      obtain ⟨r, hr⟩ := hheld'.row
      cases hr
  · obtain rfl := hheld'.back hstep hheld
    exact (h.2 (hnone.of_prefix hstep.calls_prefix) _ _ hheld).step hstep hheld hheld' hbudgeted
      hnone

end counting

/-! ## Runs -/

section runs

variable {services : HandlerServices} {s₀ s s' : System} {ls : List Label} {l : Label}
  {t q : String} {wo : ParsedWorkOrderV1} {role : Role}

/-- A task that was enqueued is held as its work order. -/
theorem System.heldAs_of_enqueued (h₀ : s₀.Initial) (h : System.Steps services s₀ ls s)
    (henqueued : (q, .enqueued wo role) ∈ s.calls t) : ∃ role', HeldAs t wo role' (s.task t) := by
  rcases System.held_of_steps h₀ h t with hfresh | ⟨wo', role', hheld⟩
  · have hcalls : s.calls t = [] := congrArg TaskState.calls hfresh
    rw [hcalls] at henqueued
    cases henqueued
  · obtain rfl := hheld.enqueued_eq henqueued
    exact ⟨role', hheld⟩

/-- The counts of a task, in the runs in which no `handle` of it threw. -/
theorem System.counted_of_steps (h₀ : s₀.Initial) (h : System.Steps services s₀ ls s)
    (hnone : NoneThrew (s.calls t)) (henqueued : (q, .enqueued wo role) ∈ s.calls t) :
    Counted wo.budget.maxRuns (s.task t) := by
  have hlooping : Looping t (s.task t) :=
    System.task_invariant' h₀ h .fresh fun _ _ _ hstep hheld hv => hv.step hstep hheld
  obtain ⟨role', hheld⟩ := System.heldAs_of_enqueued h₀ h henqueued
  exact hlooping.2 hnone _ _ hheld

/-- **The requeue loop ends.** While no `handle` of the task throws: at most `max_runs` calls of
`handle` return, and after `max_runs` of them the row is terminal. A row that waits has one run
charged for each call so far, and a budget that is not exhausted. Each call leaves a terminal row,
or one that waits with exactly one more run charged than there were calls before. -/
theorem handle_calls_bounded (h₀ : s₀.Initial) (h : System.Steps services s₀ ls s)
    (hnone : NoneThrew (s.calls t)) (henqueued : (q, .enqueued wo role) ∈ s.calls t) :
    ((s.task t).returned ≤ wo.budget.maxRuns ∧
      ∀ r, s.world.core.row t = some r → (s.task t).returned = wo.budget.maxRuns →
        r.status.terminal = true) ∧
    (∀ r, s.world.core.row t = some r → r.status = .queued →
      (s.task t).runsUsed = (s.task t).returned ∧
        ∀ b, s.world.core.budget t = some b → b.status ≠ .exhausted) ∧
    ∀ l s', System.Step services s l s' → NoneThrew (s'.calls t) →
      (s'.task t).returned ≠ (s.task t).returned →
      (s'.task t).returned = (s.task t).returned + 1 ∧
      ∃ r', s'.world.core.row t = some r' ∧ (r'.status.terminal = true ∨ r'.status = .queued ∧
        (s'.task t).runsUsed = (s.task t).returned + 1 ∧
        ∀ b, s'.world.core.budget t = some b → b.status ≠ .exhausted) := by
  have hcounted := System.counted_of_steps h₀ h hnone henqueued
  refine ⟨⟨hcounted.bounded, fun r hr hall => ?_⟩, fun r hr hq => ?_, ?_⟩
  · by_contra hopen
    have hlt := hcounted.below r hr (by simpa using hopen)
    omega
  · have hready := hcounted.queued r hr hq
    exact ⟨hready.runs, hready.open'⟩
  · intro l s' hstep hnone' hne
    have htask := System.step_task_of_steps h₀ h hstep t
    have h' : System.Steps services s₀ (ls ++ [l]) s' := Run.snoc_iff.mpr ⟨s, h, hstep⟩
    have hcounted' : Counted wo.budget.maxRuns (s'.task t) :=
      System.counted_of_steps h₀ h' hnone' (htask.calls_prefix.subset henqueued)
    rcases htask.returned with hsame | ⟨hone, hst⟩
    · exact absurd hsame hne
    · obtain ⟨role', hheld⟩ :=
        System.heldAs_of_enqueued h₀ h' (htask.calls_prefix.subset henqueued)
      obtain ⟨r, hr⟩ := hheld.row
      refine ⟨hone, r, hr, ?_⟩
      rcases hst r hr with hqueued | hterminal
      · have hready := hcounted'.queued r hr hqueued
        exact Or.inr ⟨hqueued, hready.runs.trans hone, hready.open'⟩
      · exact Or.inl hterminal

/-- A reviewer that requests changes sends the task around once more. -/
def sentBack : List Label :=
  .enqueue "main" Sample.workOrder .implementer Sample.env ::
    (Sample.attempt "w1" Sample.implemented ++ Sample.attempt "w1" Sample.changesRequested)

theorem handle_calls_bounded_sentBack :
    ∃ s r, System.Steps Sample.services Sample.system sentBack s ∧
      s.world.core.row "T-1" = some r ∧ r.status = .queued ∧ (s.task "T-1").runsUsed = 2 := by
  have h : (Sample.system.steps Sample.services sentBack).any (fun s =>
      (s.world.core.row "T-1").any (·.status = .queued) &&
        (decide (NoneThrew (s.calls "T-1")) && (decide ((s.task "T-1").returned = 2) &&
          (s.calls "T-1").any (·.2.enqueued?.isSome)))) = true := by
    decide +kernel
  obtain ⟨s, hs, hp⟩ := (Option.any_eq_true _ _).mp h
  obtain ⟨hrow, hp⟩ := Bool.and_eq_true_iff.mp hp
  obtain ⟨hnone, hp⟩ := Bool.and_eq_true_iff.mp hp
  obtain ⟨htwo, hcall⟩ := Bool.and_eq_true_iff.mp hp
  obtain ⟨r, hr, hst⟩ := (Option.any_eq_true _ _).mp hrow
  obtain ⟨⟨q, call⟩, hmem, hwo⟩ := List.any_eq_true.mp hcall
  cases call with
  | enqueued wo role =>
    have hsteps := System.steps_iff.mpr hs
    have hbounded := handle_calls_bounded Sample.initial hsteps (of_decide_eq_true hnone) hmem
    have hused := (hbounded.2.1 r hr (of_decide_eq_true hst)).1
    exact ⟨s, r, hsteps, hr, of_decide_eq_true hst, hused.trans (of_decide_eq_true htwo)⟩
  | _ => cases hwo

end runs

end AgentWorkflow
