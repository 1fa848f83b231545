import AgentWorkflow.Queue.TaskInvariants

/-!
# Leases

Which rows the claim predicate of `claimSelectStmt` and `claimUpdateStmt` meets.

* `LeaseRule` — the owner and the lease of a row: **a row has an owner and a lease exactly while its
  status is `dispatched`**. Every step keeps it (`closed_leased`).
* **`expired_lease_unclaimable`** — the predicate asks for `queued`, so its second half, the expired
  lease, never applies: a task whose lease has expired is not claimable. It becomes claimable again
  only through a worker that is still at it; once that worker is gone it never does.
-/

namespace AgentWorkflow

open Fallible WorkerTaskHandler

/-! ## The rule -/

/-- The owner and the lease of a row. -/
structure LeaseRule (r : TaskRow) : Prop where
  status : r.status = .queued ∨ r.status = .dispatched ∨ r.status.terminal = true
  owner : r.currentOwnerRunId.isSome = true ↔ r.status = .dispatched
  lease : r.leaseExpiresAt.isSome = true ↔ r.status = .dispatched

/-- The row of a task, if it has one, follows the rule. -/
def Leased (v : TaskState) : Prop := ∀ r, v.row = some r → LeaseRule r

/-- The statuses an outcome leads to. -/
theorem transition_status (l : Launch) (o : RunOutcome) (b : BudgetStatus) :
    (transition l o b).1 = .queued ∨ (transition l o b).1.terminal = true := by
  have hrequeue : ∀ role, (requeueUnlessExhausted l b role).1 = .queued ∨
      (requeueUnlessExhausted l b role).1.terminal = true := by
    intro role
    unfold requeueUnlessExhausted
    split
    · exact Or.inr rfl
    · exact Or.inl rfl
  unfold transition
  split
  all_goals
    split
    · first
        | exact hrequeue _
        | exact Or.inr rfl
    · first
        | exact hrequeue _
        | exact Or.inr rfl

/-- The statuses the releases of a handler write. -/
theorem beforeRun_release {w : String} {entry : TaskQueueEntry} {h : Holding} {st : TaskStatus}
    {role : Role} {n u : ℕ} (hA : BeforeRun w entry h (.release st role n u)) :
    st = .queued ∨ st.terminal = true := by
  cases hA with
  | release hst =>
    rcases hst with rfl | rfl
    · exact Or.inr rfl
    · exact Or.inr rfl

theorem afterRun_release {w : String} {l : Launch} {result : Except Err RunOutcome} {h : Holding}
    {st : TaskStatus} {role : Role} {n u : ℕ}
    (hA : AfterRun w l result h (.release st role n u)) : st = .queued ∨ st.terminal = true := by
  cases hA with
  | failed => exact Or.inr rfl
  | @release o _ b _ _ _ hb hst hcontext =>
    have := transition_status l o b.status
    rwa [hst] at this

section rule

variable {r : TaskRow} {t : String}

theorem LeaseRule.released {st : TaskStatus} {role : Role} {n u : ℕ}
    (hst : st = .queued ∨ st.terminal = true) : LeaseRule (releasedRow st role n u r) where
  status := by
    rcases hst with hst | hst
    · exact Or.inl hst
    · exact Or.inr (Or.inr hst)
  owner := by
    rcases hst with rfl | hst
    · simp [releasedRow]
    · cases st <;> simp_all [releasedRow, TaskStatus.terminal]
  lease := by
    rcases hst with rfl | hst
    · simp [releasedRow]
    · cases st <;> simp_all [releasedRow, TaskStatus.terminal]

/-- Only a release touches what the rule is about. -/
theorem LeaseRule.onRow {u : Update} (h : LeaseRule r)
    (hu : ∀ st role n at', u = .release st role n at' → st = .queued ∨ st.terminal = true) :
    LeaseRule (u.onRow r) := by
  cases u with
  | release st role n at' => exact .released (hu st role n at' rfl)
  | exclude agentIds at' =>
    simp only [Update.onRow, excludedRow]
    split
    · exact ⟨h.status, h.owner, h.lease⟩
    · exact h
  | _ => exact ⟨h.status, h.owner, h.lease⟩

theorem Leased.update {v : TaskState} {w : String} {u : Update} (h : Leased v)
    (hu : ∀ st role n at', u = .release st role n at' → st = .queued ∨ st.terminal = true) :
    Leased (v.update t w u) := by
  intro r' hr'
  obtain ⟨r, hr, rfl⟩ := Option.map_eq_some_iff.mp hr'
  exact (h r hr).onRow hu

/-- **Every step keeps the rule.** -/
theorem closed_leased : Closed t Leased where
  enqueue v q workOrder role ts h ht hrow r hr := by
    cases hr
    exact ⟨Or.inl rfl, by simp [TaskQueue.enqueuedEntry], by simp [TaskQueue.enqueuedEntry]⟩
  load v w h := h.update (by simp)
  claim v w lease now r h hpc hrow hclaim r' hr' := by
    cases hr'
    exact ⟨Or.inr (Or.inl rfl), by simp [QueueStore.claimedRow], by simp [QueueStore.claimedRow]⟩
  beforeRun v w entry u h hpc ht hA := by
    refine h.update fun st role n at' hu => ?_
    subst hu
    exact beforeRun_release hA
  launch v w entry l gate h hpc ht hl := h
  settled v w l result h hpc ht := h
  afterRun v w l result u h hpc ht hA := by
    refine h.update fun st role n at' hu => ?_
    subst hu
    exact afterRun_release hA
  returned v w h hpc := h
  threw v w entry h hpc := h
  requeue v w entry u r h hpc hrow r' hr' := by
    cases hr'
    exact ⟨Or.inl rfl, by simp [Worker.requeuedRow], by simp [Worker.requeuedRow]⟩
  leave v w h := h

/-- A claimable row is queued. -/
theorem queued_of_claimable {now : ℕ} (h : QueueStore.claimable now r = true) :
    r.status = .queued := by
  simp only [QueueStore.claimable, decide_eq_true_eq] at h
  exact h.1

/-- A queued row is claimable at any time. -/
theorem LeaseRule.claimable_of_queued (h : LeaseRule r) (hq : r.status = .queued) (now : ℕ) :
    QueueStore.claimable now r = true := by
  have howner : r.currentOwnerRunId = none := by
    cases hc : r.currentOwnerRunId with
    | none => rfl
    | some w =>
      have := h.owner.mp (by simp [hc])
      rw [hq] at this
      cases this
  simp [QueueStore.claimable, hq, howner]

end rule

/-! ## Claims -/

section claims

variable {services : HandlerServices} {s₀ s s' : System} {ls : List Label} {t w : String}
  {env : Env} {r : TaskRow}

theorem System.leased_of_steps (h₀ : s₀.Initial) (h : System.Steps services s₀ ls s) (t : String) :
    Leased (s.task t) :=
  System.task_invariant' h₀ h (by simp [Leased, TaskState.fresh])
    fun _ _ _ htask _ hv => closed_leased.step htask hv

/-- A claim gets a claimable row. -/
theorem System.claimed_spec {entry : TaskQueueEntry} (h : s.claimed w env = some entry) :
    ∃ r now, s.world.core.row entry.taskId = some r ∧ QueueStore.claimable now r = true := by
  have hspec : OnCore (TaskQueue.claim w) env (s.load w).core
      (fun claimed _ => ∀ entry, claimed = some entry → ∃ r now,
        s.world.core.row entry.taskId = some r ∧ QueueStore.claimable now r = true)
      (fun _ _ => True) := by
    refine TaskQueue.onCore_claim (fun _ _ => by simp) (fun c₁ now lease row hc₁ hsel => ?_)
      fun _ _ _ => trivial
    rintro _ ⟨⟩
    obtain ⟨hrow, hclaim⟩ := QueueStore.claimSelect_spec hsel
    have hsame : c₁.row row.taskId = s.world.core.row row.taskId := by
      rcases hc₁ with rfl | ⟨k, r, wo, -, -, -, rfl⟩
      · rfl
      · rfl
    exact ⟨row, now, hsame ▸ hrow, hclaim⟩
  unfold System.claimed at h
  split at h
  next claimed world hres => exact hspec.of_ok hres entry h
  next => cases h

/-! ## Workers that are gone -/

/-- The row and the calls of a task that is not queued, and that no worker is at. -/
structure Unattended (r : TaskRow) (calls : List (String × Call)) (v : TaskState) : Prop where
  row : v.row = some r
  status : r.status ≠ .queued
  calls : v.calls = calls
  pc : ∀ w, (v.pc w).busy = false

/-- **Nobody gets an unattended task**, and nothing happens to it. -/
theorem Unattended.step {v v' : TaskState} {l : Label} {calls : List (String × Call)}
    (h : Unattended r calls v) (hstep : TaskStep t v l v') : Unattended r calls v' := by
  have hbusy : ∀ {w pc}, v.pc w = pc → pc.busy = false := fun hw => hw ▸ h.pc _
  cases hstep with
  | other => exact h
  | enqueue ht hrow =>
    have := h.row
    rw [hrow] at this
    cases this
  | load =>
    exact ⟨by simpa using h.row, h.status, by simpa [TaskState.update, Update.calls] using h.calls,
      h.pc⟩
  | claim hload hw hrow hclaim =>
    have := h.row
    rw [hrow] at this
    cases this
    exact absurd (queued_of_claimable hclaim) h.status
  | refuse hw => cases hbusy hw
  | launch hw => cases hbusy hw
  | throwBefore hw => cases hbusy hw
  | settle hw => cases hbusy hw
  | throwAfter hw => cases hbusy hw
  | requeue hw => cases hbusy hw
  | giveUp hw => cases hbusy hw
  | @crash w =>
    refine ⟨h.row, h.status, h.calls, fun x => ?_⟩
    by_cases hx : x = w
    · subst hx
      simp [TaskState.goto, Pc.busy]
    · simpa [TaskState.goto, hx] using h.pc x

/-- So it stays in every continuation of a run. -/
theorem System.unattended_of_steps {calls : List (String × Call)} {ls' : List Label}
    (h₀ : s₀.Initial) (h : System.Steps services s₀ ls s) (hu : Unattended r calls (s.task t))
    (h' : System.Steps services s ls' s') : Unattended r calls (s'.task t) :=
  System.task_continues h₀ h hu (fun _ _ _ hstep _ hv => hv.step hstep) h'

/-- The surroundings in which nothing goes wrong. -/
def Env.quiet : Env := ⟨fun _ => 0, fun _ => "", fun _ _ => false⟩

theorem Env.quiet_faultless : Env.quiet.Faultless := by
  rintro c ⟨n, hn⟩
  cases hn

/-- A worker at its catch path can requeue its task. -/
theorem release_requeues (services : HandlerServices) {entry : TaskQueueEntry}
    (hpc : s.pc w = .failed entry)
    (hr : s.world.core.row entry.taskId = some r) :
    ∃ s' r', System.Step services s (.release w Env.quiet) s' ∧
      s'.world.core.row entry.taskId = some r' ∧ QueueStore.claimable 0 r' = true := by
  have hspec : OnCore (Worker.releaseAfterHandlerFailure entry) Env.quiet (s.load w).core
      (fun _ c' => ∃ r', c'.row entry.taskId = some r' ∧ QueueStore.claimable 0 r' = true)
      (fun _ _ => False) := by
    refine Worker.onCore_releaseAfterHandlerFailure (fun r₁ u hr₁ => ?_) (fun hnone => ?_)
      fun hf => absurd Env.quiet_faultless hf
    · rw [row_updateRow_self, hr₁]
      exact ⟨_, rfl, by simp [QueueStore.claimable, QueueStore.Patch.apply, Worker.failurePatch]⟩
    · have hr' : (s.load w).core.row entry.taskId = some r := hr
      rw [hnone] at hr'
      cases hr'
  cases hres : Worker.releaseAfterHandlerFailure entry Env.quiet (s.load w) with
  | ok u world =>
    obtain ⟨r', hr', hclaim⟩ := hspec.of_ok hres
    refine ⟨(s.store w world).goto w .idle, r', ?_, hr', hclaim⟩
    simp only [System.Step, System.step, hpc, hres]
  | error e world => exact (hspec.of_error hres).elim

/-- An abort takes a worker at a task to its catch path. -/
theorem abort_fails (services : HandlerServices) (h : (s.pc w).taskId? = some t)
    (hr : s.world.core.row t = some r) :
    ∃ ls s' entry, System.Steps services s ls s' ∧ s'.pc w = .failed entry ∧ entry.taskId = t ∧
      s'.world.core.row t = some r := by
  cases hpc : s.pc w with
  | idle =>
    rw [hpc] at h
    cases h
  | stopped =>
    rw [hpc] at h
    cases h
  | failed entry =>
    rw [hpc] at h
    exact ⟨[], s, entry, .nil s, hpc, Option.some.inj h, hr⟩
  | claimed entry =>
    rw [hpc] at h
    have hres : handleUntilLaunch services w entry true Env.quiet (s.load w) =
        .error .aborted (s.load w) := rfl
    refine ⟨[.start w Env.quiet true],
      ((s.store w (s.load w)).note w (.threw entry.taskId)).goto w (.failed entry), entry,
      .cons ?_ (.nil _), by simp [System.goto], Option.some.inj h, hr⟩
    simp only [System.Step, System.step, hpc, hres]
  | running l =>
    rw [hpc] at h
    have hres : ∃ world, System.runAndSettle services w l (fun _ => throw .aborted) true
        Env.quiet (s.load w) = .error .aborted world ∧ world.core.taskQueue =
          s.world.core.taskQueue := ⟨_, rfl, rfl⟩
    obtain ⟨world, hres, hqueue⟩ := hres
    refine ⟨[.settle w Env.quiet (fun _ => throw .aborted) true],
      ((s.store w world).note w (.threw l.entry.taskId)).goto w (.failed l.entry), l.entry,
      .cons ?_ (.nil _), by simp [System.goto], Option.some.inj h, ?_⟩
    · simp only [System.Step, System.step, hpc, hres]
    · exact (congrArg (Table.find? · t) hqueue).trans hr

/-- A task is claimable again in some continuation. -/
def ClaimableAgain (services : HandlerServices) (s : System) (t : String) : Prop :=
  ∃ ls s' r now, System.Steps services s ls s' ∧ s'.world.core.row t = some r ∧
    QueueStore.claimable now r = true

/-- **An expired lease is never reclaimed.** A task whose lease has expired is not claimable, and a
task that has not ended is lost for good exactly when it is dispatched and no worker is at it. -/
theorem expired_lease_unclaimable (h₀ : s₀.Initial) (h : System.Steps services s₀ ls s)
    (hr : s.world.core.row t = some r) (hopen : r.status.terminal = false) :
    (∀ expires now, r.leaseExpiresAt = some expires → expires < now →
      QueueStore.claimable now r = false ∧
        ∀ w env entry, s.claimed w env = some entry → entry.taskId ≠ t) ∧
    (¬ ClaimableAgain services s t ↔
      r.status = .dispatched ∧ ∀ w, (s.pc w).taskId? ≠ some t) := by
  have hrule : LeaseRule r := System.leased_of_steps h₀ h t r hr
  refine ⟨fun expires now hlease _ => ?_, ?_⟩
  · have hst : r.status = .dispatched := hrule.lease.mp (by simp [hlease])
    have hnot : ∀ now, QueueStore.claimable now r ≠ true := by
      intro now hclaim
      have := queued_of_claimable hclaim
      rw [hst] at this
      cases this
    refine ⟨by simpa using hnot now, fun w env entry hentry hid => ?_⟩
    obtain ⟨r', now', hr', hclaim⟩ := System.claimed_spec hentry
    rw [hid, hr] at hr'
    cases hr'
    exact hnot now' hclaim
  constructor
  · intro hnever
    have hst : r.status = .dispatched := by
      rcases hrule.status with hst | hst | hst
      · exact absurd ⟨[], s, r, 0, .nil s, hr, hrule.claimable_of_queued hst 0⟩ hnever
      · exact hst
      · rw [hopen] at hst
        cases hst
    refine ⟨hst, fun w hw => hnever ?_⟩
    obtain ⟨ls₁, s₁, entry, h₁, hpc, hid, hr₁⟩ := abort_fails services hw hr
    subst hid
    obtain ⟨s₂, r₂, h₂, hr₂, hclaim⟩ := release_requeues services hpc hr₁
    exact ⟨_, s₂, r₂, 0, Run.snoc_iff.mpr ⟨s₁, h₁, h₂⟩, hr₂, hclaim⟩
  · rintro ⟨hst, hgone⟩ ⟨ls', s', r', now, h', hr', hclaim⟩
    have hunattended : Unattended r (s.task t).calls (s.task t) := by
      refine ⟨hr, by simp [hst], rfl, fun w => ?_⟩
      simp [System.task, hgone w, Pc.busy]
    have hstays := System.unattended_of_steps h₀ h hunattended h'
    cases hr'.symm.trans hstays.row
    have := queued_of_claimable hclaim
    rw [hst] at this
    cases this

/-- The sample system after its task was claimed by a worker that crashed. -/
def crashed : List Label :=
  [.enqueue "main" Sample.workOrder .implementer Sample.env, .claim "w1" Sample.env, .crash "w1"]

/-- Surroundings at a later time. -/
def later (now : ℕ) : Env := { Sample.env with clock := fun _ => now }

/-- An expired lease of a crashed worker, and a claim that finds nothing. -/
theorem expired_lease_not_reclaimed :
    ∃ s r, System.Steps Sample.services Sample.system crashed s ∧
      s.world.core.row "T-1" = some r ∧ r.status.terminal = false ∧
      r.leaseExpiresAt.any (· < 4000000) = true ∧ QueueStore.claimable 4000000 r = false ∧
      s.claimed "w2" (later 4000000) = none := by
  have h : (Sample.system.steps Sample.services crashed).any (fun s =>
      (s.world.core.row "T-1").any fun r => r.status.terminal = false ∧
        r.leaseExpiresAt.any (· < 4000000) = true ∧ QueueStore.claimable 4000000 r = false ∧
        (s.claimed "w2" (later 4000000)).isNone = true) = true := by
    decide +kernel
  obtain ⟨s, hs, hp⟩ := (Option.any_eq_true _ _).mp h
  obtain ⟨r, hr, hq⟩ := (Option.any_eq_true _ _).mp hp
  obtain ⟨hopen, hlease, hclaim, hnone⟩ := of_decide_eq_true hq
  exact ⟨s, r, System.steps_iff.mpr hs, hr, hopen, hlease, hclaim,
    Option.isNone_iff_eq_none.mp hnone⟩

theorem expired_lease_unclaimable_crashed :
    ∃ s r, System.Steps Sample.services Sample.system crashed s ∧
      s.world.core.row "T-1" = some r ∧ QueueStore.claimable 4000000 r = false ∧
      ∀ w env entry, s.claimed w env = some entry → entry.taskId ≠ "T-1" := by
  have h : (Sample.system.steps Sample.services crashed).any (fun s =>
      (s.world.core.row "T-1").any fun r => r.status.terminal = false ∧
        r.leaseExpiresAt = some 1861006) = true := by
    decide +kernel
  obtain ⟨s, hs, hp⟩ := (Option.any_eq_true _ _).mp h
  obtain ⟨r, hr, hq⟩ := (Option.any_eq_true _ _).mp hp
  obtain ⟨hopen, hlease⟩ := of_decide_eq_true hq
  have hsteps := System.steps_iff.mpr hs
  obtain ⟨hexpired, -⟩ := expired_lease_unclaimable Sample.initial hsteps hr hopen
  obtain ⟨hclaim, hnone⟩ := hexpired 1861006 4000000 hlease (by norm_num)
  exact ⟨s, r, hsteps, hr, hclaim, hnone⟩

end claims

end AgentWorkflow
