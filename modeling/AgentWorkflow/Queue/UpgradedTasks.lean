import AgentWorkflow.Core.Upgrader
import AgentWorkflow.Queue.LaunchedBest
import AgentWorkflow.Queue.RequeueLoop

/-!
# Upgraded work orders in the queue

A work order of the first version names its agent, is run once and is not reviewed. The second version
has no such fields: the upgrade says it with a pool of one, a budget of one run and a disabled review.
What the queue makes of these, in runs of any number of workers.

* `launched_new` — a run of a task begins with a start of one of its workers.
* `launched_in_pool` — every run of a task is by an agent of the pool of its role.
* `Unreviewed` — a task without review stays with the implementers.
* **`upgraded_runs`** — so an upgraded work order is run at most once, by its agent, as implementer.
-/

namespace AgentWorkflow

open WorkerTaskHandler

/-! ## Where runs begin -/

section beginning

variable {t w : String} {v v' : TaskState} {l : Label} {call : String × Call}

/-- Updates that launch nothing. -/
theorem launched_of_updates_quiet {A : Holding → Update → Prop} {us : List Update}
    (h : TaskUpdates A t w v us v')
    (hA : ∀ h u, A h u → ∀ call ∈ u.calls, call.2.isLaunched = false)
    (hcall : call ∈ v'.calls) (hlaunched : call.2.isLaunched = true) : call ∈ v.calls := by
  have hall : ∀ call ∈ v'.calls, call.2.isLaunched = true → call ∈ v.calls := by
    refine h.invariant (I := fun v₁ => ∀ call ∈ v₁.calls, call.2.isLaunched = true →
      call ∈ v.calls) (fun _ hc _ => hc) ?_
    rintro v₁ u v₂ ⟨hu, rfl⟩ h₁ c hc hl
    rcases List.mem_append.mp hc with hc | hc
    · exact h₁ c hc hl
    · exact absurd (hA _ u hu c hc) (by simp [hl])
  exact hall call hcall hlaunched

theorem beforeRun_quiet {entry : TaskQueueEntry} (h : Holding) (u : Update)
    (hu : BeforeRun w entry h u) : ∀ call ∈ u.calls, call.2.isLaunched = false := by
  cases hu <;> simp [Update.calls, Call.isLaunched]

theorem afterRun_quiet {launch : Launch} {result : Except Err RunOutcome} (h : Holding) (u : Update)
    (hu : AfterRun w launch result h u) : ∀ call ∈ u.calls, call.2.isLaunched = false := by
  cases hu <;> simp [Update.calls, Call.isLaunched]

/-- A note of something else. -/
theorem launched_of_note {c : Call} (hc : c.isLaunched = false) (hcall : call ∈ (v.note w c).calls)
    (hlaunched : call.2.isLaunched = true) : call ∈ v.calls := by
  rcases List.mem_append.mp hcall with hcall | hcall
  · exact hcall
  · obtain rfl := List.mem_singleton.mp hcall
    exact absurd hc (by simp [hlaunched])

/-- **A run of a task begins with a start** of a worker that is then running it. -/
theorem launched_new (h : TaskStep t v l v') (hcall : call ∈ v'.calls)
    (hlaunched : call.2.isLaunched = true) : call ∈ v.calls ∨
      ∃ worker env aborted launch gate, l = .start worker env aborted ∧
        v'.pc worker = .running launch ∧ launch.entry.taskId = t ∧
        call = (worker, .launched t launch.entry.nextRole launch.agentId gate
          launch.persistedReviewContext) := by
  cases h with
  | other => exact Or.inl hcall
  | @enqueue q workOrder role env ts ht hrow =>
    have hcall' : call ∈ (v.note q (.enqueued workOrder role)).calls := hcall
    exact Or.inl (launched_of_note rfl hcall' hlaunched)
  | load => exact Or.inl (by simpa [TaskState.update, Update.calls] using hcall)
  | claim hload =>
    left
    rcases hload with rfl | rfl
    · exact hcall
    · simpa [TaskState.claimed, TaskState.goto, TaskState.update, Update.calls] using hcall
  | @refuse v₁ worker env aborted entry us st u hpc ht hst hus =>
    have hcall' : call ∈ (v₁.note worker (.returned t)).calls := hcall
    exact Or.inl (launched_of_updates_quiet hus beforeRun_quiet
      (launched_of_note rfl hcall' hlaunched) hlaunched)
  | @launch worker env aborted entry launch gate hpc ht hl =>
    obtain rfl : launch.entry = entry := hl.entry_eq
    have hcall' : call ∈ v.calls ∨ call ∈ [(worker, Call.decided launch.entry.taskId
        launch.entry.nextRole launch.workOrder.agent.excludeAgentIds (some launch.agentId)),
        (worker, Call.launched launch.entry.taskId launch.entry.nextRole launch.agentId gate
          launch.persistedReviewContext)] := List.mem_append.mp hcall
    rcases hcall' with hcall' | hcall'
    · exact Or.inl hcall'
    rcases List.mem_pair.mp hcall' with rfl | rfl
    · simp [Call.isLaunched] at hlaunched
    · refine Or.inr ⟨worker, env, aborted, launch, gate, rfl, ?_, ht, by rw [ht]⟩
      simp [TaskState.goto]
  | @throwBefore v₁ worker env aborted entry us hpc ht hus hrel =>
    have hcall' : call ∈ (v₁.note worker (.threw t)).calls := hcall
    exact Or.inl (launched_of_updates_quiet hus beforeRun_quiet
      (launched_of_note rfl hcall' hlaunched) hlaunched)
  | @settle v₁ worker env run aborted launch result us st role n u hpc ht hrun hus =>
    have hcall' : call ∈ (v₁.note worker (.returned t)).calls := hcall
    have hold := launched_of_updates_quiet hus afterRun_quiet
      (launched_of_note rfl hcall' hlaunched) hlaunched
    exact Or.inl (launched_of_note rfl hold hlaunched)
  | @throwAfter v₁ worker env run aborted launch result us hpc ht hrun hus hrel =>
    have hcall' : call ∈ (v₁.note worker (.threw t)).calls := hcall
    have hold := launched_of_updates_quiet hus afterRun_quiet
      (launched_of_note rfl hcall' hlaunched) hlaunched
    exact Or.inl (launched_of_note rfl hold hlaunched)
  | requeue => exact Or.inl hcall
  | giveUp => exact Or.inl hcall
  | crash => exact Or.inl hcall

end beginning

/-! ## Pools -/

section pools

variable {services : HandlerServices} {s₀ s : System} {ls : List Label} {t x agentId : String}
  {role : Role} {gate : BudgetState} {context : Option ReviewContextRecord}

/-- The agents of a work order for a role; none means any. -/
def poolOf (wo : ParsedWorkOrderV1) : Role → List String
  | .implementer => wo.agent.implementerPool
  | .reviewer => wo.agent.reviewerPool

/-- Every run of a task is by an agent the enqueued work order allows: of the pool of its role, not
excluded, and not the implementer it reviews. -/
theorem launched_in_pool (h₀ : s₀.Initial) (h : System.Steps services s₀ ls s)
    (hcall : (x, Call.launched t role agentId gate context) ∈ s.calls t) :
    ∃ q wo first, (q, Call.enqueued wo first) ∈ s.calls t ∧
      (poolOf wo role = [] ∨ agentId ∈ poolOf wo role) ∧
      agentId ∉ wo.agent.excludeAgentIds ∧
      (role = .reviewer → ∃ c, context = some c ∧ c.implementerAgentId ≠ agentId) := by
  induction ls using List.reverseRecOn generalizing s with
  | nil =>
    obtain rfl := Run.nil_iff.mp h
    simp [System.calls, h₀.trace] at hcall
  | append_singleton ls l ih =>
    obtain ⟨s₁, h₁, hstep⟩ := Run.snoc_iff.mp h
    have htask := System.step_task_of_steps h₀ h₁ hstep t
    have hgrow := htask.calls_prefix.subset
    rcases launched_new htask hcall rfl with hold | hnew
    · obtain ⟨q, wo, first, henq, hrest⟩ := ih h₁ hold
      exact ⟨q, wo, first, hgrow henq, hrest⟩
    · obtain ⟨worker, env, aborted, launch, gate', rfl, hpc, ht, heq⟩ := hnew
      have hrunning : s.pc worker = .running launch := by
        simp only [System.task] at hpc
        split at hpc
        · exact hpc
        · cases hpc
      obtain ⟨hclaimed, ⟨_, hlaunches⟩, hpick⟩ := System.launches_of_start h₀ h₁ hstep hrunning
      obtain ⟨q, wo, first, ids, henq, hsub, hids⟩ :=
        System.enqueued_of_launches h₀ h₁ hclaimed hlaunches
      rw [ht] at henq
      rw [Launch.request, hids] at hpick
      obtain ⟨-, hrole, hagent, -, hcontext⟩ : x = worker ∧ role = launch.entry.nextRole ∧
          agentId = launch.agentId ∧ gate = gate' ∧ context = launch.persistedReviewContext := by
        simpa using heq
      subst hrole hagent hcontext
      obtain ⟨-, ⟨hpool, hnot, -⟩, -⟩ := hpick.mem.2
      refine ⟨q, wo, first, hgrow henq, hpool, fun hmem => hnot (hsub _ hmem), fun hr => ?_⟩
      obtain ⟨c, hc, -, hne⟩ := hlaunches.context_of_reviewer hr
      exact ⟨c, hc, hne⟩

end pools

/-! ## A task without review -/

/-- A task that only implementers get. -/
structure Unreviewed (t : String) (v : TaskState) : Prop where
  row : ∀ r, v.row = some r → r.nextRole = .implementer
  claimed : ∀ x entry, v.pc x = .claimed entry → entry.nextRole = .implementer
  running : ∀ x l, v.pc x = .running l →
    l.entry.nextRole = .implementer ∧ l.workOrder.review.enabled = false
  launched : ∀ x role agentId gate context,
    (x, Call.launched t role agentId gate context) ∈ v.calls → role = .implementer ∧ context = none

/-- A task that was enqueued without review for an implementer is such a task. -/
def WithoutReview (t : String) (v : TaskState) : Prop :=
  Held t v ∧ ∀ q wo, (q, Call.enqueued wo .implementer) ∈ v.calls → wo.review.enabled = false →
    Unreviewed t v

section unreviewed

variable {t w : String} {v v' : TaskState}

/-- A change that launches nothing. -/
theorem Unreviewed.congr (h : Unreviewed t v) (hrow : ∀ r, v'.row = some r → r.nextRole = .implementer)
    (hclaimed : ∀ x entry, v'.pc x = .claimed entry → entry.nextRole = .implementer)
    (hrunning : ∀ x l, v'.pc x = .running l → v.pc x = .running l)
    (calls : List (String × Call)) (hcalls : v'.calls = v.calls ++ calls)
    (hquiet : ∀ call ∈ calls, call.2.isLaunched = false) : Unreviewed t v' where
  row := hrow
  claimed := hclaimed
  running x l hx := h.running x l (hrunning x l hx)
  launched x role agentId gate context hcall := by
    rw [hcalls] at hcall
    rcases List.mem_append.mp hcall with hcall | hcall
    · exact h.launched x role agentId gate context hcall
    · exact Bool.noConfusion (hquiet _ hcall)

/-- An update that releases the task for an implementer, if at all. -/
theorem Unreviewed.update (h : Unreviewed t v) (u : Update)
    (hrole : ∀ r, r.nextRole = .implementer → (u.onRow r).nextRole = .implementer)
    (hquiet : ∀ call ∈ u.calls, call.2.isLaunched = false) : Unreviewed t (v.update t w u) := by
  refine h.congr (fun r' hr' => ?_) h.claimed (fun _ _ hx => hx) u.calls rfl hquiet
  obtain ⟨r, hr, rfl⟩ := Option.map_eq_some_iff.mp hr'
  exact hrole r (h.row r hr)

theorem Unreviewed.goto (h : Unreviewed t v) {pc : Pc} (hclaimed : ∀ entry, pc ≠ .claimed entry)
    (hrunning : ∀ l, pc ≠ .running l) : Unreviewed t (v.goto w pc) :=
  h.congr h.row (fun _ _ hx => h.claimed _ _ (pc_of_goto (hclaimed _) hx))
    (fun _ _ hx => pc_of_goto (hrunning _) hx) [] (by simp [TaskState.goto]) (by simp)

theorem Unreviewed.note (h : Unreviewed t v) {call : Call} (hcall : call.isLaunched = false) :
    Unreviewed t (v.note w call) :=
  h.congr h.row h.claimed (fun _ _ hx => hx) [(w, call)] rfl (by simpa using hcall)

/-- No update of the columns of a row but a release writes its role. -/
theorem nextRole_onRow {u : Update} (hu : ∀ st role n at', u ≠ .release st role n at') (r : TaskRow) :
    (u.onRow r).nextRole = r.nextRole := by
  cases u with
  | release st role n at' => exact absurd rfl (hu st role n at')
  | exclude agentIds at' =>
    simp only [Update.onRow, excludedRow]
    split <;> rfl
  | _ => rfl

/-- A step that enqueues nothing. -/
theorem WithoutReview.step (h : WithoutReview t v) (hheld : Held t v')
    (calls : List (String × Call)) (hcalls : v'.calls = v.calls ++ calls)
    (hnew : ∀ call ∈ calls, ¬ call.2.IsEnqueued)
    (hkeeps : ∀ wo role, HeldAs t wo role v → wo.review.enabled = false → Unreviewed t v →
      Unreviewed t v') : WithoutReview t v' := by
  refine ⟨hheld, fun q wo hcall hreview => ?_⟩
  rw [hcalls] at hcall
  rcases List.mem_append.mp hcall with hcall | hcall
  · rcases h.1 with rfl | ⟨wo', role', hheld'⟩
    · simp [TaskState.fresh] at hcall
    · obtain rfl := hheld'.enqueued_eq hcall
      exact hkeeps wo role' hheld' hreview (h.2 q wo hcall hreview)
  · exact absurd ⟨wo, .implementer, rfl⟩ (hnew _ hcall)

/-- **A task that was enqueued without review stays with the implementers.** -/
theorem closed_withoutReview : Closed t (WithoutReview t) where
  enqueue v q workOrder role ts h ht hrow := by
    refine ⟨closed_held.enqueue v q workOrder role ts h.1 ht hrow, ?_⟩
    have hfresh : v = TaskState.fresh := by
      rcases h.1 with hfresh | ⟨wo, role', hheld⟩
      · exact hfresh
      · obtain ⟨r, hr⟩ := hheld.row
        exact absurd (hr.symm.trans hrow) (Option.some_ne_none r)
    subst hfresh
    intro q' wo hcall hreview
    obtain ⟨rfl, rfl, rfl⟩ : q' = q ∧ wo = workOrder ∧ .implementer = role := by
      simpa [TaskState.enqueued, TaskState.fresh] using hcall
    refine ⟨fun r hr => ?_, fun x entry hx => ?_, fun x l hx => ?_, ?_⟩
    · obtain rfl := Option.some.inj hr
      rfl
    · simp [TaskState.enqueued, TaskState.fresh] at hx
    · simp [TaskState.enqueued, TaskState.fresh] at hx
    · intro x role agentId gate context hlaunched
      simp [TaskState.enqueued, TaskState.fresh] at hlaunched
  load v w h := h.step (closed_held.load v w h.1) [] rfl (by simp) fun _ _ _ _ hu =>
    hu.update _ (fun _ hr => hr) (by simp [Update.calls])
  claim v w lease now r h hpc hrow hclaim := by
    refine h.step (closed_held.claim v w lease now r h.1 hpc hrow hclaim) []
      (by simp [TaskState.claimed, TaskState.goto]) (by simp) fun _ _ _ _ hu => ?_
    have hrole := hu.row r hrow
    refine hu.congr (fun r' hr' => ?_) (fun x entry hx => ?_)
      (fun _ _ hx => pc_of_goto (by simp) hx) [] (by simp [TaskState.claimed, TaskState.goto])
      (by simp)
    · obtain rfl := Option.some.inj hr'
      exact hrole
    · rcases pc_goto_cases hx with ⟨-, hentry⟩ | hx
      · rw [← Pc.claimed.inj hentry]
        exact hrole
      · exact hu.claimed x entry hx
  beforeRun v w entry u h hpc ht hA := by
    refine h.step (closed_held.beforeRun v w entry u h.1 hpc ht hA) u.calls rfl ?_
      fun _ _ _ _ hu => hu.update u ?_ (beforeRun_quiet _ u hA)
    · cases hA <;> simp [Update.calls, Call.IsEnqueued]
    · intro r hr
      cases hA with
      | release hst => exact hu.claimed w entry hpc
      | _ => exact hr
  launch v w entry l gate h hpc ht hl := by
    refine h.step (closed_held.launch v w entry l gate h.1 hpc ht hl) _ rfl
      (by simp [Call.IsEnqueued]) fun wo role hheld hreview hu => ?_
    have hrole : l.entry.nextRole = .implementer := by
      rw [hl.entry_eq]
      exact hu.claimed w entry hpc
    obtain ⟨ids, hids⟩ := hheld.launched hl
    refine ⟨hu.row, fun x entry' hx => ?_, fun x l' hx => ?_, ?_⟩
    · exact hu.claimed x entry' (pc_of_goto (v := v.launched w l gate) (by simp) hx)
    · rcases pc_goto_cases hx with ⟨-, hl'⟩ | hx
      · obtain rfl := Pc.running.inj hl'
        refine ⟨hrole, ?_⟩
        rw [hids]
        exact hreview
      · exact hu.running x l' hx
    · intro x role' agentId gate' context hcall
      rcases List.mem_append.mp hcall with hcall | hcall
      · exact hu.launched x role' agentId gate' context hcall
      · rcases List.mem_pair.mp hcall with hcall | hcall
        · cases hcall
        · cases hcall
          exact ⟨hrole, hl.context_of_implementer (hl.entry_eq ▸ hrole)⟩
  settled v w l result h hpc ht := h.step (closed_held.settled v w l result h.1 hpc ht) _ rfl
    (by simp [Call.IsEnqueued]) fun _ _ _ _ hu => hu.note rfl
  afterRun v w l result u h hpc ht hA := by
    refine h.step (closed_held.afterRun v w l result u h.1 hpc ht hA) u.calls rfl ?_
      fun _ _ _ _ hu => hu.update u ?_ (afterRun_quiet _ u hA)
    · cases hA <;> simp [Update.calls, Call.IsEnqueued]
    · intro r hr
      obtain ⟨hrole, hreview⟩ := hu.running w l hpc
      cases hA with
      | failed => exact hrole
      | @release o h b st role u hb hst hcontext =>
        cases role with
        | implementer => rfl
        | reviewer =>
          -- Only a review, or a run of a reviewer, leaves the task to a reviewer.
          rcases transition_reviewer hst with ⟨-, henabled⟩ | hreviewer
          · exact Bool.noConfusion (hreview.symm.trans henabled)
          · exact absurd (hrole.symm.trans hreviewer) (by simp)
      | exclude => exact (nextRole_onRow (by simp) r).trans hr
      | _ => exact hr
  returned v w h hpc := h.step (closed_held.returned v w h.1 hpc) _ rfl
    (by simp [Call.IsEnqueued]) fun _ _ _ _ hu => (hu.note rfl).goto (by simp) (by simp)
  threw v w entry h hpc := h.step (closed_held.threw v w entry h.1 hpc) _ rfl
    (by simp [Call.IsEnqueued]) fun _ _ _ _ hu => (hu.note rfl).goto (by simp) (by simp)
  requeue v w entry u r h hpc hrow := by
    refine h.step (closed_held.requeue v w entry u r h.1 hpc hrow) []
      (by simp [TaskState.requeued, TaskState.goto]) (by simp) fun _ _ _ _ hu => ?_
    have hkept : Unreviewed t ({ v with row := some (Worker.requeuedRow u r) } : TaskState) := by
      refine hu.congr (fun r' hr' => ?_) hu.claimed (fun _ _ hx => hx) [] (by simp) (by simp)
      obtain rfl := Option.some.inj hr'
      exact hu.row r hrow
    exact hkept.goto (by simp) (by simp)
  leave v w h := h.step (closed_held.leave v w h.1) [] (by simp [TaskState.goto]) (by simp)
    fun _ _ _ _ hu => hu.goto (by simp) (by simp)

end unreviewed

/-! ## Upgraded work orders -/

/-- Whether a call enqueued this work order for this role. -/
def Call.enqueuedAs (workOrder : ParsedWorkOrderV1) (nextRole : Role) : Call → Bool
  | .enqueued workOrder' nextRole' => decide (workOrder' = workOrder ∧ nextRole' = nextRole)
  | _ => false

theorem Call.eq_of_enqueuedAs {workOrder : ParsedWorkOrderV1} {nextRole : Role} {call : Call}
    (h : call.enqueuedAs workOrder nextRole = true) : call = .enqueued workOrder nextRole := by
  cases call with
  | enqueued workOrder' nextRole' =>
    obtain ⟨rfl, rfl⟩ := of_decide_eq_true h
    rfl
  | _ => cases h

section upgraded

variable {services : HandlerServices} {s₀ s : System} {ls : List Label}

/-- **An upgraded work order is run at most once, by its agent, as implementer**, in every run of any
number of workers: the row never waits for a reviewer, and `runTaskOnce` is called at most once. -/
theorem upgraded_runs (h₀ : s₀.Initial) (h : System.Steps services s₀ ls s) {w : ParsedWorkOrder}
    {q : String} (henq : (q, Call.enqueued (upgradeParsed w) .implementer) ∈ s.calls w.1.taskId) :
    (s.task w.1.taskId).launches ≤ 1 ∧
      (∀ x role agentId gate context,
        (x, Call.launched w.1.taskId role agentId gate context) ∈ s.calls w.1.taskId →
        role = .implementer ∧ agentId = w.1.agentId ∧ context = none) ∧
      ∀ r, s.world.core.row w.1.taskId = some r → r.nextRole = .implementer := by
  have hunreviewed : Unreviewed w.1.taskId (s.task w.1.taskId) := by
    have hall : WithoutReview w.1.taskId (s.task w.1.taskId) :=
      System.task_invariant' h₀ h ⟨Or.inl rfl, fun q wo hcall => by
        simp [TaskState.fresh] at hcall⟩ fun _ _ _ hstep _ hv => closed_withoutReview.step hstep hv
    exact hall.2 q _ henq rfl
  have hheld := System.held_of_steps h₀ h w.1.taskId
  obtain ⟨wo, role, hheld⟩ : ∃ wo role, HeldAs w.1.taskId wo role (s.task w.1.taskId) := by
    rcases hheld with hfresh | hheld
    · have hnone : (s.task w.1.taskId).calls = [] := by rw [hfresh]; rfl
      rw [System.calls, show List.filter _ _ = [] from hnone] at henq
      cases henq
    · exact hheld
  have hwo := hheld.enqueued_eq henq
  refine ⟨?_, fun x role' agentId gate context hcall => ?_, hunreviewed.row⟩
  · have hbudgeted := System.budgeted_of_steps h₀ h w.1.taskId
    refine hbudgeted.launches.trans ?_
    cases hb : (s.task w.1.taskId).budget with
    | none =>
      rw [runsUsed_of_none hb]
      exact Nat.zero_le _
    | some b =>
      rw [runsUsed_of_some hb]
      refine (hbudgeted.within b hb).runs_le.trans ?_
      rw [hheld.caps b hb, ← hwo]
      exact le_rfl
  · obtain ⟨hrole, hnone⟩ := hunreviewed.launched x role' agentId gate context hcall
    obtain ⟨q', wo', first, henq', hpool, -, -⟩ := launched_in_pool h₀ h hcall
    have hwo' : wo' = upgradeParsed w := (hheld.enqueued_eq henq').trans hwo.symm
    subst hwo' hrole
    refine ⟨rfl, ?_, hnone⟩
    rcases hpool with hempty | hmem
    · cases hempty
    · exact List.mem_singleton.mp hmem

end upgraded

namespace Sample

/-- A work order of the first version, for alice. -/
def firstVersionOrder : ParsedWorkOrder :=
  ⟨{ taskId := "T-1", projectId := "default", title := "Report", type := .researchReport
     goal := "Write the report", acceptanceCriteria := [], repo := ⟨"/repo", none⟩
     constraints := none, verification := none, agentId := "alice", budget := none },
    by decide +kernel⟩

/-- An implementer of reports. -/
def reporter (agentId : String) (h : agentId ≠ "") : InternalEntry :=
  { agent agentId h .implementer with
    profile := { (agent agentId h .implementer).profile with kinds := ["research_report"] } }

theorem alice_named : "alice" ≠ "" := by decide

theorem bob_named : "bob" ≠ "" := by decide

theorem nodup_reporters :
    ([reporter "alice" alice_named, reporter "bob" bob_named].map InternalEntry.agentId).Nodup := by
  refine List.nodup_cons.mpr ⟨fun h => ?_, List.nodup_singleton _⟩
  exact absurd (List.mem_singleton.mp h) (by decide : "alice" ≠ "bob")

/-- Two of them. -/
def reporters : Table InternalEntry.agentId :=
  ⟨[reporter "alice" alice_named, reporter "bob" bob_named], nodup_reporters⟩

/-- Workers that know them. -/
def reporting : System := { system with memory := fun _ => ⟨[], reporters, []⟩ }

theorem reporting_initial : reporting.Initial := ⟨rfl, rfl, rfl, fun _ => rfl, fun _ => rfl⟩

/-- An implementer that fails, in a way that is handed off. -/
def unverified : RunTaskArgs → BackendM RunOutcome := fun _ =>
  pure (.implementerFailed "R-1" .verificationFailed none none none)

/-- Alice's attempt, and a worker that finds nothing more to do. -/
def reported : List Label :=
  .enqueue "main" (upgradeParsed firstVersionOrder) .implementer env ::
    (attempt "w1" unverified ++ [.claim "w2" env])

/-- Alice fails; nobody else is asked. -/
theorem upgraded_runs_once : ∃ s, System.Steps services reporting reported s ∧
    (s.task "T-1").launches = 1 ∧ (∀ x role agentId gate context,
      (x, Call.launched "T-1" role agentId gate context) ∈ s.calls "T-1" →
      role = .implementer ∧ agentId = "alice" ∧ context = none) := by
  have h : (reporting.steps services reported).any (fun s =>
      decide ((s.task "T-1").launches = 1) && (s.calls "T-1").any fun call =>
        call.2.enqueuedAs (upgradeParsed firstVersionOrder) .implementer) = true := by
    decide +kernel
  obtain ⟨s, hs, h⟩ := (Option.any_eq_true _ _).mp h
  obtain ⟨hlaunches, h⟩ := (Bool.and_eq_true _ _).mp h
  obtain ⟨⟨q, call⟩, hcall, h⟩ := List.any_eq_true.mp h
  obtain rfl := Call.eq_of_enqueuedAs h
  have hsteps := System.steps_iff.mpr hs
  exact ⟨s, hsteps, of_decide_eq_true hlaunches,
    (upgraded_runs (w := firstVersionOrder) reporting_initial hsteps hcall).2.1⟩

end Sample

end AgentWorkflow
