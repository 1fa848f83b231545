import AgentWorkflow.Core.RunEnd
import AgentWorkflow.Queue.TaskInvariants

/-!
# The selected edge and the transition

A `task.edge_selected` event is appended in `runTaskOnce`, before the budget is charged; `handle`
moves the task afterwards.

* `edgeTransition` — where an edge leads, given the budget after the run.
* `transition_of_edge` — an outcome with an edge makes the transition of its edge.
* **`edge_taken`** — the event and the row agree, except that an exhausted budget turns an edge back
  into the queue into a failure.
-/

namespace AgentWorkflow

open Fallible OrchestratorV1 WorkerTaskHandler

/-- Where an edge leads. -/
def edgeTransition (l : Launch) (status : BudgetStatus) : EdgeTo → TaskStatus × Role
  | .reviewing => requeueUnlessExhausted l status .reviewer
  | .accepted => (.accepted, l.entry.nextRole)
  | .requeued => requeueUnlessExhausted l status .implementer
  | .awaitingHuman => (.awaitingHuman, l.entry.nextRole)

/-- The edge leads back into the queue. -/
def intoQueue : EdgeTo → Bool
  | .reviewing | .requeued => true
  | .accepted | .awaitingHuman => false

/-- The row is where the edge leads, and nowhere else. -/
structure Agrees (edge : EdgeTo) (r : TaskRow) : Prop where
  accepted : edge = .accepted ↔ r.status = .accepted
  reviewing : edge = .reviewing ↔ r.status = .queued ∧ r.nextRole = .reviewer
  requeued : edge = .requeued ↔ r.status = .queued ∧ r.nextRole = .implementer
  awaitingHuman : edge = .awaitingHuman ↔ r.status = .awaitingHuman

section transitions

variable {l : Launch} {o : RunOutcome} {status : BudgetStatus} {edge : EdgeTo}

theorem edgeText_injective {e e' : EdgeTo} (h : e.text = e'.text) : e = e' := by
  revert h
  cases e <;> cases e' <;> decide

/-- **An outcome with an edge makes the transition of its edge.** -/
theorem transition_of_edge (hrole : o.role = l.entry.nextRole)
    (hcontext : l.entry.nextRole = .reviewer → l.persistedReviewContext.isSome = true)
    (hedge : edgesOf l.workOrder o = [edge.text]) :
    transition l o status = edgeTransition l status edge := by
  have htext : ∀ e e' : EdgeTo, [e.text] = [e'.text] → e = e' := fun e e' h =>
    edgeText_injective (List.singleton_inj.mp h)
  have hreviewer : o.role = .reviewer → l.persistedReviewContext.isNone = false := by
    intro h
    rw [Option.isNone_eq_false_iff]
    exact hcontext (hrole ▸ h)
  cases o with
  | implementerSucceeded runId d v f =>
    obtain rfl := htext _ _ hedge
    by_cases henabled : l.workOrder.review.enabled = true
    · simp [transition, implementerEdge, henabled, edgeTransition]
    · simp [transition, implementerEdge, henabled, edgeTransition]
  | implementerFailed runId reason d v f => cases hedge
  | reviewerApproved runId uri =>
    obtain rfl := htext _ _ hedge
    simp [transition, hreviewer rfl, verdictEdge, edgeTransition]
  | reviewerRejected runId uri =>
    obtain rfl := htext _ _ hedge
    simp [transition, hreviewer rfl, verdictEdge, edgeTransition]
  | reviewerChangesRequested runId uri =>
    obtain rfl := htext _ _ hedge
    simp [transition, hreviewer rfl, verdictEdge, edgeTransition]
  | reviewerUnusable runId reason uri out err =>
    cases reason with
    | diffApplyFailed =>
      obtain rfl := htext _ _ hedge
      simp [transition, hreviewer rfl, edgeTransition]
    | _ => cases hedge

/-- At most one edge is selected with an outcome. -/
theorem edgesOf_subsingleton {wo : ParsedWorkOrderV1} {text : String} (h : text ∈ edgesOf wo o) :
    edgesOf wo o = [text] := by
  unfold edgesOf at h ⊢
  split at h
  · exact congrArg (fun x => [x]) (List.mem_singleton.mp h).symm
  · exact congrArg (fun x => [x]) (List.mem_singleton.mp h).symm
  · exact congrArg (fun x => [x]) (List.mem_singleton.mp h).symm
  · exact congrArg (fun x => [x]) (List.mem_singleton.mp h).symm
  · exact congrArg (fun x => [x]) (List.mem_singleton.mp h).symm
  · cases h

/-- What is selected with an outcome is the end of an edge. -/
theorem edge_of_edgesOf {text : String} (h : edgesOf l.workOrder o = [text]) :
    ∃ e : EdgeTo, text = e.text := by
  unfold edgesOf at h
  split at h
  · exact ⟨_, (List.singleton_inj.mp h).symm⟩
  · exact ⟨_, (List.singleton_inj.mp h).symm⟩
  · exact ⟨_, (List.singleton_inj.mp h).symm⟩
  · exact ⟨_, (List.singleton_inj.mp h).symm⟩
  · exact ⟨_, (List.singleton_inj.mp h).symm⟩
  · cases h

/-- A row that made the transition of an edge agrees with it, or its budget is exhausted. -/
theorem Agrees.of_transition {r : TaskRow}
    (h : edgeTransition l status edge = (r.status, r.nextRole)) :
    if status = .exhausted ∧ intoQueue edge = true then r.status = .failed else Agrees edge r := by
  obtain ⟨hst, hrole⟩ := Prod.ext_iff.mp h
  by_cases hexhausted : status = .exhausted ∧ intoQueue edge = true
  · rw [if_pos hexhausted]
    obtain ⟨rfl, hinto⟩ := hexhausted
    cases edge with
    | reviewing => exact hst.symm
    | requeued => exact hst.symm
    | accepted => cases hinto
    | awaitingHuman => cases hinto
  · rw [if_neg hexhausted]
    cases edge with
    | accepted =>
      have hst' : r.status = .accepted := hst.symm
      constructor <;> simp [hst']
    | awaitingHuman =>
      have hst' : r.status = .awaitingHuman := hst.symm
      constructor <;> simp [hst']
    | reviewing =>
      have hne : status ≠ .exhausted := fun h => hexhausted ⟨h, rfl⟩
      simp only [edgeTransition, requeueUnlessExhausted, if_neg hne] at hst hrole
      constructor <;> simp [← hst, ← hrole]
    | requeued =>
      have hne : status ≠ .exhausted := fun h => hexhausted ⟨h, rfl⟩
      simp only [edgeTransition, requeueUnlessExhausted, if_neg hne] at hst hrole
      constructor <;> simp [← hst, ← hrole]

end transitions

/-- A worker before a claim. -/
def Pc.isIdle : Pc → Bool
  | .idle => true
  | _ => false

theorem Pc.isIdle_iff {pc : Pc} : pc.isIdle = true ↔ pc = .idle := by
  cases pc <;> simp [Pc.isIdle]

/-! ## A running reviewer has its context -/

/-- A worker that runs a reviewer has read a review context. -/
def ReviewsContext (v : TaskState) : Prop :=
  ∀ w l, v.pc w = .running l → l.entry.nextRole = .reviewer → l.persistedReviewContext.isSome = true

section invariant

variable {t : String} {v v' : TaskState}

theorem ReviewsContext.congr (h : ReviewsContext v) (hpc : v'.pc = v.pc) : ReviewsContext v' := by
  intro w l hw
  rw [hpc] at hw
  exact h w l hw

theorem ReviewsContext.goto {w : String} {pc : Pc} (h : ReviewsContext v)
    (hpc : ∀ l, pc = .running l → l.entry.nextRole = .reviewer →
      l.persistedReviewContext.isSome = true) : ReviewsContext (v.goto w pc) := by
  intro x l hx
  rcases pc_goto_cases hx with ⟨-, hat⟩ | hx
  · exact hpc l hat
  · exact h x l hx

theorem closed_reviewsContext : Closed t ReviewsContext where
  enqueue _ _ _ _ _ h _ _ := h.congr rfl
  load _ _ h := h.congr rfl
  claim _ _ _ _ _ h _ _ _ := (ReviewsContext.congr h rfl).goto (by simp)
  beforeRun _ _ _ _ h _ _ _ := h.congr rfl
  launch v w entry l gate h _ _ hl := by
    refine (ReviewsContext.congr h rfl).goto ?_
    rintro _ ⟨⟩ hreviewer
    obtain ⟨context, hcontext, -⟩ := hl.context_of_reviewer (hl.entry_eq ▸ hreviewer)
    simp [hcontext]
  settled _ _ _ _ h _ _ := h.congr rfl
  afterRun _ _ _ _ _ h _ _ _ := h.congr rfl
  returned _ _ h _ := (ReviewsContext.congr h rfl).goto (by simp)
  threw _ _ _ h _ := (ReviewsContext.congr h rfl).goto (by simp)
  requeue _ _ _ _ _ h _ _ := (ReviewsContext.congr h rfl).goto (by simp)
  leave _ _ h := h.goto (by simp)

end invariant

/-! ## Runs -/

section runs

variable {services : HandlerServices} {runServices : V1RunTaskServices} {signal : AbortSignal}
  {s₀ s s' : System} {ls : List Label} {w : String} {l : Launch} {env : Env} {o : RunOutcome}
  {b : Backend} {aborted : Bool} {runTaskOnce : RunTaskArgs → BackendM RunOutcome}

theorem System.reviewsContext_of_steps (h₀ : s₀.Initial) (h : System.Steps services s₀ ls s)
    (t : String) : ReviewsContext (s.task t) :=
  System.task_invariant' h₀ h (by simp [ReviewsContext, TaskState.fresh])
    fun _ _ _ hstep _ hv => closed_reviewsContext.step hstep hv

/-- A `handle` that returns has released its task, for the outcome of the run. -/
theorem System.settled_of_step (hpc : s.pc w = .running l)
    (hrun : runTaskOnce l.runArgs env (s.load w).backend = .ok o b)
    (hstep : System.Step services s (.settle w env runTaskOnce aborted) s')
    (hidle : s'.pc w = .idle) :
    ∃ c', Settled w l (.ok o) (noteSettled w l (.ok o) (s.load w).core) c' ∧
      s'.world.core.row l.entry.taskId = c'.row l.entry.taskId ∧
      s'.world.core.budget l.entry.taskId = c'.budget l.entry.taskId := by
  have hspec : Ensures (System.runAndSettle services w l runTaskOnce aborted) env (s.load w)
      (fun _ world => Settled w l (.ok o) (noteSettled w l (.ok o) (s.load w).core) world.core)
      fun _ _ => True := by
    refine ensures_bind.mpr (ensures_zoom.mpr (ensures_tryCatch.mpr (ensures_map.mpr ?_)))
    refine ensures_of_ok hrun ?_
    exact (handleAfterRun_spec { s.load w with backend := b } rfl).mono (fun _ _ h => h)
      fun _ _ _ => trivial
  simp only [System.Step, System.step, hpc] at hstep
  split at hstep
  next world hres =>
    cases hstep
    exact ⟨world.core, hspec.of_ok hres, rfl, rfl⟩
  next e world hres =>
    cases hstep
    simp [System.goto] at hidle

/-- The edges a worker's attempt selects, whether it returns or throws. -/
def System.selects (s : System) (w : String) (env : Env)
    (runTaskOnce : RunTaskArgs → BackendM RunOutcome) : List String :=
  let before := edgesSelected (s.load w).backend.events
  match s.pc w with
  | .running l =>
    match runTaskOnce l.runArgs env (s.load w).backend with
    | .ok _ b => (edgesSelected b.events).drop before.length
    | .error _ b => (edgesSelected b.events).drop before.length
  | _ => []

/-- An attempt that selects an edge returns the outcome of the edge. -/
theorem System.selects_spec {edge : String}
    (hedge : edge ∈ s.selects w env (OrchestratorV1.runTaskOnce runServices signal)) :
    ∃ l o b, s.pc w = .running l ∧
      OrchestratorV1.runTaskOnce runServices signal l.runArgs env (s.load w).backend = .ok o b ∧
      o.role = l.entry.nextRole ∧ edgesOf l.workOrder o = [edge] := by
  unfold System.selects at hedge
  split at hedge
  next l hpc =>
    have hspec := runTaskOnce_spec runServices signal l.runArgs env (s.load w).backend
    split at hedge
    next o b hrun =>
      obtain ⟨hrole, hover, -⟩ := (hspec.of_ok hrun).1
      have hdrop : (edgesSelected b.events).drop
          (edgesSelected (s.load w).backend.events).length = edgesOf l.workOrder o := by
        rw [show edgesSelected b.events = _ from hover]
        exact List.drop_left
      rw [hdrop] at hedge
      exact ⟨l, o, b, hpc, hrun, hrole, edgesOf_subsingleton hedge⟩
    next e b hrun =>
      rw [(hspec.of_error hrun).1, List.drop_length] at hedge
      cases hedge
  next => cases hedge

/-- **The event and the row agree.** Where an attempt selected an edge and `handle` has returned, the
row is where the edge leads, and nowhere else; only with an exhausted budget does an edge back into
the queue fail the task. -/
theorem edge_taken (h₀ : s₀.Initial) (h : System.Steps services s₀ ls s) {edge : String}
    (hedge : edge ∈ s.selects w env (OrchestratorV1.runTaskOnce runServices signal))
    (hstep : System.Step services s
      (.settle w env (OrchestratorV1.runTaskOnce runServices signal) aborted) s')
    (hidle : s'.pc w = .idle) :
    ∃ t to' r budget, (s.pc w).taskId? = some t ∧ edge = to'.text ∧
      s'.world.core.row t = some r ∧ s'.world.core.budget t = some budget ∧
      if budget.status = .exhausted ∧ intoQueue to' = true then r.status = .failed
      else Agrees to' r := by
  obtain ⟨l, o, b, hpc, hrun, hrole, hedges⟩ := System.selects_spec hedge
  have hat : (s.task l.entry.taskId).pc w = .running l := by
    simp [System.task, hpc, Pc.taskId?]
  have hcontext := System.reviewsContext_of_steps h₀ h l.entry.taskId w l hat
  obtain ⟨wo, role, hheld⟩ := (System.held_of_steps h₀ h l.entry.taskId).of_pc (w := w)
    (by simp [hat])
  obtain ⟨c', ⟨st, role', n, us, u, hus⟩, hrow, hbudget⟩ :=
    System.settled_of_step hpc hrun hstep hidle
  obtain ⟨c₁, hus₁, hA, rfl⟩ := Run.snoc_iff.mp hus
  have hsome : ∃ r₁, c₁.row l.entry.taskId = some r₁ := by
    refine hus₁.invariant (I := fun c => ∃ r₁, c.row l.entry.taskId = some r₁) hheld.row ?_
    rintro c₂ u' c₃ ⟨-, rfl⟩ ⟨r₂, hr₂⟩
    exact ⟨_, (Update.row_apply _ _ _).trans (congrArg (Option.map _) hr₂)⟩
  obtain ⟨r₁, hr₁⟩ := hsome
  cases hA with
  | @release _ _ budget _ _ _ hb hst _ =>
    rw [Update.row_apply, hr₁] at hrow
    rw [Update.budget_apply] at hbudget
    obtain ⟨to', rfl⟩ := edge_of_edgesOf hedges
    refine ⟨l.entry.taskId, to', _, budget, by rw [hpc]; rfl, rfl, hrow, hbudget.trans hb,
      Agrees.of_transition (l := l) ?_⟩
    rw [← transition_of_edge hrole hcontext hedges]
    exact hst

end runs

/-! ## An edge that is not taken -/

namespace Sample

/-- A work order with two runs. -/
def twoRuns : ParsedWorkOrderV1 :=
  { workOrder with
    budget := { BudgetSettings.default with maxRuns := 2 }
    review := { ReviewSettings.default with maxReviewRuns := 1 }
    valid := by decide +kernel }

/-- The reviewer requests changes. -/
def criticServices : V1RunTaskServices :=
  { runServices with
    parseReviewVerdict := fun _ => pure ⟨⟨.changesRequested, "Again", []⟩, false, none, none⟩ }

/-- Other random ids. -/
def secondEnv : Env := { env with uuid := fun _ => "00000001" }

/-- Up to the reviewer's run of a task with two runs. -/
def untilReview (workOrder : ParsedWorkOrderV1) : List Label :=
  .enqueue "main" workOrder .implementer env ::
    (attempt "w1" (OrchestratorV1.runTaskOnce runServices .quiet) ++
      [.claim "w1" env, .start "w1" env false])

/-- The reviewer's run, and the rest of `handle`. -/
def reviewStep : Label :=
  .settle "w1" secondEnv (OrchestratorV1.runTaskOnce criticServices .quiet) false

end Sample

/-- The reviewer's edge leads to the implementer, and `handle` fails the task. -/
theorem edge_not_taken : ∃ s s' r,
    System.Steps Sample.services Sample.system (Sample.untilReview Sample.twoRuns) s ∧
      "requeued" ∈ s.selects "w1" Sample.secondEnv
        (OrchestratorV1.runTaskOnce Sample.criticServices .quiet) ∧
      System.Step Sample.services s Sample.reviewStep s' ∧ s'.pc "w1" = .idle ∧
      s'.world.core.row "T-1" = some r ∧ r.status = .failed ∧ ¬ Agrees .requeued r := by
  have h : (Sample.system.steps Sample.services (Sample.untilReview Sample.twoRuns)).any (fun s =>
      decide ("requeued" ∈ s.selects "w1" Sample.secondEnv
        (OrchestratorV1.runTaskOnce Sample.criticServices .quiet)) &&
      (s.step Sample.services Sample.reviewStep).any fun s' => (s'.pc "w1").isIdle &&
        (s'.world.core.row "T-1").any (·.status = .failed)) = true := by
    decide +kernel
  obtain ⟨s, hs, hp⟩ := (Option.any_eq_true _ _).mp h
  obtain ⟨hedge, hp⟩ := Bool.and_eq_true_iff.mp hp
  obtain ⟨s', hs', hp⟩ := (Option.any_eq_true _ _).mp hp
  obtain ⟨hidle, hp⟩ := Bool.and_eq_true_iff.mp hp
  obtain ⟨r, hr, hst⟩ := (Option.any_eq_true _ _).mp hp
  have hst := of_decide_eq_true hst
  refine ⟨s, s', r, System.steps_iff.mpr hs, of_decide_eq_true hedge, hs',
    Pc.isIdle_iff.mp hidle, hr, hst, fun h => ?_⟩
  have hqueued := (h.requeued.mp rfl).1
  rw [hst] at hqueued
  cases hqueued

/-- With the default budget, the same edge is taken. -/
theorem edge_taken_requeued : ∃ s s' r,
    System.Steps Sample.services Sample.system (Sample.untilReview Sample.workOrder) s ∧
      System.Step Sample.services s Sample.reviewStep s' ∧
      s'.world.core.row "T-1" = some r ∧ Agrees .requeued r := by
  have h : (Sample.system.steps Sample.services (Sample.untilReview Sample.workOrder)).any
      (fun s => decide ((s.pc "w1").taskId? = some "T-1") &&
        (decide ("requeued" ∈ s.selects "w1" Sample.secondEnv
          (OrchestratorV1.runTaskOnce Sample.criticServices .quiet)) &&
        (s.step Sample.services Sample.reviewStep).any fun s' => (s'.pc "w1").isIdle &&
          (s'.world.core.budget "T-1").any (·.status = .ok))) = true := by
    decide +kernel
  obtain ⟨s, hs, hp⟩ := (Option.any_eq_true _ _).mp h
  obtain ⟨hat, hp⟩ := Bool.and_eq_true_iff.mp hp
  obtain ⟨hedge, hp⟩ := Bool.and_eq_true_iff.mp hp
  obtain ⟨s', hs', hp⟩ := (Option.any_eq_true _ _).mp hp
  obtain ⟨hidle, hp⟩ := Bool.and_eq_true_iff.mp hp
  obtain ⟨budget, hbudget, hok⟩ := (Option.any_eq_true _ _).mp hp
  have hsteps := System.steps_iff.mpr hs
  obtain ⟨t, to', r, budget', ht, hto, hr, hbudget', hagrees⟩ := edge_taken Sample.initial hsteps
    (of_decide_eq_true hedge) hs' (Pc.isIdle_iff.mp hidle)
  obtain rfl : "T-1" = t := Option.some.inj ((of_decide_eq_true hat).symm.trans ht)
  obtain rfl : budget = budget' := Option.some.inj (hbudget.symm.trans hbudget')
  obtain rfl : .requeued = to' := edgeText_injective hto
  refine ⟨s, s', r, hsteps, hs', hr, ?_⟩
  rwa [if_neg (by simp [of_decide_eq_true hok])] at hagrees

end AgentWorkflow
