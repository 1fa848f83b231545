import AgentWorkflow.Queue.Exclusion

/-!
# The review gate

Why an accepted task was reviewed. The gate is spread over the persisted review context, `next_role`,
the scheduler's exclusion of the implementer and the branches of the outcomes; here it is one
invariant of a task, kept by every attempt while storage calls succeed.

* `Gated` — **the review context of a row that waits for a reviewer is the one of the last
  implementation**, a running reviewer was launched with it, and an accepted row has the record of
  its acceptance.
* `Approved`, `Implemented` — that record: the last runs of the task.
* **`accepted_reviewed`** — an accepted task whose review is enabled was last run by a reviewer that
  approved the last implementation, started after it, and is another agent; with review disabled its
  last run is the implementation.
-/

namespace AgentWorkflow

open Fallible WorkerTaskHandler

/-! ## Runs and their outcomes -/

/-- A run comes to an outcome of the role it is launched for. -/
def Label.HonoursRole : Label → Prop
  | .settle _ env runTaskOnce _ => ∀ args b o b', runTaskOnce args env b = .ok o b' →
      o.role = args.entry.nextRole
  | _ => True

/-- The work order a task was enqueued with. -/
def Call.enqueued? : Call → Option ParsedWorkOrderV1
  | .enqueued workOrder _ => some workOrder
  | _ => none

/-- What a settled run came to. -/
def Call.outcome? : Call → Option (Except Err RunOutcome)
  | .settled _ _ _ _ outcome => some outcome
  | _ => none

/-- The review context of a settled implementation. -/
def Call.success? : Call → Option ReviewContextRecord
  | .settled _ _ agentId _ (.ok outcome) => reviewContextOf agentId outcome
  | _ => none

/-- The review context of the last implementation. -/
def lastSuccess (calls : List (String × Call)) : Option ReviewContextRecord :=
  lastSome (fun call => call.2.success?) calls

/-- The last run is a reviewer's approval, and it was launched after the last implementation, with
its run id and its diff, for another agent. -/
def Approved (t : String) (calls : List (String × Call)) : Prop :=
  ∃ before x role implementer given runId diffArtifactUri verificationOutputUri finalReportUri
    between w reviewer gate reviewRunId reviewVerdictUri after,
    calls = before ++ (x, .settled t role implementer given (.ok (.implementerSucceeded runId
        diffArtifactUri verificationOutputUri finalReportUri))) :: between ++
      [(w, .launched t .reviewer reviewer gate (some ⟨runId, implementer, diffArtifactUri,
          finalReportUri, verificationOutputUri⟩)),
        (w, .settled t .reviewer reviewer (some ⟨runId, implementer, diffArtifactUri,
          finalReportUri, verificationOutputUri⟩) (.ok (.reviewerApproved reviewRunId
          reviewVerdictUri)))] ++ after ∧
    (∀ c ∈ between, c.2.success? = none) ∧ reviewer ≠ implementer ∧
    ∀ c ∈ after, c.2.outcome? = none

/-- The last run is an implementation. -/
def Implemented (t : String) (calls : List (String × Call)) : Prop :=
  ∃ before x role implementer given runId diffArtifactUri verificationOutputUri finalReportUri after,
    calls = before ++ (x, .settled t role implementer given (.ok (.implementerSucceeded runId
      diffArtifactUri verificationOutputUri finalReportUri))) :: after ∧
    ∀ c ∈ after, c.2.outcome? = none

section calls

variable {t w : String} {calls extra : List (String × Call)} {call : Call}

theorem success?_of_outcome? (h : call.outcome? = none) : call.success? = none := by
  cases call with
  | settled => cases h
  | _ => rfl

theorem lastSuccess_append (h : ∀ c ∈ extra, c.2.outcome? = none) :
    lastSuccess (calls ++ extra) = lastSuccess calls :=
  lastSome_append_of_none fun c hc => success?_of_outcome? (h c hc)

theorem lastSuccess_snoc_of_none (h : call.success? = none) :
    lastSuccess (calls ++ [(w, call)]) = lastSuccess calls :=
  lastSome_snoc_of_none h

theorem lastSuccess_snoc {context : ReviewContextRecord} (h : call.success? = some context) :
    lastSuccess (calls ++ [(w, call)]) = some context :=
  lastSome_snoc_of_some h

/-- An implementation is where its review context comes from. -/
theorem settled_of_success {context : ReviewContextRecord} (h : call.success? = some context)
    (ht : call.taskId = t) : ∃ role given, call = .settled t role context.implementerAgentId given
      (.ok (.implementerSucceeded context.implementerRunId context.diffArtifactUri
        context.verificationOutputUri context.finalReportUri)) := by
  cases call with
  | settled taskId role agentId given outcome =>
    cases outcome with
    | error e => cases h
    | ok o =>
      cases o with
      | implementerSucceeded runId d v f =>
        cases h
        cases ht
        exact ⟨role, given, rfl⟩
      | _ => cases h
  | _ => cases h

end calls

/-! ## The invariant -/

/-- The review settings of the persisted work order. -/
def TaskState.review? (v : TaskState) : Option ReviewSettings := v.persisted.map (·.review)

/-- A worker runs what it launched last, with the review context of the last implementation. -/
structure RunningAs (t : String) (v : TaskState) (w : String) (l : Launch) : Prop where
  role : ∃ r, v.row = some r ∧ r.nextRole = l.entry.nextRole
  launched : ∃ pre gate, v.calls = pre ++
      [(w, .launched t l.entry.nextRole l.agentId gate l.persistedReviewContext)] ∧
    (l.entry.nextRole = .reviewer → lastSuccess pre = l.persistedReviewContext)
  reviewer : l.entry.nextRole = .reviewer → l.workOrder.review.enabled = true ∧
    ∃ context, l.persistedReviewContext = some context ∧ context.implementerAgentId ≠ l.agentId
  implementer : l.entry.nextRole = .implementer → l.persistedReviewContext = none
  review : v.review? = some l.workOrder.review

/-- What a row that waits for a reviewer says: it has the context of the last implementation, and
review is enabled if there is one. -/
structure WaitsForReviewer (v : TaskState) (r : TaskRow) : Prop where
  context : r.reviewContextJson = lastSuccess v.calls
  enabled : r.reviewContextJson.isSome = true → ∀ review, v.review? = some review →
    review.enabled = true

/-- The record of an acceptance. -/
def AcceptedBy (t : String) (enabled : Bool) (calls : List (String × Call)) : Prop :=
  (enabled = true → Approved t calls) ∧ (enabled = false → Implemented t calls)

/-- The gate of a task. -/
structure Gated (t : String) (v : TaskState) : Prop where
  role : ∀ w entry, v.pc w = .claimed entry → ∃ r, v.row = some r ∧ r.nextRole = entry.nextRole
  waiting : ∀ r, v.row = some r → r.nextRole = .reviewer → WaitsForReviewer v r
  running : ∀ w l, v.pc w = .running l → RunningAs t v w l
  accepted : ∀ r review, v.row = some r → r.status = .accepted → v.review? = some review →
    AcceptedBy t review.enabled v.calls

section updates

variable {t w : String} {v v' : TaskState} {r : TaskRow} {us : List Update}

theorem review_update (u : Update) : (v.update t w u).review? = v.review? := by
  unfold TaskState.review?
  by_cases hu : ∀ agentIds at', u ≠ .exclude agentIds at'
  · rw [persisted_update_of_ne hu]
  · have hrow : (v.update t w u).row = v.row.map u.onRow := rfl
    rw [TaskState.persisted, TaskState.persisted, hrow]
    cases hr : v.row with
    | none => rfl
    | some r =>
      cases hwo : QueueStore.workOrderOf r with
      | some wo =>
        obtain ⟨ids, hids, -, -⟩ := workOrderOf_onRow u hwo
        have hsame : (wo.withExcludeAgentIds ids).review = wo.review := rfl
        simp [hids, hwo, hsame]
      | none =>
        push Not at hu
        obtain ⟨agentIds, at', rfl⟩ := hu
        simp [Update.onRow, excludedRow, hwo]

/-- Updates leave the review settings alone. -/
theorem review_of_updates {A : Holding → Update → Prop}
    (hus : TaskUpdates A t w v us v') : v'.review? = v.review? := by
  refine TaskUpdates.keep (I := fun v₁ => v₁.review? = v.review?) hus rfl ?_
  intro v₁ u h₁ _ _
  rw [review_update, h₁]

/-- What the half before the run leaves of a row and of the outcomes. -/
theorem beforeRun_keeps {entry : TaskQueueEntry} (hr : v.row = some r)
    (hrole : r.nextRole = entry.nextRole) (hst : r.status ≠ .accepted)
    (hus : TaskUpdates (BeforeRun w entry) t w v us v') :
    ∃ r', v'.row = some r' ∧ r'.nextRole = entry.nextRole ∧
      r'.reviewContextJson = r.reviewContextJson ∧ r'.status ≠ .accepted ∧
      lastSuccess v'.calls = lastSuccess v.calls := by
  refine TaskUpdates.keep (I := fun v₁ => ∃ r', v₁.row = some r' ∧ r'.nextRole = entry.nextRole ∧
    r'.reviewContextJson = r.reviewContextJson ∧ r'.status ≠ .accepted ∧
    lastSuccess v₁.calls = lastSuccess v.calls) hus ⟨r, hr, hrole, rfl, hst, rfl⟩ ?_
  rintro v₁ u ⟨r₁, hr₁, hrole₁, hcontext₁, hst₁, hlast₁⟩ - hA
  have hrow : (v₁.update t w u).row = some (u.onRow r₁) := by
    rw [TaskState.update, hr₁]
    rfl
  have hcalls : lastSuccess (v₁.update t w u).calls = lastSuccess v.calls := by
    refine (lastSuccess_append ?_).trans hlast₁
    intro c hc
    cases hA with
    | decided =>
      obtain rfl := List.mem_singleton.mp hc
      rfl
    | _ => cases hc
  refine ⟨_, hrow, ?_, ?_, ?_, hcalls⟩
  · cases hA with
    | release => rfl
    | _ => exact hrole₁
  · cases hA with
    | release => exact hcontext₁
    | _ => exact hcontext₁
  · cases hA with
    | release hst =>
      rcases hst with rfl | rfl
      · exact fun h => by cases h
      · exact fun h => by cases h
    | _ => exact hst₁

/-- What the half after the run leaves of them. -/
theorem afterRun_keeps {l : Launch} {result : Except Err RunOutcome} (hr : v.row = some r)
    (hus : TaskUpdates (AfterRun w l result) t w v us v') :
    ∃ r' extra, v'.row = some r' ∧ v'.calls = v.calls ++ extra ∧
      (∀ c ∈ extra, c.2.outcome? = none) ∧
      (r'.reviewContextJson = r.reviewContextJson ∨
        ∃ o, result = .ok o ∧ (reviewContextOf l.agentId o).isSome = true) ∧
      ((∀ st role n u, Update.release st role n u ∉ us) →
        r'.nextRole = r.nextRole ∧ r'.status = r.status) := by
  refine hus.mem_labels.invariant (I := fun v₁ => ∃ r' extra, v₁.row = some r' ∧
    v₁.calls = v.calls ++ extra ∧ (∀ c ∈ extra, c.2.outcome? = none) ∧
    (r'.reviewContextJson = r.reviewContextJson ∨
      ∃ o, result = .ok o ∧ (reviewContextOf l.agentId o).isSome = true) ∧
    ((∀ st role n u, Update.release st role n u ∉ us) →
      r'.nextRole = r.nextRole ∧ r'.status = r.status))
    ⟨r, [], hr, by simp, by simp, Or.inl rfl, fun _ => ⟨rfl, rfl⟩⟩ ?_
  rintro v₁ u v₂ ⟨⟨hA, rfl⟩, hmem⟩ ⟨r₁, extra, hr₁, hcalls₁, hextra, hcontext₁, hrelease₁⟩
  have hrow : (v₁.update t w u).row = some (u.onRow r₁) := by
    rw [TaskState.update, hr₁]
    rfl
  refine ⟨_, extra ++ u.calls, hrow, ?_, fun c hc => ?_, ?_, fun hno => ?_⟩
  · rw [TaskState.update, hcalls₁, List.append_assoc]
  · rcases List.mem_append.mp hc with hc | hc
    · exact hextra c hc
    · cases hA with
      | packetBuilt =>
        obtain rfl := List.mem_singleton.mp hc
        rfl
      | excluded =>
        obtain rfl := List.mem_singleton.mp hc
        rfl
      | _ => cases hc
  · cases hA with
    | reviewContext hcontext => exact Or.inr ⟨_, rfl, by simp [hcontext]⟩
    | @exclude o h agentIds at' =>
      have hsame : ((Update.exclude agentIds at').onRow r₁).reviewContextJson =
          r₁.reviewContextJson := by
        simp only [Update.onRow, excludedRow]
        split
        · rfl
        · rfl
      rw [hsame]
      exact hcontext₁
    | _ => exact hcontext₁
  · obtain ⟨hrole, hst⟩ := hrelease₁ hno
    cases hA with
    | failed => exact absurd hmem (hno _ _ _ _)
    | release => exact absurd hmem (hno _ _ _ _)
    | @exclude o h agentIds at' =>
      have hsame : ((Update.exclude agentIds at').onRow r₁).nextRole = r₁.nextRole ∧
          ((Update.exclude agentIds at').onRow r₁).status = r₁.status := by
        simp only [Update.onRow, excludedRow]
        split
        · exact ⟨rfl, rfl⟩
        · exact ⟨rfl, rfl⟩
      exact ⟨hsame.1.trans hrole, hsame.2.trans hst⟩
    | _ => exact ⟨hrole, hst⟩

end updates

section invariant

variable {t w : String} {v v' : TaskState} {r : TaskRow}

theorem Gated.fresh : Gated t TaskState.fresh where
  role w entry h := by cases h
  waiting r h := by cases h
  running w l h := by cases h
  accepted r review h := by cases h

/-- The gate reads of a row its role, its review context and whether it is accepted. -/
theorem Gated.congr (h : Gated t v)
    (hrow : ∀ r', v'.row = some r' → ∃ r, v.row = some r ∧ r'.nextRole = r.nextRole ∧
      r'.reviewContextJson = r.reviewContextJson ∧ (r'.status = .accepted → r.status = .accepted))
    (hsome : ∀ r, v.row = some r → ∃ r', v'.row = some r' ∧ r'.nextRole = r.nextRole)
    (hreview : v'.review? = v.review?) (hcalls : v'.calls = v.calls)
    (hpc : ∀ x, (v'.pc x).handling = true → v'.pc x = v.pc x) : Gated t v' where
  role x entry hx := by
    have hsame := hpc x (by simp [hx, Pc.handling])
    obtain ⟨r, hr, hrole⟩ := h.role x entry (hsame ▸ hx)
    obtain ⟨r', hr', hrole'⟩ := hsome r hr
    exact ⟨r', hr', hrole'.trans hrole⟩
  waiting r' hr' hrole := by
    obtain ⟨r, hr, hrole', hcontext, -⟩ := hrow r' hr'
    have hwaiting := h.waiting r hr (hrole' ▸ hrole)
    exact ⟨by rw [hcalls, hcontext, hwaiting.context],
      by rw [hcontext, hreview]; exact hwaiting.enabled⟩
  running x l hx := by
    have hsame := hpc x (by simp [hx, Pc.handling])
    have hrunning := h.running x l (hsame ▸ hx)
    obtain ⟨r, hr, hrole⟩ := hrunning.role
    obtain ⟨r', hr', hrole'⟩ := hsome r hr
    exact ⟨⟨r', hr', hrole'.trans hrole⟩, hcalls ▸ hrunning.launched, hrunning.reviewer,
      hrunning.implementer, hreview.trans hrunning.review⟩
  accepted r' review hr' hst hwo := by
    obtain ⟨r, hr, -, -, hst'⟩ := hrow r' hr'
    rw [hcalls]
    exact h.accepted r review hr (hst' hst) (hreview ▸ hwo)

/-- A worker that leaves takes nothing from the gate. -/
theorem Gated.leave (h : Gated t v) : Gated t (v.goto w .idle) := by
  refine h.congr (fun r hr => ⟨r, hr, rfl, rfl, id⟩) (fun r hr => ⟨r, hr, rfl⟩) rfl rfl
    fun x hx => ?_
  by_cases hxw : x = w
  · subst hxw
    simp [TaskState.goto, Pc.handling] at hx
  · simp [TaskState.goto, hxw]

/-- The gate of a task nobody handles. -/
theorem Gated.of_free (hfree : ∀ x, (v.pc x).handling = false)
    (hwaiting : ∀ r, v.row = some r → r.nextRole = .reviewer → WaitsForReviewer v r)
    (haccepted : ∀ r review, v.row = some r → r.status = .accepted → v.review? = some review →
      AcceptedBy t review.enabled v.calls) : Gated t v where
  role x entry hx := by
    have := hfree x
    rw [hx] at this
    cases this
  waiting := hwaiting
  running x l hx := by
    have := hfree x
    rw [hx] at this
    cases this
  accepted := haccepted

/-- The only worker at a task stops handling it. -/
theorem handling_goto {pc : Pc} (hothers : ∀ x, x ≠ w → (v.pc x).busy = false)
    (hpc : pc.handling = false) : ∀ x, ((v.goto w pc).pc x).handling = false := by
  intro x
  by_cases hx : x = w
  · subst hx
    simpa [TaskState.goto] using hpc
  · have hfree := hothers x hx
    have hsame : (v.goto w pc).pc x = v.pc x := by simp [TaskState.goto, hx]
    rw [hsame]
    cases hat : v.pc x <;> simp_all [Pc.busy, Pc.handling]

/-- What an accepting transition says of its outcome. -/
theorem transition_accepted {l : Launch} {o : RunOutcome} {b : BudgetStatus} {role : Role}
    (h : transition l o b = (.accepted, role)) :
    (l.workOrder.review.enabled = false ∧ ∃ runId d v f, o = .implementerSucceeded runId d v f) ∨
      (l.persistedReviewContext.isSome = true ∧ ∃ runId uri, o = .reviewerApproved runId uri) := by
  cases o with
  | implementerSucceeded runId d v f =>
    left
    by_cases hreview : l.workOrder.review.enabled = true
    · simp only [transition, hreview, if_true, requeueUnlessExhausted] at h
      split at h
      · cases h
      · cases h
    · exact ⟨by simpa using hreview, runId, d, v, f, rfl⟩
  | reviewerApproved runId uri =>
    right
    refine ⟨?_, runId, uri, rfl⟩
    by_contra hnone
    have hnone' : l.persistedReviewContext.isNone = true := by simpa using hnone
    simp [transition, hnone'] at h
  | _ =>
    exfalso
    simp only [transition, requeueUnlessExhausted] at h
    split at h
    · cases h
    · first
        | cases h
        | (split at h
           · cases h
           · cases h)

/-- What a transition to a reviewer says of it. -/
theorem transition_reviewer {l : Launch} {o : RunOutcome} {b : BudgetStatus} {st : TaskStatus}
    (h : transition l o b = (st, .reviewer)) :
    (st = .queued ∧ l.workOrder.review.enabled = true) ∨ l.entry.nextRole = .reviewer := by
  cases o with
  | implementerSucceeded runId d v f =>
    by_cases hreview : l.workOrder.review.enabled = true
    · simp only [transition, hreview, if_true, requeueUnlessExhausted] at h
      split at h
      · exact Or.inr (Prod.ext_iff.mp h).2
      · exact Or.inl ⟨(Prod.ext_iff.mp h).1.symm, hreview⟩
    · simp only [transition, hreview] at h
      exact Or.inr (Prod.ext_iff.mp h).2
  | _ =>
    right
    simp only [transition, requeueUnlessExhausted] at h
    split at h
    · exact (Prod.ext_iff.mp h).2
    · first
        | exact (Prod.ext_iff.mp h).2
        | (split at h
           · exact (Prod.ext_iff.mp h).2
           · cases h)

/-- A reviewer's run leaves the review context as it was. -/
theorem RunningAs.waits {l : Launch} {result : Except Err RunOutcome} {r' : TaskRow}
    {extra : List (String × Call)} (hrunning : RunningAs t v w l) (h : Gated t v)
    (hr : v.row = some r) (hrole : l.entry.nextRole = .reviewer)
    (hresult : ∀ o, result = .ok o → o.role = l.entry.nextRole)
    (hcalls : v'.calls = v.calls ++ [(w, .settled t l.entry.nextRole l.agentId
      l.persistedReviewContext result)] ++ extra)
    (hextra : ∀ c ∈ extra, c.2.outcome? = none) (hreview : v'.review? = v.review?)
    (hcontext : r'.reviewContextJson = r.reviewContextJson ∨
      ∃ o, result = .ok o ∧ (reviewContextOf l.agentId o).isSome = true) :
    WaitsForReviewer v' r' := by
  have hnone : ∀ o, result = .ok o → reviewContextOf l.agentId o = none := by
    intro o ho
    have := hresult o ho
    rw [hrole] at this
    cases o <;> simp_all [RunOutcome.role, reviewContextOf]
  have hsuccess : (Call.settled t l.entry.nextRole l.agentId l.persistedReviewContext
      result).success? = none := by
    cases result with
    | error e => rfl
    | ok o => exact hnone o rfl
  have hsame : r'.reviewContextJson = r.reviewContextJson := by
    rcases hcontext with hsame | ⟨o, ho, hsome⟩
    · exact hsame
    · rw [hnone o ho] at hsome
      cases hsome
  obtain ⟨r₀, hr₀, hrole₀⟩ := hrunning.role
  have hwaiting := h.waiting r hr (by
    cases hr.symm.trans hr₀
    exact hrole₀.trans hrole)
  constructor
  · rw [hcalls, lastSuccess_append hextra, lastSuccess_snoc_of_none hsuccess, hsame,
      hwaiting.context]
  · intro _ review hreview'
    rw [hreview, hrunning.review] at hreview'
    cases hreview'
    exact (hrunning.reviewer hrole).1

/-- An accepting release has the record of its acceptance. -/
theorem RunningAs.accepted {l : Launch} {o : RunOutcome} {b : BudgetStatus} {role : Role}
    {extra : List (String × Call)} (h : RunningAs t v w l) (habout : ∀ c ∈ v.calls, c.2.taskId = t)
    (hst : transition l o b = (.accepted, role)) (hextra : ∀ c ∈ extra, c.2.outcome? = none) :
    AcceptedBy t l.workOrder.review.enabled (v.calls ++ [(w, .settled t l.entry.nextRole l.agentId
      l.persistedReviewContext (.ok o))] ++ extra) := by
  rcases transition_accepted hst with ⟨hdisabled, runId, d, f, g, rfl⟩ | ⟨hsome, runId, uri, rfl⟩
  · refine ⟨fun henabled => ?_, fun _ => ?_⟩
    · rw [hdisabled] at henabled
      cases henabled
    · exact ⟨v.calls, w, l.entry.nextRole, l.agentId, l.persistedReviewContext, runId, d, f, g,
        extra, by simp, hextra⟩
  · have hrole : l.entry.nextRole = .reviewer := by
      cases hrole : l.entry.nextRole with
      | implementer =>
        rw [h.implementer hrole] at hsome
        cases hsome
      | reviewer => rfl
    obtain ⟨henabled, context, hcontext, hne⟩ := h.reviewer hrole
    refine ⟨fun _ => ?_, fun hdisabled => ?_⟩
    · obtain ⟨pre, gate, hcalls, hlast⟩ := h.launched
      obtain ⟨before, ⟨x, call⟩, between, rfl, hcall, hbetween⟩ :=
        lastSome_eq_some_iff.mp ((hlast hrole).trans hcontext)
      have ht : call.taskId = t := habout (x, call) (by simp [hcalls])
      obtain ⟨role', given, rfl⟩ := settled_of_success hcall ht
      refine ⟨before, x, role', context.implementerAgentId, given, context.implementerRunId,
        context.diffArtifactUri, context.verificationOutputUri, context.finalReportUri, between, w,
        l.agentId, gate, runId, uri, extra, ?_, hbetween, Ne.symm hne, hextra⟩
      rw [hcalls, hcontext, hrole]
      simp
    · rw [henabled] at hdisabled
      cases hdisabled

/-- What a settled run and its release leave. -/
theorem Gated.settled {l : Launch} {result : Except Err RunOutcome} {us : List Update}
    {st : TaskStatus} {role : Role} {n u : ℕ} (h : Gated t v) (hpc : v.pc w = .running l)
    (habout : ∀ c ∈ v.calls, c.2.taskId = t)
    (hresult : ∀ o, result = .ok o → o.role = l.entry.nextRole)
    (hus : TaskUpdates (AfterRun w l result) t w (v.note w (.settled t l.entry.nextRole l.agentId
      l.persistedReviewContext result)) (us ++ [.release st role n u]) v') :
    (∀ r, v'.row = some r → r.nextRole = .reviewer → WaitsForReviewer v' r) ∧
      ∀ r review, v'.row = some r → r.status = .accepted → v'.review? = some review →
        AcceptedBy t review.enabled v'.calls := by
  have hrunning := h.running w l hpc
  obtain ⟨r, hr, hrole⟩ := hrunning.role
  have hreview : v'.review? = v.review? := (review_of_updates hus).trans rfl
  obtain ⟨v₂, hus₂, hA, rfl⟩ := Run.snoc_iff.mp hus
  have hr₀ : (v.note w (.settled t l.entry.nextRole l.agentId l.persistedReviewContext
      result)).row = some r := hr
  obtain ⟨r₂, extra, hr₂, hcalls, hextra, hcontext, -⟩ := afterRun_keeps hr₀ hus₂
  have hrow : (v₂.update t w (.release st role n u)).row = some (releasedRow st role n u r₂) := by
    rw [TaskState.update, hr₂]
    rfl
  have hcalls' : (v₂.update t w (.release st role n u)).calls = v.calls ++ [(w, .settled t
      l.entry.nextRole l.agentId l.persistedReviewContext result)] ++ extra := by
    rw [TaskState.update, hcalls]
    exact List.append_nil _
  have hreviewer : l.entry.nextRole = .reviewer → WaitsForReviewer
      (v₂.update t w (.release st role n u)) (releasedRow st role n u r₂) :=
    fun hrole => hrunning.waits h hr hrole hresult hcalls' hextra hreview hcontext
  refine ⟨fun r' hr' hrole' => ?_, fun r' review hr' hst' hreview' => ?_⟩
  · obtain rfl : releasedRow st role n u r₂ = r' := Option.some.inj (hrow.symm.trans hr')
    have hrole'' : role = .reviewer := hrole'
    cases hA with
    | failed => exact hreviewer hrole''
    | @release o _ b _ _ _ hb hst hqueued =>
      rcases transition_reviewer (hrole'' ▸ hst) with ⟨rfl, henabled⟩ | hrole
      · obtain ⟨heq, hsome⟩ := hqueued rfl hrole''
        have hbind : r₂.reviewContextJson = reviewContextOf l.agentId o := by
          simpa [TaskState.holding, hr₂] using heq
        obtain ⟨context, hcontext'⟩ := Option.isSome_iff_exists.mp hsome
        have hsuccess : (Call.settled t l.entry.nextRole l.agentId l.persistedReviewContext
            (.ok o)).success? = some context := hcontext'
        constructor
        · rw [hcalls', lastSuccess_append hextra, lastSuccess_snoc hsuccess]
          exact hbind.trans hcontext'
        · intro _ review hreview'
          rw [hreview, hrunning.review] at hreview'
          cases hreview'
          exact henabled
      · exact hreviewer hrole
  · obtain rfl : releasedRow st role n u r₂ = r' := Option.some.inj (hrow.symm.trans hr')
    have hst'' : st = .accepted := hst'
    subst hst''
    rw [hreview, hrunning.review] at hreview'
    cases hreview'
    rw [hcalls']
    cases hA with
    | release hb hst => exact hrunning.accepted habout hst hextra

theorem AcceptedBy.snoc {enabled : Bool} {calls : List (String × Call)} {call : Call}
    (h : AcceptedBy t enabled calls) (hcall : call.outcome? = none) :
    AcceptedBy t enabled (calls ++ [(w, call)]) := by
  have hafter : ∀ {after : List (String × Call)}, (∀ c ∈ after, c.2.outcome? = none) →
      ∀ c ∈ after ++ [(w, call)], c.2.outcome? = none := by
    intro after hnone c hc
    rcases List.mem_append.mp hc with hc | hc
    · exact hnone c hc
    · obtain rfl := List.mem_singleton.mp hc
      exact hcall
  refine ⟨fun henabled => ?_, fun hdisabled => ?_⟩
  · obtain ⟨before, x, role, implementer, given, runId, d, f, g, between, w', reviewer, gate,
      reviewRunId, uri, after, rfl, hbetween, hne, hnone⟩ := h.1 henabled
    exact ⟨before, x, role, implementer, given, runId, d, f, g, between, w', reviewer, gate,
      reviewRunId, uri, after ++ [(w, call)], by simp, hbetween, hne, hafter hnone⟩
  · obtain ⟨before, x, role, implementer, given, runId, d, f, g, after, rfl, hnone⟩ :=
      h.2 hdisabled
    exact ⟨before, x, role, implementer, given, runId, d, f, g, after ++ [(w, call)], by simp,
      hafter hnone⟩

/-- The gate after the only worker at a task has stopped handling it, and that is noted. -/
theorem Gated.of_stopped {pc : Pc} {call : Call} (hothers : ∀ x, x ≠ w → (v.pc x).busy = false)
    (hstopped : pc.handling = false) (hcall : call.outcome? = none)
    (hwaiting : ∀ r, v.row = some r → r.nextRole = .reviewer → WaitsForReviewer v r)
    (haccepted : ∀ r review, v.row = some r → r.status = .accepted → v.review? = some review →
      AcceptedBy t review.enabled v.calls) : Gated t ((v.note w call).goto w pc) := by
  have hothers' : ∀ x, x ≠ w → ((v.note w call).pc x).busy = false := hothers
  refine .of_free (handling_goto hothers' hstopped) ?_ ?_
  · intro r hr hrole
    obtain ⟨hcontext, henabled⟩ := hwaiting r hr hrole
    exact ⟨hcontext.trans (lastSuccess_snoc_of_none (success?_of_outcome? hcall)).symm, henabled⟩
  · intro r review hr hst hreview
    exact (haccepted r review hr hst hreview).snoc hcall

/-- The gate after a half before the run that launches nothing. -/
theorem Gated.beforeRun {entry : TaskQueueEntry} {us : List Update} {pc : Pc} {call : Call}
    (h : Gated t v) (hfenced : FencedTask (fun _ => False) v) (hpc : v.pc w = .claimed entry)
    (hus : TaskUpdates (BeforeRun w entry) t w v us v') (hstopped : pc.handling = false)
    (hcall : call.outcome? = none) : Gated t ((v'.note w call).goto w pc) := by
  obtain ⟨r, hr, hrole⟩ := h.role w entry hpc
  have hst : r.status ≠ .accepted := by
    obtain ⟨r', hr', hst, -⟩ := hfenced.handling w (by simp [hpc, Pc.handling])
    cases hr.symm.trans hr'
    simp [hst]
  obtain ⟨r', hr', hrole', hcontext, hst', hlast⟩ := beforeRun_keeps hr hrole hst hus
  have hothers : ∀ x, x ≠ w → (v'.pc x).busy = false := by
    rw [pc_of_updates hus]
    exact hfenced.others (by simp [hpc, Pc.busy])
  refine .of_stopped hothers hstopped hcall ?_ ?_
  · intro r'' hr'' hreviewer
    cases hr'.symm.trans hr''
    have hwaiting := h.waiting r hr (hrole.trans (hrole'.symm.trans hreviewer))
    constructor
    · rw [hcontext, hwaiting.context, hlast]
    · rw [hcontext, review_of_updates hus]
      exact hwaiting.enabled
  · intro r'' review hr'' hst'' _
    cases hr'.symm.trans hr''
    exact absurd hst'' hst'

/-- The gate after a run whose half after it threw. -/
theorem Gated.afterRun {l : Launch} {result : Except Err RunOutcome} {us : List Update} {pc : Pc}
    {call : Call} (h : Gated t v) (hfenced : FencedTask (fun _ => False) v)
    (hpc : v.pc w = .running l) (hresult : ∀ o, result = .ok o → o.role = l.entry.nextRole)
    (hus : TaskUpdates (AfterRun w l result) t w (v.note w (.settled t l.entry.nextRole l.agentId
      l.persistedReviewContext result)) us v')
    (hrelease : ∀ st role n u, Update.release st role n u ∉ us) (hstopped : pc.handling = false)
    (hcall : call.outcome? = none) : Gated t ((v'.note w call).goto w pc) := by
  have hrunning := h.running w l hpc
  obtain ⟨r, hr, hrole⟩ := hrunning.role
  have hst : r.status ≠ .accepted := by
    obtain ⟨r', hr', hst, -⟩ := hfenced.handling w (by simp [hpc, Pc.handling])
    cases hr.symm.trans hr'
    simp [hst]
  have hr₀ : (v.note w (.settled t l.entry.nextRole l.agentId l.persistedReviewContext
      result)).row = some r := hr
  obtain ⟨r', extra, hr', hcalls, hextra, hcontext, hkept⟩ := afterRun_keeps hr₀ hus
  obtain ⟨hrole', hst'⟩ := hkept hrelease
  have hothers : ∀ x, x ≠ w → (v'.pc x).busy = false := by
    rw [pc_of_updates hus]
    exact hfenced.others (by simp [hpc, Pc.busy])
  have hreview : v'.review? = v.review? := (review_of_updates hus).trans rfl
  refine .of_stopped hothers hstopped hcall ?_ ?_
  · intro r'' hr'' hreviewer
    cases hr'.symm.trans hr''
    have hreviewer' : l.entry.nextRole = .reviewer := hrole.symm.trans (hrole'.symm.trans hreviewer)
    exact hrunning.waits h hr hreviewer' hresult hcalls hextra hreview hcontext
  · intro r'' review hr'' hst'' _
    cases hr'.symm.trans hr''
    exact absurd (hst'.symm.trans hst'') hst

/-- A load of the work order changes nothing the gate reads. -/
theorem Gated.load (h : Gated t v) : Gated t (v.update t w .loadWorkOrder) := by
  refine h.congr (fun r hr => ⟨r, by simpa using hr, rfl, rfl, id⟩)
    (fun r hr => ⟨r, by simpa using hr, rfl⟩) (review_update _) ?_ fun _ _ => rfl
  simp [TaskState.update, Update.calls]

/-- A claim of a task that no worker is at. -/
theorem Gated.claim {lease now : ℕ} (h : Gated t v) (hrow : v.row = some r)
    (hidle : ∀ x, (v.pc x).handling = false) : Gated t (v.claimed w lease now r) := by
  have hreview : (v.claimed w lease now r).review? = v.review? := by
    rw [TaskState.review?, TaskState.review?, TaskState.persisted, TaskState.persisted, hrow]
    rfl
  refine ⟨fun x entry hx => ?_, ?_, fun x l hx => ?_, ?_⟩
  · rcases pc_goto_cases hx with ⟨-, hentry⟩ | hx
    · exact ⟨_, rfl, congrArg TaskQueueEntry.nextRole (Pc.claimed.inj hentry)⟩
    · cases hx ▸ hidle x
  · rintro _ ⟨⟩ hrole
    obtain ⟨hcontext, henabled⟩ := h.waiting r hrow hrole
    exact ⟨hcontext, fun hsome review hreview' => henabled hsome review (hreview ▸ hreview')⟩
  · rcases pc_goto_cases hx with ⟨-, hat⟩ | hx
    · cases hat
    · cases hx ▸ hidle x
  · rintro _ review ⟨⟩ hst
    cases hst

/-- What a launch gives its run: the context that was waiting, where it has one. -/
theorem Gated.running_of_launch {entry : TaskQueueEntry} {l : Launch} {gate : BudgetState}
    (h : Gated t v) (hpc : v.pc w = .claimed entry) (hheld : Held t v)
    (hln : Launches entry (v.holding w) l gate) (ht : entry.taskId = t) :
    RunningAs t ((v.launched w l gate).goto w (.running l)) w l := by
  subst ht
  obtain ⟨r, hr, hrole⟩ := h.role w entry hpc
  obtain ⟨wo, role, hheld⟩ := hheld.of_row hr
  obtain ⟨ids, hids⟩ := hheld.launched hln
  obtain ⟨ids', hpersisted⟩ := hheld.persisted
  have hreview : v.review? = some l.workOrder.review := by
    rw [TaskState.review?, hpersisted, hids]
    rfl
  rw [← hln.entry_eq] at hrole ⊢
  have hgiven : l.entry.nextRole = .reviewer → ∃ context,
      l.persistedReviewContext = some context ∧ r.reviewContextJson = some context ∧
        context.implementerAgentId ≠ l.agentId := by
    intro hreviewer
    obtain ⟨context, hcontext, hbind, hne⟩ := hln.context_of_reviewer (hln.entry_eq ▸ hreviewer)
    exact ⟨context, hcontext, by simpa [TaskState.holding, hr] using hbind, hne⟩
  refine ⟨⟨r, hr, hrole⟩, ⟨v.calls ++ [(w, .decided l.entry.taskId l.entry.nextRole
    l.workOrder.agent.excludeAgentIds (some l.agentId))], gate, ?_, fun hreviewer => ?_⟩,
    fun hreviewer => ?_, fun himplementer => ?_, hreview⟩
  · simp [TaskState.goto, TaskState.launched]
  · obtain ⟨context, hcontext, hrcj, -⟩ := hgiven hreviewer
    obtain ⟨hwaiting, -⟩ := h.waiting r hr (hrole.trans hreviewer)
    rw [lastSuccess_snoc_of_none rfl, ← hwaiting, hrcj, hcontext]
  · obtain ⟨context, hcontext, hrcj, hne⟩ := hgiven hreviewer
    obtain ⟨-, henabled⟩ := h.waiting r hr (hrole.trans hreviewer)
    exact ⟨henabled (by simp [hrcj]) _ hreview, context, hcontext, hne⟩
  · exact hln.context_of_implementer (hln.entry_eq ▸ himplementer)

/-- A launch keeps the gate. -/
theorem Gated.launch {entry : TaskQueueEntry} {l : Launch} {gate : BudgetState} (h : Gated t v)
    (hpc : v.pc w = .claimed entry) (hheld : Held t v) (hfenced : FencedTask (fun _ => False) v)
    (hln : Launches entry (v.holding w) l gate) (ht : entry.taskId = t) :
    Gated t ((v.launched w l gate).goto w (.running l)) := by
  have hothers := hfenced.others (w := w) (by simp [hpc, Pc.busy])
  have hlast : lastSuccess (v.launched w l gate).calls = lastSuccess v.calls :=
    lastSuccess_append (by simp [Call.outcome?])
  refine ⟨fun x entry' hx => ?_, fun r' hr' hrole' => ?_, fun x l' hx => ?_, ?_⟩
  · exact h.role x entry' (pc_of_goto (v := v.launched w l gate) (by simp) hx)
  · obtain ⟨hcontext, henabled⟩ := h.waiting r' hr' hrole'
    exact ⟨hcontext.trans hlast.symm, henabled⟩
  · rcases pc_goto_cases hx with ⟨rfl, hl'⟩ | hx
    · obtain rfl := Pc.running.inj hl'
      exact h.running_of_launch hpc hheld hln ht
    · have hx' : v.pc x = .running l' := hx
      have hxw : x ≠ w := by
        rintro rfl
        cases hpc.symm.trans hx'
      cases hx' ▸ hothers x hxw
  · intro r' review hr' hst _
    obtain ⟨r'', hr'', hst'', -⟩ := hfenced.handling w (by simp [hpc, Pc.handling])
    cases hr'.symm.trans hr''
    rw [hst''] at hst
    cases hst

/-- A task put back waits as before. -/
theorem Gated.requeue {entry : TaskQueueEntry} {u : ℕ} (h : Gated t v) (hpc : v.pc w = .failed entry)
    (hfenced : FencedTask (fun _ => False) v) (hrow : v.row = some r) :
    Gated t (v.requeued w u r) := by
  have hothers := hfenced.others (w := w) (by simp [hpc, Pc.busy])
  have hreview : (v.requeued w u r).review? = v.review? := by
    rw [TaskState.review?, TaskState.review?, TaskState.persisted, TaskState.persisted, hrow]
    rfl
  refine .of_free (handling_goto hothers rfl) ?_ ?_
  · rintro _ ⟨⟩ hrole
    obtain ⟨hcontext, henabled⟩ := h.waiting r hrow hrole
    exact ⟨hcontext, fun hsome review hreview' => henabled hsome review (hreview ▸ hreview')⟩
  · rintro _ review ⟨⟩ hst
    cases hst

/-- **Every step keeps the gate**, when storage calls succeed and runs honour their role. -/
theorem Gated.step {l : Label} (h : Gated t v) (hstep : TaskStep t v l v') (hheld : Held t v)
    (hfenced : FencedTask (fun _ => False) v) (habout : ∀ c ∈ v.calls, c.2.taskId = t)
    (hfaultless : l.Faultless) (hhonours : l.HonoursRole) : Gated t v' := by
  cases hstep with
  | other => exact h
  | @enqueue q workOrder role _ ts ht hrow =>
    rcases hheld with rfl | ⟨wo, role', hheld⟩
    · refine .of_free (fun _ => rfl) ?_ ?_
      · rintro _ ⟨⟩ -
        exact ⟨rfl, fun hsome => by cases hsome⟩
      · rintro _ review ⟨⟩ hst
        cases hst
    · obtain ⟨r, hr⟩ := hheld.row
      rw [hrow] at hr
      cases hr
  | load => exact h.load
  | @claim v₀ w env r lease now hload hpc hrow hclaim =>
    have hidle := hfenced.not_handling hrow (by simp [queued_of_claimable hclaim])
    rcases hload with rfl | rfl
    · exact h.claim hrow hidle
    · exact h.load.claim (by simpa using hrow) hidle
  | @refuse v₁ w env aborted entry us st u hpc ht hst hus =>
    exact h.beforeRun hfenced hpc hus rfl rfl
  | launch hpc ht hln => exact h.launch hpc hheld hfenced hln ht
  | @throwBefore v₁ w env aborted entry us hpc ht hus hrel =>
    exact h.beforeRun hfenced hpc hus rfl rfl
  | @settle v₁ w env run aborted l result us st role n u hpc ht hrun hus =>
    have hresult : ∀ o, result = .ok o → o.role = l.entry.nextRole := by
      intro o ho
      obtain ⟨b, b', hb⟩ := hrun o ho
      exact hhonours _ _ _ _ hb
    obtain ⟨hwaiting, haccepted⟩ := h.settled hpc habout hresult hus
    have hothers : ∀ x, x ≠ w → (v₁.pc x).busy = false := by
      rw [pc_of_updates hus]
      exact hfenced.others (by simp [hpc, Pc.busy])
    exact .of_stopped hothers rfl rfl hwaiting haccepted
  | @throwAfter v₁ w env run aborted l result us hpc ht hrun hus hrel =>
    have hresult : ∀ o, result = .ok o → o.role = l.entry.nextRole := by
      intro o ho
      obtain ⟨b, b', hb⟩ := hrun o ho
      exact hhonours _ _ _ _ hb
    refine h.afterRun hfenced hpc hresult hus ?_ rfl rfl
    intro st role n u hmem
    exact hfaultless env rfl _ (hrel st role n u hmem)
  | requeue hpc hrow => exact h.requeue hpc hfenced hrow
  | giveUp hpc => exact h.leave
  | crash => exact h.leave

end invariant

/-! ## Runs -/

section runs

variable {services : HandlerServices} {s₀ s : System} {ls : List Label} {t q : String}
  {wo : ParsedWorkOrderV1} {role : Role} {r : TaskRow}

/-- The work order of a task is the one it was enqueued with. -/
theorem HeldAs.enqueued_eq {v : TaskState} {wo' : ParsedWorkOrderV1} {role' : Role}
    (h : HeldAs t wo role v) (hcall : (q, .enqueued wo' role') ∈ v.calls) : wo' = wo := by
  obtain ⟨q', rest, hcalls, hrest⟩ := h.enqueued
  rw [hcalls] at hcall
  rcases List.mem_cons.mp hcall with hcall | hcall
  · cases hcall
    rfl
  · exact absurd ⟨wo', role', rfl⟩ (hrest _ hcall)

/-- The gate of every task, in the runs whose storage calls succeed. -/
theorem System.gated_of_steps (h₀ : s₀.Initial) (h : System.Steps services s₀ ls s)
    (hfaultless : ∀ l ∈ ls, l.Faultless) (hhonours : ∀ l ∈ ls, l.HonoursRole) (t : String) :
    Gated t (s.task t) := by
  have hguarded : Run (Guarded (fun _ l => l.Faultless ∧ l.HonoursRole) (System.Step services))
      s₀ ls s := h.guarded_of_labels fun l hl => ⟨hfaultless l hl, hhonours l hl⟩
  have hboth : Gated t (s.task t) ∧ FencedTask (fun _ => False) (s.task t) := by
    refine System.task_invariant (I := fun v => Gated t v ∧ FencedTask (fun _ => False) v) h₀
      hguarded ⟨.fresh, .fresh⟩ ?_
    rintro s l s' ⟨hl, hl'⟩ - htask hheld ⟨hgated, hfenced⟩
    have habout : ∀ c ∈ (s.task t).calls, c.2.taskId = t := by
      intro c hc
      simpa using (List.mem_filter.mp hc).2
    refine ⟨hgated.step htask hheld hfenced habout hl hl', hfenced.step htask hheld ?_ ?_⟩
    · intro env henv st _ hthrow
      exact hl env henv _ hthrow
    · rintro w env - - ⟨⟩
  exact hboth.1

/-- **An accepted task was reviewed.** When review is enabled, its last run is a reviewer's approval
of the last implementation, launched after it with its run id and diff, by another agent. When it is
disabled, its last run is the implementation. -/
theorem accepted_reviewed (h₀ : s₀.Initial) (h : System.Steps services s₀ ls s)
    (hfaultless : ∀ l ∈ ls, l.Faultless) (hhonours : ∀ l ∈ ls, l.HonoursRole)
    (henqueued : (q, .enqueued wo role) ∈ s.calls t) (hr : s.world.core.row t = some r)
    (haccepted : r.status = .accepted) :
    (wo.review.enabled = true → Approved t (s.calls t)) ∧
      (wo.review.enabled = false → Implemented t (s.calls t)) := by
  have hgated := System.gated_of_steps h₀ h hfaultless hhonours t
  obtain ⟨wo', role', hheld⟩ := (System.held_of_steps h₀ h t).of_row hr
  obtain rfl := hheld.enqueued_eq henqueued
  obtain ⟨ids, hids⟩ := hheld.persisted
  have hreview : (s.task t).review? = some wo.review := by
    rw [TaskState.review?, hids]
    rfl
  exact hgated.accepted r _ hr haccepted hreview

/-- Every implementation succeeds, every review approves. -/
def approving : RunTaskArgs → BackendM RunOutcome := fun args =>
  match args.entry.nextRole with
  | .implementer => Sample.implemented args
  | .reviewer => Sample.approved args

theorem approving_role (args : RunTaskArgs) (env : Env) (b : Backend) (o : RunOutcome)
    (b' : Backend) (h : approving args env b = .ok o b') : o.role = args.entry.nextRole := by
  cases hrole : args.entry.nextRole with
  | implementer =>
    simp only [approving, hrole] at h
    cases h
    rfl
  | reviewer =>
    simp only [approving, hrole] at h
    cases h
    rfl

/-- Two attempts of one worker. -/
def reviewedOnce : List Label :=
  .enqueue "main" Sample.workOrder .implementer Sample.env ::
    (Sample.attempt "w1" approving ++ Sample.attempt "w1" approving)

theorem accepted_reviewed_once :
    ∃ s, System.Steps Sample.services Sample.system reviewedOnce s ∧
      Approved "T-1" (s.calls "T-1") := by
  have h : (Sample.system.steps Sample.services reviewedOnce).any (fun s =>
      (s.world.core.row "T-1").any (·.status = .accepted) &&
        (s.calls "T-1").any (·.2.enqueued?.any (·.review.enabled))) = true := by
    decide +kernel
  obtain ⟨s, hs, hp⟩ := (Option.any_eq_true _ _).mp h
  obtain ⟨hrow, hcall⟩ := Bool.and_eq_true_iff.mp hp
  obtain ⟨r, hr, hst⟩ := (Option.any_eq_true _ _).mp hrow
  obtain ⟨⟨q, call⟩, hmem, hwo⟩ := List.any_eq_true.mp hcall
  cases call with
  | enqueued wo role =>
    have hsteps := System.steps_iff.mpr hs
    refine ⟨s, hsteps, ?_⟩
    refine (accepted_reviewed Sample.initial hsteps ?_ ?_ hmem hr (of_decide_eq_true hst)).1 hwo
    · intro l hl
      simp only [reviewedOnce, List.mem_cons, List.mem_append] at hl
      rcases hl with rfl | hl | hl
      · rintro env ⟨⟩
        exact Sample.env_faultless
      · exact Sample.attempt_faultless hl
      · exact Sample.attempt_faultless hl
    · intro l hl
      have happroving : ∀ l ∈ Sample.attempt "w1" approving, l.HonoursRole := by
        intro l hl
        simp only [Sample.attempt, List.mem_cons, List.not_mem_nil, or_false] at hl
        rcases hl with rfl | rfl | rfl
        · trivial
        · trivial
        · exact fun args => approving_role args Sample.env
      simp only [reviewedOnce, List.mem_cons, List.mem_append] at hl
      rcases hl with rfl | hl | hl
      · trivial
      · exact happroving l hl
      · exact happroving l hl
  | _ => cases hwo

end runs

end AgentWorkflow
