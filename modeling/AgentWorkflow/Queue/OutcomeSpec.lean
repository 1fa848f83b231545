import AgentWorkflow.Queue.HandlerSpec

/-!
# What an outcome does to a task

The half of `handle` after the run, as updates of the handled task.

* **`transition`** — the status and the role an outcome leads to, given the budget after the run:
  the table behind `handleOutcome`.
* `AfterRun` — the updates of this half, where they are made. Its release is the one of the table,
  and a task is queued for review only with the review context of the outcome in its row.
* **`handleAfterRun_spec`** — a release as `AfterRun` allows it, or a throw.
-/

namespace AgentWorkflow

open Fallible

namespace WorkerTaskHandler

/-! ## The table of transitions -/

/-- The review context an implementer's success leaves. -/
def reviewContextOf (agentId : String) : RunOutcome → Option ReviewContextRecord
  | .implementerSucceeded runId diffArtifactUri verificationOutputUri finalReportUri =>
    some
      { implementerRunId := runId, implementerAgentId := agentId, diffArtifactUri,
        finalReportUri, verificationOutputUri }
  | _ => none

/-- Queued for a role, or failed when the budget is exhausted. -/
def requeueUnlessExhausted (l : Launch) (status : BudgetStatus) (role : Role) :
    TaskStatus × Role :=
  if status = .exhausted then (.failed, l.entry.nextRole) else (.queued, role)

/-- The status and the role an outcome leads to. -/
def transition (l : Launch) (outcome : RunOutcome) (status : BudgetStatus) : TaskStatus × Role :=
  match outcome with
  | .implementerSucceeded .. =>
    if l.workOrder.review.enabled = true then requeueUnlessExhausted l status .reviewer
    else (.accepted, l.entry.nextRole)
  | .implementerFailed _ reason .. =>
    if (handoffReasonForImplementerFailure reason).isNone = true then (.failed, l.entry.nextRole)
    else requeueUnlessExhausted l status .implementer
  | .reviewerApproved .. =>
    if l.persistedReviewContext.isNone = true then (.failed, l.entry.nextRole)
    else (.accepted, l.entry.nextRole)
  | .reviewerRejected .. =>
    if l.persistedReviewContext.isNone = true then (.failed, l.entry.nextRole)
    else (.awaitingHuman, l.entry.nextRole)
  | .reviewerChangesRequested .. =>
    if l.persistedReviewContext.isNone = true then (.failed, l.entry.nextRole)
    else requeueUnlessExhausted l status .implementer
  | .reviewerUnusable _ reason .. =>
    if l.persistedReviewContext.isNone = true ∨ reason ≠ .diffApplyFailed then
      (.failed, l.entry.nextRole)
    else requeueUnlessExhausted l status .implementer

/-! ## The updates after the run -/

/-- The updates of the half after the run. -/
inductive AfterRun (worker : String) (l : Launch) :
    Except Err RunOutcome → Holding → Update → Prop
  | failed {e : Err} {h : Holding} {u : ℕ} :
    AfterRun worker l (.error e) h (.release .failed l.entry.nextRole l.entry.attempts u)
  | handoffPacketUri {o : RunOutcome} {h : Holding} {uri : Option String} {u : ℕ} :
    AfterRun worker l (.ok o) h (.setHandoffPacketUri uri u)
  | charge {o : RunOutcome} {h : Holding} {wallMs : ℕ} {cost : ℚ} (hcost : 0 ≤ cost) :
    AfterRun worker l (.ok o) h (.chargeUsage wallMs cost)
  | reviewContext {o : RunOutcome} {h : Holding} {context : ReviewContextRecord} {u : ℕ}
    (hcontext : reviewContextOf l.agentId o = some context) :
    AfterRun worker l (.ok o) h (.setReviewContext context u)
  | packetBuilt {o : RunOutcome} {h : Holding} {packet : HandoffPacket}
    (hpacket : ∀ id ∈ l.workOrder.agent.excludeAgentIds, id ∈ packet.excludeAgentIds) :
    AfterRun worker l (.ok o) h (.note worker (.packetBuilt l.entry.taskId packet))
  | exclude {o : RunOutcome} {h : Holding} {agentIds : List String} {u : ℕ} :
    AfterRun worker l (.ok o) h (.exclude agentIds u)
  | excluded {o : RunOutcome} {h : Holding} {agentIds : List String} {w : ParsedWorkOrderV1}
    (hw : h.persisted = some w) (hids : ∀ id ∈ agentIds, id ∈ w.agent.excludeAgentIds) :
    AfterRun worker l (.ok o) h (.note worker (.excluded l.entry.taskId agentIds))
  | release {o : RunOutcome} {h : Holding} {b : BudgetState} {st : TaskStatus} {role : Role}
    {u : ℕ} (hb : h.budget = some b) (hst : transition l o b.status = (st, role))
    (hcontext : st = .queued → role = .reviewer →
      (h.row.bind TaskRow.reviewContextJson) = reviewContextOf l.agentId o ∧
        (reviewContextOf l.agentId o).isSome = true) :
    AfterRun worker l (.ok o) h (.release st role (l.entry.attempts + 1) u)

/-- The release that ends the half after the run. -/
def Settled (worker : String) (l : Launch) (result : Except Err RunOutcome) (c c' : Core) : Prop :=
  ∃ st role n, ReleasedAs (AfterRun worker l result) l.entry.taskId st role n c c'

section afterRun

variable {env : Env} {c : Core} {l : Launch} {services : HandlerServices} {worker : String}
  {outcome : RunOutcome} {budget : BudgetState}

theorem Settled.cons {result : Except Err RunOutcome} {u : Update} {c' : Core}
    (hA : AfterRun worker l result (c.holding l.entry.taskId) u)
    (h : Settled worker l result (u.apply l.entry.taskId c) c') : Settled worker l result c c' := by
  obtain ⟨st, role, n, h⟩ := h
  exact ⟨st, role, n, h.cons hA⟩

/-- The specification of a program after the run, from a core. -/
def SettlesFrom (worker : String) (l : Launch) (outcome : RunOutcome) (env : Env) (c : Core)
    (m : WorldM Unit) : Prop :=
  OnCore m env c (fun _ c' => Settled worker l (.ok outcome) c c')
    (Thrown (AfterRun worker l (.ok outcome)) env l.entry.taskId c)

/-- A specification after one more update is one before it. -/
theorem SettlesFrom.cons {m : WorldM Unit} {u : Update}
    (hA : AfterRun worker l (.ok outcome) (c.holding l.entry.taskId) u)
    (hu : ∀ st role n at', u ≠ .release st role n at')
    (h : SettlesFrom worker l outcome env (u.apply l.entry.taskId c) m) :
    OnCore m env (u.apply l.entry.taskId c) (fun _ c' => Settled worker l (.ok outcome) c c')
      (Thrown (AfterRun worker l (.ok outcome)) env l.entry.taskId c) :=
  EnsuresVia.mono h (fun _ _ hs => Settled.cons hA hs) fun _ _ ht => ht.cons hA hu

/-- A release of the table, and its event. -/
theorem release_settles {status : TaskStatus} {nextRole : Option Role} {eventType : EventType}
    {runId agentId : Option String} {payload : List (String × Json)}
    (htype : eventType = eventOf status) (hbudget : c.budget l.entry.taskId = some budget)
    (hst : transition l outcome budget.status = (status, nextRole.getD l.entry.nextRole))
    (hcontext : status = .queued → nextRole.getD l.entry.nextRole = .reviewer →
      (c.row l.entry.taskId).bind TaskRow.reviewContextJson = reviewContextOf l.agentId outcome ∧
        (reviewContextOf l.agentId outcome).isSome = true) :
    SettlesFrom worker l outcome env c (do
      release l.entry status nextRole (l.entry.attempts + 1)
      onBackend (appendEvent l.entry eventType runId agentId payload)) := by
  have hA : ∀ u, AfterRun worker l (.ok outcome) (c.holding l.entry.taskId)
      (.release status (nextRole.getD l.entry.nextRole) (l.entry.attempts + 1) u) :=
    fun _ => .release hbudget hst hcontext
  refine (release_then htype hA).mono (fun _ c' ⟨u, hc'⟩ => ?_) fun _ _ h => h
  subst hc'
  exact ⟨_, _, _, ReleasedAs.of_release (hA u)⟩

/-- A failure of the table, and its event. -/
theorem failTask_settles {reason : String} {runId : Option String}
    {payload : List (String × Json)} (hbudget : c.budget l.entry.taskId = some budget)
    (hst : transition l outcome budget.status = (.failed, l.entry.nextRole)) :
    SettlesFrom worker l outcome env c
      (failTask l.entry reason (l.entry.attempts + 1) runId payload) :=
  release_settles rfl hbudget (show transition l outcome budget.status =
    (_, Option.getD none l.entry.nextRole) from hst) (by simp)

/-! ## Handoffs -/

/-- What comes after a handoff starts with the budget the handoff started with. -/
theorem handOff_then {runId agentId : String} {args : HandoffManager.BuildArgs}
    {k : ArtifactRef → WorldM Unit}
    (hprior : args.priorExcludes = l.workOrder.agent.excludeAgentIds)
    (hbudget : c.budget l.entry.taskId = some budget)
    (hk : ∀ artifact c', c'.budget l.entry.taskId = some budget →
      SettlesFrom worker l outcome env c' (k artifact)) :
    SettlesFrom worker l outcome env c
      (handOff services worker l.entry runId agentId args >>= k) := by
  unfold handOff
  simp only [SettlesFrom, bind_assoc]
  refine .bind (onCore_onBackend_of (HandoffManager.build_spec args env) (fun packet hp => ?_)
    fun _ _ => Thrown.refl)
  have hbuilt : AfterRun worker l (.ok outcome) (c.holding l.entry.taskId)
      (.note worker (.packetBuilt l.entry.taskId packet)) := by
    obtain ⟨createdAt, rfl⟩ := hp
    exact .packetBuilt fun id hid => HandoffManager.mem_excludes.mpr (Or.inl (hprior ▸ hid))
  refine .bind (onCore_record ?_)
  refine SettlesFrom.cons hbuilt (by simp) ?_
  refine .bind (onCore_onBackend (fun artifact => ?_) fun _ => Thrown.refl)
  refine .bind (onCore_onBackend (fun _ => ?_) fun _ => Thrown.refl)
  refine .bind (TaskQueue.onCore_addWorkOrderExcludeAgentIds (fun r w u hr hw => ?_)
    fun _ => Thrown.refl)
  rw [← Update.apply_exclude hr hw]
  refine SettlesFrom.cons .exclude (by simp) ?_
  refine .bind (onCore_record ?_)
  refine SettlesFrom.cons (u := .note worker (.excluded l.entry.taskId packet.excludeAgentIds))
    ?_ (by simp) ?_
  · refine .excluded (w := w.withExcludeAgentIds
      (dedupeFirstSeen (w.agent.excludeAgentIds ++ packet.excludeAgentIds))) ?_ fun id hid => ?_
    · rw [Update.apply_exclude hr hw]
      refine (Update.persisted_updateRow l.entry.taskId _ _
        (QueueStore.key_withWorkOrderJson _ _)).trans ?_
      rw [hr]
      exact parse_withExcludeAgentIds hw _
    · rw [withExcludeAgentIds_excludeAgentIds, mem_dedupeFirstSeen]
      exact List.mem_append_right _ hid
  refine .bind (QueueStore.onCore_setHandoffPacketUri (fun _ u _ => ?_) fun _ => Thrown.refl)
  refine SettlesFrom.cons .handoffPacketUri (by simp) ?_
  refine EnsuresVia.bind (.pure (hk artifact _ ?_))
  simpa only [Update.budget_apply, Update.onBudget] using hbudget

/-! ## Outcomes -/

/-- An implementer's success: the review context, then the queue; or the end. -/
theorem handleImplementerSuccess_settles {runId diffArtifactUri : String}
    {verificationOutputUri finalReportUri : Option String}
    (hbudget : c.budget l.entry.taskId = some budget) :
    SettlesFrom worker l
      (.implementerSucceeded runId diffArtifactUri verificationOutputUri finalReportUri) env c
      (handleImplementerSuccess l.entry l.workOrder l.agentId runId diffArtifactUri
        verificationOutputUri finalReportUri budget) := by
  refine EnsuresVia.ite (fun henabled => ?_) fun hdisabled => ?_
  · refine EnsuresVia.ite (fun hexhausted => ?_) fun hne => ?_
    · exact failTask_settles hbudget (by simp [transition, requeueUnlessExhausted, henabled,
        hexhausted])
    · refine .bind (QueueStore.onCore_setReviewContext (fun r u hr => ?_) fun _ => Thrown.refl)
      refine SettlesFrom.cons (u := .setReviewContext _ u) (.reviewContext rfl) (by simp) ?_
      refine release_settles rfl hbudget ?_ fun _ _ => ⟨?_, rfl⟩
      · simp [transition, requeueUnlessExhausted, henabled, hne]
      · rw [Update.row_apply, hr]
        rfl
  · refine release_settles rfl hbudget ?_ (by simp)
    simp [transition, hdisabled]

/-- A handoff back to the implementer. -/
theorem requeueImplementerAfterReview_settles {reviewContext : ReviewContextRecord}
    {runId : String} {reason : HandoffReason} {reviewVerdictUri : Option String}
    (hbudget : c.budget l.entry.taskId = some budget)
    (hst : transition l outcome budget.status = (.queued, .implementer)) :
    SettlesFrom worker l outcome env c
      (requeueImplementerAfterReview services worker l.entry l.workOrder l.agentId reviewContext
        runId reason reviewVerdictUri) :=
  handOff_then rfl hbudget fun _ _ hbudget' => release_settles rfl hbudget' hst (by simp)

/-- A reviewer's outcome. -/
theorem handleReviewerOutcome_settles {reviewContext : ReviewContextRecord}
    (hbudget : c.budget l.entry.taskId = some budget)
    (hcontext : l.persistedReviewContext = some reviewContext)
    (hout : reviewContextOf l.agentId outcome = none)
    (hfail : ∀ runId reason d v f, outcome ≠ .implementerFailed runId reason d v f) :
    SettlesFrom worker l outcome env c
      (handleReviewerOutcome services worker l.entry l.workOrder l.agentId reviewContext outcome
        budget) := by
  cases outcome with
  | implementerSucceeded runId d v f => cases hout
  | implementerFailed runId reason d v f => exact absurd rfl (hfail runId reason d v f)
  | reviewerApproved runId uri =>
    exact release_settles rfl hbudget (by simp [transition, hcontext]) (by simp)
  | reviewerRejected runId uri =>
    exact release_settles rfl hbudget (by simp [transition, hcontext]) (by simp)
  | reviewerChangesRequested runId uri =>
    refine EnsuresVia.ite (fun hexhausted => ?_) fun hne => ?_
    · exact failTask_settles hbudget (by simp [transition, requeueUnlessExhausted, hcontext,
        hexhausted])
    · exact requeueImplementerAfterReview_settles hbudget
        (by simp [transition, requeueUnlessExhausted, hcontext, hne])
  | reviewerUnusable runId reason uri out err =>
    refine EnsuresVia.ite (fun hdiff => ?_) fun hdiff => ?_
    · refine EnsuresVia.ite (fun hexhausted => ?_) fun hne => ?_
      · exact failTask_settles hbudget (by simp [transition, requeueUnlessExhausted, hcontext,
          hdiff, hexhausted])
      · exact requeueImplementerAfterReview_settles hbudget
          (by simp [transition, requeueUnlessExhausted, hcontext, hdiff, hne])
    · exact failTask_settles hbudget (by simp [transition, hdiff])

/-- An implementer's failure: a handoff, unless the failure is not the agent's. -/
theorem handleImplementerFailure_settles {runId : String} {reason : ImplementerFailureReason}
    {diffArtifactUri verificationOutputUri finalReportUri : Option String}
    (hbudget : c.budget l.entry.taskId = some budget) :
    SettlesFrom worker l
      (.implementerFailed runId reason diffArtifactUri verificationOutputUri finalReportUri) env c
      (handleImplementerFailure services worker l.entry l.workOrder l.agentId runId reason
        diffArtifactUri verificationOutputUri budget) := by
  unfold handleImplementerFailure
  split
  next hreason => exact failTask_settles hbudget (by simp [transition, hreason])
  next handoffReason hreason =>
    refine handOff_then rfl hbudget fun artifact c' hbudget' => ?_
    refine EnsuresVia.ite (fun hexhausted => ?_) fun hne => ?_
    · exact failTask_settles hbudget' (by simp [transition, requeueUnlessExhausted, hreason,
        hexhausted])
    · exact release_settles rfl hbudget' (by simp [transition, requeueUnlessExhausted, hreason,
        hne]) (by simp)

/-- **Every outcome makes its transition.** -/
theorem handleOutcome_settles (hbudget : c.budget l.entry.taskId = some budget) :
    SettlesFrom worker l outcome env c (handleOutcome services worker l outcome budget) := by
  have hreviewer : reviewContextOf l.agentId outcome = none →
      (∀ runId reason d v f, outcome ≠ .implementerFailed runId reason d v f) →
      (l.persistedReviewContext = none →
        transition l outcome budget.status = (.failed, l.entry.nextRole)) →
      SettlesFrom worker l outcome env c (handleOutcome services worker l outcome budget) := by
    intro hout hfail hnone
    unfold handleOutcome
    split
    · cases hout
    · exact absurd rfl (hfail _ _ _ _ _)
    · split
      next hcontext => exact failTask_settles hbudget (hnone hcontext)
      next context hcontext => exact handleReviewerOutcome_settles hbudget hcontext hout hfail
  cases outcome with
  | implementerSucceeded runId d v f => exact handleImplementerSuccess_settles hbudget
  | implementerFailed runId reason d v f => exact handleImplementerFailure_settles hbudget
  | reviewerApproved runId uri =>
    exact hreviewer rfl (by simp) fun hnone => by simp [transition, hnone]
  | reviewerRejected runId uri =>
    exact hreviewer rfl (by simp) fun hnone => by simp [transition, hnone]
  | reviewerChangesRequested runId uri =>
    exact hreviewer rfl (by simp) fun hnone => by simp [transition, hnone]
  | reviewerUnusable runId reason uri out err =>
    exact hreviewer rfl (by simp) fun hnone => by simp [transition, hnone]

/-- The core once the outcome of a run is noted. -/
def noteSettled (worker : String) (l : Launch) (result : Except Err RunOutcome) (c : Core) : Core :=
  c.note worker
    (.settled l.entry.taskId l.entry.nextRole l.agentId l.persistedReviewContext result)

/-- **The half after the run**: a release of the table, or a throw. -/
theorem handleAfterRun_spec {result : Except Err RunOutcome} {aborted : Bool} :
    OnCore (handleAfterRun services worker l result aborted) env c
      (fun _ c' => Settled worker l result (noteSettled worker l result c) c')
      (Thrown (AfterRun worker l result) env l.entry.taskId (noteSettled worker l result c)) := by
  refine .bind (onCore_record ?_)
  show OnCore _ env (noteSettled worker l result c) _ _
  cases result with
  | error e =>
    refine EnsuresVia.ite (fun _ => onCore_throw Thrown.refl) fun _ => ?_
    refine (failTask_spec fun _ => .failed).mono (fun _ c' ⟨u, hc'⟩ => ?_) fun _ _ h => h
    subst hc'
    exact ⟨_, _, _, ReleasedAs.of_release .failed⟩
  | ok outcome =>
    obtain ⟨c₁, hc₁⟩ : ∃ c₁, c₁ = noteSettled worker l (.ok outcome) c := ⟨_, rfl⟩
    rw [← hc₁]
    have hrest : ∀ c₁, SettlesFrom worker l outcome env c₁ (do
        let now ← onBackend dateNow
        let wallTimeMs := now - l.startedAtMs
        let postRunBudget ← BudgetManager.postRun services.projectId l.entry.taskId wallTimeMs
          none (Scheduler.estimatedCost l.agentEntry.profile)
        onBackend (recordAgentOutcome services l.agentEntry outcome wallTimeMs)
        handleOutcome services worker l outcome postRunBudget) := by
      intro c₁
      refine .bind (onCore_dateNow fun now => ?_)
      have hcharge : AfterRun worker l (.ok outcome) (c₁.holding l.entry.taskId)
          (.chargeUsage (now - l.startedAtMs) (Scheduler.estimatedCost l.agentEntry.profile)) :=
        .charge (Scheduler.estimatedCost_nonneg _)
      refine .bind (BudgetManager.onCore_postRun (fun b hb => ?_) (fun _ => Thrown.refl)
        fun _ => Thrown.refl.cons hcharge (by simp))
      refine SettlesFrom.cons hcharge (by simp) ?_
      refine .bind (onCore_onBackend (fun _ => ?_) fun _ => Thrown.refl)
      refine handleOutcome_settles ?_
      rw [Update.budget_apply, hb]
      rfl
    refine EnsuresVia.ite (fun _ => .bind ?_) fun _ => hrest c₁
    refine QueueStore.onCore_setHandoffPacketUri (fun _ u _ => ?_) fun _ => Thrown.refl
    exact SettlesFrom.cons .handoffPacketUri (by simp) (hrest _)

end afterRun

end WorkerTaskHandler

end AgentWorkflow
