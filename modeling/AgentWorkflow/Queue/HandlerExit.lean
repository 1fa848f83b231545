import AgentWorkflow.Queue.HandlerFrame
import AgentWorkflow.Queue.OutcomeSpec

/-!
# How a handler ends

Every way out of `handle`, over what `HandlerFrame` says of the way there.

* `Releases`, `Announces` — the release of the task, and the one event after it.
* `Exits I entry n m` — **`m` keeps `I` up to one release and its event**: when it returns both are
  done, with `n` attempts; when it throws, `I` still holds, or the release is done and its event is
  not.
* `exits_bind`, `exits_ite`, `release_exits` — the rules, and one lemma for each program.
* **`handleUntilLaunch_exits`**, **`handleAfterRun_exits`** — the half before the run exits or
  launches; the half after it exits.
-/

namespace AgentWorkflow

open Fallible

/-- The release of the task into a status and a role, with `n` attempts, and nothing else. -/
def Releases (entry : TaskQueueEntry) (status : TaskStatus) (role : Role) (n : ℕ)
    (w w' : World) : Prop :=
  (∃ r, w.core.row entry.taskId = some r) ∧ ∃ updatedAt calls,
    w' = ⟨(Update.release status role n updatedAt).apply entry.taskId w.core,
      { w.backend with calls }⟩

/-- The statuses a handler leaves. -/
def exitStatuses : List TaskStatus := [.queued, .accepted, .failed, .awaitingHuman]

/-- The event a release into a status and a role is followed by. -/
structure LifecycleEvent (entry : TaskQueueEntry) (status : TaskStatus) (role : Role)
    (e : EventEnvelope) : Prop where
  of : e.Of [eventOf status] entry.projectId (some entry.taskId) (blank entry.taskId = false)
  nextRole : status = .queued → e.payload.lookup "next_role" = some (.str role.text)

/-- The append of that event, and nothing else. -/
def Announces (entry : TaskQueueEntry) (status : TaskStatus) (role : Role) (w w' : World) : Prop :=
  ∃ e calls, LifecycleEvent entry status role e ∧
    w' = ⟨w.core, { w.backend with calls, events := w.backend.events ++ [e] }⟩

/-- A release from a state with `I`, and the event after it. -/
def Exited (I : World → Prop) (entry : TaskQueueEntry) (n : ℕ) (w' : World) : Prop :=
  ∃ w₁ w₂ status role, I w₁ ∧ status ∈ exitStatuses ∧ Releases entry status role n w₁ w₂ ∧
    Announces entry status role w₂ w'

/-- A release from a state with `I`, without its event. -/
def HalfExited (I : World → Prop) (entry : TaskQueueEntry) (n : ℕ) (w' : World) : Prop :=
  ∃ w₁ status role, I w₁ ∧ status ∈ exitStatuses ∧ Releases entry status role n w₁ w'

/-- The program keeps `I` up to one release and one event. -/
def Exits (I : World → Prop) (entry : TaskQueueEntry) (n : ℕ) (m : WorldM Unit) : Prop :=
  ∀ env w, I w → Ensures m env w (fun _ w' => Exited I entry n w')
    fun _ w' => I w' ∨ HalfExited I entry n w'

/-- The program exits with the attempts of the entry, or keeps `I` and returns a launch with
`P`. -/
def ExitsOr (I : World → Prop) (entry : TaskQueueEntry) (P : Launch → Prop)
    (m : WorldM (Option Launch)) : Prop :=
  ∀ env w, I w → Ensures m env w
    (fun l? w' => (l? = none ∧ Exited I entry entry.attempts w') ∨ ∃ l, l? = some l ∧ P l ∧ I w')
    fun _ w' => I w' ∨ HalfExited I entry entry.attempts w'

namespace WorkerTaskHandler

variable {services : HandlerServices} {entry : TaskQueueEntry} {K R : String → Prop}
  {I : World → Prop} {n : ℕ} {α : Type} {P : Launch → Prop}

/-! ## Rules -/

section rules

theorem exits_bind {m : WorldM α} {f : α → WorldM Unit} {Q : α → Prop} (hm : Maintains I m Q)
    (hf : ∀ a, Q a → Exits I entry n (f a)) : Exits I entry n (m >>= f) := fun env w hw =>
  ensures_bind.mpr ((hm env w hw).mono (fun a w' ha => hf a ha.1 env w' ha.2)
    fun _ _ he => Or.inl he)

theorem exits_ite {c : Prop} [Decidable c] {m m' : WorldM Unit} (h : c → Exits I entry n m)
    (h' : ¬ c → Exits I entry n m') : Exits I entry n (if c then m else m') := by
  by_cases hc : c
  · rw [if_pos hc]
    exact h hc
  · rw [if_neg hc]
    exact h' hc

/-- A throw before the release. -/
theorem exits_throw {e : Err} : Exits I entry n (onBackend (throw e)) :=
  fun _ _ hw => Or.inl hw

theorem exitsOr_bind {m : WorldM α} {f : α → WorldM (Option Launch)} {Q : α → Prop}
    (hm : Maintains I m Q) (hf : ∀ a, Q a → ExitsOr I entry P (f a)) :
    ExitsOr I entry P (m >>= f) := fun env w hw =>
  ensures_bind.mpr ((hm env w hw).mono (fun a w' ha => hf a ha.1 env w' ha.2)
    fun _ _ he => Or.inl he)

/-- A program that exits and launches nothing. -/
theorem exitsOr_none {m : WorldM Unit} (hm : Exits I entry entry.attempts m) :
    ExitsOr I entry P (do m; pure none) := fun env w hw =>
  ensures_bind.mpr ((hm env w hw).mono (fun _ _ hc => Or.inl ⟨rfl, hc⟩) fun _ _ he => he)

theorem exitsOr_some {l : Launch} (hl : P l) : ExitsOr I entry P (pure (some l)) :=
  fun _ _ hw => Or.inr ⟨l, rfl, hl, hw⟩

end rules

/-! ## The release and its event -/

/-- What a release changes: the row, and the number of calls. -/
theorem ensures_release {status : TaskStatus} {nextRole : Option Role} {attempts : ℕ} {env : Env}
    {w : World} :
    Ensures (release entry status nextRole attempts) env w
      (fun _ w' => Releases entry status (nextRole.getD entry.nextRole) attempts w w')
      fun _ w' => ∃ calls, w' = ⟨w.core, { w.backend with calls }⟩ := by
  have hbackend : Maintains (fun v : World => ∃ calls, v.backend = { w.backend with calls })
      (release entry status nextRole attempts) fun _ => True := by
    have hcall : ∀ {k : StorageCall}, Maintains
        (fun v : World => ∃ calls, v.backend = { w.backend with calls })
        (onBackend (storageCall k)) fun _ => True := by
      rintro k env v ⟨calls, hv⟩
      refine ensures_onBackend.mpr (ensures_storageCall_iff.mpr ⟨fun _ => ?_, fun _ => ?_⟩)
      · exact ⟨calls + 1, by rw [hv]⟩
      · exact ⟨trivial, calls + 1, by rw [hv]⟩
    have hnow : Maintains (fun v : World => ∃ calls, v.backend = { w.backend with calls })
        (onBackend dateNow) fun _ => True := by
      rintro env v ⟨calls, hv⟩
      exact ⟨trivial, calls + 1, by rw [hv]⟩
    refine .bind hnow fun updatedAt _ => .bind (Q := fun _ => True) (.bind hcall fun _ _ => .bind
      HandlerFrame.getCore fun _ _ => .pure trivial) fun existing _ => ?_
    split
    · exact HandlerFrame.onThrow
    · split
      · exact HandlerFrame.onThrow
      · refine .bind (Q := fun _ => True) (.pure trivial) fun _ _ => .bind hcall fun _ _ => ?_
        exact fun _ _ hv => ⟨trivial, hv⟩
  have hcore : OnCore (release entry status nextRole attempts) env w.core
      (fun _ c' => (∃ r, w.core.row entry.taskId = some r) ∧ ∃ updatedAt, c' =
        (Update.release status (nextRole.getD entry.nextRole) attempts updatedAt).apply
          entry.taskId w.core)
      fun _ c' => c' = w.core := by
    refine .bind (onCore_dateNow fun now => ?_)
    refine QueueStore.onCore_release rfl (fun r u hr => ?_) (fun _ _ => rfl) fun _ _ => rfl
    exact ⟨⟨r, hr⟩, u, rfl⟩
  refine ((hcore w rfl).and (hbackend env w ⟨w.backend.calls, rfl⟩)).mono ?_ ?_
  · rintro _ ⟨c', b'⟩ ⟨⟨hrow, updatedAt, hc⟩, -, calls, hb⟩
    dsimp only at hc hb
    exact ⟨hrow, updatedAt, calls, by rw [hc, hb]⟩
  · rintro _ ⟨c', b'⟩ ⟨hc, calls, hb⟩
    dsimp only at hc hb
    exact ⟨calls, by rw [hc, hb]⟩

/-- What an append of the handler changes: the log, and the number of calls. -/
theorem ensures_appendEvent_iff {eventType : EventType} {runId agentId : Option String}
    {payload : List (String × Json)} {env : Env} {w : World} :
    Ensures (onBackend (appendEvent entry eventType runId agentId payload)) env w
      (fun _ w' => ∃ id createdAt calls,
        w' = ⟨w.core, { w.backend with
          calls
          events := w.backend.events ++
            [taskEvent entry.projectId entry.taskId eventType runId agentId payload id createdAt] }⟩)
      fun _ w' => ∃ calls, w' = ⟨w.core, { w.backend with calls }⟩ := by
  simp only [appendEvent, ensures_onBackend, ensures_bind, ensures_uuid8, ensures_dateNow,
    EventLog.ensures_append_iff]
  exact ⟨fun _ => ⟨_, rfl⟩, fun _ => ⟨_, _, _, rfl⟩⟩

/-- The event of an exit is valid when the task's id is. -/
theorem lifecycleEvent {status : TaskStatus} {role : Role} {runId agentId : Option String}
    {payload : List (String × Json)} {id : String} {createdAt : ℕ}
    (hstatus : status ∈ exitStatuses)
    (hrole : status = .queued → payload.lookup "next_role" = some (.str role.text)) :
    LifecycleEvent entry status role
      (taskEvent entry.projectId entry.taskId (eventOf status) runId agentId payload id createdAt) := by
  refine ⟨⟨List.mem_singleton_self _, rfl, rfl, fun hblank hproject => ?_⟩, hrole⟩
  refine taskEvent_valid hproject ?_ ?_
  · simp only [exitStatuses, List.mem_cons, List.not_mem_nil, or_false] at hstatus
    rcases hstatus with rfl | rfl | rfl | rfl <;>
      simp [eventOf, requiredIds, taskEvent, EventEnvelope.id, nonBlank, hblank]
  · simp only [exitStatuses, List.mem_cons, List.not_mem_nil, or_false] at hstatus
    rcases hstatus with rfl | rfl | rfl | rfl <;> rfl

section exits

variable (h : HandlerFrame services entry K R I)

include h

/-- A reading more or less. -/
theorem recount {w : World} {calls : ℕ} (hw : I w) : I ⟨w.core, { w.backend with calls }⟩ :=
  (h.log w.core).quiet w.backend _ rfl rfl rfl rfl hw

/-- **A release and its event are an exit.** -/
theorem release_exits {status : TaskStatus} {nextRole : Option Role} {eventType : EventType}
    {runId agentId : Option String} {payload : List (String × Json)}
    (htype : eventType = eventOf status) (hstatus : status ∈ exitStatuses)
    (hrole : status = .queued →
      payload.lookup "next_role" = some (.str (nextRole.getD entry.nextRole).text)) :
    Exits I entry n (do
      release entry status nextRole n
      onBackend (appendEvent entry eventType runId agentId payload)) := by
  subst htype
  intro env w hw
  refine ensures_bind.mpr (ensures_release.mono (fun _ w₁ hrel => ?_) fun _ w₁ hthrow => ?_)
  · refine ensures_appendEvent_iff.mono (fun _ w₂ happend => ?_) fun _ w₂ hthrow => ?_
    · obtain ⟨id, createdAt, calls, rfl⟩ := happend
      exact ⟨w, w₁, status, _, hw, hstatus, hrel, _, calls, lifecycleEvent hstatus hrole, rfl⟩
    · obtain ⟨calls, rfl⟩ := hthrow
      obtain ⟨hrow, updatedAt, calls', rfl⟩ := hrel
      exact Or.inr ⟨w, status, _, hw, hstatus, hrow, updatedAt, calls, rfl⟩
  · obtain ⟨calls, rfl⟩ := hthrow
    exact Or.inl (recount h hw)

theorem failTask_exits {reason : String} {runId : Option String}
    {payload : List (String × Json)} :
    Exits I entry n (failTask entry reason n runId payload) :=
  release_exits h rfl (by decide) (by simp)

/-! ## Before the run -/

theorem handleSchedulerRefusal_exits {decision : ScheduleDecision} :
    Exits I entry entry.attempts (handleSchedulerRefusal entry decision) := by
  unfold handleSchedulerRefusal
  split
  · exact failTask_exits h
  · exact release_exits h rfl (by decide) (by simp)
  · exact release_exits h rfl (by decide) (by simp)

theorem handleRunError_exits {context : Option ReviewContextRecord} {aborted : Bool} {e : Err} :
    Exits I entry entry.attempts (handleRunError entry context aborted e) :=
  exits_ite (fun _ => exits_throw) fun _ => failTask_exits h

variable {worker : String} {aborted : Bool}

omit h in
theorem maintains_throwIfAborted : Maintains I (onBackend (throwIfAborted aborted)) fun _ => True :=
  HandlerFrame.onBackend fun _ => LogFrame.throwIfAborted

theorem launch_exits {workOrder : ParsedWorkOrderV1} {context : Option ReviewContextRecord}
    {uri : Option String} {packet : Option HandoffPacket} {decision : ScheduleDecision}
    {agentEntry : AgentRegistryEntry} {gate : BudgetState} (hagent : K agentEntry.profile.agentId) :
    ExitsOr I entry (fun l => l.entry = entry ∧ K l.agentId)
      (launch services worker entry aborted workOrder context uri packet decision agentEntry
        gate) := by
  refine exitsOr_bind maintains_throwIfAborted fun _ _ => exitsOr_bind h.preLaunch fun _ _ => ?_
  refine exitsOr_bind maintains_throwIfAborted fun _ _ => exitsOr_bind h.dateNow fun now _ => ?_
  refine exitsOr_bind (HandlerFrame.onBackend (Q := fun _ => True) fun c => ?_)
    fun reviewContext _ => ?_
  · refine (HandlerFrame.attempt (Q := fun _ => True) ?_).any
    split
    · exact h.materializeReviewContext.map fun _ _ => trivial
    · exact .pure trivial
  cases reviewContext with
  | error e => exact exitsOr_none (handleRunError_exits h)
  | ok reviewContext => exact exitsOr_bind h.record fun _ _ => exitsOr_some ⟨rfl, hagent⟩

theorem dispatch_exits {workOrder : ParsedWorkOrderV1} {context : Option ReviewContextRecord}
    {uri : Option String} :
    ExitsOr I entry (fun l => l.entry = entry ∧ K l.agentId)
      (dispatch services worker entry aborted workOrder context uri) := by
  refine exitsOr_bind h.budgetInit fun _ _ => exitsOr_bind h.budgetCurrent fun budget _ => ?_
  refine exitsOr_bind (HandlerFrame.onBackend fun c => (h.log c).decide) fun decision hd => ?_
  refine exitsOr_bind h.record fun _ _ => exitsOr_bind (h.emitTaskDispatched hd) fun _ _ => ?_
  split
  · exact exitsOr_none (handleSchedulerRefusal_exits h)
  refine exitsOr_bind (HandlerFrame.onBackend fun c => (h.log c).get) fun agentEntry? hget => ?_
  cases agentEntry? with
  | none => exact exitsOr_none (failTask_exits h)
  | some agentEntry =>
    obtain ⟨hid, hagent⟩ := hget agentEntry rfl
    rw [← hid] at hagent
    dsimp only
    split
    · exact launch_exits h hagent
    · refine exitsOr_bind (HandlerFrame.onBackend fun c =>
        (HandlerFrame.attempt (h.materializeHandoffPacket (c := c))).any) fun packet _ => ?_
      cases packet with
      | error e => exact exitsOr_none (failTask_exits h)
      | ok packet => exact launch_exits h hagent

/-- **The half before the run exits, or launches a run of the task.** -/
theorem handleUntilLaunch_exits :
    ExitsOr I entry (fun l => l.entry = entry ∧ K l.agentId)
      (handleUntilLaunch services worker entry aborted) := by
  refine exitsOr_bind maintains_throwIfAborted fun _ _ => ?_
  refine exitsOr_bind h.getWorkOrder fun workOrder? _ => ?_
  cases workOrder? with
  | none => exact exitsOr_none (failTask_exits h)
  | some workOrder =>
    refine exitsOr_bind (Q := fun _ => True) (.ite (fun _ => h.getReviewContext)
      fun _ => .pure trivial) fun context _ => ?_
    refine exitsOr_bind (Q := fun _ => True) (.ite (fun _ => h.getHandoffPacketUri)
      fun _ => .pure trivial) fun uri _ => ?_
    split
    · exact exitsOr_none (failTask_exits h)
    · exact dispatch_exits h

/-! ## After the run -/

theorem handleImplementerSuccess_exits {workOrder : ParsedWorkOrderV1}
    {agentId runId diffArtifactUri : String}
    {verificationOutputUri finalReportUri : Option String} {budget : BudgetState} :
    Exits I entry (entry.attempts + 1) (handleImplementerSuccess entry workOrder agentId runId
      diffArtifactUri verificationOutputUri finalReportUri budget) := by
  refine exits_ite (fun _ => exits_ite (fun _ => failTask_exits h) fun _ => ?_) fun _ => ?_
  · exact exits_bind h.setReviewContext fun _ _ => release_exits h rfl (by decide) fun _ => rfl
  · exact release_exits h rfl (by decide) (by simp)

theorem requeueImplementerAfterReview_exits {workOrder : ParsedWorkOrderV1} {agentId : String}
    {context : ReviewContextRecord} {runId : String} {reason : HandoffReason}
    {reviewVerdictUri : Option String} (hrun : R runId) :
    Exits I entry (entry.attempts + 1) (requeueImplementerAfterReview services worker entry
      workOrder agentId context runId reason reviewVerdictUri) :=
  exits_bind (h.handOff rfl hrun) fun _ _ => release_exits h rfl (by decide) fun _ => rfl

/-- An outcome of a reviewer. -/
theorem handleReviewerOutcome_exits {workOrder : ParsedWorkOrderV1} {agentId : String}
    {context : ReviewContextRecord} {outcome : RunOutcome} {budget : BudgetState}
    (hrun : R outcome.runId)
    (hsucceeded : ∀ runId d v f, outcome ≠ .implementerSucceeded runId d v f)
    (hfailed : ∀ runId reason d v f, outcome ≠ .implementerFailed runId reason d v f) :
    Exits I entry (entry.attempts + 1) (handleReviewerOutcome services worker entry workOrder
      agentId context outcome budget) := by
  cases outcome with
  | implementerSucceeded runId d v f => exact absurd rfl (hsucceeded _ _ _ _)
  | implementerFailed runId reason d v f => exact absurd rfl (hfailed _ _ _ _ _)
  | reviewerApproved runId uri => exact release_exits h rfl (by decide) (by simp)
  | reviewerRejected runId uri => exact release_exits h rfl (by decide) (by simp)
  | reviewerChangesRequested runId uri =>
    exact exits_ite (fun _ => failTask_exits h)
      fun _ => requeueImplementerAfterReview_exits h hrun
  | reviewerUnusable runId reason uri out err =>
    refine exits_ite (fun _ => exits_ite (fun _ => failTask_exits h) fun _ => ?_)
      fun _ => failTask_exits h
    exact requeueImplementerAfterReview_exits h hrun

theorem handleImplementerFailure_exits {workOrder : ParsedWorkOrderV1} {agentId runId : String}
    {reason : ImplementerFailureReason} {diffArtifactUri verificationOutputUri : Option String}
    {budget : BudgetState} (hrun : R runId) :
    Exits I entry (entry.attempts + 1) (handleImplementerFailure services worker entry workOrder
      agentId runId reason diffArtifactUri verificationOutputUri budget) := by
  unfold handleImplementerFailure
  split
  · exact failTask_exits h
  · refine exits_bind (h.handOff rfl hrun) fun artifact _ => ?_
    refine exits_ite (fun _ => failTask_exits h) fun _ => ?_
    exact release_exits h rfl (by decide) fun _ => rfl

theorem handleOutcome_exits {l : Launch} (hl : l.entry = entry) {outcome : RunOutcome}
    {budget : BudgetState} (hrun : R outcome.runId) :
    Exits I entry (entry.attempts + 1) (handleOutcome services worker l outcome budget) := by
  subst hl
  unfold handleOutcome
  split
  · exact handleImplementerSuccess_exits h
  · exact handleImplementerFailure_exits h hrun
  · split
    · exact failTask_exits h
    · refine handleReviewerOutcome_exits h hrun ?_ ?_ <;> assumption

/-- The attempts a handler leaves: one more after an outcome. -/
def attemptsAfter (entry : TaskQueueEntry) : Except Err RunOutcome → ℕ
  | .ok _ => entry.attempts + 1
  | .error _ => entry.attempts

/-- **The half after the run exits.** -/
theorem handleAfterRun_exits {l : Launch} (hl : l.entry = entry)
    {result : Except Err RunOutcome} (hrun : ∀ o, result = .ok o → R o.runId) :
    Exits I entry (attemptsAfter entry result)
      (handleAfterRun services worker l result aborted) := by
  refine exits_bind h.record fun _ _ => ?_
  cases result with
  | error e =>
    rw [hl]
    exact handleRunError_exits h
  | ok outcome =>
    have hrest : Exits I entry (entry.attempts + 1) (do
        let now ← onBackend dateNow
        let wallTimeMs := now - l.startedAtMs
        let postRunBudget ← BudgetManager.postRun services.projectId l.entry.taskId wallTimeMs
          none (Scheduler.estimatedCost l.agentEntry.profile)
        onBackend (recordAgentOutcome services l.agentEntry outcome wallTimeMs)
        handleOutcome services worker l outcome postRunBudget) := by
      refine exits_bind h.dateNow fun now _ => ?_
      rw [hl]
      refine exits_bind h.postRun fun budget _ => exits_bind h.recordAgentOutcome fun _ _ => ?_
      exact handleOutcome_exits h hl (hrun outcome rfl)
    refine exits_ite (fun _ => exits_bind (Q := fun _ => True) ?_ fun _ _ => hrest)
      fun _ => hrest
    rw [hl]
    exact h.setHandoffPacketUri

end exits

end WorkerTaskHandler

end AgentWorkflow
