import AgentWorkflow.Queue.HandlerSpec
import AgentWorkflow.Scheduling.LogFrame

/-!
# The handler and the log

One pass over `handle`: what it appends, which service calls it makes, and how it ends.

* `HandlerFrame` — an invariant of the world that survives everything a handler does before it
  releases the task: the columns a release does not write, the caches, the budgets, its events, its
  service calls.
* `Closes` — **a program that keeps such an invariant up to one release of the task and the one
  event after it**: on return both are done, and a throw leaves the state before the release, or the
  state after it.
* **`handleUntilLaunch_closes`**, **`handleAfterRun_closes`** — each half of `handle` closes, or
  launches a run.
-/

namespace AgentWorkflow

open Fallible

/-- The columns nothing but the insert writes. -/
def TaskRow.fixed (r : TaskRow) : String × String × ℕ := (r.taskId, r.projectId, r.enqueuedAt)

/-- The columns a claim or a release writes. -/
def TaskRow.standing (r : TaskRow) : TaskStatus × Role × Option String × Option ℕ × ℕ :=
  (r.status, r.nextRole, r.currentOwnerRunId, r.leaseExpiresAt, r.attempts)

/-- The writes of a JSON column of a task. -/
inductive ColumnWrite : (TaskRow → TaskRow) → Prop
  | workOrderJson (raw : Json) (updatedAt : ℕ) :
    ColumnWrite (QueueStore.withWorkOrderJson raw updatedAt)
  | reviewContext (context : ReviewContextRecord) (updatedAt : ℕ) :
    ColumnWrite (QueueStore.withReviewContext context updatedAt)
  | handoffPacketUri (uri : Option String) (updatedAt : ℕ) :
    ColumnWrite (QueueStore.withHandoffPacketUri uri updatedAt)

theorem ColumnWrite.fixed {f : TaskRow → TaskRow} (hf : ColumnWrite f) (r : TaskRow) :
    (f r).fixed = r.fixed := by
  cases hf <;> rfl

theorem ColumnWrite.standing {f : TaskRow → TaskRow} (hf : ColumnWrite f) (r : TaskRow) :
    (f r).standing = r.standing := by
  cases hf <;> rfl

/-! ## What a handler may do -/

/-- The ids and the URIs an event of a handler may carry are not blank. -/
structure Legible (services : HandlerServices) (taskId : String) (K R : String → Prop) : Prop where
  task : blank taskId = false
  agent : ∀ id, K id → blank id = false
  run : ∀ id, R id → blank id = false
  uri : ∀ uri, services.artifactStore.Saves uri → blank uri = false

/-- The events a handler appends before it releases the task; `K` are the agents and `R` the runs
they may name. -/
def HandlerEvent (services : HandlerServices) (entry : TaskQueueEntry) (K R : String → Prop)
    (e : EventEnvelope) : Prop :=
  e.Of [.taskDispatched, .handoffRequested] entry.projectId (some entry.taskId)
    (Legible services entry.taskId K R) ∨
  e.Of quotaTypes services.projectId (some entry.taskId) (Legible services entry.taskId K R) ∨
  e.Of quotaTypes services.registryOptions.projectId none (Legible services entry.taskId K R)

/-- The service calls of a handler: it reads artifacts, and saves handoff packets of the task, under
the project of its services. -/
inductive HandlerCall (services : HandlerServices) (entry : TaskQueueEntry) :
    (α : Type) → ServiceM α → Prop
  | readText (uri : String) :
    HandlerCall services entry String (services.artifactStore.readText uri)
  | savePacket (t : SaveText) (hproject : t.projectId = services.projectId)
    (htask : t.taskId = entry.taskId) (hkind : t.kind = .handoffPacket) :
    HandlerCall services entry ArtifactRef (services.artifactStore.saveText t)

/-- What survives a handler up to its release. -/
structure HandlerFrame (services : HandlerServices) (entry : TaskQueueEntry) (K R : String → Prop)
    (I : World → Prop) : Prop where
  /-- The budgets, the cache and the trace. -/
  core : ∀ (w : World) (c : Core), c.taskQueue = w.core.taskQueue → I w → I ⟨c, w.backend⟩
  /-- The JSON columns of the task. -/
  columns : ∀ (w : World) (f : TaskRow → TaskRow) (hf : ∀ r, (f r).key = r.key),
    ColumnWrite f → I w → I ⟨w.core.updateRow entry.taskId f hf, w.backend⟩
  log : ∀ c : Core, LogFrame (HandlerEvent services entry K R) (HandlerCall services entry) K
    fun b => I ⟨c, b⟩

namespace HandlerFrame

variable {services : HandlerServices} {entry : TaskQueueEntry} {K R : String → Prop}
  {I : World → Prop} {α : Type} {Q : α → Prop}

/-! ## The queue and the budget -/

/-- A program of the backend keeps what it keeps for every core. -/
theorem onBackend {m : BackendM α} (hm : ∀ c, Maintains (fun b => I ⟨c, b⟩) m Q) :
    Maintains I (onBackend m) Q := fun env w hw =>
  ensures_onBackend.mpr (hm w.core env w.backend hw)

section statements

variable (h : HandlerFrame services entry K R I) {taskId : String}

include h

theorem storageCall {k : StorageCall} :
    Maintains I (AgentWorkflow.onBackend (storageCall k)) fun _ => True :=
  onBackend fun c => (h.log c).storageCall

theorem dateNow : Maintains I (AgentWorkflow.onBackend dateNow) fun _ => True :=
  onBackend fun c => (h.log c).dateNow

omit h in
theorem onThrow {e : Err} : Maintains I (AgentWorkflow.onBackend (throw e)) Q :=
  onBackend fun _ => .throw

omit h in
theorem getCore : Maintains I getCore fun _ => True := fun _ _ hw => ⟨trivial, hw⟩

/-- A change of the core that leaves the queue. -/
theorem modifyCore {f : Core → Core} (hf : ∀ c, (f c).taskQueue = c.taskQueue) :
    Maintains I (modifyCore f) fun _ => True :=
  fun _ w hw => ⟨trivial, h.core w (f w.core) (hf w.core) hw⟩

theorem record {worker : String} {call : Call} :
    Maintains I (record worker call) fun _ => True := h.modifyCore fun _ => rfl

/-- A write of a JSON column of the task. -/
theorem updateRow {f : TaskRow → TaskRow} {hf : ∀ r, (f r).key = r.key} (hw : ColumnWrite f) :
    Maintains I (AgentWorkflow.modifyCore fun c => c.updateRow entry.taskId f hf) fun _ => True :=
  fun _ w hI => ⟨trivial, h.columns w f hf hw hI⟩

theorem queueGet : Maintains I (QueueStore.get taskId) fun _ => True :=
  .bind h.storageCall fun _ _ => .bind getCore fun _ _ => .pure trivial

omit h in
theorem parseOrThrow {raw : Json} :
    Maintains I (AgentWorkflow.onBackend (QueueStore.parseOrThrow raw)) fun _ => True := by
  refine onBackend fun c => ?_
  unfold QueueStore.parseOrThrow
  split
  · exact .pure trivial
  · exact .throw

theorem storeGetWorkOrder : Maintains I (QueueStore.getWorkOrder taskId) fun _ => True := by
  refine .bind h.storageCall fun _ _ => .bind getCore fun c _ => ?_
  split
  · exact .pure trivial
  · exact .bind parseOrThrow fun _ _ => .pure trivial

theorem getWorkOrder : Maintains I (TaskQueue.getWorkOrder taskId) fun _ => True := by
  refine .bind getCore fun c _ => ?_
  split
  · exact .pure trivial
  · refine .bind h.storeGetWorkOrder fun persisted _ => ?_
    split
    · exact .bind (h.modifyCore fun _ => rfl) fun _ _ => .pure trivial
    · exact .pure trivial

theorem addWorkOrderExcludeAgentIds {agentIds : List String} :
    Maintains I (TaskQueue.addWorkOrderExcludeAgentIds entry.taskId agentIds) fun _ => True := by
  refine .bind (Q := fun _ => True) ?_ fun _ _ => .bind (h.modifyCore fun _ => rfl) fun _ _ =>
    .pure trivial
  refine .bind h.storageCall fun _ _ => .bind getCore fun c _ => ?_
  split
  · exact onThrow
  · refine .bind parseOrThrow fun _ _ => .bind parseOrThrow fun _ _ => ?_
    refine .bind h.dateNow fun _ _ => .bind h.storageCall fun _ _ => ?_
    exact .bind (h.updateRow (.workOrderJson _ _)) fun _ _ => .pure trivial

theorem setReviewContext {context : ReviewContextRecord} :
    Maintains I (QueueStore.setReviewContext entry.taskId context) fun _ => True := by
  refine .bind h.queueGet fun existing _ => ?_
  split
  · exact onThrow
  · refine .bind (onBackend fun c => LogFrame.ofExcept) fun _ _ => .bind h.dateNow fun _ _ => ?_
    exact .bind h.storageCall fun _ _ => h.updateRow (.reviewContext _ _)

theorem getReviewContext : Maintains I (QueueStore.getReviewContext taskId) fun _ => True := by
  refine .bind h.storageCall fun _ _ => .bind getCore fun c _ => ?_
  split
  · exact .pure trivial
  · exact .bind (onBackend fun c => LogFrame.ofExcept) fun _ _ => .pure trivial

theorem setHandoffPacketUri {uri : Option String} :
    Maintains I (QueueStore.setHandoffPacketUri entry.taskId uri) fun _ => True := by
  refine .bind h.queueGet fun existing _ => ?_
  split
  · exact onThrow
  · refine .ite (fun _ => onThrow) fun _ => .bind h.dateNow fun _ _ => ?_
    exact .bind h.storageCall fun _ _ => h.updateRow (.handoffPacketUri _ _)

theorem getHandoffPacketUri :
    Maintains I (QueueStore.getHandoffPacketUri taskId) fun _ => True :=
  .bind h.storageCall fun _ _ => .bind getCore fun _ _ => .pure trivial

theorem budgetCurrent : Maintains I (BudgetStore.current taskId) fun _ => True := by
  refine .bind h.storageCall fun _ _ => .bind getCore fun c _ => ?_
  split
  · exact .pure trivial
  · exact onThrow

theorem budgetApply {f : BudgetState → BudgetState} {hf : ∀ b, (f b).taskId = b.taskId} :
    Maintains I (BudgetStore.apply taskId f hf) fun _ => True :=
  .bind h.budgetCurrent fun _ _ => .bind h.storageCall fun _ _ =>
    .bind (h.modifyCore fun _ => rfl) fun _ _ => .pure trivial

theorem budgetInit {workOrder : ParsedWorkOrderV1} :
    Maintains I (BudgetManager.init workOrder) fun _ => True := by
  refine .bind (Q := fun _ => True) ?_ fun _ _ => .bind h.budgetCurrent fun state _ =>
    .bind (onBackend fun c => (h.log c).syncEmitted) fun _ _ => .pure trivial
  refine .bind h.storageCall fun _ _ => .bind getCore fun c _ => ?_
  refine .ite (fun _ => .pure trivial) fun _ => .bind h.storageCall fun _ _ => ?_
  split
  · exact h.modifyCore fun _ => rfl
  · exact onThrow

omit h in
/-- The quota events of the task. -/
theorem taskQuota {e : EventEnvelope} (he : e.Of quotaTypes services.projectId (some entry.taskId)
    (blank entry.taskId = false)) : HandlerEvent services entry K R e :=
  Or.inr (Or.inl (he.mono Legible.task))

theorem preLaunch :
    Maintains I (BudgetManager.preLaunch services.projectId entry.taskId) fun _ => True :=
  .bind h.budgetCurrent fun _ _ => .bind h.budgetApply fun _ _ =>
    .bind (onBackend fun c => (h.log c).emitTransitionEvents fun _ => taskQuota) fun _ _ =>
      .pure trivial

theorem postRun {wallMs cost : ℚ} {actual : Option ℚ} :
    Maintains I (BudgetManager.postRun services.projectId entry.taskId wallMs actual cost)
      fun _ => True :=
  .bind h.budgetCurrent fun _ _ => .bind h.budgetApply fun _ _ =>
    .bind (onBackend fun c => (h.log c).emitTransitionEvents fun _ => taskQuota) fun _ _ =>
      .pure trivial

end statements

/-! ## Events and packets -/

section events

variable (h : HandlerFrame services entry K R I)

include h

/-- An event of the entry that the frame allows. -/
theorem appendEvent {eventType : EventType} {runId agentId : Option String}
    {payload : List (String × Json)} (htype : eventType ∈ [.taskDispatched, .handoffRequested])
    (hvalid : ∀ id createdAt, Legible services entry.taskId K R → entry.projectId ≠ "" →
      (taskEvent entry.projectId entry.taskId eventType runId agentId payload id createdAt).Valid) :
    Maintains I (AgentWorkflow.onBackend
      (WorkerTaskHandler.appendEvent entry eventType runId agentId payload)) fun _ => True := by
  refine onBackend fun c => (h.log c).appendTaskEvent fun id createdAt => ?_
  exact Or.inl ⟨htype, rfl, rfl, hvalid id createdAt⟩

/-- A decision names an agent or a reason. -/
theorem emitTaskDispatched {decision : ScheduleDecision} {role : Role}
    (hd : LogFrame.Decided K role decision) : Maintains I (AgentWorkflow.onBackend
      (WorkerTaskHandler.emitTaskDispatched entry decision)) fun _ => True := by
  refine h.appendEvent (by decide) fun id createdAt hlegible hproject => ?_
  refine taskEvent_valid hproject ?_ ?_
  · simp [requiredIds, taskEvent, EventEnvelope.id, nonBlank, hlegible.task]
  obtain ⟨id', hdecision⟩ := hd.decisionId
  have hid : blank ("D-" ++ id') = false := blank_append _ (by decide)
  have hrole : decision.role.text = "implementer" ∨ decision.role.text = "reviewer" := by
    cases decision.role <;> simp [Role.text]
  have hpick : nonBlank decision.pickedAgentId = true ∨
      nonBlank (decision.refusalReason.map RefusalReason.text) = true := by
    cases hp : decision.pickedAgentId with
    | some picked => exact Or.inl (by simpa [nonBlank] using hlegible.agent _ (hd.picked _ hp).1)
    | none =>
      obtain ⟨reason, hreason⟩ := Option.isSome_iff_exists.mp (hd.refused hp)
      rw [hreason]
      right
      cases reason <;> decide
  have hdecided : payloadText (WorkerTaskHandler.decisionPayload decision) "decision_id" =
      some decision.decisionId := rfl
  have hroleText : payloadText (WorkerTaskHandler.decisionPayload decision) "role" =
      some decision.role.text := rfl
  have hpicked : payloadText (WorkerTaskHandler.decisionPayload decision) "picked_agent_id" =
      decision.pickedAgentId := by
    cases hp : decision.pickedAgentId <;>
      simp [payloadText, WorkerTaskHandler.decisionPayload, List.lookup_cons, hp]
  have hrefused : payloadText (WorkerTaskHandler.decisionPayload decision) "refusal_reason" =
      decision.refusalReason.map RefusalReason.text := by
    cases hr : decision.refusalReason <;>
      simp [payloadText, WorkerTaskHandler.decisionPayload, WorkerTaskHandler.optionalText,
        writeOptional, Codec.string, List.lookup_cons, hr]
  simp only [assertV1PayloadFields, taskEvent, assertRole, isOk_bind_iff, isOk_demand, hdecided,
    hroleText, hpicked, hrefused, Option.some.injEq, decide_eq_true_eq, Bool.or_eq_true,
    nonBlank_some, hdecision, hid, hrole, hpick, and_self]

/-- A packet's reason is one the log knows. -/
theorem emitHandoffRequested {runId agentId uri : String} {packet : HandoffPacket} (hrun : R runId)
    (huri : services.artifactStore.Saves uri) : Maintains I (AgentWorkflow.onBackend
      (WorkerTaskHandler.emitHandoffRequested entry runId agentId packet uri)) fun _ => True := by
  refine h.appendEvent (by decide) fun id createdAt hlegible hproject => ?_
  refine taskEvent_valid hproject ?_ ?_
  · simp [requiredIds, taskEvent, EventEnvelope.id, nonBlank, hlegible.task,
      hlegible.run _ hrun]
  have hreason : packet.reason.text ∈ handoffReasons := by
    cases packet.reason <;> decide
  simp [assertV1PayloadFields, taskEvent, isOk_bind_iff, isOk_demand, payloadText, List.lookup_cons,
    nonBlank, hlegible.uri _ huri, hreason]

omit h in
/-- An exception as a value. -/
theorem attempt {m : BackendM α} {J : Backend → Prop} (hm : Maintains J m Q) :
    Maintains J (WorkerTaskHandler.attempt m) fun x => ∀ a, x = .ok a → Q a := by
  refine .tryCatch (hm.map fun a ha => ?_) fun e => .pure ?_
  · rintro _ ⟨⟩
    exact ha
  · rintro _ ⟨⟩

theorem readText {uri : String} {c : Core} :
    Maintains (fun b => I ⟨c, b⟩) (onFiles (services.artifactStore.readText uri)) fun _ => True :=
  ((h.log c).onFiles (.readText uri)).any

theorem materializeReviewContext {record : ReviewContextRecord} {c : Core} :
    Maintains (fun b => I ⟨c, b⟩) (WorkerTaskHandler.materializeReviewContext services record)
      fun _ => True := by
  refine .bind h.readText fun diffText _ => ?_
  dsimp only
  split
  · exact .bind h.readText fun _ _ => .bind (Q := fun _ => True) (.pure trivial) fun _ _ =>
      .pure trivial
  · exact .bind (Q := fun _ => True) (.pure trivial) fun _ _ => .pure trivial

theorem materializeHandoffPacket {uri : String} {c : Core} :
    Maintains (fun b => I ⟨c, b⟩) (WorkerTaskHandler.materializeHandoffPacket services uri)
      fun _ => True :=
  .bind h.readText fun _ _ => LogFrame.ofExcept.any

theorem recordAgentOutcome {agentEntry : AgentRegistryEntry} {outcome : RunOutcome}
    {wallTimeMs : ℕ} : Maintains I (AgentWorkflow.onBackend
      (WorkerTaskHandler.recordAgentOutcome services agentEntry outcome wallTimeMs))
      fun _ => True := by
  refine onBackend fun c => ?_
  have hrecord : ∀ {reason}, Maintains (fun b => I ⟨c, b⟩)
      (AgentRegistry.recordOutcome services.registryOptions agentEntry.profile.agentId
        outcome.runId (WorkerTaskHandler.outcomeSuccess outcome) wallTimeMs none reason)
      fun _ => True := fun {reason} =>
    (h.log c).recordOutcome fun hknown e he =>
      Or.inr (Or.inr (he.mono fun hlegible => hlegible.agent _ hknown))
  unfold WorkerTaskHandler.recordAgentOutcome
  split
  · exact .pure trivial
  · exact .pure trivial
  · exact .pure trivial
  · exact hrecord

/-- A packet of the task, stored, announced and left with it. -/
theorem handOff {worker runId agentId : String} {args : HandoffManager.BuildArgs}
    (htask : args.taskId = entry.taskId) (hrun : R runId) :
    Maintains I (WorkerTaskHandler.handOff services worker entry runId agentId args)
      fun _ => True := by
  have hbuild : ∀ c, Maintains (fun b => I ⟨c, b⟩) (HandoffManager.build args)
      fun packet => packet.taskId = entry.taskId := by
    intro c
    refine .bind (h.log c).dateNow fun createdAt _ => LogFrame.ofExcept.mono fun packet hpacket => ?_
    unfold parseHandoffPacket at hpacket
    split at hpacket
    · cases hpacket
      exact htask
    · cases hpacket
  have hpersist : ∀ (packet : HandoffPacket), packet.taskId = entry.taskId → ∀ c,
      Maintains (fun b => I ⟨c, b⟩) (HandoffManager.persist services.artifactStore services.json
        services.projectId packet) fun ref => services.artifactStore.Saves ref.uri := by
    intro packet hpacket c
    refine ((h.log c).onFiles (.savePacket _ rfl hpacket rfl)).mono fun ref hrun => ?_
    obtain ⟨env, f, f', hsave⟩ := hrun
    exact ⟨_, env, f, ref, f', hsave, rfl⟩
  refine .bind (onBackend hbuild) fun packet hpacket => .bind h.record fun _ _ => ?_
  refine .bind (onBackend (hpersist packet hpacket)) fun artifact hartifact => ?_
  refine .bind (h.emitHandoffRequested hrun hartifact) fun _ _ => ?_
  refine .bind h.addWorkOrderExcludeAgentIds fun _ _ => .bind h.record fun _ _ => ?_
  exact .bind h.setHandoffPacketUri fun _ _ => .pure trivial

end events

end HandlerFrame

end AgentWorkflow
