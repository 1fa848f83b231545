import AgentWorkflow.Storage.BackendStores
import AgentWorkflow.Storage.QueueStore

/-!
# The validation of an event

What `SqliteEventLog.append` checks before its insert: `EventEnvelopeSchema` of `core/schemas.ts`,
and the known types, the required ids and the payload fields of `core/events.ts`.

* `assertKnownEventTypeV1`, `assertRequiredEventIds`, `assertV1PayloadFields` — the three checks
  after the schema, with their messages.
* **`EventEnvelope.Valid`** — an event that none of them rejects; `valid_iff` splits it into the
  four.
* `EventLog.validatedAppend` — `append` with its validation in front: `EventLog.append` leaves a
  rejection to the surroundings, as one of the ways its call may throw.
-/

namespace AgentWorkflow

open Fallible

/-! ## Event types -/

/-- Source: `events.ts` `V0_EVENT_TYPES`. -/
def v0EventTypes : List String :=
  ["task.created", "run.created", "run.started", "artifact.published", "verification.started",
    "verification.passed", "verification.failed", "run.completed", "run.failed", "run.cleaned_up"]

/-- Source: `events.ts` `V1_EVENT_TYPES`. -/
def v1EventTypes : List String :=
  ["task.enqueued", "task.dispatched", "task.assigned", "task.requeued", "task.completed",
    "task.failed", "task.awaiting_human", "review.requested", "review.completed",
    "handoff.requested", "agent.spawned", "quota.low", "quota.exhausted", "task.edge_selected"]

/-- Source: `events.ts` `V1_RESERVED_EVENT_TYPES`. -/
def v1ReservedEventTypes : List String :=
  ["task.replan_requested", "task.dependency_invalidated", "task.human_decided",
    "run.cancel_requested", "run.heartbeat", "agent.anomaly_detected", "capability.downgraded",
    "broker.degraded", "prompt.rollback_triggered", "security.artifact_flagged",
    "security.secret_leaked", "security.agent_quarantined"]

/-- Source: `events.ts` `ALL_KNOWN_EVENT_TYPES`. -/
def allKnownEventTypes : List String := v0EventTypes ++ v1EventTypes

/-- Source: `events.ts` `RUN_FAILED_REASONS`. -/
def runFailedReasons : List String :=
  ["spawn_failed", "agent_nonzero_exit", "agent_timed_out", "provider_quota_exhausted",
    "provider_rate_limited", "provider_auth_failed", "verification_failed", "diff_apply_failed",
    "lease_expired", "internal_error"]

/-- The reasons of `handoff.requested`. Source: `events.ts` `assertV1PayloadFields`. -/
def handoffReasons : List String :=
  ["verification_failed", "review_changes_requested", "diff_apply_failed", "review_rejected",
    "agent_timed_out", "agent_nonzero_exit", "quota_exhausted", "scheduler_refusal"]

/-- An id that an event may have to carry. -/
inductive EventId
  | taskId
  | runId
  | agentId

/-- The field of an id. -/
def EventId.text : EventId → String
  | .taskId => "task_id"
  | .runId => "run_id"
  | .agentId => "agent_id"

/-- The value of an id. -/
def EventEnvelope.id (e : EventEnvelope) : EventId → Option String
  | .taskId => e.taskId
  | .runId => e.runId
  | .agentId => e.agentId

/-- Source: `events.ts` `REQUIRED_IDS`. -/
def requiredIds : EventType → List EventId
  | .runCreated | .runStarted | .runCompleted | .runFailed | .taskAssigned | .agentSpawned =>
    [.taskId, .runId, .agentId]
  | .artifactPublished | .verificationStarted | .verificationPassed | .verificationFailed
  | .reviewRequested | .reviewCompleted | .handoffRequested => [.taskId, .runId]
  | .taskEnqueued | .taskDispatched | .taskRequeued | .taskCompleted | .taskFailed
  | .taskAwaitingHuman | .taskEdgeSelected => [.taskId]
  | .quotaLow | .quotaExhausted => []

/-! ## The checks -/

/-- Go on where a condition holds, else throw. -/
def demand (c : Bool) (message : String) : Except Err Unit :=
  if c = true then .ok () else .error (.error message)

/-- A string that is there and has more than white space. -/
def nonBlank (s : Option String) : Bool := s.any fun s => !blank s

/-- A field of the payload, when it is a string. -/
def payloadText (payload : List (String × Json)) (key : String) : Option String :=
  match payload.lookup key with
  | some (.str s) => some s
  | _ => none

/-- `payload.key ?? id`, when it is a string. -/
def payloadTextOr (payload : List (String × Json)) (key : String) (id : Option String) :
    Option String :=
  match payload.lookup key with
  | none | some .null => id
  | some (.str s) => some s
  | some _ => none

/-- A field of the payload is a number. -/
def payloadNumber (payload : List (String × Json)) (key : String) : Bool :=
  match payload.lookup key with
  | some (.num _) => true
  | _ => false

/-- Source: `schemas.ts` `EventEnvelopeSchema`, on the fields an envelope has here. -/
def parseEventEnvelope (e : EventEnvelope) : Except Err Unit := do
  demand (decide (e.eventId ≠ "")) "ZodError"
  demand (decide (e.eventType.text ≠ "")) "ZodError"
  demand (decide (e.projectId ≠ "")) "ZodError"

/-- Source: `events.ts` `assertNotReservedV1`, `assertKnownEventTypeV1`. -/
def assertKnownEventTypeV1 (eventType : String) : Except Err Unit := do
  demand (decide (eventType ∉ v1ReservedEventTypes))
    ("Event type \"" ++ eventType ++ "\" is reserved for v2+.")
  demand (decide (eventType ∈ allKnownEventTypes))
    ("Unknown event type: \"" ++ eventType ++ "\". Must be one of: " ++
      String.intercalate ", " allKnownEventTypes)

/-- Source: `events.ts` `assertRequiredEventIds`, of a known type. -/
def assertRequiredEventIds (e : EventEnvelope) : Except Err Unit :=
  let missing := (requiredIds e.eventType).filter fun id => !nonBlank (e.id id)
  demand missing.isEmpty ("Event \"" ++ e.eventType.text ++ "\" is missing required ids: " ++
    String.intercalate ", " (missing.map EventId.text))

/-- The message of a payload field that is missing. -/
def requires (e : EventEnvelope) (what : String) : String :=
  "Event \"" ++ e.eventType.text ++ "\" requires " ++ what

/-- The check of a quota event. -/
def assertQuotaFields (e : EventEnvelope) : Except Err Unit := do
  let scope := payloadText e.payload "scope"
  demand (decide (scope = some "agent" ∨ scope = some "task"))
    (requires e "payload.scope (\"agent\" or \"task\")")
  demand (decide (scope = some "agent" → nonBlank (payloadTextOr e.payload "agent_id" e.agentId)))
    ("Event \"" ++ e.eventType.text ++
      "\" with scope=\"agent\" requires an agent_id in payload or envelope")
  demand (decide (scope = some "task" → nonBlank (payloadTextOr e.payload "task_id" e.taskId)))
    ("Event \"" ++ e.eventType.text ++
      "\" with scope=\"task\" requires a task_id in payload or envelope")

/-- The check of a role. -/
def assertRole (e : EventEnvelope) : Except Err Unit :=
  demand (decide (payloadText e.payload "role" = some "implementer" ∨
    payloadText e.payload "role" = some "reviewer"))
    (requires e "payload.role (\"implementer\" or \"reviewer\")")

/-- Source: `events.ts` `assertV1PayloadFields`. -/
def assertV1PayloadFields (e : EventEnvelope) : Except Err Unit :=
  let text := payloadText e.payload
  match e.eventType with
  | .taskDispatched => do
    demand (nonBlank (text "decision_id")) (requires e "payload.decision_id (non-empty string)")
    assertRole e
    demand (nonBlank (text "picked_agent_id") || nonBlank (text "refusal_reason"))
      (requires e "payload.picked_agent_id or payload.refusal_reason")
  | .taskAssigned => assertRole e
  | .reviewCompleted => do
    demand (decide (text "verdict" = some "approved" ∨ text "verdict" = some "changes_requested" ∨
        text "verdict" = some "rejected"))
      (requires e "payload.verdict (\"approved\", \"changes_requested\", or \"rejected\")")
    demand (nonBlank (text "verdict_uri")) (requires e "payload.verdict_uri (non-empty string)")
  | .runFailed =>
    demand ((text "reason").any fun reason => reason ∈ runFailedReasons)
      (requires e ("payload.reason from valid set: " ++ String.intercalate ", " runFailedReasons))
  | .handoffRequested => do
    demand (nonBlank (text "handoff_packet_uri"))
      (requires e "payload.handoff_packet_uri (non-empty string)")
    demand ((text "reason").any fun reason => reason ∈ handoffReasons)
      (requires e ("payload.reason from valid set: " ++ String.intercalate ", " handoffReasons))
  | .quotaLow | .quotaExhausted => assertQuotaFields e
  | .taskEdgeSelected => do
    demand (nonBlank (text "from")) (requires e "payload.from (non-empty string)")
    demand (nonBlank (text "to")) (requires e "payload.to (non-empty string)")
    demand (nonBlank (text "reason")) (requires e "payload.reason (non-empty string)")
  | .agentSpawned => do
    demand (payloadNumber e.payload "pid") (requires e "payload.pid (finite number)")
    demand (nonBlank (text "credential_profile_alias"))
      (requires e "payload.credential_profile_alias (non-empty string or \"unknown\")")
  | _ => .ok ()

/-- The checks of `append`, in their order. Source: `event-log.ts` `append`. -/
def validateEvent (e : EventEnvelope) : Except Err Unit := do
  parseEventEnvelope e
  assertKnownEventTypeV1 e.eventType.text
  assertRequiredEventIds e
  assertV1PayloadFields e

/-- No check rejects the event. -/
def EventEnvelope.Valid (e : EventEnvelope) : Prop := (validateEvent e).isOk = true

instance (e : EventEnvelope) : Decidable e.Valid := inferInstanceAs (Decidable (_ = true))

/-- Append an event that passes the checks. Source: `event-log.ts` `append`. -/
def EventLog.validatedAppend (event : EventEnvelope) : BackendM Unit := do
  ofExcept (validateEvent event)
  EventLog.append event

/-! ## Valid events -/

section valid

variable {e : EventEnvelope}

theorem isOk_bind_iff {x y : Except Err Unit} :
    (x >>= fun _ => y).isOk = true ↔ x.isOk = true ∧ y.isOk = true := by
  cases x <;> simp [Bind.bind, Except.bind, Except.isOk, Except.toBool]

theorem isOk_demand {c : Bool} {message : String} : (demand c message).isOk = true ↔ c = true := by
  unfold demand
  split
  next h => simp [h, Except.isOk, Except.toBool]
  next h => simp [h, Except.isOk, Except.toBool]

/-- Every event type the code appends is known. -/
theorem isOk_assertKnown (t : EventType) : (assertKnownEventTypeV1 t.text).isOk = true := by
  cases t <;> decide

/-- **An event is valid when its project and its own id are there, its required ids are not blank,
and its payload has its fields.** -/
theorem valid_iff : e.Valid ↔ (e.eventId ≠ "" ∧ e.projectId ≠ "") ∧
    (∀ id ∈ requiredIds e.eventType, nonBlank (e.id id) = true) ∧
    (assertV1PayloadFields e).isOk = true := by
  have htype : e.eventType.text ≠ "" := by
    cases e.eventType <;> decide
  have hids : (assertRequiredEventIds e).isOk = true ↔
      ∀ id ∈ requiredIds e.eventType, nonBlank (e.id id) = true := by
    simp only [assertRequiredEventIds, isOk_demand, List.isEmpty_iff, List.filter_eq_nil_iff,
      Bool.not_eq_true, Bool.not_eq_false']
  simp only [EventEnvelope.Valid, validateEvent, parseEventEnvelope, isOk_bind_iff, isOk_demand,
    isOk_assertKnown, hids, decide_eq_true_eq, htype, ne_eq, not_false_eq_true, true_and]

/-- A string that has more than white space is not empty, and there. -/
theorem nonBlank_some {s : String} : nonBlank (some s) = true ↔ blank s = false := by
  simp [nonBlank]

theorem not_valid_of_error {err : Err} (h : validateEvent e = .error err) : ¬ e.Valid := by
  unfold EventEnvelope.Valid
  rw [h]
  simp [Except.isOk, Except.toBool]

/-- An event is rejected, or goes to the log. -/
theorem EventLog.ensures_validatedAppend {env : Env} {b : Backend} {Q : Unit → Backend → Prop}
    {E : Err → Backend → Prop} :
    Ensures (EventLog.validatedAppend e) env b Q E ↔
      (∀ err, validateEvent e = .error err → E err b) ∧
      (e.Valid → Ensures (EventLog.append e) env b Q E) := by
  rw [EventLog.validatedAppend, ensures_bind, ensures_ofExcept]
  unfold EventEnvelope.Valid
  rcases validateEvent e with err | a
  · simp [Except.isOk, Except.toBool]
  · simp [Except.isOk, Except.toBool]

end valid

end AgentWorkflow
