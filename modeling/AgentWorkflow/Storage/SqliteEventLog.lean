import AgentWorkflow.Core.Events
import AgentWorkflow.Lib.JsValue
import AgentWorkflow.Lib.Lineup
import Mathlib.Data.List.MinMax
import Mathlib.Data.String.Basic

/-!
# The event log over its table

`SqliteEventLog` of `storage/event-log.ts` with the columns of `task_events`: an envelope is checked,
written as a row with nullable columns and a JSON payload, and read back. `EventLog` of the backend
stores is the log as the other parts of the program use it; here is what it rests on.

* `validate` — the four checks of `append`.
* `toRow`, `ofRow` — the row of an envelope and back; `ofRow_toRow`: what comes back is the envelope
  with its payload normalised and an undefined `skip_on_replay` as `false`.
* `EventTable` — the rows in the order of their `rowid`, with distinct ids.
* `append`, `listByRun` — the two statements.
* **`listByRun_spec`** — after any calls a listing is what the accepted ones appended, by time and
  then by the order of the calls; a rejected call changes no listing.
-/

namespace AgentWorkflow

open Fallible

namespace SqliteEventLog

/-! ## Envelopes -/

/-- Source: `types.ts` `EventEnvelope`, with a payload of any kind. -/
structure Envelope (P : Type) where
  eventId : String
  eventType : String
  projectId : String
  taskId : Option String
  runId : Option String
  agentId : Option String
  correlationId : Option String
  causationId : Option String
  sideEffectType : Option String
  skipOnReplay : Option Bool
  payload : P
  createdAt : String

/-! ## The checks -/

/-- The event types with a check of their own. `task.created` and `run.cleaned_up` are known and not
among them. -/
def eventTypes : List EventType :=
  [.runCreated, .runStarted, .artifactPublished, .verificationStarted, .verificationPassed,
    .verificationFailed, .runCompleted, .runFailed, .taskEnqueued, .taskDispatched, .taskAssigned,
    .taskRequeued, .taskCompleted, .taskFailed, .taskAwaitingHuman, .reviewRequested,
    .reviewCompleted, .handoffRequested, .agentSpawned, .quotaLow, .quotaExhausted,
    .taskEdgeSelected]

/-- The event type with a literal. -/
def eventType? (text : String) : Option EventType := eventTypes.find? fun t => t.text = text

/-- Source: `events.ts` `REQUIRED_IDS`. -/
def requiredIdsOf (text : String) : List EventId :=
  match eventType? text with
  | some t => requiredIds t
  | none =>
    if text = "task.created" then [.taskId]
    else if text = "run.cleaned_up" then [.taskId, .runId]
    else []

/-- What a check sees of a field: a string, a finite number, `null` or `undefined`, or something
else. -/
def seen : JsValue → Option Json
  | .undefined => none
  | .null => some .null
  | .num q => some (.num q)
  | .str s => some (.str s)
  | _ => some (.bool false)

/-- The fields of a payload as the checks see them. -/
def seenFields (payload : JsValue) : List (String × Json) :=
  (payload.fields?.getD []).filterMap fun (key, value) => (seen value).map (key, ·)

variable {P : Type}

/-- The value of an id. -/
def Envelope.id (e : Envelope P) : EventId → Option String
  | .taskId => e.taskId
  | .runId => e.runId
  | .agentId => e.agentId

/-- The event that the payload checks are about; they do not look at its time. -/
def Envelope.toEvent (e : Envelope JsValue) (eventType : EventType) : EventEnvelope where
  eventId := e.eventId
  eventType := eventType
  projectId := e.projectId
  taskId := e.taskId
  runId := e.runId
  agentId := e.agentId
  skipOnReplay := e.skipOnReplay.getD false
  payload := seenFields e.payload
  createdAt := 0

/-- Source: `schemas.ts` `EventEnvelopeSchema`: `min(1)` texts, and a payload that is a record. -/
def parseEventEnvelopeSchema (e : Envelope JsValue) : Except Err Unit := do
  demand (decide (e.eventId ≠ "")) "ZodError"
  demand (decide (e.eventType ≠ "")) "ZodError"
  demand (decide (e.projectId ≠ "")) "ZodError"
  demand e.payload.fields?.isSome "ZodError"
  demand (decide (e.createdAt ≠ "")) "ZodError"

/-- Source: `events.ts` `assertRequiredEventIds`, of a known type. -/
def assertIds (e : Envelope JsValue) : Except Err Unit :=
  let missing := (requiredIdsOf e.eventType).filter fun id => !nonBlank (e.id id)
  demand missing.isEmpty ("Event \"" ++ e.eventType ++ "\" is missing required ids: " ++
    String.intercalate ", " (missing.map EventId.text))

/-- Source: `events.ts` `assertV1PayloadFields`; the default is no check. -/
def assertPayloadFields (e : Envelope JsValue) : Except Err Unit :=
  match eventType? e.eventType with
  | some t => assertV1PayloadFields (e.toEvent t)
  | none => .ok ()

/-- The checks of `append`, in their order. -/
def validate (e : Envelope JsValue) : Except Err Unit := do
  parseEventEnvelopeSchema e
  assertKnownEventTypeV1 e.eventType
  assertIds e
  assertPayloadFields e

/-! ## Rows -/

/-- A value of a nullable text column. -/
inductive SqlText
  | null
  | text (s : String)
  deriving DecidableEq, Repr

/-- `value ?? null`. -/
def orNull : Option String → SqlText
  | none => .null
  | some s => .text s

/-- Source: `helpers.ts` `nullableString`. -/
def nullableString : SqlText → Option String
  | .null => none
  | .text s => some s

/-- A row of `task_events`. The payload column holds the value it is the text of. -/
structure EventRow where
  rowid : ℕ
  id : String
  projectId : String
  taskId : SqlText
  runId : SqlText
  agentId : SqlText
  eventType : String
  payloadJson : Json
  correlationId : SqlText
  causationId : SqlText
  sideEffectType : SqlText
  skipOnReplay : ℤ
  createdAt : String

/-- The row of an event. -/
def toRow (rowid : ℕ) (event : Envelope P) (payloadJson : Json) : EventRow where
  rowid := rowid
  id := event.eventId
  projectId := event.projectId
  taskId := orNull event.taskId
  runId := orNull event.runId
  agentId := orNull event.agentId
  eventType := event.eventType
  payloadJson := payloadJson
  correlationId := orNull event.correlationId
  causationId := orNull event.causationId
  sideEffectType := orNull event.sideEffectType
  skipOnReplay := if event.skipOnReplay = some true then 1 else 0
  createdAt := event.createdAt

/-- The event of a row. -/
def ofRow (row : EventRow) : Envelope Json where
  eventId := row.id
  eventType := row.eventType
  projectId := row.projectId
  taskId := nullableString row.taskId
  runId := nullableString row.runId
  agentId := nullableString row.agentId
  correlationId := nullableString row.correlationId
  causationId := nullableString row.causationId
  sideEffectType := nullableString row.sideEffectType
  skipOnReplay := some (decide (row.skipOnReplay = 1))
  payload := row.payloadJson
  createdAt := row.createdAt

/-- `task_events`: rowids grow with the inserts, and ids are distinct. -/
structure EventTable where
  rows : List EventRow
  rowids : rows.Pairwise fun a b => a.rowid < b.rowid
  ids : (rows.map EventRow.id).Nodup

namespace EventTable

/-- No events. -/
def empty : EventTable := ⟨[], List.Pairwise.nil, List.nodup_nil⟩

/-- The next rowid: one more than the largest. -/
def nextRowid (t : EventTable) : ℕ := (t.rows.map EventRow.rowid).foldr max 0 + 1

theorem rowid_lt_nextRowid {t : EventTable} {row : EventRow} (h : row ∈ t.rows) :
    row.rowid < t.nextRowid := by
  have hmem : row.rowid ∈ t.rows.map EventRow.rowid := List.mem_map_of_mem h
  exact Nat.lt_succ_of_le (List.le_max_of_le' 0 hmem le_rfl)

/-- Insert the row of an event; `none` where its id is there already. -/
def insert (t : EventTable) (event : Envelope P) (payloadJson : Json) : Option EventTable :=
  if h : event.eventId ∈ t.rows.map EventRow.id then none
  else some
    { rows := t.rows ++ [toRow t.nextRowid event payloadJson]
      rowids := by
        refine List.pairwise_append.mpr ⟨t.rowids, List.pairwise_singleton _ _, ?_⟩
        intro a ha b hb
        rw [List.mem_singleton.mp hb]
        exact rowid_lt_nextRowid ha
      ids := by
        rw [List.map_append, List.nodup_append]
        refine ⟨t.ids, List.nodup_singleton _, ?_⟩
        rintro a ha b hb rfl
        rw [List.map_singleton, List.mem_singleton] at hb
        obtain rfl : a = event.eventId := hb
        exact h ha }

end EventTable

/-! ## The statements -/

/-- Append an event; `fails` when the insert throws for a reason of its own, a full disk or a locked
database. Source: `event-log.ts` `append`. -/
def append (event : Envelope JsValue) : Prog Bool Err EventTable Unit := do
  match validate event with
  | .error e => throw e
  | .ok _ =>
    match event.payload.serialize with
    | .error e => throw (.error e)
    | .ok none => throw (.error "NOT NULL constraint failed: task_events.payload_json")
    | .ok (some payloadJson) =>
      let fails ← read
      let table ← get
      if fails = true then throw (.error "SqliteError")
      else
        match table.insert event payloadJson with
        | none => throw (.error "UNIQUE constraint failed: task_events.id")
        | some table => set table

/-- Source: `event-log.ts` `listStmt`. -/
def selectByRun (t : EventTable) (projectId runId : String) : List EventRow :=
  (t.rows.filter fun row => row.projectId = projectId ∧ row.runId = .text runId).insertionSort
    fun a b => a.createdAt < b.createdAt ∨ a.createdAt = b.createdAt ∧ a.rowid ≤ b.rowid

/-- Source: `event-log.ts` `listByRun`. -/
def listByRun (t : EventTable) (projectId runId : String) : List (Envelope Json) :=
  (selectByRun t projectId runId).map ofRow

/-! ## Calls -/

/-- A call of `append`. -/
structure Call where
  event : Envelope JsValue
  fails : Bool

/-- The call returns. -/
def accepts (t : EventTable) (call : Call) : Bool :=
  match append call.event call.fails t with
  | .ok _ _ => true
  | .error _ _ => false

/-- The table after a call. -/
def after (t : EventTable) (call : Call) : EventTable :=
  match append call.event call.fails t with
  | .ok _ t' => t'
  | .error _ t' => t'

/-- The events of the calls that return, in their order. -/
def accepted (t : EventTable) : List Call → List (Envelope JsValue)
  | [] => []
  | call :: calls =>
    if accepts t call = true then call.event :: accepted (after t call) calls
    else accepted (after t call) calls

/-- The event that is read for an accepted one: its payload goes through JSON, and an undefined
`skip_on_replay` is `false`. -/
def readBack (event : Envelope JsValue) : Envelope Json :=
  { event with
    skipOnReplay := some (event.skipOnReplay.getD false)
    payload := event.payload.normalize.getD .null }

section rows

variable {t t' : EventTable} {event : Envelope JsValue} {json : Json} {fails : Bool}
  {call : Call} {calls : List Call} {projectId runId : String}

@[simp] theorem nullableString_orNull (s : Option String) : nullableString (orNull s) = s := by
  cases s <;> rfl

/-- What is read of the row of an event. -/
theorem ofRow_toRow (h : event.payload.normalize = some json) (rowid : ℕ) :
    ofRow (toRow rowid event json) = readBack event := by
  have hskip : decide ((toRow rowid event json).skipOnReplay = 1) =
      event.skipOnReplay.getD false := by
    unfold toRow
    rcases event.skipOnReplay with _ | _ | _ <;> rfl
  rw [ofRow, hskip]
  simp only [toRow, readBack, nullableString_orNull, h, Option.getD_some]

theorem rows_of_insert (h : t.insert event json = some t') :
    t'.rows = t.rows ++ [toRow t.nextRowid event json] := by
  unfold EventTable.insert at h
  split at h
  · cases h
  · rw [← Option.some.inj h]

/-- **A call writes the row of its event, or nothing.** -/
theorem ensures_append :
    Ensures (append event) fails t
      (fun _ t' => ∃ json, event.payload.normalize = some json ∧
        t'.rows = t.rows ++ [toRow t.nextRowid event json])
      fun _ t' => t' = t := by
  unfold append
  cases validate event with
  | error e => exact rfl
  | ok _ =>
    cases hjson : event.payload.serialize with
    | error e => exact rfl
    | ok json? =>
      cases json? with
      | none => exact rfl
      | some json =>
        simp only [ensures_bind, ensures_read, ensures_get]
        cases fails with
        | true => exact rfl
        | false =>
          cases hinsert : t.insert event json with
          | none => exact rfl
          | some t' => exact ⟨json, JsValue.serialize_eq_iff.mp hjson, rows_of_insert hinsert⟩

theorem after_of_not_accepts (h : accepts t call = false) : after t call = t := by
  have hspec := @ensures_append t call.event call.fails
  unfold accepts at h
  unfold after
  cases hrun : append call.event call.fails t with
  | ok a t' => simp [hrun] at h
  | error e t' => exact hspec.of_error hrun

theorem rows_after_of_accepts (h : accepts t call = true) :
    ∃ json, call.event.payload.normalize = some json ∧
      (after t call).rows = t.rows ++ [toRow t.nextRowid call.event json] := by
  have hspec := @ensures_append t call.event call.fails
  unfold accepts at h
  unfold after
  cases hrun : append call.event call.fails t with
  | ok a t' => exact hspec.of_ok hrun
  | error e t' => simp [hrun] at h

/-- The rows after any calls are read as the accepted events. -/
theorem map_ofRow_foldl (t : EventTable) (calls : List Call) :
    (calls.foldl after t).rows.map ofRow =
      t.rows.map ofRow ++ (accepted t calls).map readBack := by
  induction calls generalizing t with
  | nil => simp [accepted]
  | cons call calls ih =>
    rw [List.foldl_cons, ih, accepted]
    cases haccepts : accepts t call with
    | true =>
      obtain ⟨json, hjson, hrows⟩ := rows_after_of_accepts haccepts
      rw [if_pos rfl, hrows, List.map_append, List.map_singleton, ofRow_toRow hjson,
        List.append_assoc]
      rfl
    | false =>
      rw [if_neg Bool.false_ne_true, after_of_not_accepts haccepts]

/-- The payload of an accepted event has a JSON text. -/
theorem normalize_of_mem_accepted (h : event ∈ accepted t calls) :
    ∃ json, event.payload.normalize = some json := by
  induction calls generalizing t with
  | nil => cases h
  | cons call calls ih =>
    rw [accepted] at h
    split at h
    next haccepts =>
      rcases List.mem_cons.mp h with rfl | h
      · obtain ⟨json, hjson, -⟩ := rows_after_of_accepts haccepts
        exact ⟨json, hjson⟩
      · exact ih h
    next => exact ih h

/-- The ids of the rows are those of the events. -/
theorem nodup_eventIds (t : EventTable) : ((t.rows.map ofRow).map Envelope.eventId).Nodup := by
  rw [List.map_map]
  exact t.ids

/-- The columns a listing selects by are read back as they are. -/
theorem selected_iff {row : EventRow} :
    row.projectId = projectId ∧ row.runId = .text runId ↔
      (ofRow row).projectId = projectId ∧ (ofRow row).runId = some runId := by
  refine and_congr_right fun _ => ?_
  show _ ↔ nullableString row.runId = some runId
  cases row.runId <;> simp [nullableString]

/-- A listing is the selected events by time. -/
theorem listByRun_eq (t : EventTable) (projectId runId : String) :
    listByRun t projectId runId =
      ((t.rows.map ofRow).filter fun e => e.projectId = projectId ∧ e.runId = some runId).lineup
        Envelope.createdAt := by
  have hselect : selectByRun t projectId runId =
      (t.rows.filter fun row => row.projectId = projectId ∧ row.runId = .text runId).lineup
        EventRow.createdAt :=
    List.insertionSort_eq_lineup (t.rowids.filter _)
  have hmap : ((t.rows.map ofRow).filter fun e => e.projectId = projectId ∧ e.runId = some runId) =
      (t.rows.filter fun row => row.projectId = projectId ∧ row.runId = .text runId).map ofRow := by
    rw [List.filter_map]
    refine congrArg (List.map ofRow) (List.filter_congr fun row _ => ?_)
    exact (decide_eq_decide.mpr selected_iff).symm
  rw [listByRun, hselect, hmap]
  exact List.map_insertionSort _ _ ofRow _ fun _ _ _ _ => Iff.rfl

end rows

/-- **After any calls of `append` a listing is the accepted events of the project and the run**, each
once and as it is read back, by the text of its time, and where times are the same in the order of the
calls. The payload of an accepted event has a JSON text, and a rejected call changes no listing. -/
theorem listByRun_spec (calls : List Call) (projectId runId : String) :
    let t := calls.foldl after .empty
    let events := (accepted .empty calls).filter fun e =>
      e.projectId = projectId ∧ e.runId = some runId
    let listing := listByRun t projectId runId
    (listing.Perm (events.map readBack) ∧ (listing.map Envelope.eventId).Nodup) ∧
    (listing.Pairwise (fun a b => a.createdAt ≤ b.createdAt) ∧
      ∀ time, (listing.filter fun e => e.createdAt = time) =
        (events.map readBack).filter fun e => e.createdAt = time) ∧
    (∀ event ∈ accepted .empty calls, ∃ json, event.payload.serialize = .ok (some json)) ∧
    ∀ call, accepts t call = false →
      ∀ projectId' runId', listByRun (after t call) projectId' runId' =
        listByRun t projectId' runId' := by
  intro t events listing
  have hrows : t.rows.map ofRow = (accepted .empty calls).map readBack :=
    map_ofRow_foldl .empty calls
  have hevents : ((t.rows.map ofRow).filter fun e => e.projectId = projectId ∧
      e.runId = some runId) = events.map readBack := by
    rw [hrows, List.filter_map]
    rfl
  have hlisting : listing = (events.map readBack).lineup Envelope.createdAt := by
    rw [← hevents]
    exact listByRun_eq t projectId runId
  have hperm : listing.Perm (events.map readBack) := by
    rw [hlisting]
    exact List.perm_insertionSort _ _
  have hnodup : ((events.map readBack).map Envelope.eventId).Nodup := by
    rw [← hevents]
    exact (nodup_eventIds t).sublist (List.filter_sublist.map _)
  refine ⟨⟨hperm, (hperm.map _).nodup_iff.mpr hnodup⟩, ⟨?_, fun time => ?_⟩, ?_, ?_⟩
  · rw [hlisting]
    exact List.pairwise_lineup
  · rw [hlisting]
    exact List.filter_rank_lineup time
  · intro event hevent
    obtain ⟨json, hjson⟩ := normalize_of_mem_accepted hevent
    exact ⟨json, JsValue.serialize_eq_iff.mpr hjson⟩
  · intro call hcall projectId' runId'
    rw [after_of_not_accepts hcall]

end SqliteEventLog

end AgentWorkflow
