import AgentWorkflow.Session.SessionSnapshot
import AgentWorkflow.Storage.SqliteEventLog

/-!
# The log of the backend over its table

The rest of the program is modelled over `EventLog`: a list of events with a type of their own, JSON
payloads and times in milliseconds. Here that log is connected to `SqliteEventLog`.

* `ofEvent` — the envelope of an event, its time as `time` writes it.
* `validate_ofEvent` — **the checks are the same.**
* `Represents` — the table reads as the events; `represents_after`: a call keeps it so, and
  `represents_validatedAppend`: so does the log of the backend.
* **`listByRun_foldl`** — after any calls the table lists what the log does, where later times are
  greater texts.
-/

namespace JsValue

mutual

/-- A JSON value as a JavaScript one. -/
def ofJson : Json → JsValue
  | .null => .null
  | .bool b => .bool b
  | .num q => .num q
  | .str s => .str s
  | .arr items => .arr (ofItems items)
  | .obj fields => .obj (ofFields fields)

/-- The items of an array. -/
def ofItems : List Json → List JsValue
  | [] => []
  | item :: items => ofJson item :: ofItems items

/-- The fields of an object. -/
def ofFields : List (String × Json) → List (String × JsValue)
  | [] => []
  | (key, json) :: fields => (key, ofJson json) :: ofFields fields

end

mutual

theorem serializeFrom_ofJson (convert : Bool) :
    (json : Json) → serializeFrom convert (ofJson json) = .ok (some json)
  | .null => rfl
  | .bool _ => rfl
  | .num _ => rfl
  | .str _ => rfl
  | .arr items => by
    simp only [ofJson, serializeFrom, serializeItems_ofItems items]
    rfl
  | .obj fields => by
    simp only [ofJson, serializeFrom, serializeFields_ofFields fields]
    rfl

theorem serializeItems_ofItems : (items : List Json) → serializeItems (ofItems items) = .ok items
  | [] => rfl
  | item :: items => by
    simp only [ofItems, serializeItems, serializeFrom_ofJson true item, serializeItems_ofItems items]
    rfl

theorem serializeFields_ofFields :
    (fields : List (String × Json)) → serializeFields (ofFields fields) = .ok fields
  | [] => rfl
  | (key, json) :: fields => by
    simp only [ofFields, serializeFields, serializeFrom_ofJson true json,
      serializeFields_ofFields fields]
    rfl

end

/-- JSON values are left as they are. -/
theorem normalize_obj_ofFields (fields : List (String × Json)) :
    (JsValue.obj (ofFields fields)).normalize = some (.obj fields) := by
  rw [← serialize_eq_iff]
  exact serializeFrom_ofJson true (.obj fields)

end JsValue

namespace AgentWorkflow

open Fallible

namespace SqliteEventLog

/-! ## Events as envelopes -/

/-- The envelope of an event. -/
def ofEvent (time : ℕ → String) (e : EventEnvelope) : Envelope JsValue where
  eventId := e.eventId
  eventType := e.eventType.text
  projectId := e.projectId
  taskId := e.taskId
  runId := e.runId
  agentId := e.agentId
  correlationId := none
  causationId := none
  sideEffectType := none
  skipOnReplay := some e.skipOnReplay
  payload := .obj (JsValue.ofFields e.payload)
  createdAt := time e.createdAt

section checks

variable {time : ℕ → String} {e e' : EventEnvelope}

theorem eventType?_text (t : EventType) : eventType? t.text = some t := by
  cases t <;> rfl

/-- A JSON value is seen by the checks. -/
theorem seen_ofJson (json : Json) : ∃ json', seen (.ofJson json) = some json' := by
  cases json <;> exact ⟨_, rfl⟩

theorem seenFields_cons {json json' : Json} (h : seen (.ofJson json) = some json')
    (key : String) (payload : List (String × Json)) :
    seenFields (.obj (JsValue.ofFields ((key, json) :: payload))) =
      (key, json') :: seenFields (.obj (JsValue.ofFields payload)) := by
  refine List.filterMap_cons_some ?_
  show (seen (.ofJson json)).map (key, ·) = _
  rw [h]
  rfl

/-- What the checks see of the fields of a payload. -/
theorem lookup_seenFields (key : String) (payload : List (String × Json)) :
    (seenFields (.obj (JsValue.ofFields payload))).lookup key =
      (payload.lookup key).bind fun json => seen (.ofJson json) := by
  induction payload with
  | nil => rfl
  | cons field payload ih =>
    obtain ⟨k, json⟩ := field
    obtain ⟨json', hjson⟩ := seen_ofJson json
    rw [seenFields_cons hjson, List.lookup_cons, List.lookup_cons, ih]
    cases key == k with
    | true => exact hjson.symm
    | false => rfl

theorem payloadText_seenFields (payload : List (String × Json)) :
    payloadText (seenFields (.obj (JsValue.ofFields payload))) = payloadText payload := by
  funext key
  unfold payloadText
  rw [lookup_seenFields]
  cases payload.lookup key with
  | none => rfl
  | some json => cases json <;> rfl

theorem payloadTextOr_seenFields (payload : List (String × Json)) :
    payloadTextOr (seenFields (.obj (JsValue.ofFields payload))) = payloadTextOr payload := by
  funext key id
  unfold payloadTextOr
  rw [lookup_seenFields]
  cases payload.lookup key with
  | none => rfl
  | some json => cases json <;> rfl

theorem payloadNumber_seenFields (payload : List (String × Json)) :
    payloadNumber (seenFields (.obj (JsValue.ofFields payload))) = payloadNumber payload := by
  funext key
  unfold payloadNumber
  rw [lookup_seenFields]
  cases payload.lookup key with
  | none => rfl
  | some json => cases json <;> rfl

/-- The payload checks read the payload by its texts and numbers. -/
theorem assertV1PayloadFields_congr (htype : e'.eventType = e.eventType)
    (htask : e'.taskId = e.taskId) (hagent : e'.agentId = e.agentId)
    (htext : payloadText e'.payload = payloadText e.payload)
    (htextOr : payloadTextOr e'.payload = payloadTextOr e.payload)
    (hnumber : payloadNumber e'.payload = payloadNumber e.payload) :
    assertV1PayloadFields e' = assertV1PayloadFields e := by
  unfold assertV1PayloadFields assertQuotaFields assertRole requires
  rw [htype, htask, hagent, htext, htextOr, hnumber]

/-- The payload checks are the same. -/
theorem assertPayloadFields_ofEvent (time : ℕ → String) (e : EventEnvelope) :
    assertPayloadFields (ofEvent time e) = assertV1PayloadFields e := by
  have htype : eventType? (ofEvent time e).eventType = some e.eventType :=
    eventType?_text e.eventType
  rw [assertPayloadFields, htype]
  exact assertV1PayloadFields_congr rfl rfl rfl (payloadText_seenFields e.payload)
    (payloadTextOr_seenFields e.payload) (payloadNumber_seenFields e.payload)

/-- The ids checks are the same. -/
theorem assertIds_ofEvent (time : ℕ → String) (e : EventEnvelope) :
    assertIds (ofEvent time e) = assertRequiredEventIds e := by
  have hids : requiredIdsOf (ofEvent time e).eventType = requiredIds e.eventType := by
    show requiredIdsOf e.eventType.text = _
    rw [requiredIdsOf, eventType?_text]
  have hid : (ofEvent time e).id = e.id := by
    funext id
    cases id <;> rfl
  unfold assertIds assertRequiredEventIds
  rw [hids, hid]
  rfl

/-- The schemas are the same, when a time is never written as no text. -/
theorem parseEventEnvelopeSchema_ofEvent (h : time e.createdAt ≠ "") :
    parseEventEnvelopeSchema (ofEvent time e) = parseEventEnvelope e := by
  have hunit : ∀ x : Except Err Unit, (x >>= fun _ => .ok ()) = x := by
    rintro (err | ⟨⟩) <;> rfl
  have hcreated : (ofEvent time e).createdAt ≠ "" := h
  have hpayload : (ofEvent time e).payload.fields?.isSome = true := rfl
  unfold parseEventEnvelopeSchema parseEventEnvelope
  rw [hpayload, decide_eq_true hcreated]
  refine congrArg _ (funext fun _ => congrArg _ (funext fun _ => ?_))
  exact hunit (demand (decide (e.projectId ≠ "")) "ZodError")

/-- **The checks are the same.** -/
theorem validate_ofEvent (h : time e.createdAt ≠ "") :
    validate (ofEvent time e) = validateEvent e := by
  rw [validate, validateEvent, parseEventEnvelopeSchema_ofEvent h, assertIds_ofEvent,
    assertPayloadFields_ofEvent]
  rfl

end checks

/-! ## Tables of events -/

/-- What is read of an event of the log. -/
def readEvent (time : ℕ → String) (e : EventEnvelope) : Envelope Json := readBack (ofEvent time e)

/-- A log of events after a call: a valid event with a new id is appended, unless the call fails. -/
def record (events : List EventEnvelope) (call : EventEnvelope × Bool) : List EventEnvelope :=
  if call.1.Valid ∧ call.2 = false ∧ call.1.eventId ∉ events.map EventEnvelope.eventId then
    events ++ [call.1]
  else events

/-- The call of the table for a call of the log. -/
def ofCall (time : ℕ → String) (call : EventEnvelope × Bool) : Call := ⟨ofEvent time call.1, call.2⟩

/-- The table reads as the events. -/
def Represents (time : ℕ → String) (events : List EventEnvelope) (t : EventTable) : Prop :=
  t.rows.map ofRow = events.map (readEvent time)

section tables

variable {time : ℕ → String} {instants : Set ℕ} {events : List EventEnvelope} {e : EventEnvelope}
  {t : EventTable} {call : EventEnvelope × Bool} {calls : List (EventEnvelope × Bool)}

theorem represents_empty (time : ℕ → String) : Represents time [] .empty := rfl

theorem Represents.eventIds (h : Represents time events t) :
    t.rows.map EventRow.id = events.map EventEnvelope.eventId := by
  have hids := congrArg (List.map Envelope.eventId) h
  rw [List.map_map, List.map_map] at hids
  exact hids

/-- The insert of an event finds its id there, or adds the event. -/
theorem insert_ofEvent (h : Represents time events t) :
    match t.insert (ofEvent time e) (.obj e.payload) with
    | none => e.eventId ∈ events.map EventEnvelope.eventId
    | some t' => e.eventId ∉ events.map EventEnvelope.eventId ∧ Represents time (events ++ [e]) t' := by
  have hpayload : (ofEvent time e).payload.normalize = some (.obj e.payload) :=
    JsValue.normalize_obj_ofFields e.payload
  rw [← h.eventIds]
  cases hinsert : t.insert (ofEvent time e) (.obj e.payload) with
  | none =>
    unfold EventTable.insert at hinsert
    split at hinsert
    next hmem => exact hmem
    next => cases hinsert
  | some t' =>
    refine ⟨fun hmem => ?_, ?_⟩
    · unfold EventTable.insert at hinsert
      rw [dif_pos (show (ofEvent time e).eventId ∈ _ from hmem)] at hinsert
      cases hinsert
    · unfold Represents
      rw [rows_of_insert hinsert, List.map_append, h, List.map_append, List.map_singleton,
        ofRow_toRow hpayload]
      rfl

/-- **A call for an event returns when the event is valid, nothing fails and its id is new**; then the
table reads as the events and this one, else it is as before. -/
theorem ensures_append_ofEvent (h : Represents time events t) (htime : time e.createdAt ≠ "")
    (fails : Bool) :
    Ensures (append (ofEvent time e)) fails t
      (fun _ t' => (e.Valid ∧ fails = false ∧ e.eventId ∉ events.map EventEnvelope.eventId) ∧
        Represents time (events ++ [e]) t')
      fun _ t' => ¬ (e.Valid ∧ fails = false ∧ e.eventId ∉ events.map EventEnvelope.eventId) ∧
        t' = t := by
  have hserialize : (ofEvent time e).payload.serialize = .ok (some (.obj e.payload)) :=
    JsValue.serializeFrom_ofJson true (.obj e.payload)
  unfold append
  rw [validate_ofEvent htime, hserialize]
  cases hvalidate : validateEvent e with
  | error err => exact ⟨fun hvalid => not_valid_of_error hvalidate hvalid.1, rfl⟩
  | ok _ =>
    have hvalid : e.Valid := by
      unfold EventEnvelope.Valid
      rw [hvalidate]
      rfl
    have hinsert := insert_ofEvent (e := e) h
    simp only [ensures_bind, ensures_read, ensures_get]
    cases fails with
    | true => exact ⟨fun hfails => Bool.noConfusion hfails.2.1, rfl⟩
    | false =>
      rw [if_neg Bool.false_ne_true]
      cases ht' : t.insert (ofEvent time e) (.obj e.payload) with
      | none =>
        rw [ht'] at hinsert
        exact ⟨fun hnew => hnew.2.2 hinsert, rfl⟩
      | some t' =>
        rw [ht'] at hinsert
        exact ⟨⟨hvalid, rfl, hinsert.1⟩, hinsert.2⟩

/-- A call keeps the table and the log together. -/
theorem represents_after (h : Represents time events t) (htime : time call.1.createdAt ≠ "") :
    Represents time (record events call) (after t (ofCall time call)) := by
  have hspec := ensures_append_ofEvent h htime call.2
  unfold record after ofCall
  cases hrun : append (ofEvent time call.1) call.2 t with
  | ok a t' =>
    rw [if_pos (hspec.of_ok hrun).1]
    exact (hspec.of_ok hrun).2
  | error err t' =>
    obtain ⟨hrejected, rfl⟩ := hspec.of_error hrun
    rw [if_neg hrejected]
    exact h

/-- So do any calls. -/
theorem represents_foldl (h : Represents time events t)
    (htime : ∀ call ∈ calls, time call.1.createdAt ≠ "") :
    Represents time (calls.foldl record events) ((calls.map (ofCall time)).foldl after t) := by
  induction calls generalizing events t with
  | nil => exact h
  | cons call calls ih =>
    exact ih (represents_after h (htime call List.mem_cons_self)) fun c hc =>
      htime c (List.mem_cons_of_mem call hc)

/-- An event of the log is that of a call. -/
theorem mem_foldl_record (h : e ∈ calls.foldl record events) :
    e ∈ events ∨ ∃ call ∈ calls, call.1 = e := by
  induction calls generalizing events with
  | nil => exact Or.inl h
  | cons call calls ih =>
    rcases ih h with hmem | ⟨c, hc, rfl⟩
    · unfold record at hmem
      split at hmem
      · rcases List.mem_append.mp hmem with hmem | hmem
        · exact Or.inl hmem
        · exact Or.inr ⟨call, List.mem_cons_self, (List.mem_singleton.mp hmem).symm⟩
      · exact Or.inl hmem
    · exact Or.inr ⟨c, List.mem_cons_of_mem call hc, rfl⟩

/-- The log of the backend appends what the table does, a fresh id being its own affair. -/
theorem represents_validatedAppend {env : Env} {b : Backend} (h : Represents time b.events t)
    (htime : time e.createdAt ≠ "") (hnew : e.eventId ∉ b.events.map EventEnvelope.eventId) :
    Ensures (EventLog.validatedAppend e) env b
      (fun _ b' => ∃ t', append (ofEvent time e) false t = .ok () t' ∧ Represents time b'.events t')
      fun _ b' => b'.events = b.events := by
  rw [EventLog.ensures_validatedAppend, EventLog.ensures_append_iff]
  refine ⟨fun _ _ => rfl, fun hvalid => ⟨fun _ => rfl, fun _ => ?_⟩⟩
  have hspec := ensures_append_ofEvent h htime false
  cases hrun : append (ofEvent time e) false t with
  | ok a t' => exact ⟨t', rfl, (hspec.of_ok hrun).2⟩
  | error err t' => exact absurd ⟨hvalid, rfl, hnew⟩ (hspec.of_error hrun).1

/-- **Both list the same**, where the texts of the times are in the order of the times. -/
theorem listByRun_of_represents (h : Represents time events t) (htime : StrictMonoOn time instants)
    (hevents : ∀ e ∈ events, e.createdAt ∈ instants) (projectId runId : String) :
    listByRun t projectId runId =
      (EventLog.listByRun events projectId runId).map (readEvent time) := by
  have hfilter : ((events.map (readEvent time)).filter fun e =>
      e.projectId = projectId ∧ e.runId = some runId) =
      (events.filter fun e => e.projectId = projectId ∧ e.runId = some runId).map
        (readEvent time) := by
    rw [List.filter_map]
    rfl
  rw [listByRun_eq, h, hfilter, EventLog.listByRun]
  refine (List.map_insertionSort _ _ (readEvent time) _ fun a ha b hb => ?_).symm
  exact (htime.le_iff_le (hevents a (List.mem_of_mem_filter ha))
    (hevents b (List.mem_of_mem_filter hb))).symm

/-- **After any calls the table lists what the log does.** -/
theorem listByRun_foldl (hinstants : ∀ call ∈ calls, call.1.createdAt ∈ instants)
    (htext : ∀ n ∈ instants, time n ≠ "") (htime : StrictMonoOn time instants)
    (projectId runId : String) :
    listByRun ((calls.map (ofCall time)).foldl after .empty) projectId runId =
      (EventLog.listByRun (calls.foldl record []) projectId runId).map (readEvent time) := by
  have hrepresents : Represents time (calls.foldl record [])
      ((calls.map (ofCall time)).foldl after .empty) :=
    represents_foldl (represents_empty time) fun call hcall => htext _ (hinstants call hcall)
  refine listByRun_of_represents hrepresents htime (fun e he => ?_) projectId runId
  rcases mem_foldl_record he with hnil | ⟨call, hcall, rfl⟩
  · exact absurd hnil List.not_mem_nil
  · exact hinstants call hcall

end tables

end SqliteEventLog

end AgentWorkflow
