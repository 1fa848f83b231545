import AgentWorkflow.Core.Events
import AgentWorkflow.Queue.Worker

/-!
# The enqueue phase of a batch

The loop of `runBatchV1` in `cli/run-command.ts` that enqueues its inputs, before the workers start.

* `emitTaskEnqueued` — a row, then its event: two statements, each of which may fail.
* `enqueueInputs` — one input after the other. **Nothing is taken back when a later one fails.**
* **`allOrNothing_iff`** — the phase is all or nothing exactly when nothing fails, or the very first
  insert does.
-/

namespace AgentWorkflow

open Fallible

namespace RunBatchV1

/-! ## The loop -/

/-- The event of an enqueued task. -/
def enqueuedEvent (entry : TaskQueueEntry) (id : String) (createdAt : ℕ) : EventEnvelope where
  eventId := "E-" ++ id
  eventType := .taskEnqueued
  projectId := entry.projectId
  taskId := some entry.taskId
  runId := none
  agentId := none
  skipOnReplay := false
  payload := [("next_role", .str entry.nextRole.text), ("status", .str entry.status.text)]
  createdAt := createdAt

/-- Source: `run-command.ts` `emitTaskEnqueued`. -/
def emitTaskEnqueued (queueId : String) (workOrder : ParsedWorkOrderV1) : WorldM Unit := do
  let entry ← TaskQueue.enqueue queueId workOrder .implementer
  let id ← onBackend uuid8
  let createdAt ← onBackend dateNow
  onBackend (EventLog.validatedAppend (enqueuedEvent entry id createdAt))

/-- Source: `run-command.ts` `runBatchV1`, the loop over `args.inputs`. -/
def enqueueInputs (queueId : String) : List ParsedWorkOrderV1 → WorldM Unit
  | [] => pure ()
  | workOrder :: rest => do
    emitTaskEnqueued queueId workOrder
    enqueueInputs queueId rest

/-! ## All or nothing -/

/-- Every input has its row and its event, and nothing else has changed. -/
def Enqueued (inputs : List ParsedWorkOrderV1) (w w' : World) : Prop :=
  (∃ es, w'.backend.events = w.backend.events ++ es ∧
    es.map (fun e => (e.eventType, e.taskId)) =
      inputs.map fun workOrder => (.taskEnqueued, some workOrder.taskId)) ∧
  (∀ workOrder ∈ inputs, ∃ ts, w'.core.row workOrder.taskId =
    some ⟨TaskQueue.enqueuedEntry workOrder .implementer ts, workOrder.toJson, none, none⟩) ∧
  ∀ t, t ∉ inputs.map (·.taskId) → w'.core.row t = w.core.row t

/-- No row and no event was written. -/
def Unchanged (w w' : World) : Prop :=
  w'.core.taskQueue = w.core.taskQueue ∧ w'.backend.events = w.backend.events

/-- The phase enqueues every input, or fails and writes nothing. -/
def AllOrNothing (queueId : String) (inputs : List ParsedWorkOrderV1) (env : Env) (w : World) :
    Prop :=
  Ensures (enqueueInputs queueId inputs) env w (fun _ w' => Enqueued inputs w w')
    fun _ w' => Unchanged w w'

/-- The insert of an input fails: its id has a row, or the statement throws. The readings of the
input begin with number `n`. -/
def InsertFails (env : Env) (c : Core) (n : ℕ) (workOrder : ParsedWorkOrderV1) : Prop :=
  env.throws (n + 1) .insertTask = true ∨ (c.row workOrder.taskId).isSome = true

/-- The append of an input's event fails: its id is blank, or the statement throws. -/
def AppendFails (env : Env) (n : ℕ) (workOrder : ParsedWorkOrderV1) : Prop :=
  blank workOrder.taskId = true ∨ env.throws (n + 4) (.appendEvent .taskEnqueued) = true

/-- Nothing fails; every input takes five readings. -/
def Clean (env : Env) (c : Core) (n : ℕ) (inputs : List ParsedWorkOrderV1) : Prop :=
  ∀ i workOrder, inputs[i]? = some workOrder →
    ¬ InsertFails env c (n + 5 * i) workOrder ∧ ¬ AppendFails env (n + 5 * i) workOrder

/-- The row of an input is there, and every row there was. -/
def Leaves (workOrder : ParsedWorkOrderV1) (w w' : World) : Prop :=
  (w'.core.row workOrder.taskId).isSome = true ∧
    ∀ t r, w.core.row t = some r → w'.core.row t = some r

instance (env : Env) (c : Core) (n : ℕ) (workOrder : ParsedWorkOrderV1) :
    Decidable (InsertFails env c n workOrder) := inferInstanceAs (Decidable (_ ∨ _))

instance (env : Env) (n : ℕ) (workOrder : ParsedWorkOrderV1) :
    Decidable (AppendFails env n workOrder) := inferInstanceAs (Decidable (_ ∨ _))

section specs

variable {env : Env} {w : World} {queueId : String} {workOrder : ParsedWorkOrderV1}
  {inputs : List ParsedWorkOrderV1}

/-- The event of an input is valid unless its id is blank. -/
theorem enqueuedEvent_valid {id : String} {ts createdAt : ℕ} :
    (enqueuedEvent (TaskQueue.enqueuedEntry workOrder .implementer ts) id createdAt).Valid ↔
      blank workOrder.taskId = false := by
  have hid : "E-" ++ id ≠ "" := by simp
  rw [valid_iff]
  simp only [enqueuedEvent, TaskQueue.enqueuedEntry, requiredIds, EventEnvelope.id,
    List.mem_singleton, forall_eq, nonBlank_some, ne_eq, hid, workOrder.valid.projectId,
    not_false_eq_true, true_and, assertV1PayloadFields]
  exact and_iff_left rfl

/-- What one input comes to. -/
theorem emitTaskEnqueued_spec :
    Ensures (emitTaskEnqueued queueId workOrder) env w
      (fun _ w' => ¬ InsertFails env w.core w.backend.calls workOrder ∧
        ¬ AppendFails env w.backend.calls workOrder ∧
        w'.backend.calls = w.backend.calls + 5 ∧ Enqueued [workOrder] w w')
      fun _ w' => (InsertFails env w.core w.backend.calls workOrder ∧ Unchanged w w') ∨
        (¬ InsertFails env w.core w.backend.calls workOrder ∧
          AppendFails env w.backend.calls workOrder ∧ Leaves workOrder w w') := by
  simp only [emitTaskEnqueued, TaskQueue.enqueue, bind_assoc, pure_bind, ensures_bind,
    ensures_onBackend, ensures_dateNow]
  refine QueueStore.ensures_insert (fun hfails e => Or.inl ⟨hfails, rfl, rfl⟩) fun q hq hthrows => ?_
  obtain ⟨c', hc'⟩ : ∃ c', c' = (({ w.core with taskQueue := q } : Core).cache workOrder.taskId
    workOrder).note queueId (.enqueued workOrder .implementer) := ⟨_, rfl⟩
  have hrow : ∀ k, c'.row k = if k = workOrder.taskId then
      some ⟨TaskQueue.enqueuedEntry workOrder .implementer (env.clock w.backend.calls),
        workOrder.toJson, none, none⟩ else w.core.row k := by
    intro k
    rw [hc', row_note, row_cache]
    exact Table.find?_insert hq k
  have hnone : w.core.row workOrder.taskId = none := Table.find?_of_insert hq
  have hinsert : ¬ InsertFails env w.core w.backend.calls workOrder := by
    rintro (h | h)
    · rw [hthrows] at h
      cases h
    · rw [hnone] at h
      cases h
  have hleaves : ∀ b, Leaves workOrder w ⟨c', b⟩ := by
    intro b
    refine ⟨by rw [hrow, if_pos rfl]; rfl, fun t r hr => ?_⟩
    rw [hrow, if_neg ?_]
    · exact hr
    · rintro rfl
      rw [hnone] at hr
      cases hr
  simp only [record, ensures_modifyCore, ensures_uuid8, EventLog.ensures_validatedAppend,
    EventLog.ensures_append_iff, ← hc']
  refine ⟨fun err herr => ?_, fun hvalid => ⟨fun hthrow => ?_, fun hthrow => ?_⟩⟩
  · refine Or.inr ⟨hinsert, Or.inl ?_, hleaves _⟩
    by_contra hblank
    refine not_valid_of_error herr (enqueuedEvent_valid.mpr ?_)
    exact Bool.eq_false_of_not_eq_true hblank
  · exact Or.inr ⟨hinsert, Or.inr hthrow, hleaves _⟩
  · have hblank := enqueuedEvent_valid.mp hvalid
    have happend : ¬ AppendFails env w.backend.calls workOrder := by
      rintro (h | h)
      · rw [hblank] at h
        cases h
      · exact absurd (hthrow.symm.trans h) (by simp)
    refine ⟨hinsert, happend, trivial, ⟨_, rfl, rfl⟩, fun wo hwo => ?_, fun t ht => ?_⟩
    · obtain rfl := List.mem_singleton.mp hwo
      exact ⟨_, (hrow _).trans (if_pos rfl)⟩
    · exact (hrow t).trans (if_neg fun h => ht (List.mem_singleton.mpr h))

/-! ## The loop, input by input -/

/-- An insert that fails or not, seen from a core with the same row. -/
theorem insertFails_congr {c c' : Core} {n : ℕ} (h : c'.row workOrder.taskId =
    c.row workOrder.taskId) : InsertFails env c' n workOrder ↔ InsertFails env c n workOrder := by
  unfold InsertFails
  rw [h]

theorem clean_cons {c : Core} {n : ℕ} : Clean env c n (workOrder :: inputs) ↔
    (¬ InsertFails env c n workOrder ∧ ¬ AppendFails env n workOrder) ∧
      Clean env c (n + 5) inputs := by
  constructor
  · intro h
    refine ⟨h 0 workOrder rfl, fun i wo hwo => ?_⟩
    have hi := h (i + 1) wo hwo
    rwa [show n + 5 * (i + 1) = n + 5 + 5 * i by omega] at hi
  · rintro ⟨hfirst, hrest⟩ i wo hwo
    rcases i with _ | i
    · obtain rfl := Option.some.inj hwo
      exact hfirst
    · have hi := hrest i wo hwo
      rwa [show n + 5 + 5 * i = n + 5 * (i + 1) by omega] at hi

/-- The inputs that follow are seen alike from a core with the same rows of theirs. -/
theorem clean_congr {c c' : Core} {n : ℕ}
    (h : ∀ wo ∈ inputs, c'.row wo.taskId = c.row wo.taskId) :
    Clean env c' n inputs ↔ Clean env c n inputs := by
  have hiff : ∀ i wo, inputs[i]? = some wo →
      (InsertFails env c' (n + 5 * i) wo ↔ InsertFails env c (n + 5 * i) wo) :=
    fun i wo hwo => insertFails_congr (h wo (List.mem_of_getElem? hwo))
  unfold Clean
  exact forall_congr' fun i => forall_congr' fun wo => imp_congr_right fun hwo =>
    and_congr_left' (not_congr (hiff i wo hwo))

/-- One more input in front. -/
theorem Enqueued.cons {w₁ w' : World} (hid : workOrder.taskId ∉ inputs.map (·.taskId))
    (h : Enqueued [workOrder] w w₁) (h' : Enqueued inputs w₁ w') :
    Enqueued (workOrder :: inputs) w w' := by
  obtain ⟨⟨es, hes, hmap⟩, hrow, hrest⟩ := h
  obtain ⟨⟨es', hes', hmap'⟩, hrow', hrest'⟩ := h'
  refine ⟨⟨es ++ es', ?_, ?_⟩, fun wo hwo => ?_, fun t ht => ?_⟩
  · rw [hes', hes, List.append_assoc]
  · rw [List.map_append, hmap, hmap']
    rfl
  · rcases List.mem_cons.mp hwo with rfl | hwo
    · obtain ⟨ts, hts⟩ := hrow wo List.mem_cons_self
      exact ⟨ts, (hrest' _ hid).trans hts⟩
    · exact hrow' wo hwo
  · rw [List.map_cons, List.mem_cons, not_or] at ht
    exact (hrest' t ht.2).trans (hrest t (by simpa using ht.1))

/-- **What the loop comes to**: everything, or what the first failure leaves. -/
theorem enqueueInputs_spec (hids : (inputs.map (·.taskId)).Nodup) :
    Ensures (enqueueInputs queueId inputs) env w
      (fun _ w' => Clean env w.core w.backend.calls inputs ∧ Enqueued inputs w w')
      fun _ w' => ¬ Clean env w.core w.backend.calls inputs ∧ ∃ wo, inputs.head? = some wo ∧
        ((InsertFails env w.core w.backend.calls wo ∧ Unchanged w w') ∨
          (¬ InsertFails env w.core w.backend.calls wo ∧ Leaves wo w w')) := by
  induction inputs generalizing w with
  | nil =>
    refine ensures_pure.mpr ⟨fun i wo hwo => ?_, ⟨[], by simp, rfl⟩, by simp, fun _ _ => rfl⟩
    simp at hwo
  | cons wo rest ih =>
    rw [List.map_cons, List.nodup_cons] at hids
    rw [enqueueInputs, ensures_bind]
    refine emitTaskEnqueued_spec.mono (fun _ w₁ ⟨hinsert, happend, hcalls, hone⟩ => ?_)
      fun e w' herr => ?_
    · have hrows : ∀ wo' ∈ rest, w₁.core.row wo'.taskId = w.core.row wo'.taskId := by
        intro wo' hwo'
        refine hone.2.2 _ fun h => hids.1 ?_
        exact List.mem_map.mpr ⟨wo', hwo', List.mem_singleton.mp h⟩
      refine (ih hids.2).mono (fun _ w' ⟨hclean, hall⟩ => ?_) fun e w' ⟨hclean, wo', hwo', h⟩ => ?_
      · rw [hcalls, clean_congr hrows] at hclean
        exact ⟨clean_cons.mpr ⟨⟨hinsert, happend⟩, hclean⟩, hone.cons hids.1 hall⟩
      · rw [hcalls, clean_congr hrows] at hclean
        refine ⟨fun h => hclean (clean_cons.mp h).2, wo, rfl, Or.inr ⟨hinsert, ?_⟩⟩
        obtain ⟨ts, hts⟩ := hone.2.1 wo List.mem_cons_self
        have hkept : ∀ t r, w.core.row t = some r → w₁.core.row t = some r := by
          intro t r hr
          refine (hone.2.2 t fun h => hinsert (Or.inr ?_)).trans hr
          obtain rfl := List.mem_singleton.mp h
          rw [hr]
          rfl
        rcases h with ⟨-, hq, -⟩ | ⟨-, -, hkept'⟩
        · have hrow : ∀ t, w'.core.row t = w₁.core.row t := fun t => by rw [Core.row, hq]; rfl
          exact ⟨by rw [hrow, hts]; rfl, fun t r hr => (hrow t).trans (hkept t r hr)⟩
        · exact ⟨by rw [hkept' _ _ hts]; rfl, fun t r hr => hkept' t r (hkept t r hr)⟩
    · rcases herr with ⟨hinsert, hun⟩ | ⟨hinsert, happend, hleaves⟩
      · exact ⟨fun h => (clean_cons.mp h).1.1 hinsert, wo, rfl, Or.inl ⟨hinsert, hun⟩⟩
      · exact ⟨fun h => (clean_cons.mp h).1.2 happend, wo, rfl, Or.inr ⟨hinsert, hleaves⟩⟩

/-- **The phase is all or nothing exactly when nothing fails, or the very first insert does.** -/
theorem allOrNothing_iff (hids : (inputs.map (·.taskId)).Nodup) :
    AllOrNothing queueId inputs env w ↔ Clean env w.core w.backend.calls inputs ∨
      ∃ wo, inputs.head? = some wo ∧ InsertFails env w.core w.backend.calls wo := by
  have hspec := @enqueueInputs_spec env w queueId inputs hids
  constructor
  · intro h
    have hboth := Ensures.and h hspec
    unfold Ensures at hboth
    rcases hm : enqueueInputs queueId inputs env w with ⟨a, w'⟩ | ⟨e, w'⟩
    · rw [hm] at hboth
      exact Or.inl hboth.2.1
    · rw [hm] at hboth
      obtain ⟨hun, -, wo, hwo, ⟨hinsert, -⟩ | ⟨hinsert, hrow, -⟩⟩ := hboth
      · exact Or.inr ⟨wo, hwo, hinsert⟩
      · refine Or.inr ⟨wo, hwo, Or.inr ?_⟩
        rwa [Core.row, hun.1] at hrow
  · intro h
    refine hspec.mono (fun _ w' hok => hok.2) fun e w' ⟨hclean, wo, hwo, hcase⟩ => ?_
    rcases h with h | ⟨wo', hwo', hinsert⟩
    · exact absurd h hclean
    · obtain rfl := Option.some.inj (hwo.symm.trans hwo')
      rcases hcase with ⟨-, hun⟩ | ⟨hne, -⟩
      · exact hun
      · exact absurd hinsert hne

end specs

/-! ## A batch that fails halfway -/

/-- A second task. -/
def otherWorkOrder : ParsedWorkOrderV1 :=
  { Sample.workOrder with taskId := "T-2", valid := by decide +kernel }

/-- A database in which the second task has a row from an earlier invocation. -/
def occupied : World where
  core :=
    { Sample.system.world.core with
      taskQueue :=
        { rows := [⟨TaskQueue.enqueuedEntry otherWorkOrder .implementer 0, otherWorkOrder.toJson,
            none, none⟩]
          nodup := by decide } }
  backend := Sample.system.world.backend

/-- The enqueue phase throws, and leaves a row that a later invocation can claim. -/
def leavesQueued (t : String) : EStateM.Result Err World Unit → Bool
  | .ok _ _ => false
  | .error _ w => (w.core.row t).any fun r => QueueStore.claimable 0 r

/-- A row that was not there before and is left by a failure. -/
theorem not_allOrNothing_of_leavesQueued {queueId t : String} {inputs : List ParsedWorkOrderV1}
    {env : Env} {w : World} (hnone : w.core.row t = none)
    (hleaves : leavesQueued t (enqueueInputs queueId inputs env w) = true) :
    ¬ AllOrNothing queueId inputs env w := by
  intro h
  rcases hm : enqueueInputs queueId inputs env w with ⟨a, w'⟩ | ⟨e, w'⟩
  · rw [hm] at hleaves
    cases hleaves
  · obtain ⟨hq, -⟩ := h.of_error hm
    rw [hm] at hleaves
    simp only [leavesQueued, Core.row, hq] at hleaves
    rw [show w.core.taskQueue.find? t = none from hnone] at hleaves
    cases hleaves

/-- The first task is enqueued, the second is refused, and **the first stays queued** for whoever
opens the database next. -/
theorem first_left_queued : ([Sample.workOrder, otherWorkOrder].map (·.taskId)).Nodup ∧
    leavesQueued "T-1" (enqueueInputs "cli" [Sample.workOrder, otherWorkOrder] Sample.env
      occupied) = true ∧
    ¬ AllOrNothing "cli" [Sample.workOrder, otherWorkOrder] Sample.env occupied := by
  have hleaves : leavesQueued "T-1" (enqueueInputs "cli" [Sample.workOrder, otherWorkOrder]
      Sample.env occupied) = true := by decide +kernel
  exact ⟨by decide, hleaves, not_allOrNothing_of_leavesQueued (by decide +kernel) hleaves⟩

/-- Two new tasks. -/
theorem allOrNothing_twoNew :
    AllOrNothing "cli" [Sample.workOrder, otherWorkOrder] Sample.env Sample.system.world := by
  have hids : ([Sample.workOrder, otherWorkOrder].map (·.taskId)).Nodup := by decide
  have hclean : Clean Sample.env Sample.system.world.core Sample.system.world.backend.calls
      [Sample.workOrder, otherWorkOrder] := by
    refine clean_cons.mpr ⟨by decide +kernel, ?_⟩
    refine clean_cons.mpr ⟨by decide +kernel, ?_⟩
    intro i wo hwo
    simp at hwo
  rw [allOrNothing_iff hids]
  exact Or.inl hclean

end RunBatchV1

end AgentWorkflow
