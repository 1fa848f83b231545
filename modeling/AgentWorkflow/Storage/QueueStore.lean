import AgentWorkflow.Storage.Database
import Mathlib.Algebra.Order.Floor.Semiring
import Mathlib.Data.List.Sort
import Mathlib.Data.Rat.Floor

/-!
# The queue store

`SqliteQueueStore` of `storage/queue-store.ts`, statement by statement.

* `claim` — select the oldest claimable row, then update it under the same predicate.
* `release` — a patch of the columns a release may set; another key is refused.
* `addWorkOrderExcludeAgentIds` — rewrites the exclude list inside the raw JSON.
* `setReviewContext`, `setHandoffPacketUri` and their readers — blank texts are refused.

**Every write goes through `Core.updateRow`**, after the statement's storage call: a call that
throws has changed nothing.
-/

namespace AgentWorkflow

open Fallible

/-! ## Helpers -/

/-- The characters `String.prototype.trim` removes. -/
def isTrimmed (ch : Char) : Bool :=
  ch ∈ ['\t', '\n', '\x0b', '\x0c', '\r', ' ', '\u00a0', '\u1680', '\u2000', '\u2001', '\u2002',
    '\u2003', '\u2004', '\u2005', '\u2006', '\u2007', '\u2008', '\u2009', '\u200a', '\u2028',
    '\u2029', '\u202f', '\u205f', '\u3000', '\ufeff']

/-- `s.trim() === ""`. -/
def blank (s : String) : Bool := s.toList.all isTrimmed

/-- The loop of `dedupeFirstSeen`, with the values seen so far. -/
def dedupeFrom (seen : List String) : List String → List String
  | [] => []
  | v :: vs => if v ∈ seen then dedupeFrom seen vs else v :: dedupeFrom (v :: seen) vs

/-- Source: `queue-store.ts` `dedupeFirstSeen`. -/
def dedupeFirstSeen (values : List String) : List String := dedupeFrom [] values

theorem mem_dedupeFrom {x : String} {seen values : List String} :
    x ∈ dedupeFrom seen values ↔ x ∈ values ∧ x ∉ seen := by
  induction values generalizing seen with
  | nil => simp [dedupeFrom]
  | cons v vs ih =>
    by_cases hv : v ∈ seen
    · rw [dedupeFrom, if_pos hv, ih]
      constructor
      · rintro ⟨h, hs⟩
        exact ⟨List.mem_cons_of_mem v h, hs⟩
      · rintro ⟨h, hs⟩
        rcases List.mem_cons.mp h with rfl | h
        · exact absurd hv hs
        · exact ⟨h, hs⟩
    · rw [dedupeFrom, if_neg hv, List.mem_cons, ih]
      constructor
      · rintro (rfl | ⟨h, hs⟩)
        · exact ⟨List.mem_cons_self, hv⟩
        · exact ⟨List.mem_cons_of_mem v h, fun h' => hs (List.mem_cons_of_mem v h')⟩
      · rintro ⟨h, hs⟩
        by_cases hx : x = v
        · exact Or.inl hx
        · rcases List.mem_cons.mp h with rfl | h
          · exact absurd rfl hx
          · exact Or.inr ⟨h, fun h' => (List.mem_cons.mp h').elim hx hs⟩

/-- Deduplication keeps the values. -/
@[simp] theorem mem_dedupeFirstSeen {x : String} {values : List String} :
    x ∈ dedupeFirstSeen values ↔ x ∈ values := by
  simp [dedupeFirstSeen, mem_dedupeFrom]

/-! ## Review contexts -/

/-- Source: `queue-store.ts` `requireNonEmptyString`. -/
def requireNonEmptyString (key value : String) : Except Err Unit :=
  if blank value = true then
    throw (.error ("Review context " ++ key ++ " must be a non-empty string"))
  else pure ()

/-- Source: `queue-store.ts` `optionalNonEmptyString`. -/
def optionalNonEmptyString (key : String) : Option String → Except Err Unit
  | none => pure ()
  | some value =>
    if blank value = true then
      throw (.error ("Review context " ++ key ++ " must be a non-empty string when provided"))
    else pure ()

/-- The checks of a review context; the record is returned as it is.
Source: `queue-store.ts` `parseReviewContextRecord`. -/
def parseReviewContextRecord (input : ReviewContextRecord) : Except Err ReviewContextRecord := do
  requireNonEmptyString "implementer_run_id" input.implementerRunId
  requireNonEmptyString "implementer_agent_id" input.implementerAgentId
  requireNonEmptyString "diff_artifact_uri" input.diffArtifactUri
  optionalNonEmptyString "final_report_uri" input.finalReportUri
  optionalNonEmptyString "verification_output_uri" input.verificationOutputUri
  pure input

/-! ## Statements -/

namespace QueueStore

/-- Source: `queue-store.ts` `insert`. -/
def insert (entry : TaskQueueEntry) (workOrderJson : Json) : WorldM Unit := do
  onBackend (storageCall .insertTask)
  let c ← getCore
  let row : TaskRow :=
    { entry with workorderJson := workOrderJson, reviewContextJson := none,
                 handoffPacketUri := none }
  match c.taskQueue.insert row with
  | none => onBackend (throw (.error "UNIQUE constraint failed: task_queue.task_id"))
  | some taskQueue => modifyCore fun c => { c with taskQueue }

/-- The predicate of both claim statements: queued, and without an owner or past the lease. -/
def claimable (now : ℕ) (r : TaskRow) : Bool :=
  r.status = .queued ∧ (r.currentOwnerRunId = none ∨ r.leaseExpiresAt.any (· < now))

/-- The oldest claimable row. Source: `queue-store.ts` `claimSelectStmt`. -/
def claimSelect (rows : List TaskRow) (now : ℕ) : Option TaskRow :=
  ((rows.filter (claimable now)).insertionSort fun a b => a.enqueuedAt ≤ b.enqueuedAt).head?

/-- The columns a claim writes. -/
def claimedRow (workerId : String) (leaseExpires now : ℕ) (r : TaskRow) : TaskRow :=
  { r with status := .dispatched, currentOwnerRunId := some workerId,
           leaseExpiresAt := some leaseExpires, updatedAt := now }

@[simp] theorem key_claimedRow (workerId : String) (leaseExpires now : ℕ) (r : TaskRow) :
    (claimedRow workerId leaseExpires now r).key = r.key := rfl

/-- Source: `queue-store.ts` `claim`. -/
def claim (workerId : String) (leaseDurationSec : ℚ) : WorldM (Option TaskQueueEntry) := do
  let now ← onBackend dateNow
  let dateNow' ← onBackend dateNow
  let leaseExpires := dateNow' + ⌊leaseDurationSec * 1000⌋₊
  onBackend (storageCall .claimSelect)
  let c ← getCore
  match claimSelect c.taskQueue.rows now with
  | none => pure none
  | some row => do
    onBackend (storageCall .claimUpdate)
    let c ← getCore
    -- The update repeats the predicate of the select: no change means someone else was faster.
    if (c.row row.taskId).any (claimable now) = true then do
      modifyCore fun c =>
        c.updateRow row.taskId (claimedRow workerId leaseExpires now) (key_claimedRow _ _ _)
      pure (some (claimedRow workerId leaseExpires now row).toTaskQueueEntry)
    else pure none

/-- Source: `queue-store.ts` `get`. -/
def get (taskId : String) : WorldM (Option TaskQueueEntry) := do
  onBackend (storageCall .getTask)
  let c ← getCore
  pure ((c.row taskId).map TaskRow.toTaskQueueEntry)

/-- `Partial<TaskQueueEntry>`: the keys a patch may carry, and those a release refuses. -/
structure Patch where
  taskId : Option String := none
  projectId : Option String := none
  status : Option TaskStatus := none
  nextRole : Option Role := none
  /-- Undefined, null or a value. -/
  currentOwnerRunId : Option (Option String) := none
  /-- Undefined, null or a value. -/
  leaseExpiresAt : Option (Option ℕ) := none
  attempts : Option ℕ := none
  enqueuedAt : Option ℕ := none
  updatedAt : Option ℕ := none

/-- The first key of a patch that a release may not modify. -/
def Patch.disallowedKey (p : Patch) : Option String :=
  if p.taskId.isSome then some "task_id"
  else if p.projectId.isSome then some "project_id"
  else if p.enqueuedAt.isSome then some "enqueued_at"
  else none

/-- The columns a release writes. -/
def Patch.apply (p : Patch) (existing : TaskQueueEntry) (updatedAt : ℕ) (r : TaskRow) : TaskRow :=
  { r with
    status := p.status.getD existing.status
    nextRole := p.nextRole.getD existing.nextRole
    currentOwnerRunId := p.currentOwnerRunId.getD existing.currentOwnerRunId
    leaseExpiresAt := p.leaseExpiresAt.getD existing.leaseExpiresAt
    attempts := p.attempts.getD existing.attempts
    updatedAt }

@[simp] theorem key_apply (p : Patch) (existing : TaskQueueEntry) (u : ℕ) (r : TaskRow) :
    (p.apply existing u r).key = r.key := rfl

/-- Source: `queue-store.ts` `release`. -/
def release (taskId : String) (patch : Patch) : WorldM Unit := do
  let existing? ← get taskId
  match existing? with
  | none => onBackend (throw (.error ("TaskQueue entry not found: " ++ taskId)))
  | some existing => do
    match patch.disallowedKey with
    | some key => onBackend (throw (.error ("Cannot modify field \"" ++ key ++ "\" via release")))
    | none => do
      let updatedAt ← match patch.updatedAt with
        | some updatedAt => pure updatedAt
        | none => onBackend dateNow
      onBackend (storageCall .releaseTask)
      modifyCore fun c => c.updateRow taskId (patch.apply existing updatedAt) (key_apply _ _ _)

/-- The work order of a row, when its column parses. -/
def workOrderOf (row : TaskRow) : Option ParsedWorkOrderV1 := parseWorkOrderV1 row.workorderJson

/-- `parseWorkOrderV1`, thrown on failure. -/
def parseOrThrow (raw : Json) : BackendM ParsedWorkOrderV1 :=
  match parseWorkOrderV1 raw with
  | some w => pure w
  | none => throw (.error "ZodError")

/-- Source: `queue-store.ts` `getWorkOrder`. -/
def getWorkOrder (taskId : String) : WorldM (Option ParsedWorkOrderV1) := do
  onBackend (storageCall .getWorkOrderJson)
  let c ← getCore
  match c.row taskId with
  | none => pure none
  | some row => do
    let w ← onBackend (parseOrThrow row.workorderJson)
    pure (some w)

/-- A row with another `workorder_json`. -/
def withWorkOrderJson (json : Json) (updatedAt : ℕ) (r : TaskRow) : TaskRow :=
  { r with workorderJson := json, updatedAt }

/-- A row with another `review_context_json`. -/
def withReviewContext (context : ReviewContextRecord) (updatedAt : ℕ) (r : TaskRow) : TaskRow :=
  { r with reviewContextJson := some context, updatedAt }

/-- A row with another `handoff_packet_uri`. -/
def withHandoffPacketUri (uri : Option String) (updatedAt : ℕ) (r : TaskRow) : TaskRow :=
  { r with handoffPacketUri := uri, updatedAt }

@[simp] theorem key_withWorkOrderJson (json : Json) (u : ℕ) (r : TaskRow) :
    (withWorkOrderJson json u r).key = r.key := rfl

@[simp] theorem key_withReviewContext (context : ReviewContextRecord) (u : ℕ) (r : TaskRow) :
    (withReviewContext context u r).key = r.key := rfl

@[simp] theorem key_withHandoffPacketUri (uri : Option String) (u : ℕ) (r : TaskRow) :
    (withHandoffPacketUri uri u r).key = r.key := rfl

/-- Source: `queue-store.ts` `addWorkOrderExcludeAgentIds`. -/
def addWorkOrderExcludeAgentIds (taskId : String) (agentIds : List String) :
    WorldM ParsedWorkOrderV1 := do
  onBackend (storageCall .getWorkOrderJson)
  let c ← getCore
  match c.row taskId with
  | none => onBackend (throw (.error ("TaskQueue entry not found: " ++ taskId)))
  | some row => do
    let raw := row.workorderJson
    let parsed ← onBackend (parseOrThrow raw)
    let excludeAgentIds := dedupeFirstSeen (parsed.agent.excludeAgentIds ++ agentIds)
    let updatedRaw := rawWithExcludeAgentIds raw excludeAgentIds
    let updated ← onBackend (parseOrThrow updatedRaw)
    let updatedAt ← onBackend dateNow
    onBackend (storageCall .updateWorkOrderJson)
    modifyCore fun c =>
      c.updateRow taskId (withWorkOrderJson updatedRaw updatedAt) (key_withWorkOrderJson _ _)
    pure updated

/-- Source: `queue-store.ts` `setReviewContext`. -/
def setReviewContext (taskId : String) (context : ReviewContextRecord) : WorldM Unit := do
  let existing? ← get taskId
  match existing? with
  | none => onBackend (throw (.error ("TaskQueue entry not found: " ++ taskId)))
  | some _ => do
    let parsed ← onBackend (ofExcept (parseReviewContextRecord context))
    let updatedAt ← onBackend dateNow
    onBackend (storageCall .updateReviewContextJson)
    modifyCore fun c =>
      c.updateRow taskId (withReviewContext parsed updatedAt) (key_withReviewContext _ _)

/-- Source: `queue-store.ts` `getReviewContext`. -/
def getReviewContext (taskId : String) : WorldM (Option ReviewContextRecord) := do
  onBackend (storageCall .getReviewContextJson)
  let c ← getCore
  match (c.row taskId).bind TaskRow.reviewContextJson with
  | none => pure none
  | some context => do
    let parsed ← onBackend (ofExcept (parseReviewContextRecord context))
    pure (some parsed)

/-- Source: `queue-store.ts` `setHandoffPacketUri`. -/
def setHandoffPacketUri (taskId : String) (uri : Option String) : WorldM Unit := do
  let existing? ← get taskId
  match existing? with
  | none => onBackend (throw (.error ("TaskQueue entry not found: " ++ taskId)))
  | some _ =>
    if uri.any blank = true then
      onBackend (throw (.error "handoff_packet_uri must be a non-empty string when provided"))
    else do
      let updatedAt ← onBackend dateNow
      onBackend (storageCall .updateHandoffPacketUri)
      modifyCore fun c =>
        c.updateRow taskId (withHandoffPacketUri uri updatedAt) (key_withHandoffPacketUri _ _)

/-- Source: `queue-store.ts` `getHandoffPacketUri`. -/
def getHandoffPacketUri (taskId : String) : WorldM (Option String) := do
  onBackend (storageCall .getHandoffPacketUri)
  let c ← getCore
  pure (((c.row taskId).bind TaskRow.handoffPacketUri).filter fun uri => !blank uri)

/-- Source: `queue-store.ts` `listAll`. -/
def listAll : WorldM (List TaskQueueEntry) := do
  onBackend (storageCall .listTasks)
  let c ← getCore
  pure ((c.taskQueue.rows.insertionSort fun a b => a.enqueuedAt ≤ b.enqueuedAt).map
    TaskRow.toTaskQueueEntry)

/-! ## What the statements do to the core

One lemma for each statement: what a success may have done, and that a throw leaves the core as it
was. -/

section specs

variable {env : Env} {c : Core} {taskId : String} {E : Err → Core → Prop}

theorem onCore_insert {entry : TaskQueueEntry} {json : Json} {Q : Unit → Core → Prop}
    (hQ : ∀ q, c.taskQueue.insert ⟨entry, json, none, none⟩ = some q →
      Q () { c with taskQueue := q })
    (hE : ∀ e, E e c) : OnCore (insert entry json) env c Q E := by
  refine .bind (onCore_storageCall ?_ fun _ => hE)
  refine .bind (onCore_getCore ?_)
  dsimp only
  split
  · exact onCore_throw (hE _)
  next q h => exact onCore_modifyCore (hQ q h)

/-- An insert throws only over a fault or a key that is there, and then it only counts. -/
theorem ensures_insert {entry : TaskQueueEntry} {json : Json} {w : World}
    {Q : Unit → World → Prop} {E : Err → World → Prop}
    (hE : env.throws w.backend.calls .insertTask = true ∨
        (w.core.row entry.taskId).isSome = true →
      ∀ e, E e ⟨w.core, { w.backend with calls := w.backend.calls + 1 }⟩)
    (hQ : ∀ q, w.core.taskQueue.insert ⟨entry, json, none, none⟩ = some q →
      env.throws w.backend.calls .insertTask = false →
      Q () ⟨{ w.core with taskQueue := q }, { w.backend with calls := w.backend.calls + 1 }⟩) :
    Ensures (insert entry json) env w Q E := by
  simp only [insert, ensures_bind, ensures_onBackend, ensures_storageCall_iff, getCore,
    ensures_get, ensures_pure]
  refine ⟨fun h => hE (Or.inl h) _, fun h => ?_⟩
  rcases hrow : w.core.row entry.taskId with _ | r
  · obtain ⟨q, hq⟩ := Table.exists_insert_of_find?
      (r := (⟨entry, json, none, none⟩ : TaskRow)) hrow
    rw [hq]
    exact hQ q hq h
  · have hnone : w.core.taskQueue.insert (⟨entry, json, none, none⟩ : TaskRow) = none :=
      Table.insert_of_find? hrow
    rw [hnone, ensures_onBackend, ensures_throw]
    exact hE (Or.inr (by rw [hrow]; rfl)) _

theorem onCore_get {Q : Option TaskQueueEntry → Core → Prop}
    (hQ : Q ((c.row taskId).map TaskRow.toTaskQueueEntry) c) (hE : ∀ e, E e c) :
    OnCore (get taskId) env c Q E :=
  .bind (onCore_storageCall (.bind (onCore_getCore (.pure hQ))) fun _ => hE)

/-- A selected row is in the table and claimable. -/
theorem claimSelect_spec {now : ℕ} {r : TaskRow} (h : claimSelect c.taskQueue.rows now = some r) :
    c.row r.taskId = some r ∧ claimable now r = true := by
  have hmem := List.mem_of_mem_head? h
  rw [List.mem_insertionSort, List.mem_filter] at hmem
  exact ⟨Table.mem_iff_find?.mp hmem.1, hmem.2⟩

/-- A claim changes the row it selected, and returns it as changed. -/
theorem onCore_claim {workerId : String} {lease : ℚ} {Q : Option TaskQueueEntry → Core → Prop}
    (hnone : ∀ now, claimSelect c.taskQueue.rows now = none → Q none c)
    (hsome : ∀ now leaseExpires row, claimSelect c.taskQueue.rows now = some row →
      Q (some (claimedRow workerId leaseExpires now row).toTaskQueueEntry)
        (c.updateRow row.taskId (claimedRow workerId leaseExpires now) (key_claimedRow _ _ _)))
    (hE : ∀ e, E e c) : OnCore (claim workerId lease) env c Q E := by
  refine .bind (onCore_dateNow fun now => ?_)
  refine .bind (onCore_dateNow fun now' => ?_)
  refine .bind (onCore_storageCall ?_ fun _ => hE)
  refine .bind (onCore_getCore ?_)
  split
  next h => exact .pure (hnone now h)
  next row h =>
    refine .bind (onCore_storageCall ?_ fun _ => hE)
    refine .bind (onCore_getCore ?_)
    obtain ⟨hrow, hclaimable⟩ := claimSelect_spec h
    rw [if_pos (by simp [hrow, hclaimable])]
    exact .bind (onCore_modifyCore (.pure (hsome now _ row h)))

/-- A release without a refused key writes its columns, unless there is no row or a call throws. -/
theorem onCore_release {patch : Patch} {Q : Unit → Core → Prop}
    (hkey : patch.disallowedKey = none)
    (hsome : ∀ r u, c.row taskId = some r →
      Q () (c.updateRow taskId (patch.apply r.toTaskQueueEntry u) (key_apply _ _ _)))
    (hnone : c.row taskId = none → ∀ e, E e c) (hE : ¬ env.Faultless → ∀ e, E e c) :
    OnCore (release taskId patch) env c Q E := by
  have hfault : ∀ {k}, env.MayThrow k → ∀ e, E e c := fun hk => hE fun hf => hf _ hk
  refine .bind (.bind (onCore_storageCall (.bind (onCore_getCore (.pure ?_))) fun hk => hfault hk))
  cases hrow : c.row taskId with
  | none => exact onCore_throw (hnone hrow _)
  | some r =>
    simp only [Option.map_some, hkey]
    have hrest : ∀ u, OnCore (do
        onBackend (storageCall .releaseTask)
        modifyCore fun c =>
          c.updateRow taskId (patch.apply r.toTaskQueueEntry u) (key_apply _ _ _)) env c Q E :=
      fun u => .bind (onCore_storageCall (onCore_modifyCore (hsome r u hrow)) fun hk => hfault hk)
    split
    · exact .bind (.pure (hrest _))
    · exact .bind (onCore_dateNow hrest)

theorem onCore_parseOrThrow {raw : Json} {Q : ParsedWorkOrderV1 → Core → Prop}
    (hQ : ∀ w, parseWorkOrderV1 raw = some w → Q w c) (hE : ∀ e, E e c) :
    OnCore (onBackend (parseOrThrow raw)) env c Q E := by
  refine onCore_onBackend_of (P := fun w => parseWorkOrderV1 raw = some w) (F := fun _ => True)
    (fun b => ?_) hQ (fun e _ => hE e)
  unfold parseOrThrow
  split <;> simp_all

theorem onCore_getWorkOrder {Q : Option ParsedWorkOrderV1 → Core → Prop}
    (hnone : c.row taskId = none → Q none c)
    (hsome : ∀ r w, c.row taskId = some r → workOrderOf r = some w → Q (some w) c)
    (hE : ∀ e, E e c) : OnCore (getWorkOrder taskId) env c Q E := by
  refine .bind (onCore_storageCall ?_ fun _ => hE)
  refine .bind (onCore_getCore ?_)
  split
  next h => exact .pure (hnone h)
  next r h => exact .bind (onCore_parseOrThrow (fun w hw => .pure (hsome r w h hw)) hE)

/-- The rows after the exclude list of a row was extended by `agentIds`. -/
theorem onCore_addWorkOrderExcludeAgentIds {agentIds : List String}
    {Q : ParsedWorkOrderV1 → Core → Prop}
    (hQ : ∀ r w u, c.row taskId = some r → workOrderOf r = some w →
      Q (w.withExcludeAgentIds (dedupeFirstSeen (w.agent.excludeAgentIds ++ agentIds)))
        (c.updateRow taskId (withWorkOrderJson (rawWithExcludeAgentIds r.workorderJson
            (dedupeFirstSeen (w.agent.excludeAgentIds ++ agentIds))) u)
          (key_withWorkOrderJson _ _)))
    (hE : ∀ e, E e c) : OnCore (addWorkOrderExcludeAgentIds taskId agentIds) env c Q E := by
  refine .bind (onCore_storageCall ?_ fun _ => hE)
  refine .bind (onCore_getCore ?_)
  split
  next h => exact onCore_throw (hE _)
  next r h =>
    refine .bind (onCore_parseOrThrow (fun w hw => ?_) hE)
    refine .bind (onCore_parseOrThrow (fun w' hw' => ?_) hE)
    rw [parse_withExcludeAgentIds hw] at hw'
    cases hw'
    refine .bind (onCore_dateNow fun u => ?_)
    refine .bind (onCore_storageCall ?_ fun _ => hE)
    exact .bind (onCore_modifyCore (.pure (hQ r w u h hw)))

/-- Parsing a review context returns it. -/
theorem parseReviewContextRecord_eq {input output : ReviewContextRecord}
    (h : parseReviewContextRecord input = .ok output) : output = input := by
  simp only [parseReviewContextRecord, bind, Except.bind] at h
  repeat' split at h
  all_goals cases h
  rfl

theorem onCore_setReviewContext {context : ReviewContextRecord} {Q : Unit → Core → Prop}
    (hQ : ∀ r u, c.row taskId = some r →
      Q () (c.updateRow taskId (withReviewContext context u) (key_withReviewContext _ _)))
    (hE : ∀ e, E e c) : OnCore (setReviewContext taskId context) env c Q E := by
  refine .bind (onCore_get ?_ hE)
  cases hrow : c.row taskId with
  | none => exact onCore_throw (hE _)
  | some r =>
    refine .bind (onCore_ofExcept (fun parsed hparsed => ?_) hE)
    rw [parseReviewContextRecord_eq hparsed]
    refine .bind (onCore_dateNow fun u => ?_)
    exact .bind (onCore_storageCall (onCore_modifyCore (hQ r u hrow)) fun _ => hE)

theorem onCore_getReviewContext {Q : Option ReviewContextRecord → Core → Prop}
    (hQ : Q ((c.row taskId).bind TaskRow.reviewContextJson) c) (hE : ∀ e, E e c) :
    OnCore (getReviewContext taskId) env c Q E := by
  refine .bind (onCore_storageCall ?_ fun _ => hE)
  refine .bind (onCore_getCore ?_)
  cases hctx : (c.row taskId).bind TaskRow.reviewContextJson with
  | none => exact .pure (hctx ▸ hQ)
  | some context =>
    refine .bind (onCore_ofExcept (fun parsed hparsed => .pure ?_) hE)
    rw [parseReviewContextRecord_eq hparsed]
    exact hctx ▸ hQ

theorem onCore_setHandoffPacketUri {uri : Option String} {Q : Unit → Core → Prop}
    (hQ : ∀ r u, c.row taskId = some r →
      Q () (c.updateRow taskId (withHandoffPacketUri uri u) (key_withHandoffPacketUri _ _)))
    (hE : ∀ e, E e c) : OnCore (setHandoffPacketUri taskId uri) env c Q E := by
  refine .bind (onCore_get ?_ hE)
  cases hrow : c.row taskId with
  | none => exact onCore_throw (hE _)
  | some r =>
    refine .ite (fun _ => onCore_throw (hE _)) fun _ => ?_
    refine .bind (onCore_dateNow fun u => ?_)
    exact .bind (onCore_storageCall (onCore_modifyCore (hQ r u hrow)) fun _ => hE)

theorem onCore_getHandoffPacketUri {Q : Option String → Core → Prop} (hQ : ∀ uri, Q uri c)
    (hE : ∀ e, E e c) : OnCore (getHandoffPacketUri taskId) env c Q E :=
  .bind (onCore_storageCall (.bind (onCore_getCore (.pure (hQ _)))) fun _ => hE)

end specs

end QueueStore

end AgentWorkflow
