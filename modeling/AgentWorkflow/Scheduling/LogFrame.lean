import AgentWorkflow.Core.Events
import AgentWorkflow.Scheduling.BudgetManager
import AgentWorkflow.Scheduling.HandoffManager
import AgentWorkflow.Scheduling.Scheduler

/-!
# What the services may append to the log

One pass over the stores, the registry, the budget manager, the scheduler and the handoff manager:
which events they append and which calls of the external services they make.

* `EventEnvelope.Of` — an event of given types, project and task, that is valid under a condition on
  the ids.
* `LogFrame P S K I` — an invariant `I` that survives what leaves the log, the files and the runs, an
  event with `P`, and a service call with `S`; the agents it knows meet `K`. **The lemmas hold for every
  such `I`**, so that each property of the log is an instance.
* `LogFrame.recordOutcome`, `LogFrame.decide`, … — one lemma for each program.
-/

namespace AgentWorkflow

open Fallible BudgetManager

/-- The ids of the agents in the registry. -/
def Backend.agentIds (b : Backend) : List String := b.registry.rows.map InternalEntry.agentId

/-- An event of one of the types, about a project and a task, that is valid when `sound` holds. -/
structure EventEnvelope.Of (types : List EventType) (projectId : String) (taskId : Option String)
    (sound : Prop) (e : EventEnvelope) : Prop where
  eventType : e.eventType ∈ types
  projectId : e.projectId = projectId
  taskId : e.taskId = taskId
  valid : sound → e.projectId ≠ "" → e.Valid

/-- A condition that implies another one makes no less valid. -/
theorem EventEnvelope.Of.mono {types : List EventType} {projectId : String}
    {taskId : Option String} {sound sound' : Prop} {e : EventEnvelope}
    (h : e.Of types projectId taskId sound) (hs : sound' → sound) :
    e.Of types projectId taskId sound' :=
  ⟨h.eventType, h.projectId, h.taskId, fun h' => h.valid (hs h')⟩

/-- The quota events. -/
def quotaTypes : List EventType := [.quotaLow, .quotaExhausted]

/-- A quota event is valid by its own checks. -/
theorem valid_of_quotaFields {e : EventEnvelope} (htype : e.eventType ∈ quotaTypes)
    (hid : e.eventId ≠ "") (hproject : e.projectId ≠ "")
    (hfields : (assertQuotaFields e).isOk = true) : e.Valid := by
  rw [valid_iff]
  refine ⟨⟨hid, hproject⟩, ?_, ?_⟩
  · rcases List.mem_pair.mp htype with htype | htype
    · simp [requiredIds, htype]
    · simp [requiredIds, htype]
  · rcases List.mem_pair.mp htype with htype | htype
    · simpa [assertV1PayloadFields, htype] using hfields
    · simpa [assertV1PayloadFields, htype] using hfields

/-- The store has returned the URI. -/
def ArtifactStore.Saves (store : ArtifactStore) (uri : String) : Prop :=
  ∃ t env f ref f', store.saveText t env f = .ok ref f' ∧ ref.uri = uri

/-! ## Events of a task -/

section taskEvents

variable {projectId taskId id : String} {eventType : EventType} {runId agentId : Option String}
  {payload : List (String × Json)} {createdAt : ℕ}

/-- A string that begins with a letter is not blank. -/
theorem blank_append {s : String} (k : String) (hk : k.toList.any (fun ch => !isTrimmed ch) = true) :
    blank (k ++ s) = false := by
  unfold blank
  rw [String.toList_append, List.all_append, Bool.and_eq_false_iff]
  left
  rw [List.all_eq_false]
  obtain ⟨ch, hch, hnot⟩ := List.any_eq_true.mp hk
  exact ⟨ch, hch, by simpa using hnot⟩

/-- The event of a task that the handler and the orchestrator build. -/
def taskEvent (projectId taskId : String) (eventType : EventType) (runId agentId : Option String)
    (payload : List (String × Json)) (id : String) (createdAt : ℕ) : EventEnvelope where
  eventId := "E-" ++ id
  eventType := eventType
  projectId := projectId
  taskId := some taskId
  runId := runId
  agentId := agentId
  skipOnReplay := false
  payload := payload
  createdAt := createdAt

/-- An event of a task is valid when its ids and its payload are. -/
theorem taskEvent_valid (hproject : projectId ≠ "")
    (hids : ∀ i ∈ requiredIds eventType, nonBlank
      ((taskEvent projectId taskId eventType runId agentId payload id createdAt).id i) = true)
    (hpayload : (assertV1PayloadFields
      (taskEvent projectId taskId eventType runId agentId payload id createdAt)).isOk = true) :
    (taskEvent projectId taskId eventType runId agentId payload id createdAt).Valid := by
  have hid : "E-" ++ id ≠ "" := by simp
  exact valid_iff.mpr ⟨⟨hid, hproject⟩, hids, hpayload⟩

end taskEvents

/-- What survives the services. -/
structure LogFrame (P : EventEnvelope → Prop) (S : (α : Type) → ServiceM α → Prop)
    (K : String → Prop) (I : Backend → Prop) : Prop where
  /-- Whatever leaves the log, the files, the runs and the agents. -/
  quiet : ∀ b b' : Backend, b'.events = b.events → b'.files = b.files →
    b'.agentRuns = b.agentRuns → b'.agentIds = b.agentIds → I b → I b'
  append : ∀ b e, P e → I b → I { b with events := b.events ++ [e] }
  service : ∀ (α : Type) (m : ServiceM α), S α m → ∀ b, I b → ∀ env,
    Ensures m env b.files (fun _ f => I { b with files := f }) fun _ f => I { b with files := f }
  known : ∀ b, I b → ∀ id ∈ b.agentIds, K id

namespace LogFrame

variable {P : EventEnvelope → Prop} {S : (α : Type) → ServiceM α → Prop} {K : String → Prop}
  {I : Backend → Prop} {α : Type}

/-! ## Readings and statements -/

section readings

variable (h : LogFrame P S K I)

include h

/-- One more reading. -/
theorem count {b : Backend} (hb : I b) : I { b with calls := b.calls + 1 } :=
  h.quiet b _ rfl rfl rfl rfl hb

theorem dateNow : Maintains I dateNow fun _ => True := fun _ _ hb => ⟨trivial, h.count hb⟩

theorem uuid8 : Maintains I uuid8 fun _ => True := fun _ _ hb => ⟨trivial, h.count hb⟩

theorem storageCall {k : StorageCall} : Maintains I (storageCall k) fun _ => True :=
  fun _ _ hb => ensures_storageCall_iff.mpr ⟨fun _ => h.count hb, fun _ => ⟨trivial, h.count hb⟩⟩

omit h in
theorem ofExcept {x : Except Err α} : Maintains I (ofExcept x) fun a => x = .ok a :=
  fun _ _ hb => ensures_ofExcept.mpr ⟨fun _ hx => ⟨hx, hb⟩, fun _ _ => hb⟩

omit h in
theorem throwIfAborted {aborted : Bool} : Maintains I (throwIfAborted aborted) fun _ => True :=
  .ite (fun _ => .throw) fun _ => .pure trivial

/-- A statement that changes neither the log nor the files nor the runs nor the agents. -/
theorem modify {f : Backend → Backend} (hevents : ∀ b, (f b).events = b.events)
    (hfiles : ∀ b, (f b).files = b.files) (hruns : ∀ b, (f b).agentRuns = b.agentRuns)
    (hids : ∀ b, (f b).agentIds = b.agentIds) :
    Maintains I (modify f : BackendM PUnit) fun _ => True :=
  .modify fun b hb => h.quiet b _ (hevents b) (hfiles b) (hruns b) (hids b) hb

/-- A service returns what its program returns. -/
theorem onFiles {m : ServiceM α} (hm : S α m) :
    Maintains I (onFiles m) fun a => ∃ env f f', m env f = .ok a f' :=
  .zoom fun b hb env => ((ensures_self m env b.files).and (h.service α m hm b hb env)).mono
    (fun _ f' ha => ⟨⟨env, b.files, f', ha.1⟩, ha.2⟩) fun _ _ he => he.2

/-- An event the frame allows. -/
theorem appendEvent {e : EventEnvelope} (he : P e) :
    Maintains I (EventLog.append e) fun _ => True :=
  .bind h.storageCall fun _ _ => .modify fun b hb => h.append b e he hb

/-- An event of a task the frame allows, whatever its id and time. -/
theorem appendTaskEvent {projectId taskId : String} {eventType : EventType}
    {runId agentId : Option String} {payload : List (String × Json)}
    (he : ∀ id createdAt,
      P (taskEvent projectId taskId eventType runId agentId payload id createdAt)) :
    Maintains I (do
      let id ← AgentWorkflow.uuid8
      let createdAt ← AgentWorkflow.dateNow
      EventLog.append (taskEvent projectId taskId eventType runId agentId payload id createdAt))
      fun _ => True :=
  .bind h.uuid8 fun id _ => .bind h.dateNow fun createdAt _ => h.appendEvent (he id createdAt)

end readings

/-! ## The registry -/

section registry

variable {options : AgentRegistry.Options} {agentId runId : String}

theorem agentIds_update {b : Backend} {f : InternalEntry → InternalEntry}
    {hf : ∀ e, (f e).agentId = e.agentId} {k : String} :
    ({ b with registry := b.registry.update k f hf } : Backend).agentIds = b.agentIds := by
  unfold Backend.agentIds Table.update
  rw [List.map_map]
  refine List.map_congr_left fun e _ => ?_
  by_cases hk : e.agentId = k
  · simp [hk, hf]
  · simp [hk]

theorem agentIds_mapRows {b : Backend} {f : InternalEntry → InternalEntry}
    {hf : ∀ e, (f e).agentId = e.agentId} :
    ({ b with registry := b.registry.mapRows f hf } : Backend).agentIds = b.agentIds := by
  unfold Backend.agentIds Table.mapRows
  rw [List.map_map]
  exact List.map_congr_left fun e _ => hf e

variable (h : LogFrame P S K I)

include h

/-- Every listed agent is known. -/
theorem list : Maintains I AgentRegistry.list
    fun entries => ∀ entry ∈ entries, K entry.profile.agentId := by
  intro env b hb
  simp only [AgentRegistry.list, ensures_bind, ensures_get, ensures_set, ensures_pure]
  obtain ⟨b', hb'⟩ : ∃ b' : Backend, b' =
      { b with
        registry := b.registry.mapRows (AgentRegistry.syncQuotaHealth b.sharedQuotaHealth)
          (AgentRegistry.agentId_syncQuotaHealth b.sharedQuotaHealth) } := ⟨_, rfl⟩
  have hI : I b' := h.quiet b b' (hb' ▸ rfl) (hb' ▸ rfl) (hb' ▸ rfl) (hb' ▸ agentIds_mapRows) hb
  rw [← hb']
  refine ⟨fun entry hentry => ?_, hI⟩
  obtain ⟨e, he, rfl⟩ := List.mem_map.mp hentry
  refine h.known b' hI _ ?_
  rw [hb']
  exact List.mem_map_of_mem he

/-- An agent that is found is known, under its own id. -/
theorem get : Maintains I (AgentRegistry.get agentId)
    fun found => ∀ entry, found = some entry → entry.profile.agentId = agentId ∧ K agentId := by
  intro env b hb
  simp only [AgentRegistry.get, ensures_bind, ensures_get, ensures_set, ensures_pure]
  obtain ⟨b', hb'⟩ : ∃ b' : Backend, b' =
      { b with
        registry := b.registry.update agentId (AgentRegistry.syncQuotaHealth b.sharedQuotaHealth)
          (AgentRegistry.agentId_syncQuotaHealth b.sharedQuotaHealth) } := ⟨_, rfl⟩
  have hI : I b' := h.quiet b b' (hb' ▸ rfl) (hb' ▸ rfl) (hb' ▸ rfl) (hb' ▸ agentIds_update) hb
  rw [← hb']
  refine ⟨fun entry hentry => ?_, hI⟩
  obtain ⟨e, he, rfl⟩ := Option.map_eq_some_iff.mp hentry
  have hkey : e.agentId = agentId := Table.key_of_find? he
  refine ⟨hkey, hkey ▸ h.known b' hI _ ?_⟩
  rw [hb']
  exact List.mem_map_of_mem (List.mem_of_find?_eq_some he)

theorem setQuotaHealth {health : QuotaHealth} :
    Maintains I (AgentRegistry.setQuotaHealth agentId health) fun _ => True :=
  h.modify (fun _ => rfl) (fun _ => rfl) (fun _ => rfl) fun b => agentIds_update (b := b)

theorem refreshEntryMetrics :
    Maintains I (AgentRegistry.refreshEntryMetrics options agentId) fun _ => True := by
  refine .bind (Q := fun _ => True) (.bind h.storageCall fun _ _ =>
    .bind (.get fun _ _ => trivial) fun _ _ => .pure trivial) fun stored _ => ?_
  refine .bind h.dateNow fun lastUpdatedAt _ => ?_
  exact h.modify (fun _ => rfl) (fun _ => rfl) (fun _ => rfl) fun b => agentIds_update (b := b)

/-- A quota event of an agent is valid when its id is not blank. -/
theorem emitAgentQuotaEvent {eventType : EventType} {reason : RunFailedReason}
    (htype : eventType ∈ quotaTypes)
    (hP : ∀ e : EventEnvelope, e.Of quotaTypes options.projectId none (blank agentId = false) →
      P e) :
    Maintains I (AgentRegistry.emitAgentQuotaEvent options eventType agentId reason runId)
      fun _ => True := by
  refine .ite (fun _ => ?_) fun _ => .pure trivial
  refine .bind h.uuid8 fun id _ => .bind h.dateNow fun createdAt _ => ?_
  refine h.appendEvent (hP _ ⟨htype, rfl, rfl, fun hblank hproject => ?_⟩)
  refine valid_of_quotaFields htype (by simp) hproject ?_
  simp [assertQuotaFields, isOk_bind_iff, isOk_demand, payloadText, payloadTextOr, nonBlank,
    hblank, List.lookup_cons]

theorem syncedQuotaHealth :
    Maintains I (AgentRegistry.syncedQuotaHealth agentId) fun _ => True :=
  .bind h.get fun _ _ => .pure trivial

theorem applyProviderFailure {reason : RunFailedReason}
    (hP : ∀ e : EventEnvelope, e.Of quotaTypes options.projectId none (blank agentId = false) →
      P e) :
    Maintains I (AgentRegistry.applyProviderFailure options agentId reason runId)
      fun _ => True := by
  have hset : ∀ {health : QuotaHealth} {eventType : EventType}, eventType ∈ quotaTypes →
      Maintains I (do
        AgentRegistry.setQuotaHealth agentId health
        AgentRegistry.emitAgentQuotaEvent options eventType agentId reason runId) fun _ => True :=
    fun htype => .bind h.setQuotaHealth fun _ _ => h.emitAgentQuotaEvent htype hP
  unfold AgentRegistry.applyProviderFailure
  split
  · refine .bind h.syncedQuotaHealth fun _ _ => .ite (fun _ => .pure trivial) fun _ => ?_
    exact hset (by decide)
  · refine .bind h.syncedQuotaHealth fun _ _ => .ite (fun _ => .pure trivial) fun _ => ?_
    exact hset (by decide)
  · refine .bind h.syncedQuotaHealth fun _ _ => .ite (fun _ => .pure trivial) fun _ => ?_
    exact hset (by decide)
  · exact .pure trivial

/-- The outcome of an agent that is in the registry. -/
theorem recordOutcome {success : Bool} {wallTimeMs : ℚ} {cost : Option ℚ}
    {failureReason : Option RunFailedReason}
    (hP : K agentId → ∀ e : EventEnvelope,
      e.Of quotaTypes options.projectId none (blank agentId = false) → P e) :
    Maintains I (AgentRegistry.recordOutcome options agentId runId success wallTimeMs cost
      failureReason) fun _ => True := by
  refine .bind (.get (Q := fun b => ∀ e, b.registry.find? agentId = some e → K agentId)
    fun b hb e he => ?_) fun b hb => ?_
  · have hkey : e.agentId = agentId := Table.key_of_find? he
    rw [← hkey]
    exact h.known b hb _ (List.mem_map_of_mem (List.mem_of_find?_eq_some he))
  split
  next => exact .throw
  next e he =>
    refine .bind (.bind h.dateNow fun _ _ => .bind h.storageCall fun _ _ =>
      h.modify (fun _ => rfl) (fun _ => rfl) (fun _ => rfl) fun _ => rfl) fun _ _ => ?_
    refine .bind h.refreshEntryMetrics fun _ _ => ?_
    split
    · exact .ite (fun _ => .pure trivial) fun _ => h.applyProviderFailure (hP (hb e he))
    · exact .pure trivial

end registry

/-! ## The scheduler -/

section scheduler

variable {coll : Collation} {workOrder : ParsedWorkOrderV1} {role : Role}
  {excludeAgentIds : List String} {budget : BudgetState} {implementer : Option String}

/-- What is known of a decision: its id, and its agent or its reason. -/
structure Decided (K : String → Prop) (role : Role) (d : ScheduleDecision) : Prop where
  decisionId : ∃ id, d.decisionId = "D-" ++ id
  role_eq : d.role = role
  picked : ∀ id, d.pickedAgentId = some id → K id ∧ id ≠ ""
  refused : d.pickedAgentId = none → d.refusalReason.isSome = true

variable (h : LogFrame P S K I)

include h

theorem decide : Maintains I
    (Scheduler.decide coll workOrder role excludeAgentIds budget implementer)
    (Decided K role) := by
  unfold Scheduler.decide
  refine .bind h.list fun entries hentries => ?_
  dsimp only
  split
  next reason _ =>
    refine .bind h.uuid8 fun id _ => .bind h.dateNow fun decidedAt _ => .pure ?_
    exact ⟨⟨id, rfl⟩, rfl, by simp, by simp⟩
  next hr =>
    split
    next => exact .throw
    next best hbest =>
      obtain ⟨a, ha, -, rfl⟩ := Scheduler.eligible_of_best hbest
      obtain ⟨entry, hentry, rfl⟩ := Scheduler.mem_analyzeCandidates.mp ha
      refine .bind h.uuid8 fun id _ => .bind h.dateNow fun decidedAt _ => .pure ?_
      refine ⟨⟨id, rfl⟩, rfl, ?_, by simp⟩
      rintro id ⟨⟩
      exact ⟨hentries entry hentry, entry.profile.agentId_min⟩

end scheduler

/-! ## The budget manager -/

section budget

variable {projectId taskId : String} {state : BudgetState} (h : LogFrame P S K I)

include h

/-- A quota event of a task is valid when its id is not blank. -/
theorem emitQuota {eventType : EventType} {key : String} (htype : eventType ∈ quotaTypes)
    (hP : ∀ e : EventEnvelope, e.Of quotaTypes projectId (some taskId) (blank taskId = false) →
      P e) :
    Maintains I (BudgetManager.emitQuota projectId eventType key taskId state)
      fun _ => True := by
  refine .bind (.get fun _ _ => trivial) fun b _ => .ite (fun _ => .pure trivial) fun _ => ?_
  refine .bind h.uuid8 fun id _ => .bind h.dateNow fun createdAt _ => ?_
  refine .bind (h.appendEvent (hP _ ⟨htype, rfl, rfl, fun hblank hproject => ?_⟩)) fun _ _ =>
    h.modify (fun _ => rfl) (fun _ => rfl) (fun _ => rfl) fun _ => rfl
  refine valid_of_quotaFields htype (by simp) hproject ?_
  simp [assertQuotaFields, isOk_bind_iff, isOk_demand, payloadText, payloadTextOr, nonBlank,
    hblank, List.lookup_cons]

theorem emitTransitionEvents {before after : BudgetStatus}
    (hP : ∀ e : EventEnvelope, e.Of quotaTypes projectId (some taskId) (blank taskId = false) →
      P e) :
    Maintains I (BudgetManager.emitTransitionEvents projectId taskId before after state)
      fun _ => True := by
  unfold BudgetManager.emitTransitionEvents
  split
  · exact h.emitQuota (by decide) hP
  · exact h.emitQuota (by decide) hP
  · exact h.emitQuota (by decide) hP
  · exact .pure trivial

theorem syncEmitted : Maintains I (BudgetManager.syncEmitted state) fun _ => True := by
  have hkeep : ∀ key : String, Maintains I
      (MonadState.modifyGet fun b : Backend => ((), { b with emitted := key :: b.emitted }) :
        BackendM Unit) fun _ => True :=
    fun key => h.modify (fun _ => rfl) (fun _ => rfl) (fun _ => rfl) fun _ => rfl
  have hrest : ∀ u : Unit, True → Maintains I (if state.status = .exhausted then
      MonadState.modifyGet fun b : Backend =>
        ((), { b with emitted := exhaustedKey state.taskId :: b.emitted })
      else pure () : BackendM Unit) fun _ => True :=
    fun _ _ => .ite (fun _ => hkeep _) fun _ => .pure trivial
  exact .ite (fun _ => .bind (hkeep _) hrest) fun _ => hrest () trivial

end budget

end LogFrame

end AgentWorkflow
