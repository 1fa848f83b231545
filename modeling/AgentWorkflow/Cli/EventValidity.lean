import AgentWorkflow.Cli.WorkerServices

/-!
# The validation of what a batch appends

Whether `SqliteEventLog.append` rejects an event of the program. The schemas of the inputs ask for
ids that are not empty, the log for ids that are not blank.

`EventLog.append` does not check its event here: an event that its validation would reject is one
that goes to the log and is not `Valid`, and a log of valid events is one from which nothing was
rejected (`validatedAppend_eq`).

* `NoBlankIds` — no input and no row of the database has a blank task id, and no registry a blank
  agent id.
* `Accepted` — the invariant: every event that was written is valid.
* **`no_event_rejected`** — then no event of the enqueue phase and of any run of the workers is
  rejected.
-/

namespace AgentWorkflow

open Fallible OrchestratorV1

namespace RunBatchV1

/-- No task id and no agent id is blank. -/
structure NoBlankIds (inputs : List ParsedWorkOrderV1) (s₀ : System) : Prop where
  inputs : ∀ workOrder ∈ inputs, blank workOrder.taskId = false
  /-- The rows of an earlier batch, too, come from work orders that were accepted. -/
  rows : ∀ t r, s₀.world.core.row t = some r → blank t = false ∧ r.projectId ≠ ""
  agents : ∀ w, ∀ id ∈ (s₀.memory w).registry.rows.map InternalEntry.agentId, blank id = false

/-- Every event that was written after `d₀` is valid; the rows that events are about have ids. -/
structure Accepted (d₀ d : Tables) : Prop where
  rows : ∀ t own, d.Under t own → blank t = false ∧ own ≠ ""
  events : ∃ es, d.events = d₀.events ++ es ∧ ∀ e ∈ es, e.Valid

/-! ## The events of a batch -/

section frame

variable {external : ExternalServices} {artifactRepoPath projectId : String} {d₀ d : Tables}

/-- Every URI of the store begins with its scheme. -/
theorem blank_of_saves {store : LocalArtifactStore} {uri : String}
    (h : store.toArtifactStore.Saves uri) : blank uri = false := by
  obtain ⟨t, env, f, ref, f', hsave, rfl⟩ := h
  have huri : EnsuresVia Files.artifacts (store.saveText t) env f.artifacts
      (fun ref _ => ref.uri = artifactUri t.name) fun _ _ => True :=
    rows_saveText (fun _ _ huri _ _ _ => huri) fun _ => trivial
  rw [huri.of_ok hsave]
  exact blank_append _ (by decide)

/-- The event of a process whose ids are not blank. -/
theorem valid_of_source {e : EventEnvelope} (hproject : projectId ≠ "")
    (hrows : ∀ t own, d.Under t own → blank t = false ∧ own ≠ "")
    (he : EventSource (makeV1WorkerServices external artifactRepoPath projectId).handler
      (makeV1WorkerServices external artifactRepoPath projectId).run
      (fun id => blank id = false) d e) : e.Valid := by
  cases he with
  | @enqueued entry hentry hof =>
    obtain ⟨htask, hown⟩ := hrows _ _ hentry
    exact hof.valid htask (hof.projectId ▸ hown)
  | @handler entry hentry hof =>
    obtain ⟨htask, hown⟩ := hrows _ _ hentry
    have hlegible : Legible (makeV1WorkerServices external artifactRepoPath projectId).handler
        entry.taskId (fun id => blank id = false) IsRunId := by
      refine ⟨htask, fun _ h => h, ?_, fun _ h => blank_of_saves h⟩
      rintro _ ⟨k, rfl⟩
      exact blank_append _ (by decide)
    rcases hof with hof | hof | hof
    · exact hof.valid hlegible (hof.projectId ▸ hown)
    · exact hof.valid hlegible (hof.projectId ▸ hproject)
    · exact hof.valid hlegible (hof.projectId ▸ hproject)
  | @exit entry status role hentry hstatus hof =>
    obtain ⟨htask, hown⟩ := hrows _ _ hentry
    exact hof.of.valid htask (hof.of.projectId ▸ hown)
  | @run args hentry hagent hof =>
    obtain ⟨htask, hown⟩ := hrows _ _ hentry
    exact hof.of.valid ⟨htask, hagent, fun _ h => blank_of_saves h⟩ (hof.of.projectId ▸ hown)

/-- **Every event that a process appends is valid**, and the rows keep their ids. -/
theorem accepted_frame (hproject : projectId ≠ "") :
    TablesFrame (makeV1WorkerServices external artifactRepoPath projectId).handler
      (makeV1WorkerServices external artifactRepoPath projectId).run (fun id => blank id = false)
      (fun workOrder => blank workOrder.taskId = false) (Accepted d₀) where
  insert d workOrder nextRole ts q hW hq hd := by
    refine ⟨fun t own hunder => ?_, hd.events⟩
    obtain ⟨r, hr, rfl⟩ := hunder
    rw [Table.find?_insert hq] at hr
    split at hr
    next ht =>
      cases hr
      exact ⟨ht ▸ hW, workOrder.valid.projectId⟩
    next => exact hd.rows t r.projectId ⟨r, hr, rfl⟩
  row d t f hf hfixed hd := by
    refine ⟨fun k own hunder => ?_, hd.events⟩
    obtain ⟨r, hr, rfl⟩ := hunder
    rw [Table.find?_update] at hr
    split at hr
    · obtain ⟨old, hold, rfl⟩ := Option.map_eq_some_iff.mp hr
      have hkeep : (f old).projectId = old.projectId := congrArg (fun x => x.2.1) (hfixed old)
      rw [hkeep]
      exact hd.rows k _ ⟨old, hold, rfl⟩
    · exact hd.rows k r.projectId ⟨r, hr, rfl⟩
  event d e he hd := by
    obtain ⟨es, hes, hvalid⟩ := hd.events
    refine ⟨hd.rows, es ++ [e], ?_, fun x hx => ?_⟩
    · show d.events ++ [e] = _
      rw [hes, List.append_assoc]
    · rcases List.mem_append.mp hx with hx | hx
      · exact hvalid x hx
      · rw [List.mem_singleton.mp hx]
        exact valid_of_source hproject hd.rows he
  call d α m _ hd env := ensures_of_forall (fun _ _ _ => ⟨hd.rows, hd.events⟩)
    fun _ _ _ => ⟨hd.rows, hd.events⟩
  run d args runs _ _ hd := ⟨hd.rows, hd.events⟩

end frame

/-! ## No event is rejected -/

/-- The validation of a valid event changes nothing. -/
theorem validatedAppend_eq {e : EventEnvelope} (h : e.Valid) :
    EventLog.validatedAppend e = EventLog.append e := by
  unfold EventLog.validatedAppend
  unfold EventEnvelope.Valid at h
  cases hv : validateEvent e with
  | error err =>
    rw [hv] at h
    cases h
  | ok u => exact pure_bind u fun _ => EventLog.append e

/-- An event that is not valid is rejected, whatever the surroundings. -/
theorem validatedAppend_throws {e : EventEnvelope} (h : ¬ e.Valid) (env : Env) (b : Backend) :
    ∃ err, EventLog.validatedAppend e env b = .error err b := by
  unfold EventEnvelope.Valid at h
  cases hv : validateEvent e with
  | ok u =>
    rw [hv] at h
    exact absurd rfl h
  | error err =>
    refine ⟨err, ?_⟩
    rw [EventLog.validatedAppend, hv]
    rfl

/-- The log takes an event as it is. -/
def Taken (e : EventEnvelope) : Prop :=
  validateEvent e = .ok () ∧ EventLog.validatedAppend e = EventLog.append e

theorem taken_iff {e : EventEnvelope} : Taken e ↔ e.Valid := by
  constructor
  · rintro ⟨hv, -⟩
    unfold EventEnvelope.Valid
    rw [hv]
    rfl
  · intro h
    refine ⟨?_, validatedAppend_eq h⟩
    unfold EventEnvelope.Valid at h
    cases hv : validateEvent e with
    | error err =>
      rw [hv] at h
      cases h
    | ok u => rfl

/-- **Without blank ids no event is rejected**, in any state that any workers reach, whatever the
agents do and whatever throws; the event of an input is taken exactly when its task id is not
blank. -/
theorem no_event_rejected {external : ExternalServices} {firstWorkOrder : ParsedWorkOrderV1}
    {rest : List ParsedWorkOrderV1} {s₀ s : System} {env : Env} {ls : List Label}
    (hrun : BatchRun external firstWorkOrder rest s₀ env ls s) :
    (∀ workOrder ts id createdAt, Taken (enqueuedEvent
      (TaskQueue.enqueuedEntry workOrder .implementer ts) id createdAt) ↔
        blank workOrder.taskId = false) ∧
    (NoBlankIds (firstWorkOrder :: rest) s₀ → ∀ e ∈ s₀.writtenEvents s, Taken e) := by
  constructor
  · intro workOrder ts id createdAt
    rw [taken_iff, enqueuedEvent_valid]
  · intro hids e he
    have hstart : Accepted s₀.world.tables s₀.world.tables := by
      refine ⟨fun t own hunder => ?_, [], (List.append_nil _).symm, by simp⟩
      obtain ⟨r, hr, rfl⟩ := hunder
      exact hids.rows t r hr
    have hkept := kept_of_batch (accepted_frame firstWorkOrder.valid.projectId) hids.inputs hstart
      hids.agents hrun
    obtain ⟨es, hes, hvalid⟩ := hkept.tables.1.events
    have hdrop : s₀.writtenEvents s = es := by
      show s.world.tables.events.drop s₀.world.tables.events.length = es
      rw [hes, List.drop_left]
    rw [hdrop] at he
    exact taken_iff.mpr (hvalid e he)

/-! ### An agent whose id is a space -/

theorem space_ne_empty : " " ≠ "" := by decide

/-- A registry with one agent; its id is not empty. -/
def spaceRegistry : Table InternalEntry.agentId where
  rows := [Sample.agent " " space_ne_empty .implementer]
  nodup := List.nodup_singleton _

/-- A system whose workers have loaded that registry. -/
def spaceSystem : System := { Sample.system with memory := fun _ => ⟨[], spaceRegistry, []⟩ }

/-- A worker claims the task, and handles it up to the run. -/
def dispatchSteps : List Label := [.claim "w1" Sample.env, .start "w1" Sample.env false]

theorem dispatchSteps_uses (runServices : V1RunTaskServices) :
    ∀ l ∈ dispatchSteps, l.Uses runServices fun _ => False := by
  intro l hl
  simp only [dispatchSteps, List.mem_cons, List.not_mem_nil, or_false] at hl
  rcases hl with rfl | rfl
  · trivial
  · trivial

/-- An event of the run is not valid. -/
def logsInvalid (s₀ s : System) : Bool := (s₀.writtenEvents s).any fun e => !decide e.Valid

/-- **The dispatch of an agent whose id is a space is rejected**: the schema takes the id, and the
event of the decision that picks the agent is not valid. -/
theorem dispatch_rejected : ∃ s e,
    BatchRun Sample.external Sample.workOrder [] spaceSystem Sample.env dispatchSteps s ∧
    e ∈ spaceSystem.writtenEvents s ∧ ¬ Taken e ∧
    ∀ env b, ∃ err, EventLog.validatedAppend e env b = .error err b := by
  have h : (batch Sample.external Sample.workOrder [] spaceSystem Sample.env dispatchSteps).any
      (logsInvalid spaceSystem) = true := by
    decide +kernel
  obtain ⟨s, hs, hp⟩ := (Option.any_eq_true _ _).mp h
  obtain ⟨e, he, hp⟩ := List.any_eq_true.mp hp
  have hnot : ¬ e.Valid := by simpa using hp
  refine ⟨s, e, batchRun_of_batch (fun _ => rfl) (dispatchSteps_uses _) hs, he, ?_,
    validatedAppend_throws hnot⟩
  rw [taken_iff]
  exact hnot

theorem sample_noBlankIds : NoBlankIds [Sample.workOrder, Sample.otherProject] Sample.system where
  inputs := by
    intro workOrder hwo
    simp only [List.mem_cons, List.not_mem_nil, or_false] at hwo
    rcases hwo with rfl | rfl <;> decide
  rows t r hr := by cases hr
  agents w id hid := by
    simp only [Sample.system, Sample.registry, List.map_cons, List.map_nil, List.mem_cons,
      List.not_mem_nil, or_false] at hid
    rcases hid with rfl | rfl | rfl <;> decide

/-- A batch of two tasks, one of which hands off. -/
theorem no_event_rejected_two : ∃ s,
    BatchRun Sample.external Sample.workOrder [Sample.otherProject] Sample.system Sample.env
      (Sample.secondFails (workerServices Sample.external Sample.workOrder)) s ∧
    ∀ e ∈ Sample.system.writtenEvents s, Taken e := by
  have h : (batch Sample.external Sample.workOrder [Sample.otherProject] Sample.system Sample.env
      (Sample.secondFails (workerServices Sample.external Sample.workOrder))).isSome = true := by
    decide +kernel
  obtain ⟨s, hs⟩ := Option.isSome_iff_exists.mp h
  have hrun := batchRun_of_batch (fun _ => rfl) (Sample.secondFails_uses _) hs
  exact ⟨s, hrun, (no_event_rejected hrun).2 sample_noBlankIds⟩

end RunBatchV1

end AgentWorkflow
