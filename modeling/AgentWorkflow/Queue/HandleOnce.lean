import AgentWorkflow.Core.RunEnd
import AgentWorkflow.Core.RunFrame
import AgentWorkflow.Queue.HandlerExit

/-!
# A handler that returns has exited once

What a call of `handle` that returns has done, on every path.

* `Quiet` — an effect of `handle` that is neither a release nor an event that ends or requeues the
  task: another column, the budget, a cache, another event.
* `RunsQuietly` — a run appends no such event either; `runTaskOnce` runs quietly whatever its
  services do (`runTaskOnce_quiet`).
* **`handle_exits_once`** — quiet effects, then one release, then one event; the row is as the event
  says, and its attempts tell whether the run returned an outcome.
-/

namespace AgentWorkflow

open Fallible

/-- The events that end or requeue a task. -/
def lifecycleTypes : List EventType :=
  [.taskCompleted, .taskFailed, .taskAwaitingHuman, .taskRequeued]

/-- An effect that is neither a release of the task `t` nor one of these events. -/
inductive Quiet (t : String) (w : World) : World → Prop
  | core (c : Core) (h : c.taskQueue = w.core.taskQueue) : Quiet t w ⟨c, w.backend⟩
  | column (f : TaskRow → TaskRow) (hf : ∀ r, (f r).key = r.key) (h : ColumnWrite f) :
    Quiet t w ⟨w.core.updateRow t f hf, w.backend⟩
  | backend (b : Backend) (h : b.events = w.backend.events) : Quiet t w ⟨w.core, b⟩
  | event (e : EventEnvelope) (h : e.eventType ∉ lifecycleTypes) :
    Quiet t w ⟨w.core, { w.backend with events := w.backend.events ++ [e] }⟩

/-- Any number of such effects. -/
abbrev QuietRun (t : String) : World → World → Prop := Relation.ReflTransGen (Quiet t)

section quiet

variable {t : String} {w₀ w w' : World}

/-- The columns a release writes are as they were. -/
theorem QuietRun.standing (h : QuietRun t w w') (k : String) :
    (w'.core.row k).map TaskRow.standing = (w.core.row k).map TaskRow.standing := by
  induction h with
  | refl => rfl
  | tail _ hstep ih =>
    rw [← ih]
    cases hstep with
    | core c h => rw [Core.row, h]; rfl
    | backend b h => rfl
    | event e h => rfl
    | column f hf h =>
      rw [row_updateRow]
      split
      next heq =>
        rw [heq, Option.map_map]
        exact congrArg (fun g => Option.map g _) (funext h.standing)
      next => rfl

/-- The log has grown by other events. -/
theorem QuietRun.events (h : QuietRun t w w') : ∃ es,
    w'.backend.events = w.backend.events ++ es ∧ ∀ e ∈ es, e.eventType ∉ lifecycleTypes := by
  induction h with
  | refl => exact ⟨[], (List.append_nil _).symm, by simp⟩
  | tail _ hstep ih =>
    obtain ⟨es, hes, hquiet⟩ := ih
    cases hstep with
    | core c h => exact ⟨es, hes, hquiet⟩
    | column f hf h => exact ⟨es, hes, hquiet⟩
    | backend b h => exact ⟨es, h.trans hes, hquiet⟩
    | event e h =>
      refine ⟨es ++ [e], ?_, ?_⟩
      · show _ ++ [e] = _
        rw [hes, List.append_assoc]
      · intro x hx
        rcases List.mem_append.mp hx with hx | hx
        · exact hquiet x hx
        · rw [List.mem_singleton.mp hx]
          exact h

/-- A log that has grown by other events is a quiet effect. -/
theorem QuietRun.of_appends {b : Backend} {es : List EventEnvelope} (h : QuietRun t w₀ w)
    (hb : b.events = w.backend.events ++ es) (hes : ∀ e ∈ es, e.eventType ∉ lifecycleTypes) :
    QuietRun t w₀ ⟨w.core, b⟩ := by
  have hrun : ∀ (es : List EventEnvelope), (∀ e ∈ es, e.eventType ∉ lifecycleTypes) →
      QuietRun t w₀ ⟨w.core, { w.backend with events := w.backend.events ++ es }⟩ := by
    intro es
    induction es using List.reverseRecOn with
    | nil => exact fun _ => h.tail (.backend _ (List.append_nil _))
    | append_singleton es e ih =>
      intro hes
      have hlast := (ih fun x hx => hes x (List.mem_append_left _ hx)).tail
        (.event e (hes e (List.mem_append_right _ (List.mem_singleton_self e))))
      rwa [List.append_assoc] at hlast
  exact (hrun es hes).tail (.backend b hb)

/-- The frame of quiet effects. -/
theorem quiet_log {P : EventEnvelope → Prop} {S : (α : Type) → ServiceM α → Prop} {c : Core}
    (hP : ∀ e, P e → e.eventType ∉ lifecycleTypes) :
    LogFrame P S (fun _ => True) fun b => QuietRun t w₀ ⟨c, b⟩ where
  quiet _ b' hevents _ _ _ hb := hb.tail (.backend b' hevents)
  append _ e he hb := hb.tail (.event e (hP e he))
  service _ _ _ _ hb _ := ensures_of_forall
    (fun _ _ _ => hb.tail (.backend _ rfl)) fun _ _ _ => hb.tail (.backend _ rfl)
  known _ _ _ _ := trivial

/-- No quota event and no event of a run is one of these. -/
theorem not_lifecycle_of_mem {types : List EventType} {projectId : String}
    {taskId : Option String} {sound : Prop} {e : EventEnvelope}
    (htypes : ∀ x ∈ types, x ∉ lifecycleTypes) (he : e.Of types projectId taskId sound) :
    e.eventType ∉ lifecycleTypes := htypes _ he.eventType

/-- **What a handler does before its release is quiet.** -/
theorem quiet_handlerFrame (services : HandlerServices) (entry : TaskQueueEntry) (w₀ : World) :
    HandlerFrame services entry (fun _ => True) (fun _ => True) (QuietRun entry.taskId w₀) where
  core w c hc hw := hw.tail (.core c hc)
  columns w f hf hwrite hw := hw.tail (.column f hf hwrite)
  log c := quiet_log fun e he => by
    rcases he with he | he | he
    · exact not_lifecycle_of_mem (by decide) he
    · exact not_lifecycle_of_mem (by decide) he
    · exact not_lifecycle_of_mem (by decide) he

end quiet

/-! ## Runs -/

/-- A run appends none of the events that end or requeue a task. -/
def RunsQuietly (run : RunTaskArgs → BackendM RunOutcome) : Prop :=
  ∀ args, ∀ events : List EventEnvelope, Maintains
    (fun b => ∃ es, b.events = events ++ es ∧ ∀ e ∈ es, e.eventType ∉ lifecycleTypes) (run args)
    fun _ => True

namespace OrchestratorV1

/-- `runTaskOnce` runs quietly. -/
theorem runTaskOnce_quiet (services : V1RunTaskServices) (signal : AbortSignal) :
    RunsQuietly (runTaskOnce services signal) := by
  intro args events
  refine (RunFrame.runTaskOnce (K := fun _ => True) ⟨⟨?_, ?_, ?_, fun _ _ _ _ => trivial⟩, ?_⟩).any
  · rintro b b' hevents - - - ⟨es, hes, hquiet⟩
    exact ⟨es, hevents.trans hes, hquiet⟩
  · rintro b e he ⟨es, hes, hquiet⟩
    refine ⟨es ++ [e], ?_, fun x hx => ?_⟩
    · show b.events ++ [e] = _
      rw [hes, List.append_assoc]
    · rcases List.mem_append.mp hx with hx | hx
      · exact hquiet x hx
      · rw [List.mem_singleton.mp hx]
        exact not_lifecycle_of_mem (by decide) he.of
  · intro α m _ b hb env
    exact ensures_of_forall (fun _ _ _ => hb) fun _ _ _ => hb
  · intro b runs _ hb
    exact hb

end OrchestratorV1

namespace WorkerTaskHandler

variable {services : HandlerServices} {worker : String}
  {runTaskOnce : RunTaskArgs → BackendM RunOutcome} {entry : TaskQueueEntry}
  {aborted abortedAtCatch : Bool} {env : Env} {w w' : World}

/-- The call of `runTaskOnce` in a call of `handle` returns an outcome. -/
def RunReturned (services : HandlerServices) (worker : String)
    (runTaskOnce : RunTaskArgs → BackendM RunOutcome) (entry : TaskQueueEntry) (aborted : Bool)
    (env : Env) (w : World) : Prop :=
  ∃ l w₁ outcome b, handleUntilLaunch services worker entry aborted env w = .ok (some l) w₁ ∧
    runTaskOnce l.runArgs env w₁.backend = .ok outcome b

/-- An outcome is kept as a value. -/
theorem attempt_of_ok {α : Type} {m : BackendM α} {b b' : Backend} {a : α}
    (hm : m env b = .ok a b') : attempt m env b = .ok (.ok a) b' := by
  show EStateM.tryCatch ((Except.ok <$> m) env) (fun e => (pure (.error e) : BackendM _) env) b = _
  have hmap : ((Except.ok : α → Except Err α) <$> m) env b = .ok (.ok a) b' := by
    rw [map_eq_pure_bind, bind_of_ok hm]
    rfl
  simp only [EStateM.tryCatch, hmap]

/-- An exception is kept as a value. -/
theorem attempt_of_error {α : Type} {m : BackendM α} {b b' : Backend} {e : Err}
    (hm : m env b = .error e b') : attempt m env b = .ok (.error e) b' := by
  show EStateM.tryCatch ((Except.ok <$> m) env) (fun e => (pure (.error e) : BackendM _) env) b = _
  have hmap : ((Except.ok : α → Except Err α) <$> m) env b = .error e b' := by
    rw [map_eq_pure_bind, bind_of_error hm]
  simp only [EStateM.tryCatch, hmap]
  rfl

/-- A program of the backend that returns does so in the world. -/
theorem onBackend_of_ok {α : Type} {m : BackendM α} {b : Backend} {a : α}
    (hm : m env w.backend = .ok a b) : onBackend m env w = .ok a ⟨w.core, b⟩ := by
  unfold onBackend zoom
  rw [hm]

/-- What a call that returns has done: it exited, with one attempt more when the run returned an
outcome. -/
theorem handle_exited (hrun : RunsQuietly runTaskOnce)
    (h : handle services worker runTaskOnce entry aborted abortedAtCatch env w = .ok () w') :
    ∃ n, Exited (QuietRun entry.taskId w) entry n w' ∧
      (RunReturned services worker runTaskOnce entry aborted env w → n = entry.attempts + 1) ∧
      (¬ RunReturned services worker runTaskOnce entry aborted env w → n = entry.attempts) := by
  have hframe := quiet_handlerFrame services entry w
  have huntil : ExitsOr (QuietRun entry.taskId w) entry (fun l => l.entry = entry ∧ True)
      (handleUntilLaunch services worker entry aborted) := handleUntilLaunch_exits hframe
  unfold handle at h
  cases hl : handleUntilLaunch services worker entry aborted env w with
  | error e w₁ =>
    rw [bind_of_error hl] at h
    cases h
  | ok l? w₁ =>
    rw [bind_of_ok hl] at h
    rcases (huntil env w .refl).of_ok hl with ⟨rfl, hexit⟩ | ⟨l, rfl, ⟨hentry, -⟩, hquiet⟩
    · cases h
      refine ⟨_, hexit, ?_, fun _ => rfl⟩
      rintro ⟨l, w₂, outcome, b, hl', -⟩
      rw [hl] at hl'
      cases hl'
    · dsimp only at h
      have hstart : ∃ es, w₁.backend.events = w₁.backend.events ++ es ∧
          ∀ e ∈ es, e.eventType ∉ lifecycleTypes := ⟨[], (List.append_nil _).symm, by simp⟩
      have hran := hrun l.runArgs w₁.backend.events env w₁.backend hstart
      -- The run settles as `result`, and the half after it starts from a quiet state.
      obtain ⟨result, b, hresult, hquiet', hreturned⟩ : ∃ result b,
          onBackend (attempt (runTaskOnce l.runArgs)) env w₁ = .ok result ⟨w₁.core, b⟩ ∧
          QuietRun entry.taskId w ⟨w₁.core, b⟩ ∧
          (RunReturned services worker runTaskOnce entry aborted env w ↔
            ∃ o, result = .ok o) := by
        cases hr : runTaskOnce l.runArgs env w₁.backend with
        | ok o b =>
          obtain ⟨-, es, hes, hnone⟩ := hran.of_ok hr
          refine ⟨.ok o, b, onBackend_of_ok (attempt_of_ok hr), hquiet.of_appends hes hnone, ?_⟩
          exact ⟨fun _ => ⟨o, rfl⟩, fun _ => ⟨l, w₁, o, b, hl, hr⟩⟩
        | error e b =>
          obtain ⟨es, hes, hnone⟩ := hran.of_error hr
          refine ⟨.error e, b, onBackend_of_ok (attempt_of_error hr), hquiet.of_appends hes hnone,
            ?_⟩
          constructor
          · rintro ⟨l', w₂, o, b', hl', hr'⟩
            rw [hl] at hl'
            cases hl'
            rw [hr] at hr'
            cases hr'
          · rintro ⟨o, ho⟩
            cases ho
      rw [bind_of_ok hresult] at h
      have hafter : Exits (QuietRun entry.taskId w) entry (attemptsAfter entry result)
          (handleAfterRun services worker l result abortedAtCatch) :=
        handleAfterRun_exits hframe hentry fun _ _ => trivial
      have hexit := (hafter env ⟨w₁.core, b⟩ hquiet').of_ok h
      refine ⟨_, hexit, fun hret => ?_, fun hret => ?_⟩
      · obtain ⟨o, rfl⟩ := hreturned.mp hret
        rfl
      · rw [hreturned] at hret
        cases result with
        | ok o => exact absurd ⟨o, rfl⟩ hret
        | error e => rfl

/-- How a call of `handle` leaves the row of its entry, given its last event. -/
structure LeftAs (entry : TaskQueueEntry) (returned : Prop) (e : EventEnvelope) (row : TaskRow) :
    Prop where
  owner : row.currentOwnerRunId = none
  lease : row.leaseExpiresAt = none
  status : row.status ∈ exitStatuses
  event : e.eventType = eventOf row.status
  about : e.projectId = entry.projectId ∧ e.taskId = some entry.taskId
  attempts : row.attempts = entry.attempts ∨ row.attempts = entry.attempts + 1
  returned : row.attempts = entry.attempts + 1 ↔ returned
  nextRole : row.status = .queued → e.payload.lookup "next_role" = some (.str row.nextRole.text)

/-- **A call of `handle` that returns has exited once**: quiet effects, then one release of the
entry, then one of the events that end or requeue a task, and the row is as that event says. -/
theorem handle_exits_once (hrun : RunsQuietly runTaskOnce)
    (h : handle services worker runTaskOnce entry aborted abortedAtCatch env w = .ok () w') :
    ∃ w₁ w₂ status role n e row es,
      (QuietRun entry.taskId w w₁ ∧ Releases entry status role n w₁ w₂ ∧
        Announces entry status role w₂ w') ∧
      (w₁.core.row entry.taskId).map TaskRow.standing =
        (w.core.row entry.taskId).map TaskRow.standing ∧
      (w'.backend.events = w.backend.events ++ es ++ [e] ∧
        (∀ x ∈ es, x.eventType ∉ lifecycleTypes) ∧ e.eventType ∈ lifecycleTypes) ∧
      w'.core.row entry.taskId = some row ∧
      LeftAs entry (RunReturned services worker runTaskOnce entry aborted env w) e row := by
  obtain ⟨n, ⟨w₁, w₂, status, role, hquiet, hstatus, hrel, hann⟩, hret, hnot⟩ :=
    handle_exited hrun h
  have hann' := hann
  have hrel' := hrel
  obtain ⟨⟨r, hr⟩, updatedAt, calls, rfl⟩ := hrel
  obtain ⟨e, calls', he, rfl⟩ := hann
  obtain ⟨es, hes, hnone⟩ := hquiet.events
  have hrow : ((Update.release status role n updatedAt).apply entry.taskId w₁.core).row
      entry.taskId = some (releasedRow status role n updatedAt r) := by
    rw [Update.row_apply, hr]
    rfl
  have htype : e.eventType = eventOf status := List.mem_singleton.mp he.of.eventType
  refine ⟨w₁, _, status, role, n, e, _, es, ⟨hquiet, hrel', hann'⟩, hquiet.standing _,
    ⟨?_, hnone, ?_⟩, hrow, ?_⟩
  · show w₁.backend.events ++ [e] = _
    rw [hes]
  · rw [htype]
    simp only [exitStatuses, List.mem_cons, List.not_mem_nil, or_false] at hstatus
    rcases hstatus with rfl | rfl | rfl | rfl <;> decide
  · refine ⟨rfl, rfl, hstatus, htype, ⟨he.of.projectId, he.of.taskId⟩, ?_, ?_, he.nextRole⟩
    · by_cases hreturned : RunReturned services worker runTaskOnce entry aborted env w
      · exact Or.inr (hret hreturned)
      · exact Or.inl (hnot hreturned)
    · refine ⟨fun hone => ?_, hret⟩
      by_contra hreturned
      have hsame := hnot hreturned
      have hone : n = entry.attempts + 1 := hone
      omega

/-! ### One attempt -/

/-- The entry of a worker that has claimed one. -/
def claimedEntry : Pc → Option TaskQueueEntry
  | .claimed entry => some entry
  | _ => none

/-- The result is a return. -/
def returns : EStateM.Result Err World Unit → Bool
  | .ok .. => true
  | .error .. => false

theorem exists_of_returns {x : EStateM.Result Err World Unit} (h : returns x = true) :
    ∃ w, x = .ok () w := by
  cases x with
  | ok a w => exact ⟨w, rfl⟩
  | error e w => cases h

/-- The first attempt of a task, by the worker that claimed it. -/
theorem handle_exits_once_implemented : ∃ s entry w' e row,
    System.Steps Sample.services Sample.system
      [.enqueue "main" Sample.workOrder .implementer Sample.env, .claim "w1" Sample.env] s ∧
    handle Sample.services "w1" (OrchestratorV1.runTaskOnce Sample.runServices .quiet) entry false
      false Sample.env (s.load "w1") = .ok () w' ∧
    w'.core.row entry.taskId = some row ∧
    LeftAs entry (RunReturned Sample.services "w1"
      (OrchestratorV1.runTaskOnce Sample.runServices .quiet) entry false Sample.env
      (s.load "w1")) e row := by
  have h : (Sample.system.steps Sample.services
      [.enqueue "main" Sample.workOrder .implementer Sample.env, .claim "w1" Sample.env]).any
      (fun s => (claimedEntry (s.pc "w1")).any fun entry =>
        returns (handle Sample.services "w1"
          (OrchestratorV1.runTaskOnce Sample.runServices .quiet) entry false false Sample.env
          (s.load "w1"))) = true := by
    decide +kernel
  obtain ⟨s, hs, hp⟩ := (Option.any_eq_true _ _).mp h
  obtain ⟨entry, -, hp⟩ := (Option.any_eq_true _ _).mp hp
  obtain ⟨w', hw'⟩ := exists_of_returns hp
  obtain ⟨-, -, -, -, -, e, row, -, -, -, -, hrow, hleft⟩ :=
    handle_exits_once (OrchestratorV1.runTaskOnce_quiet Sample.runServices .quiet) hw'
  exact ⟨s, entry, w', e, row, System.steps_iff.mpr hs, hw', hrow, hleft⟩

end WorkerTaskHandler

end AgentWorkflow
