import AgentWorkflow.Queue.TaskUpdate

/-!
# What a handler can do

The two halves of `handle` as sequences of updates of the handled task, stated once; every property
of runs is derived from the specifications of this module.

* `BeforeRun`, `AfterRun` — the updates each half may make, where it may make them.
* **`handleUntilLaunch_spec`** — the half before the run releases the task as failed or awaiting a
  human, or launches, or throws.
* **`handleAfterRun_spec`** — the half after the run makes the transition `Settles` of its outcome,
  or throws.
* `Thrown` — what a throw leaves: a sequence of allowed updates, with a release only when the
  append of the event after it may throw.
-/

namespace AgentWorkflow

open Fallible

/-- The event that follows a release into a status. -/
def eventOf : TaskStatus → EventType
  | .accepted => .taskCompleted
  | .awaitingHuman => .taskAwaitingHuman
  | .failed => .taskFailed
  | _ => .taskRequeued

/-! ## Exits -/

section exits

variable {A : Holding → Update → Prop} {env : Env} {t : String} {c c' : Core} {u : Update} {e : Err}

/-- What a throw leaves. -/
def Thrown (A : Holding → Update → Prop) (env : Env) (t : String) (c : Core) (_ : Err) (c' : Core) :
    Prop :=
  ∃ us, Updates A t c us c' ∧
    ∀ st role n at', Update.release st role n at' ∈ us → env.MayThrow (.appendEvent (eventOf st))

/-- A sequence of allowed updates that ends with a release into `st`. -/
def ReleasedAs (A : Holding → Update → Prop) (t : String) (st : TaskStatus) (role : Role) (n : ℕ)
    (c c' : Core) : Prop :=
  ∃ us at', Updates A t c (us ++ [.release st role n at']) c'

theorem Thrown.refl : Thrown A env t c e c :=
  ⟨[], .nil c, by simp⟩

/-- An update before the throw. -/
theorem Thrown.cons (hA : A (c.holding t) u) (hu : ∀ st role n at', u ≠ .release st role n at')
    (h : Thrown A env t (u.apply t c) e c') : Thrown A env t c e c' := by
  obtain ⟨us, hus, hrel⟩ := h
  refine ⟨u :: us, .cons ⟨hA, rfl⟩ hus, fun st role n at' hmem => ?_⟩
  rcases List.mem_cons.mp hmem with h | h
  · exact absurd h.symm (hu st role n at')
  · exact hrel st role n at' h

/-- A release whose event could not be appended. -/
theorem Thrown.of_release {st : TaskStatus} {role : Role} {n at' : ℕ}
    (hA : A (c.holding t) (.release st role n at')) (h : env.MayThrow (.appendEvent (eventOf st))) :
    Thrown A env t c e ((Update.release st role n at').apply t c) := by
  refine ⟨[.release st role n at'], .cons ⟨hA, rfl⟩ (.nil _), ?_⟩
  intro st' role' n' at'' hmem
  cases List.mem_singleton.mp hmem
  exact h

theorem ReleasedAs.cons {st : TaskStatus} {role : Role} {n : ℕ} (hA : A (c.holding t) u)
    (h : ReleasedAs A t st role n (u.apply t c) c') : ReleasedAs A t st role n c c' := by
  obtain ⟨us, at', hus⟩ := h
  exact ⟨u :: us, at', .cons ⟨hA, rfl⟩ hus⟩

theorem ReleasedAs.of_release {st : TaskStatus} {role : Role} {n at' : ℕ}
    (hA : A (c.holding t) (.release st role n at')) :
    ReleasedAs A t st role n c ((Update.release st role n at').apply t c) :=
  ⟨[], at', .cons ⟨hA, rfl⟩ (.nil _)⟩

end exits

namespace WorkerTaskHandler

variable {env : Env} {c : Core} {entry : TaskQueueEntry}

/-! ## Releases and events -/

theorem ensures_append {event : EventEnvelope} {b : Backend} :
    Ensures (EventLog.append event) env b (fun _ _ => True)
      (fun _ _ => env.MayThrow (.appendEvent event.eventType)) := by
  simp only [EventLog.append, ensures_bind, ensures_modify]
  exact (ensures_storageCall _ b).mono (fun _ _ h => h) fun _ _ h => h

theorem ensures_appendEvent {eventType : EventType} {runId agentId : Option String}
    {payload : List (String × Json)} (b : Backend) :
    Ensures (appendEvent entry eventType runId agentId payload) env b (fun _ _ => True)
      (fun _ _ => env.MayThrow (.appendEvent eventType)) := by
  simp only [appendEvent, ensures_bind, ensures_uuid8, ensures_dateNow]
  exact ensures_append

/-- A handler's release is the update of its name. -/
theorem onCore_release {status : TaskStatus} {nextRole : Option Role} {attempts : ℕ}
    {Q : Unit → Core → Prop} {E : Err → Core → Prop}
    (hQ : ∀ u, Q () ((Update.release status (nextRole.getD entry.nextRole) attempts u).apply
      entry.taskId c))
    (hE : ∀ e, E e c) : OnCore (release entry status nextRole attempts) env c Q E := by
  refine .bind (onCore_dateNow fun now => ?_)
  refine QueueStore.onCore_release rfl (fun r u _ => ?_) (fun _ => hE) fun _ => hE
  exact hQ u

/-- A release and the event after it: the release stays when the event cannot be appended. -/
theorem release_then {A : Holding → Update → Prop} {status : TaskStatus} {nextRole : Option Role}
    {attempts : ℕ} {eventType : EventType} {runId agentId : Option String}
    {payload : List (String × Json)} (htype : eventType = eventOf status)
    (hA : ∀ u, A (c.holding entry.taskId)
      (.release status (nextRole.getD entry.nextRole) attempts u)) :
    OnCore (do
        release entry status nextRole attempts
        onBackend (appendEvent entry eventType runId agentId payload)) env c
      (fun _ c' => ∃ u, c' =
        (Update.release status (nextRole.getD entry.nextRole) attempts u).apply entry.taskId c)
      (Thrown A env entry.taskId c) := by
  refine .bind (onCore_release (fun u => ?_) fun e => Thrown.refl)
  refine onCore_onBackend_of (ensures_appendEvent) (fun _ _ => ⟨u, rfl⟩) fun e he => ?_
  exact Thrown.of_release (hA u) (htype ▸ he)

theorem failTask_spec {A : Holding → Update → Prop} {reason : String} {attempts : ℕ}
    {runId : Option String} {payload : List (String × Json)}
    (hA : ∀ u, A (c.holding entry.taskId) (.release .failed entry.nextRole attempts u)) :
    OnCore (failTask entry reason attempts runId payload) env c
      (fun _ c' => ∃ u, c' =
        (Update.release .failed entry.nextRole attempts u).apply entry.taskId c)
      (Thrown A env entry.taskId c) :=
  release_then rfl hA

/-! ## Before the run -/

/-- The updates of the half before the run. -/
inductive BeforeRun (worker : String) (entry : TaskQueueEntry) : Holding → Update → Prop
  | load {h : Holding} : BeforeRun worker entry h .loadWorkOrder
  | init {h : Holding} {w : ParsedWorkOrderV1} (hw : h.cached = some w) :
    BeforeRun worker entry h (.initBudget (BudgetManager.capsOf w))
  | decided {h : Holding} {w : ParsedWorkOrderV1} {picked : Option String}
    (hw : h.cached = some w) (hpicked : ∀ id, picked = some id → id ∉ w.agent.excludeAgentIds) :
    BeforeRun worker entry h
      (.note worker (.decided entry.taskId entry.nextRole w.agent.excludeAgentIds picked))
  | charge {h : Holding} {b : BudgetState} (hb : h.budget = some b) (hne : b.status ≠ .exhausted) :
    BeforeRun worker entry h .chargeRun
  | release {h : Holding} {st : TaskStatus} {u : ℕ} (hst : st = .failed ∨ st = .awaitingHuman) :
    BeforeRun worker entry h (.release st entry.nextRole entry.attempts u)

/-- The release of a half that launches nothing. -/
def Refused (worker : String) (entry : TaskQueueEntry) (c c' : Core) : Prop :=
  ∃ st, (st = .failed ∨ st = .awaitingHuman) ∧
    ReleasedAs (BeforeRun worker entry) entry.taskId st entry.nextRole entry.attempts c c'

variable {services : HandlerServices} {worker : String} {aborted : Bool}

theorem Refused.cons {u : Update} {c' : Core}
    (hA : BeforeRun worker entry (c.holding entry.taskId) u)
    (h : Refused worker entry (u.apply entry.taskId c) c') : Refused worker entry c c' := by
  obtain ⟨st, hst, h⟩ := h
  exact ⟨st, hst, h.cons hA⟩

theorem Refused.of_release {st : TaskStatus} {u : ℕ} (hst : st = .failed ∨ st = .awaitingHuman) :
    Refused worker entry c
      ((Update.release st entry.nextRole entry.attempts u).apply entry.taskId c) :=
  ⟨st, hst, .of_release (.release hst)⟩

/-- A task that fails before its run. -/
theorem failTask_refused {reason : String} {payload : List (String × Json)} :
    OnCore (failTask entry reason entry.attempts none payload) env c
      (fun _ c' => Refused worker entry c c')
      (Thrown (BeforeRun worker entry) env entry.taskId c) :=
  (failTask_spec fun _ => .release (Or.inl rfl)).mono
    (fun _ _ ⟨_, hc'⟩ => hc' ▸ .of_release (Or.inl rfl)) fun _ _ h => h

theorem handleSchedulerRefusal_refused {decision : ScheduleDecision} :
    OnCore (handleSchedulerRefusal entry decision) env c
      (fun _ c' => Refused worker entry c c')
      (Thrown (BeforeRun worker entry) env entry.taskId c) := by
  unfold handleSchedulerRefusal
  split
  · exact failTask_refused
  · refine (release_then rfl fun _ => ?_).mono
      (fun _ _ ⟨_, hc'⟩ => hc' ▸ .of_release (Or.inr rfl)) fun _ _ h => h
    exact .release (Or.inr rfl)
  · refine (release_then rfl fun _ => ?_).mono
      (fun _ _ ⟨_, hc'⟩ => hc' ▸ .of_release (Or.inl rfl)) fun _ _ h => h
    exact .release (Or.inl rfl)

/-- The result of the half before the run: a refusal, or a launch with `P`. -/
def LaunchOr (worker : String) (entry : TaskQueueEntry) (c : Core)
    (P : Launch → Core → Prop) : Option Launch → Core → Prop
  | none, c' => Refused worker entry c c'
  | some l, c' => P l c'

/-- A specification after one more update is one before it. -/
theorem launchOr_cons {P : Launch → Core → Prop} {u : Update} {m : WorldM (Option Launch)}
    (hA : BeforeRun worker entry (c.holding entry.taskId) u)
    (hu : ∀ st role n at', u ≠ .release st role n at')
    (h : OnCore m env (u.apply entry.taskId c)
      (LaunchOr worker entry (u.apply entry.taskId c) P)
      (Thrown (BeforeRun worker entry) env entry.taskId (u.apply entry.taskId c))) :
    OnCore m env (u.apply entry.taskId c) (LaunchOr worker entry c P)
      (Thrown (BeforeRun worker entry) env entry.taskId c) := by
  refine h.mono (fun l? c' hl => ?_) fun _ _ ht => ht.cons hA hu
  cases l? with
  | none => exact Refused.cons hA hl
  | some l => exact hl

/-- A program that fails the task and launches nothing. -/
theorem launchOr_none {P : Launch → Core → Prop} {m : WorldM Unit}
    (h : OnCore m env c (fun _ c' => Refused worker entry c c')
      (Thrown (BeforeRun worker entry) env entry.taskId c)) :
    OnCore (do m; pure none) env c (LaunchOr worker entry c P)
      (Thrown (BeforeRun worker entry) env entry.taskId c) :=
  .bind (h.mono (fun _ _ hr => .pure hr) fun _ _ ht => ht)

theorem onCore_throwIfAborted {Q : Unit → Core → Prop} {E : Err → Core → Prop} (hQ : Q () c)
    (hE : ∀ e, E e c) : OnCore (onBackend (throwIfAborted aborted)) env c Q E :=
  onCore_onBackend (fun _ => hQ) hE

theorem handleRunError_refused {context : Option ReviewContextRecord} {e : Err} :
    OnCore (handleRunError entry context aborted e) env c
      (fun _ c' => Refused worker entry c c')
      (Thrown (BeforeRun worker entry) env entry.taskId c) :=
  .ite (fun _ => onCore_throw Thrown.refl) fun _ => failTask_refused

/-- What `launch` keeps for the time after the run. -/
structure Kept (entry : TaskQueueEntry) (workOrder : ParsedWorkOrderV1)
    (context : Option ReviewContextRecord) (agentEntry : AgentRegistryEntry) (l : Launch) :
    Prop where
  entry_eq : l.entry = entry
  workOrder_eq : l.workOrder = workOrder
  context_eq : l.persistedReviewContext = context
  agentEntry_eq : l.agentEntry = agentEntry

theorem launch_spec {workOrder : ParsedWorkOrderV1} {context : Option ReviewContextRecord}
    {uri : Option String} {packet : Option HandoffPacket} {decision : ScheduleDecision}
    {agentEntry : AgentRegistryEntry} {gate : BudgetState} {P : Launch → Core → Prop}
    (hgate : c.budget entry.taskId = some gate) (hne : gate.status ≠ .exhausted)
    (hP : ∀ l, Kept entry workOrder context agentEntry l →
      P l ((Update.note worker (.launched entry.taskId entry.nextRole
        agentEntry.profile.agentId gate context)).apply entry.taskId
          (Update.chargeRun.apply entry.taskId c))) :
    OnCore (launch services worker entry aborted workOrder context uri packet decision
      agentEntry gate) env c (LaunchOr worker entry c P)
      (Thrown (BeforeRun worker entry) env entry.taskId c) := by
  have hcharge : BeforeRun worker entry (c.holding entry.taskId) .chargeRun :=
    .charge hgate hne
  refine .bind (onCore_throwIfAborted ?_ fun _ => Thrown.refl)
  refine .bind (BudgetManager.onCore_preLaunch (fun b hb => ?_) (fun _ => Thrown.refl)
    fun _ => Thrown.refl.cons hcharge (by simp))
  refine launchOr_cons hcharge (by simp) ?_
  refine .bind (onCore_throwIfAborted ?_ fun _ => Thrown.refl)
  refine .bind (onCore_dateNow fun now => ?_)
  refine .bind (onCore_onBackend (fun reviewContext => ?_) fun _ => Thrown.refl)
  cases reviewContext with
  | error e => exact launchOr_none handleRunError_refused
  | ok reviewContext => exact .bind (onCore_record (.pure (hP _ ⟨rfl, rfl, rfl, rfl⟩)))

/-- `init` as an update, for the work order of the task. -/
theorem onCore_init {t : String} {workOrder : ParsedWorkOrderV1} {Q : BudgetState → Core → Prop}
    {E : Err → Core → Prop} (ht : workOrder.taskId = t)
    (hQ : ∀ b, ((Update.initBudget (BudgetManager.capsOf workOrder)).apply t c).budget t = some b →
      Q b ((Update.initBudget (BudgetManager.capsOf workOrder)).apply t c))
    (hE : ∀ e, E e c)
    (hE' : ∀ e, E e ((Update.initBudget (BudgetManager.capsOf workOrder)).apply t c)) :
    OnCore (BudgetManager.init workOrder) env c Q E := by
  subst ht
  refine BudgetManager.onCore_init (fun b hb => ?_) (fun q _ hq => ?_) hE fun e q _ hq => ?_
  · have := hQ b
    rw [Update.apply_initBudget_of_some hb] at this
    exact this hb
  · have := hQ (BudgetState.fresh workOrder.taskId (BudgetManager.capsOf workOrder))
    rw [Update.apply_initBudget_of_insert hq] at this
    exact this ((Table.find?_insert hq _).trans (if_pos rfl))
  · have := hE' e
    rwa [Update.apply_initBudget_of_insert hq] at this

/-- `getWorkOrder` as an update. -/
theorem onCore_getWorkOrder {t : String} {Q : Option ParsedWorkOrderV1 → Core → Prop}
    {E : Err → Core → Prop} (hnone : c.cached t = none → c.row t = none → Q none c)
    (hQ : ∀ w, (Update.loadWorkOrder.apply t c).cached t = some w →
      Q (some w) (Update.loadWorkOrder.apply t c))
    (hE : ∀ e, E e c) : OnCore (TaskQueue.getWorkOrder t) env c Q E := by
  refine TaskQueue.onCore_getWorkOrder (fun w hw => ?_) hnone (fun r w hc hr hw => ?_) hE
  · have := hQ w
    rw [Update.apply_loadWorkOrder_of_cached hw] at this
    exact this hw
  · have hp : c.persisted t = some w := by
      rw [Core.persisted, hr]
      exact hw
    have := hQ w
    rw [Update.apply_loadWorkOrder_of_persisted hc hp] at this
    exact this (cached_cache_self c t w)

/-- What a launch took from what was held where the half began; `gate` is the budget it read. -/
structure Launches (entry : TaskQueueEntry) (h : Holding) (l : Launch) (gate : BudgetState) :
    Prop where
  entry_eq : l.entry = entry
  loaded : (Update.loadWorkOrder.onHolding entry.taskId h).cached = some l.workOrder
  not_excluded : l.agentId ∉ l.workOrder.agent.excludeAgentIds
  context_of_reviewer : entry.nextRole = .reviewer → ∃ context,
    l.persistedReviewContext = some context ∧
      h.row.bind TaskRow.reviewContextJson = some context ∧
      context.implementerAgentId ≠ l.agentId
  context_of_implementer : entry.nextRole = .implementer → l.persistedReviewContext = none
  gate_eq : (Update.initBudget (BudgetManager.capsOf l.workOrder)).onBudget entry.taskId
    h.budget = some gate
  gate_open : gate.status ≠ .exhausted

/-- The updates before a launch. -/
def launchUpdates (worker : String) (entry : TaskQueueEntry) (l : Launch) : List Update :=
  [.loadWorkOrder, .initBudget (BudgetManager.capsOf l.workOrder),
    .note worker (.decided entry.taskId entry.nextRole l.workOrder.agent.excludeAgentIds
      (some l.agentId)),
    .chargeRun]

/-- The half before the run launches `l`. -/
def LaunchedAs (worker : String) (entry : TaskQueueEntry) (c : Core) (l : Launch) (c' : Core) :
    Prop :=
  ∃ gate c₁, Launches entry (c.holding entry.taskId) l gate ∧
    Updates (BeforeRun worker entry) entry.taskId c (launchUpdates worker entry l) c₁ ∧
    c' = c₁.note worker
      (.launched entry.taskId entry.nextRole l.agentId gate l.persistedReviewContext)

theorem dispatch_spec {workOrder : ParsedWorkOrderV1} {context : Option ReviewContextRecord}
    {uri : Option String} {P : Launch → Core → Prop}
    (ht : workOrder.taskId = entry.taskId) (hw : c.cached entry.taskId = some workOrder)
    (hP : ∀ l agentEntry gate, Kept entry workOrder context agentEntry l →
      l.agentId ∉ workOrder.agent.excludeAgentIds →
      (entry.nextRole = .reviewer → context.map ReviewContextRecord.implementerAgentId ≠
        some l.agentId) →
      gate.status ≠ .exhausted →
      ((Update.initBudget (BudgetManager.capsOf workOrder)).apply entry.taskId c).budget
        entry.taskId = some gate →
      P l ((Update.note worker (.launched entry.taskId entry.nextRole l.agentId gate
          context)).apply entry.taskId
        (Update.chargeRun.apply entry.taskId
          ((Update.note worker (.decided entry.taskId entry.nextRole
            workOrder.agent.excludeAgentIds (some l.agentId))).apply entry.taskId
            ((Update.initBudget (BudgetManager.capsOf workOrder)).apply entry.taskId c))))) :
    OnCore (dispatch services worker entry aborted workOrder context uri) env c
      (LaunchOr worker entry c P) (Thrown (BeforeRun worker entry) env entry.taskId c) := by
  have hinit : BeforeRun worker entry (c.holding entry.taskId)
      (.initBudget (BudgetManager.capsOf workOrder)) := .init hw
  refine .bind (onCore_init ht (fun b hb => ?_) (fun _ => Thrown.refl)
    fun _ => Thrown.refl.cons hinit (by simp))
  refine launchOr_cons hinit (by simp) ?_
  have hw' : ((Update.initBudget (BudgetManager.capsOf workOrder)).apply entry.taskId c).cached
      entry.taskId = some workOrder := by
    rw [← hw]
    simp only [Update.apply]
    split <;> rfl
  refine .bind (BudgetManager.onCore_current (fun gate hgate => ?_) fun _ => Thrown.refl)
  refine .bind (onCore_onBackend_of (Scheduler.decide_spec env) (fun decision hd => ?_)
    fun _ _ => Thrown.refl)
  have hdecided : BeforeRun worker entry
      (((Update.initBudget (BudgetManager.capsOf workOrder)).apply entry.taskId c).holding
        entry.taskId)
      (.note worker (.decided entry.taskId entry.nextRole workOrder.agent.excludeAgentIds
        decision.pickedAgentId)) := .decided hw' hd.not_excluded
  refine .bind (onCore_record ?_)
  refine launchOr_cons hdecided (by simp) ?_
  obtain ⟨c₂, hc₂⟩ : ∃ c₂, c₂ = (Update.note worker (.decided entry.taskId entry.nextRole
      workOrder.agent.excludeAgentIds decision.pickedAgentId)).apply entry.taskId
        ((Update.initBudget (BudgetManager.capsOf workOrder)).apply entry.taskId c) := ⟨_, rfl⟩
  rw [← hc₂]
  refine .bind (onCore_onBackend (fun _ => ?_) fun _ => Thrown.refl)
  split
  next => exact launchOr_none handleSchedulerRefusal_refused
  next picked hpicked =>
    have hpick : decision.pickedAgentId = some picked := (Option.filter_eq_some_iff.mp hpicked).1
    refine .bind (onCore_onBackend_of (AgentRegistry.get_spec env) (fun agentEntry? hag => ?_)
      fun _ h => h.elim)
    cases agentEntry? with
    | none => exact launchOr_none failTask_refused
    | some agentEntry =>
      have hid : agentEntry.profile.agentId = picked := hag agentEntry rfl
      have hgate₂ : c₂.budget entry.taskId = some gate := hc₂ ▸ hgate
      have hlaunch : ∀ packet, OnCore (launch services worker entry aborted workOrder context uri
          packet decision agentEntry gate) env c₂ (LaunchOr worker entry c₂ P)
          (Thrown (BeforeRun worker entry) env entry.taskId c₂) := fun packet =>
        launch_spec hgate₂ (hd.not_exhausted (by simp [hpick])) fun l hl => by
          have hl' : l.agentId = picked := by rw [Launch.agentId, hl.agentEntry_eq, hid]
          have := hP l agentEntry gate hl (hl' ▸ hd.not_excluded picked hpick)
            (fun hr => hl' ▸ hd.not_implementer picked hpick hr)
            (hd.not_exhausted (by simp [hpick])) hgate
          rw [show some l.agentId = decision.pickedAgentId by rw [hl', hpick], ← hc₂] at this
          rw [hid, ← hl']
          exact this
      dsimp only
      split
      next => exact hlaunch none
      next packetUri _ =>
        refine .bind (onCore_onBackend (fun packet => ?_) fun _ => Thrown.refl)
        cases packet with
        | error e => exact launchOr_none failTask_refused
        | ok packet => exact hlaunch (some packet)

theorem onCore_readReviewContext {Q : Option ReviewContextRecord → Core → Prop}
    {E : Err → Core → Prop}
    (hreviewer : entry.nextRole = .reviewer →
      Q ((c.row entry.taskId).bind TaskRow.reviewContextJson) c)
    (himplementer : entry.nextRole ≠ .reviewer → Q none c) (hE : ∀ e, E e c) :
    OnCore (readReviewContext entry) env c Q E :=
  .ite (fun hr => QueueStore.onCore_getReviewContext (hreviewer hr) hE)
    fun hr => .pure (himplementer hr)

theorem onCore_readHandoffPacketUri {Q : Option String → Core → Prop} {E : Err → Core → Prop}
    (hQ : ∀ uri, Q uri c) (hE : ∀ e, E e c) : OnCore (readHandoffPacketUri entry) env c Q E :=
  .ite (fun _ => QueueStore.onCore_getHandoffPacketUri hQ hE) fun _ => .pure (hQ none)

/-- **The half before the run**: a refusal, a launch, or a throw. -/
theorem handleUntilLaunch_spec
    (ht : ∀ w, (Update.loadWorkOrder.apply entry.taskId c).cached entry.taskId = some w →
      w.taskId = entry.taskId) :
    OnCore (handleUntilLaunch services worker entry aborted) env c
      (LaunchOr worker entry c (LaunchedAs worker entry c))
      (Thrown (BeforeRun worker entry) env entry.taskId c) := by
  refine .bind (onCore_throwIfAborted ?_ fun _ => Thrown.refl)
  refine .bind (onCore_getWorkOrder (fun _ _ => ?_) (fun w hw => ?_) fun _ => Thrown.refl)
  · exact launchOr_none failTask_refused
  have hload : BeforeRun worker entry (c.holding entry.taskId) .loadWorkOrder := .load
  refine launchOr_cons hload (by simp) ?_
  obtain ⟨c₁, hc₁⟩ : ∃ c₁, c₁ = Update.loadWorkOrder.apply entry.taskId c := ⟨_, rfl⟩
  have hrow : c₁.row entry.taskId = c.row entry.taskId := by
    rw [hc₁, Update.row_apply]
    exact Option.map_id'
  rw [← hc₁] at hw ⊢
  have hrest : ∀ context : Option ReviewContextRecord,
      (entry.nextRole = .reviewer →
        context = (c.row entry.taskId).bind TaskRow.reviewContextJson) →
      (entry.nextRole = .implementer → context = none) →
      OnCore (do
        let uri ← readHandoffPacketUri entry
        if entry.nextRole = .reviewer ∧ context.isNone = true then do
          failTask entry "review_context_not_found" entry.attempts none []
          pure none
        else dispatch services worker entry aborted w context uri) env c₁
        (LaunchOr worker entry c₁ (LaunchedAs worker entry c))
        (Thrown (BeforeRun worker entry) env entry.taskId c₁) := by
    intro context hreviewer himplementer
    refine .bind (onCore_readHandoffPacketUri (fun uri => ?_) fun _ => Thrown.refl)
    refine .ite (fun _ => launchOr_none failTask_refused) fun hsome => ?_
    refine dispatch_spec (ht w (hc₁ ▸ hw)) hw fun l agentEntry gate hl hex himpl hne hgate => ?_
    obtain rfl : l.workOrder = w := hl.workOrder_eq
    obtain rfl : l.persistedReviewContext = context := hl.context_eq
    have hloaded := congrArg Holding.cached (Update.holding_apply entry.taskId c .loadWorkOrder)
    have hinit := Update.budget_apply entry.taskId c₁
      (.initBudget (BudgetManager.capsOf l.workOrder))
    have hbudget : c₁.budget entry.taskId = c.budget entry.taskId := by
      rw [hc₁, Update.budget_apply]
      rfl
    refine ⟨gate, _, ⟨hl.entry_eq, ?_, hex, fun hr => ?_, himplementer, ?_, hne⟩, ?_, rfl⟩
    · rw [← hloaded, ← hw, hc₁]
      rfl
    · cases hctx : l.persistedReviewContext with
      | none => exact absurd ⟨hr, by simp [hctx]⟩ hsome
      | some context =>
        refine ⟨context, rfl, hctx ▸ (hreviewer hr).symm, fun h => himpl hr ?_⟩
        rw [hctx, Option.map_some, h]
    · rw [← hgate, hinit, hbudget]
      rfl
    · subst hc₁
      have hw₂ : ((Update.initBudget (BudgetManager.capsOf l.workOrder)).apply entry.taskId
          (Update.loadWorkOrder.apply entry.taskId c)).cached entry.taskId =
          some l.workOrder := by
        rw [← hw]
        exact congrArg Holding.cached (Update.holding_apply entry.taskId _ _)
      refine .cons ⟨hload, rfl⟩ (.cons ⟨.init hw, rfl⟩ (.cons ⟨.decided hw₂ ?_, rfl⟩
        (.cons ⟨.charge hgate hne, rfl⟩ (.nil _))))
      rintro id ⟨⟩
      exact hex
  refine .bind (onCore_readReviewContext (fun hr => ?_) (fun hr => ?_) fun _ => Thrown.refl)
  · refine hrest _ (fun _ => by rw [hrow]) fun hi => ?_
    rw [hr] at hi
    cases hi
  · exact hrest none (fun h => absurd h hr) fun _ => rfl

end WorkerTaskHandler

end AgentWorkflow
