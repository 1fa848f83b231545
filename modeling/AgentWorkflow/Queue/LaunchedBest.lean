import AgentWorkflow.Queue.HandoffDelivery
import AgentWorkflow.Queue.RunBudget
import AgentWorkflow.Scheduling.Decision

/-!
# Who is launched

The decision is made in the middle of `handle`, over a work order that may come from a cache and a
registry that is synced as it is read. What a launch takes from it, in runs of any number of workers.

* `Lists L m Q` — `m` leaves what the registry lists; one lemma for each program before the decision.
* **`handleUntilLaunch_picks`** — a launch is of the agent to pick, among those the worker's registry
  lists where the half begins, for the work order and the review context of the launch.
* `Extends` — every copy of a work order excludes at least whom the enqueued one excludes.
* **`launched_best`** — in every run: every launch is of the best of the agents that are eligible for the
  enqueued work order.
-/

namespace AgentWorkflow

open Fallible

/-! ## What the registry lists stays -/

/-- The registry lists `L`. -/
abbrev Listing (L : List AgentRegistryEntry) (w : World) : Prop := w.backend.listed = L

/-- The program leaves what the registry lists. -/
abbrev Lists (L : List AgentRegistryEntry) {α : Type} (m : WorldM α) (Q : α → Prop) : Prop :=
  Maintains (Listing L) m Q

section listing

variable {L : List AgentRegistryEntry} {α : Type}

theorem listed_congr {b b' : Backend} (hregistry : b'.registry = b.registry)
    (hshared : b'.sharedQuotaHealth = b.sharedQuotaHealth) : b'.listed = b.listed := by
  unfold Backend.listed
  rw [hregistry, hshared]

/-- Syncing twice is syncing once. -/
theorem syncQuotaHealth_sync (shared : List (String × QuotaHealth)) (e : InternalEntry) :
    AgentRegistry.syncQuotaHealth shared (AgentRegistry.syncQuotaHealth shared e) =
      AgentRegistry.syncQuotaHealth shared e := by
  cases h : shared.lookup e.agentId with
  | none =>
    have hsame : AgentRegistry.syncQuotaHealth shared e = e := by
      simp only [AgentRegistry.syncQuotaHealth, h]
    rw [hsame, hsame]
  | some health =>
    have hset : ∀ e' : InternalEntry, e'.agentId = e.agentId →
        AgentRegistry.syncQuotaHealth shared e' = { e' with quotaHealth := health } := by
      intro e' he'
      simp only [AgentRegistry.syncQuotaHealth, he', h]
    rw [hset e rfl]
    exact hset _ rfl

/-- What is listed does not depend on which entries were synced before. -/
theorem listed_of_synced {b b' : Backend} (hshared : b'.sharedQuotaHealth = b.sharedQuotaHealth)
    {f : InternalEntry → InternalEntry} (hrows : b'.registry.rows = b.registry.rows.map f)
    (hf : ∀ e, f e = e ∨ f e = AgentRegistry.syncQuotaHealth b.sharedQuotaHealth e) :
    b'.listed = b.listed := by
  unfold Backend.listed AgentRegistry.syncAll Table.mapRows
  dsimp only
  rw [hshared, hrows]
  refine congrArg (List.map AgentRegistry.toExternal) ?_
  rw [List.map_map]
  refine List.map_congr_left fun e _ => ?_
  show AgentRegistry.syncQuotaHealth _ (f e) = _
  rcases hf e with h | h
  · rw [h]
  · rw [h, syncQuotaHealth_sync]

theorem lists_onBackend {m : BackendM α} {Q : α → Prop}
    (hm : Maintains (fun b => b.listed = L) m Q) : Lists L (onBackend m) Q := fun env w hw =>
  ensures_onBackend.mpr (hm env w.backend hw)

theorem lists_dateNow : Maintains (fun b => b.listed = L) dateNow fun _ => True :=
  fun _ _ hb => ⟨trivial, hb⟩

theorem lists_uuid8 : Maintains (fun b => b.listed = L) uuid8 fun _ => True :=
  fun _ _ hb => ⟨trivial, hb⟩

theorem lists_storageCall {k : StorageCall} :
    Maintains (fun b => b.listed = L) (storageCall k) fun _ => True :=
  fun _ _ hb => ensures_storageCall_iff.mpr ⟨fun _ => hb, fun _ => ⟨trivial, hb⟩⟩

theorem lists_ofExcept {x : Except Err α} :
    Maintains (fun b => b.listed = L) (ofExcept x) fun _ => True :=
  fun _ _ hb => ensures_ofExcept.mpr ⟨fun _ _ => ⟨trivial, hb⟩, fun _ _ => hb⟩

theorem lists_statement {k : StorageCall} : Lists L (onBackend (storageCall k)) fun _ => True :=
  lists_onBackend lists_storageCall

theorem lists_getCore : Lists L getCore fun _ => True := fun _ _ hw => ⟨trivial, hw⟩

theorem lists_modifyCore {f : Core → Core} : Lists L (modifyCore f) fun _ => True :=
  fun _ _ hw => ⟨trivial, hw⟩

theorem lists_throwIfAborted {aborted : Bool} :
    Lists L (onBackend (throwIfAborted aborted)) fun _ => True :=
  lists_onBackend (.ite (fun _ => .throw) fun _ => .pure trivial)

theorem lists_getWorkOrder {t : String} : Lists L (TaskQueue.getWorkOrder t) fun _ => True := by
  refine .bind lists_getCore fun c _ => ?_
  split
  · exact .pure trivial
  refine .bind (Q := fun _ => True) (.bind lists_statement fun _ _ => .bind lists_getCore
    fun c _ => ?_) fun persisted _ => ?_
  · split
    · exact .pure trivial
    · refine .bind (Q := fun _ => True) (lists_onBackend ?_) fun _ _ => .pure trivial
      unfold QueueStore.parseOrThrow
      split
      · exact .pure trivial
      · exact .throw
  · split
    · exact .bind lists_modifyCore fun _ _ => .pure trivial
    · exact .pure trivial

theorem lists_readReviewContext {entry : TaskQueueEntry} :
    Lists L (WorkerTaskHandler.readReviewContext entry) fun _ => True := by
  refine .ite (fun _ => .bind lists_statement fun _ _ => .bind lists_getCore fun c _ => ?_)
    fun _ => .pure trivial
  split
  · exact .pure trivial
  · exact .bind (lists_onBackend lists_ofExcept) fun _ _ => .pure trivial

theorem lists_readHandoffPacketUri {entry : TaskQueueEntry} :
    Lists L (WorkerTaskHandler.readHandoffPacketUri entry) fun _ => True :=
  .ite (fun _ => .bind (Q := fun _ => True) lists_statement fun _ _ =>
    .bind (Q := fun _ => True) lists_getCore fun _ _ => .pure trivial) fun _ => .pure trivial

theorem lists_current {t : String} : Lists L (BudgetStore.current t) fun _ => True := by
  refine .bind lists_statement fun _ _ => .bind lists_getCore fun c _ => ?_
  split
  · exact .pure trivial
  · exact lists_onBackend .throw

theorem lists_init {workOrder : ParsedWorkOrderV1} :
    Lists L (BudgetManager.init workOrder) fun _ => True := by
  have hkeep : ∀ key : String, Maintains (fun b => b.listed = L)
      (MonadState.modifyGet fun b : Backend => ((), { b with emitted := key :: b.emitted }) :
        BackendM Unit) fun _ => True :=
    fun key => .modify fun b hb => (listed_congr rfl rfl).trans hb
  have hsync : ∀ state, Maintains (fun b => b.listed = L) (BudgetManager.syncEmitted state)
      fun _ => True := by
    intro state
    have hrest : ∀ u : Unit, True → Maintains (fun b : Backend => b.listed = L)
        (if state.status = .exhausted then
          MonadState.modifyGet fun b : Backend =>
            ((), { b with emitted := BudgetManager.exhaustedKey state.taskId :: b.emitted })
          else pure () : BackendM Unit) fun _ => True :=
      fun _ _ => .ite (fun _ => hkeep _) fun _ => .pure trivial
    exact .ite (fun _ => .bind (hkeep _) hrest) fun _ => hrest () trivial
  refine .bind (Q := fun _ => True) (.bind lists_statement fun _ _ => .bind lists_getCore
    fun c _ => ?_) fun _ _ => .bind lists_current fun state _ =>
      .bind (lists_onBackend (hsync state)) fun _ _ => .pure trivial
  refine .ite (fun _ => .pure trivial) fun _ => .bind lists_statement fun _ _ => ?_
  split
  · exact lists_modifyCore
  · exact lists_onBackend .throw

theorem lists_emitTaskDispatched {entry : TaskQueueEntry} {decision : ScheduleDecision} :
    Lists L (onBackend (WorkerTaskHandler.emitTaskDispatched entry decision)) fun _ => True :=
  lists_onBackend (.bind lists_uuid8 fun _ _ => .bind lists_dateNow fun _ _ =>
    .bind lists_storageCall fun _ _ => .modify fun _ hb => hb)

/-- A packet is read and parsed, or it is not. -/
theorem lists_materializeHandoffPacket {services : HandlerServices} {uri : String} :
    Lists L (onBackend (WorkerTaskHandler.attempt
      (WorkerTaskHandler.materializeHandoffPacket services uri))) fun _ => True := by
  have hread : Maintains (fun b => b.listed = L)
      (onFiles (services.artifactStore.readText uri)) fun _ => True :=
    .zoom fun b hb env => ensures_of_forall (fun _ _ _ => ⟨trivial, hb⟩) fun _ _ _ => hb
  have hpacket : Maintains (fun b => b.listed = L)
      (WorkerTaskHandler.materializeHandoffPacket services uri) fun _ => True :=
    .bind hread fun _ _ => lists_ofExcept
  exact lists_onBackend (.tryCatch (hpacket.map fun _ _ => trivial) fun _ => .pure trivial)

end listing

/-! ## The pick of a launch -/

/-- What a launch asked the scheduler for. -/
def Launch.request (l : Launch) : Scheduler.Request where
  workOrder := l.workOrder
  role := l.entry.nextRole
  excludeAgentIds := l.workOrder.agent.excludeAgentIds
  mostRecentImplementerAgentId :=
    l.persistedReviewContext.map ReviewContextRecord.implementerAgentId

/-- The program launches nobody but the agent to pick among `L`. -/
def Picks (coll : Collation) (L : List AgentRegistryEntry) (m : WorldM (Option Launch)) : Prop :=
  ∀ env w, Listing L w → Ensures m env w
    (fun l? _ => ∀ l, l? = some l → Scheduler.Pick coll l.request L l.agentEntry) fun _ _ => True

section picks

variable {coll : Collation} {L : List AgentRegistryEntry} {α : Type}

theorem picks_bind {m : WorldM α} {Q : α → Prop} {f : α → WorldM (Option Launch)}
    (hm : Lists L m Q) (hf : ∀ a, Q a → Picks coll L (f a)) : Picks coll L (m >>= f) :=
  fun env w hw => ensures_bind.mpr ((hm env w hw).mono
    (fun a w' ha => hf a ha.1 env w' ha.2) fun _ _ _ => trivial)

/-- Whatever launches nothing. -/
theorem picks_none {m : WorldM Unit} : Picks coll L (do m; pure none) := fun _ _ _ =>
  ensures_bind.mpr (ensures_of_forall (fun _ _ _ _ hl => nomatch hl) fun _ _ _ => trivial)

/-- The registry lists after a decision what it listed, and the pick is of that list. -/
theorem lists_decide {q : Scheduler.Request} {budget : BudgetState} :
    Lists L (onBackend (Scheduler.decide coll q.workOrder q.role q.excludeAgentIds budget
        q.mostRecentImplementerAgentId))
      fun d => ∀ id, d.pickedAgentId = some id → ∃ e, Scheduler.Pick coll q L e ∧ e.agentId = id := by
  refine lists_onBackend fun env b hb => ?_
  have hcorrect := Scheduler.decide_correct coll q budget env b
  have hlisted : Maintains (fun b => b.listed = L)
      (Scheduler.decide coll q.workOrder q.role q.excludeAgentIds budget
        q.mostRecentImplementerAgentId) fun _ => True := by
    unfold Scheduler.decide
    refine .bind (Q := fun _ => True) (fun env b hb => ?_) fun entries _ => ?_
    · simp only [AgentRegistry.list, ensures_bind, ensures_get, ensures_set, ensures_pure]
      refine ⟨trivial, Eq.trans ?_ hb⟩
      exact listed_of_synced rfl (f := AgentRegistry.syncQuotaHealth b.sharedQuotaHealth) rfl
        fun e => Or.inr rfl
    dsimp only
    split
    · exact .bind lists_uuid8 fun _ _ => .bind lists_dateNow fun _ _ => .pure trivial
    · split
      · exact .throw
      · exact .bind lists_uuid8 fun _ _ => .bind lists_dateNow fun _ _ => .pure trivial
  refine (hcorrect.and (hlisted env b hb)).mono (fun d b' h => ⟨fun id hid => ?_, h.2.2⟩)
    fun _ _ h => h.1.elim
  obtain ⟨-, e, hpick, he⟩ := h.1.picked id hid
  exact ⟨e, hb ▸ hpick, he⟩

/-- A listed agent is found by its id, as it is listed. -/
theorem lists_get {agentId : String} : Lists L (onBackend (AgentRegistry.get agentId))
    fun found => ∀ entry, found = some entry → entry ∈ L ∧ entry.agentId = agentId := by
  refine lists_onBackend fun env b hb => ?_
  simp only [AgentRegistry.get, ensures_bind, ensures_get, ensures_set, ensures_pure]
  refine ⟨fun entry hentry => ?_, Eq.trans ?_ hb⟩
  · rw [Table.find?_update_self, Option.map_map] at hentry
    obtain ⟨e, he, rfl⟩ := Option.map_eq_some_iff.mp hentry
    have hkey : e.agentId = agentId := Table.key_of_find? he
    refine ⟨?_, (AgentRegistry.agentId_syncQuotaHealth _ e).trans hkey⟩
    rw [← hb]
    exact List.mem_map_of_mem (List.mem_map_of_mem (List.mem_of_find?_eq_some he))
  · refine listed_of_synced rfl (f := fun e => if e.agentId = agentId then
      AgentRegistry.syncQuotaHealth b.sharedQuotaHealth e else e) rfl fun e => ?_
    split
    · exact Or.inr rfl
    · exact Or.inl rfl

end picks

namespace WorkerTaskHandler

variable {services : HandlerServices} {worker : String} {entry : TaskQueueEntry} {aborted : Bool}
  {L : List AgentRegistryEntry}

/-- What a run is launched with stays what was decided. -/
theorem launch_picks {workOrder : ParsedWorkOrderV1} {context : Option ReviewContextRecord}
    {uri : Option String} {packet : Option HandoffPacket} {decision : ScheduleDecision}
    {agentEntry : AgentRegistryEntry} {gate : BudgetState}
    (hpick : Scheduler.Pick services.coll ⟨workOrder, entry.nextRole,
      workOrder.agent.excludeAgentIds, context.map ReviewContextRecord.implementerAgentId⟩ L
      agentEntry) :
    Picks services.coll L (launch services worker entry aborted workOrder context uri packet
      decision agentEntry gate) := by
  intro env w _
  have hany : ∀ {α : Type} {m : WorldM α} {w : World} {f : α → WorldM (Option Launch)},
      (∀ a w', Ensures (f a) env w' (fun l? _ => ∀ l, l? = some l →
        Scheduler.Pick services.coll l.request L l.agentEntry) fun _ _ => True) →
      Ensures (m >>= f) env w (fun l? _ => ∀ l, l? = some l →
        Scheduler.Pick services.coll l.request L l.agentEntry) fun _ _ => True :=
    fun hf => ensures_bind.mpr (ensures_of_forall (fun a w' _ => hf a w') fun _ _ _ => trivial)
  refine hany fun _ _ => hany fun _ _ => hany fun _ _ => hany fun _ _ => hany fun text w' => ?_
  cases text with
  | error e =>
    exact hany fun _ _ _ hl => nomatch hl
  | ok text =>
    refine hany fun _ _ l hl => ?_
    obtain rfl := Option.some.inj hl
    exact hpick

/-- **A launch is of the agent to pick** among those the registry lists. -/
theorem handleUntilLaunch_picks (hL : (L.map AgentRegistryEntry.agentId).Nodup) :
    Picks services.coll L (handleUntilLaunch services worker entry aborted) := by
  refine picks_bind lists_throwIfAborted fun _ _ => picks_bind lists_getWorkOrder fun w? _ => ?_
  cases w? with
  | none => exact picks_none
  | some workOrder =>
    refine picks_bind lists_readReviewContext fun context _ =>
      picks_bind lists_readHandoffPacketUri fun uri _ => ?_
    split
    · exact picks_none
    refine picks_bind lists_init fun _ _ => picks_bind lists_current fun gate _ => ?_
    refine picks_bind (lists_decide (q := ⟨workOrder, entry.nextRole,
      workOrder.agent.excludeAgentIds, context.map ReviewContextRecord.implementerAgentId⟩))
      fun decision hdecision => ?_
    refine picks_bind lists_modifyCore fun _ _ => picks_bind lists_emitTaskDispatched fun _ _ => ?_
    split
    next => exact picks_none
    next picked hpicked =>
      have hsome : decision.pickedAgentId = some picked :=
        (Option.filter_eq_some_iff.mp hpicked).1
      obtain ⟨e, hpick, heid⟩ := hdecision picked hsome
      refine picks_bind lists_get fun found hfound => ?_
      cases found with
      | none => exact picks_none
      | some agentEntry =>
        obtain ⟨hmem, hid⟩ := hfound agentEntry rfl
        obtain rfl : agentEntry = e :=
          List.inj_on_of_nodup_map hL hmem hpick.mem.1 (hid.trans heid.symm)
        dsimp only
        split
        · exact launch_picks hpick
        · refine picks_bind lists_materializeHandoffPacket fun packet _ => ?_
          cases packet with
          | error e => exact picks_none
          | ok packet => exact launch_picks hpick

end WorkerTaskHandler

/-! ## Whom the enqueued work order excludes -/

/-- A work order excludes at least whom `wo` excludes. -/
def Excludes (wo wo' : ParsedWorkOrderV1) : Prop :=
  ∀ id ∈ wo.agent.excludeAgentIds, id ∈ wo'.agent.excludeAgentIds

/-- So do the row and every copy. -/
structure Keeps (wo : ParsedWorkOrderV1) (v : TaskState) : Prop where
  persisted : ∀ wo', v.persisted = some wo' → Excludes wo wo'
  cached : ∀ x wo', v.cached x = some wo' → Excludes wo wo'

/-- Every copy extends the work order that was enqueued. -/
def Extends (v : TaskState) : Prop :=
  ∀ q wo role, (q, Call.enqueued wo role) ∈ v.calls → Keeps wo v

section extending

variable {t w : String} {v v' : TaskState} {wo : ParsedWorkOrderV1}

theorem Keeps.row (h : Keeps wo v) {r : TaskRow} {w₀ : ParsedWorkOrderV1} (hr : v.row = some r)
    (hw : QueueStore.workOrderOf r = some w₀) : Excludes wo w₀ := by
  refine h.persisted w₀ ?_
  rw [TaskState.persisted, hr]
  exact hw

/-- An update removes nobody from a row. -/
theorem Keeps.onRow (h : Keeps wo v) (u : Update) {wo' : ParsedWorkOrderV1}
    (hwo' : (v.row.map u.onRow).bind QueueStore.workOrderOf = some wo') : Excludes wo wo' := by
  obtain ⟨r', hr', hparsed⟩ := Option.bind_eq_some_iff.mp hwo'
  obtain ⟨r, hr, rfl⟩ := Option.map_eq_some_iff.mp hr'
  cases hw : QueueStore.workOrderOf r with
  | some w₀ =>
    obtain ⟨ids, hids, hsub, -⟩ := workOrderOf_onRow u hw
    obtain rfl := Option.some.inj (hids.symm.trans hparsed)
    exact fun id hid => hsub id (h.row hr hw id hid)
  | none =>
    have hsame : QueueStore.workOrderOf (u.onRow r) = QueueStore.workOrderOf r := by
      cases u with
      | exclude agentIds at' => simp only [Update.onRow, excludedRow, hw]
      | _ => rfl
    rw [hsame, hw] at hparsed
    cases hparsed

theorem Keeps.update (h : Keeps wo v) (u : Update) : Keeps wo (v.update t w u) where
  persisted wo' hwo' := h.onRow u hwo'
  cached x wo' hx := by
    by_cases hxw : x = w
    · subst hxw
      simp only [TaskState.update, Function.update_self] at hx
      cases u with
      | loadWorkOrder =>
        simp only [Update.onHolding, Option.orElse_eq_orElse, Option.orElse_eq_or,
          Option.or_eq_some_iff] at hx
        rcases hx with hx | ⟨-, hx⟩
        · exact h.cached x wo' hx
        · exact h.persisted wo' hx
      | exclude agentIds at' =>
        simp only [Update.onHolding, Option.orElse_eq_orElse, Option.orElse_eq_or,
          Option.or_eq_some_iff] at hx
        rcases hx with hx | ⟨-, hx⟩
        · exact h.onRow _ hx
        · exact h.cached x wo' hx
      | _ => exact h.cached x wo' hx
    · refine h.cached x wo' ?_
      simpa [TaskState.update, hxw] using hx

/-- What a launch has loaded. -/
theorem Keeps.launched (h : Keeps wo v) {entry : TaskQueueEntry} {l : Launch} {gate : BudgetState}
    (hl : WorkerTaskHandler.Launches entry (v.holding w) l gate) : Excludes wo l.workOrder := by
  have hloaded := hl.loaded
  simp only [Update.onHolding, Option.orElse_eq_orElse, Option.orElse_eq_or,
    Option.or_eq_some_iff] at hloaded
  rcases hloaded with hcached | ⟨-, hpersisted⟩
  · exact h.cached w _ hcached
  · exact h.persisted _ hpersisted

/-- A change that enqueues nothing. -/
theorem Extends.congr (h : Extends v) (calls : List (String × Call))
    (hcalls : v'.calls = v.calls ++ calls) (hnew : ∀ call ∈ calls, ¬ call.2.IsEnqueued)
    (hkeeps : ∀ wo, Keeps wo v → Keeps wo v') : Extends v' := by
  intro q wo role hcall
  rw [hcalls] at hcall
  rcases List.mem_append.mp hcall with hcall | hcall
  · exact hkeeps wo (h q wo role hcall)
  · exact absurd ⟨wo, role, rfl⟩ (hnew _ hcall)

theorem Extends.update (h : Extends v) (u : Update)
    (hu : ∀ call ∈ u.calls, ¬ call.2.IsEnqueued) : Extends (v.update t w u) :=
  h.congr u.calls rfl hu fun _ hk => hk.update u

/-- A row with the same work order, and the same copies. -/
theorem Extends.same (h : Extends v) (calls : List (String × Call))
    (hcalls : v'.calls = v.calls ++ calls) (hnew : ∀ call ∈ calls, ¬ call.2.IsEnqueued)
    (hpersisted : v'.persisted = v.persisted) (hcached : v'.cached = v.cached) : Extends v' :=
  h.congr calls hcalls hnew fun _ hk =>
    ⟨fun wo' hwo' => hk.persisted wo' (hpersisted ▸ hwo'),
      fun x wo' hx => hk.cached x wo' (hcached ▸ hx)⟩

/-- **Nobody is taken off an exclude list.** -/
theorem closed_extends : Closed t fun v => Held t v ∧ Extends v where
  enqueue v q workOrder role ts h ht hrow := by
    refine ⟨closed_held.enqueue v q workOrder role ts h.1 ht hrow, ?_⟩
    have hfresh : v = TaskState.fresh := by
      rcases h.1 with hfresh | ⟨wo, role', hheld⟩
      · exact hfresh
      · obtain ⟨r, hr⟩ := hheld.row
        exact absurd (hr.symm.trans hrow) (Option.some_ne_none r)
    subst hfresh
    intro q' wo role' hcall
    obtain ⟨rfl, rfl, rfl⟩ : q' = q ∧ wo = workOrder ∧ role' = role := by
      simpa [TaskState.enqueued, TaskState.fresh] using hcall
    refine ⟨fun wo' hwo' => ?_, fun x wo' hx => ?_⟩
    · have hparsed : parseWorkOrderV1 wo.toJson = some wo' := hwo'
      rw [parse_toJson] at hparsed
      obtain rfl := Option.some.inj hparsed
      exact fun _ hid => hid
    · by_cases hxq : x = q'
      · subst hxq
        simp only [TaskState.enqueued, Function.update_self] at hx
        obtain rfl := Option.some.inj hx
        exact fun _ hid => hid
      · simp [TaskState.enqueued, TaskState.fresh, hxq] at hx
  load v w h := ⟨closed_held.load v w h.1, h.2.update _ (by simp [Update.calls])⟩
  claim v w lease now r h hpc hrow hclaim := by
    refine ⟨closed_held.claim v w lease now r h.1 hpc hrow hclaim, ?_⟩
    refine h.2.same [] (by simp [TaskState.claimed, TaskState.goto]) (by simp) ?_ rfl
    rw [TaskState.persisted, TaskState.persisted, hrow]
    rfl
  beforeRun v w entry u h hpc ht hA := by
    refine ⟨closed_held.beforeRun v w entry u h.1 hpc ht hA, h.2.update u ?_⟩
    cases hA <;> simp [Update.calls, Call.IsEnqueued]
  launch v w entry l gate h hpc ht hl := by
    refine ⟨closed_held.launch v w entry l gate h.1 hpc ht hl, ?_⟩
    refine h.2.congr _ rfl (by simp [Call.IsEnqueued]) fun wo hk => ⟨hk.persisted, ?_⟩
    intro x wo' hx
    by_cases hxw : x = w
    · subst hxw
      simp only [TaskState.goto, TaskState.launched, Function.update_self] at hx
      obtain rfl := Option.some.inj hx
      exact hk.launched hl
    · refine hk.cached x wo' ?_
      simpa [TaskState.goto, TaskState.launched, hxw] using hx
  settled v w l result h hpc ht :=
    ⟨closed_held.settled v w l result h.1 hpc ht,
      h.2.same _ rfl (by simp [Call.IsEnqueued]) rfl rfl⟩
  afterRun v w l result u h hpc ht hA := by
    refine ⟨closed_held.afterRun v w l result u h.1 hpc ht hA, h.2.update u ?_⟩
    cases hA <;> simp [Update.calls, Call.IsEnqueued]
  returned v w h hpc :=
    ⟨closed_held.returned v w h.1 hpc, h.2.same _ rfl (by simp [Call.IsEnqueued]) rfl rfl⟩
  threw v w entry h hpc :=
    ⟨closed_held.threw v w entry h.1 hpc, h.2.same _ rfl (by simp [Call.IsEnqueued]) rfl rfl⟩
  requeue v w entry u r h hpc hrow := by
    refine ⟨closed_held.requeue v w entry u r h.1 hpc hrow, ?_⟩
    refine h.2.same [] (by simp [TaskState.requeued, TaskState.goto]) (by simp) ?_ rfl
    rw [TaskState.persisted, TaskState.persisted, hrow]
    rfl
  leave v w h :=
    ⟨closed_held.leave v w h.1, h.2.same [] (by simp [TaskState.goto]) (by simp) rfl rfl⟩

end extending

/-! ## Runs -/

section runs

variable {services : HandlerServices} {s₀ s s' : System} {ls : List Label} {worker : String}
  {env : Env} {aborted : Bool} {l : Launch}

theorem System.extends_of_steps (h₀ : s₀.Initial) (h : System.Steps services s₀ ls s)
    (t : String) : Extends (s.task t) := by
  have hboth : Held t (s.task t) ∧ Extends (s.task t) :=
    System.task_invariant' h₀ h ⟨Or.inl rfl, fun q wo role hcall => by
      simp [TaskState.fresh] at hcall⟩ fun _ _ _ hstep _ hv => closed_extends.step hstep hv
  exact hboth.2

/-- What a start that launches leaves its worker with. -/
theorem System.launched_of_start (hstep : System.Step services s (.start worker env aborted) s')
    (hl : s'.pc worker = .running l) : ∃ entry world, s.pc worker = .claimed entry ∧
      WorkerTaskHandler.handleUntilLaunch services worker entry aborted env (s.load worker) =
        .ok (some l) world := by
  simp only [System.Step, System.step] at hstep
  split at hstep
  next entry hpc =>
    split at hstep
    next world hres =>
      cases hstep
      simp [System.goto] at hl
    next launch world hres =>
      cases hstep
      obtain rfl : launch = l := by simpa [System.goto] using hl
      exact ⟨entry, world, hpc, hres⟩
    next e world hres =>
      cases hstep
      simp [System.goto] at hl
  next => cases hstep

/-- What a start took: from what its worker held of the task, the pick of its registry. -/
theorem System.launches_of_start (h₀ : s₀.Initial) (h : System.Steps services s₀ ls s)
    (hstep : System.Step services s (.start worker env aborted) s')
    (hl : s'.pc worker = .running l) :
    (s.task l.entry.taskId).pc worker = .claimed l.entry ∧
      (∃ gate, WorkerTaskHandler.Launches l.entry ((s.task l.entry.taskId).holding worker) l gate) ∧
      Scheduler.Pick services.coll l.request (s.load worker).backend.listed l.agentEntry := by
  obtain ⟨entry, world, hpc, hres⟩ := System.launched_of_start hstep hl
  have hkeyed := (System.held_of_steps h₀ h entry.taskId).keyed
  have hspec : OnCore (WorkerTaskHandler.handleUntilLaunch services worker entry aborted) env
      (s.load worker).core _ _ :=
    WorkerTaskHandler.handleUntilLaunch_spec fun wo hwo => hkeyed.load hwo
  obtain ⟨gate, c₁, hlaunches, -, -⟩ := hspec.of_ok hres
  obtain rfl : l.entry = entry := hlaunches.entry_eq
  refine ⟨by simp [System.task, hpc, Pc.taskId?], ⟨gate, hlaunches⟩, ?_⟩
  exact (WorkerTaskHandler.handleUntilLaunch_picks (s.load worker).backend.listed_nodup
    env (s.load worker) rfl).of_ok hres l rfl

/-- The work order of a launch is the enqueued one, with a longer exclude list. -/
theorem System.enqueued_of_launches (h₀ : s₀.Initial) (h : System.Steps services s₀ ls s)
    {gate : BudgetState} (hpc : (s.task l.entry.taskId).pc worker = .claimed l.entry)
    (hl : WorkerTaskHandler.Launches l.entry ((s.task l.entry.taskId).holding worker) l gate) :
    ∃ q wo first ids, (q, Call.enqueued wo first) ∈ s.calls l.entry.taskId ∧
      (∀ id ∈ wo.agent.excludeAgentIds, id ∈ ids) ∧ l.workOrder = wo.withExcludeAgentIds ids := by
  obtain ⟨wo, first, hheld⟩ := (System.held_of_steps h₀ h l.entry.taskId).of_pc (w := worker)
    (by simp [hpc])
  obtain ⟨ids, hids⟩ := hheld.launched hl
  obtain ⟨q, rest, hcalls, -⟩ := hheld.enqueued
  have hcall : (q, Call.enqueued wo first) ∈ (s.task l.entry.taskId).calls := by
    rw [hcalls]
    exact List.mem_cons_self
  have hexcludes := (System.extends_of_steps h₀ h l.entry.taskId q wo first hcall).launched hl
  rw [Excludes, hids] at hexcludes
  exact ⟨q, wo, first, ids, hcall, hexcludes, hids⟩

end runs

end AgentWorkflow
