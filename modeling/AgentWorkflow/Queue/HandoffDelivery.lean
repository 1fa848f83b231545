import AgentWorkflow.Queue.Fencing
import AgentWorkflow.Queue.HandleOnce

/-!
# The delivery of handoff packets

A requeue after a failed attempt leaves the URI of a packet with the task, for the next implementer
attempt. How long it stays there.

* `pendingPacket` — the URI that waits with a task: what `getHandoffPacketUri` reads.
* `Launch.packetUri` — the URI an attempt was launched with. **`start_given`**: an implementer
  attempt is launched with what waits, and with the packet the store holds under it.
* `clearPending`, `account` — the two halves of what comes after an outcome: the URI is cleared
  first, and **everything that can throw comes after it**.
* `Delivers` — the condition on a step: a clear is followed by the whole of `account`, no review is
  settled while a packet waits, and claims are fenced.
* **`packet_delivered`** — in the runs that meet it a packet waits until an implementer attempt that
  was given it is accounted for, and every implementer attempt until then is given it.
* `packet_lost` — without it, a packet that no attempt was accounted for is gone.
-/

namespace AgentWorkflow

open Fallible WorkerTaskHandler

/-! ## What waits with a task -/

/-- The packet URI that waits with a task. -/
def Core.pendingPacket (c : Core) (t : String) : Option String :=
  ((c.row t).bind TaskRow.handoffPacketUri).filter fun uri => !blank uri

/-- The packet URI that waits with the task of a view. -/
def TaskState.pendingPacket (v : TaskState) : Option String :=
  (v.row.bind TaskRow.handoffPacketUri).filter fun uri => !blank uri

/-- The packet URI an attempt was launched with; only implementers are given packets. -/
def Launch.packetUri (l : Launch) : Option String :=
  if l.entry.nextRole = .implementer then truthy l.pendingHandoffPacketUri else none

/-- Only `setHandoffPacketUri` writes the column. -/
theorem handoffPacketUri_onRow {u : Update} (hu : ∀ uri at', u ≠ .setHandoffPacketUri uri at')
    (r : TaskRow) : (u.onRow r).handoffPacketUri = r.handoffPacketUri := by
  cases u with
  | setHandoffPacketUri uri at' => exact absurd rfl (hu uri at')
  | exclude agentIds at' =>
    simp only [Update.onRow, excludedRow]
    split <;> rfl
  | _ => rfl

theorem TaskState.pendingPacket_update {t w : String} {v : TaskState} {u : Update}
    (hu : ∀ uri at', u ≠ .setHandoffPacketUri uri at') :
    (v.update t w u).pendingPacket = v.pendingPacket := by
  unfold TaskState.pendingPacket TaskState.update
  cases v.row with
  | none => rfl
  | some r => simp only [Option.map_some, Option.bind_some, handoffPacketUri_onRow hu]

/-- A URI that is not blank is not empty. -/
theorem truthy_filter_blank (uri : Option String) :
    truthy (uri.filter fun uri => !blank uri) = uri.filter fun uri => !blank uri := by
  cases hfilter : uri.filter fun uri => !blank uri with
  | none => rfl
  | some u =>
    obtain ⟨-, hu⟩ := Option.filter_eq_some_iff.mp hfilter
    refine Option.filter_eq_some_iff.mpr ⟨rfl, ?_⟩
    have hne : u ≠ "" := by
      rintro rfl
      exact absurd hu (by decide)
    simpa using hne

/-! ## What an attempt is launched with -/

section launches

variable {services : HandlerServices} {worker : String} {entry : TaskQueueEntry} {aborted : Bool}

/-- A packet the store holds under a URI. -/
def ReadFrom (services : HandlerServices) (uri : String) (packet : HandoffPacket) : Prop :=
  ∃ env b b', materializeHandoffPacket services uri env b = .ok packet b'

/-- An attempt of an entry, with a review context, a URI and the packet read from it. -/
structure LaunchedWith (services : HandlerServices) (entry : TaskQueueEntry)
    (context : Option ReviewContextRecord) (uri : Option String) (l : Launch) : Prop where
  entry_eq : l.entry = entry
  context_eq : l.persistedReviewContext = context
  uri_eq : l.pendingHandoffPacketUri = uri
  none : truthy uri = none → l.pendingHandoffPacket = none
  packet : ∀ u, truthy uri = some u → ∃ p, l.pendingHandoffPacket = some p ∧ ReadFrom services u p

/-- An attempt of an entry as `handle` starts it: an implementer's without a review context and with
what waits, a reviewer's with one and without a packet. -/
def Started (services : HandlerServices) (entry : TaskQueueEntry) (pending : Option String)
    (l : Launch) : Prop :=
  ∃ context uri, LaunchedWith services entry context uri l ∧
    (entry.nextRole = .implementer → context = none ∧ uri = pending) ∧
    (entry.nextRole = .reviewer → context.isSome = true ∧ uri = none)

/-- What a program returns when nothing is known of where it runs. -/
abbrev Returns {σ α : Type} (m : Prog Env Err σ α) (Q : α → Prop) : Prop :=
  Maintains (fun _ => True) m Q

theorem returns_any {σ α : Type} {m : Prog Env Err σ α} : Returns m fun _ => True :=
  fun _ _ _ => ensures_of_forall (fun _ _ _ => ⟨trivial, trivial⟩) fun _ _ _ => trivial

theorem launch_returns {workOrder : ParsedWorkOrderV1} {context : Option ReviewContextRecord}
    {uri : Option String} {packet : Option HandoffPacket} {decision : ScheduleDecision}
    {agentEntry : AgentRegistryEntry} {gate : BudgetState}
    (hnone : truthy uri = none → packet = none)
    (hpacket : ∀ u, truthy uri = some u → ∃ p, packet = some p ∧ ReadFrom services u p) :
    Returns (launch services worker entry aborted workOrder context uri packet decision agentEntry
      gate) fun result => ∀ l, result = some l → LaunchedWith services entry context uri l := by
  refine .bind returns_any fun _ _ => .bind returns_any fun _ _ => .bind returns_any fun _ _ => ?_
  refine .bind returns_any fun startedAtMs _ => .bind returns_any fun reviewContext _ => ?_
  cases reviewContext with
  | error e => exact .bind returns_any fun _ _ => .pure (by simp)
  | ok reviewContext =>
    refine .bind returns_any fun _ _ => .pure ?_
    rintro _ ⟨⟩
    exact ⟨rfl, rfl, rfl, hnone, hpacket⟩

theorem dispatch_returns {workOrder : ParsedWorkOrderV1} {context : Option ReviewContextRecord}
    {uri : Option String} :
    Returns (dispatch services worker entry aborted workOrder context uri)
      fun result => ∀ l, result = some l → LaunchedWith services entry context uri l := by
  refine .bind returns_any fun _ _ => .bind returns_any fun budget _ => ?_
  refine .bind returns_any fun decision _ => .bind returns_any fun _ _ => ?_
  refine .bind returns_any fun _ _ => ?_
  split
  · exact .bind returns_any fun _ _ => .pure (by simp)
  refine .bind returns_any fun agentEntry? _ => ?_
  cases agentEntry? with
  | none => exact .bind returns_any fun _ _ => .pure (by simp)
  | some agentEntry =>
    dsimp only
    split
    next hnone => exact launch_returns (fun _ => rfl) (by simp [hnone])
    next u hsome =>
      have hread : Returns (onBackend (attempt (materializeHandoffPacket services u)))
          fun result => ∀ p, result = .ok p → ReadFrom services u p := by
        refine .zoom fun w _ env => ensures_tryCatch.mpr (ensures_map.mpr ?_)
        refine ensures_of_forall (fun p b hp => ?_) fun e b _ => ?_
        · refine ⟨?_, trivial⟩
          rintro _ ⟨⟩
          exact ⟨env, _, b, hp⟩
        · refine ⟨?_, trivial⟩
          rintro _ ⟨⟩
      refine .bind hread fun packet hpacket => ?_
      cases packet with
      | error e => exact .bind returns_any fun _ _ => .pure (by simp)
      | ok packet =>
        refine launch_returns (by simp [hsome]) fun u' hu' => ⟨packet, rfl, ?_⟩
        obtain rfl := Option.some.inj (hsome.symm.trans hu')
        exact hpacket packet rfl

/-- What the half before the run launches. -/
theorem handleUntilLaunch_started {env : Env} {c : Core} :
    OnCore (handleUntilLaunch services worker entry aborted) env c
      (fun result _ => ∀ l, result = some l →
        Started services entry (c.pendingPacket entry.taskId) l) fun _ _ => True := by
  refine .bind (onCore_throwIfAborted ?_ fun _ => trivial)
  refine .bind (onCore_getWorkOrder (fun _ _ => ?_) (fun workOrder _ => ?_) fun _ => trivial)
  · exact .bind fun _ _ => ensures_of_forall (fun _ _ _ => .pure (by simp)) fun _ _ _ => trivial
  have hrow : (Update.loadWorkOrder.apply entry.taskId c).pendingPacket entry.taskId =
      c.pendingPacket entry.taskId := by
    rw [Core.pendingPacket, Update.row_apply, Update.onRow_loadWorkOrder, Option.map_id]
    rfl
  have hrest : ∀ (context : Option ReviewContextRecord) uri c',
      (entry.nextRole = .implementer → context = none ∧ uri = c.pendingPacket entry.taskId) →
      (entry.nextRole = .reviewer → uri = none) → OnCore (do
        if entry.nextRole = .reviewer ∧ context.isNone = true then do
          failTask entry "review_context_not_found" entry.attempts none []
          pure none
        else dispatch services worker entry aborted workOrder context uri) env c'
        (fun result _ => ∀ l, result = some l →
          Started services entry (c.pendingPacket entry.taskId) l) fun _ _ => True := by
    intro context uri c' himplementer hreviewer
    refine .ite (fun _ => .bind fun _ _ => ?_) fun hsome w _ => ?_
    · exact ensures_of_forall (fun _ _ _ => .pure (by simp)) fun _ _ _ => trivial
    · refine (dispatch_returns env w trivial).mono (fun result _ h l hl => ?_) fun _ _ _ => trivial
      refine ⟨context, uri, h.1 l hl, himplementer, fun hr => ⟨?_, hreviewer hr⟩⟩
      by_contra hnone
      exact hsome ⟨hr, by simpa using hnone⟩
  refine .bind (onCore_readReviewContext (fun hr => ?_) (fun hr => ?_) fun _ => trivial)
  · have hne : entry.nextRole ≠ .implementer := by simp [hr]
    refine .bind (.ite (fun h => absurd h hne) fun _ => .pure ?_)
    exact hrest _ none _ (fun h => absurd h hne) fun _ => rfl
  · refine .bind (.ite (fun hi => ?_) fun hne => .pure ?_)
    · refine .bind (onCore_storageCall (.bind (onCore_getCore (.pure ?_))) fun _ _ => trivial)
      exact hrest none _ _ (fun _ => ⟨rfl, hrow⟩) fun h => absurd h hr
    · exact hrest none none _ (fun h => absurd h hne) fun _ => rfl

end launches

/-! ## What comes after an outcome -/

section outcomes

variable {services : HandlerServices} {worker : String} {l : Launch} {env : Env} {c : Core}

/-- The first thing done about an outcome: it is noted, and the packet URI of an attempt that was
given one is cleared. -/
def clearPending (worker : String) (l : Launch) (outcome : RunOutcome) : WorldM Unit := do
  record worker (.settled l.entry.taskId l.entry.nextRole l.agentId l.persistedReviewContext
    (.ok outcome))
  if l.entry.nextRole = .implementer ∧ (truthy l.pendingHandoffPacketUri).isSome = true then
    QueueStore.setHandoffPacketUri l.entry.taskId none
  else pure ()

/-- The rest of it: the budget, the metrics, and the outcome's queue transition. -/
def account (services : HandlerServices) (worker : String) (l : Launch) (outcome : RunOutcome) :
    WorldM Unit := do
  let now ← onBackend dateNow
  let wallTimeMs := now - l.startedAtMs
  let postRunBudget ← BudgetManager.postRun services.projectId l.entry.taskId wallTimeMs
    none (Scheduler.estimatedCost l.agentEntry.profile)
  onBackend (recordAgentOutcome services l.agentEntry outcome wallTimeMs)
  handleOutcome services worker l outcome postRunBudget

/-- The half after the run of an outcome is the two in this order. -/
theorem handleAfterRun_ok {outcome : RunOutcome} {aborted : Bool} :
    handleAfterRun services worker l (.ok outcome) aborted =
      (do clearPending worker l outcome; account services worker l outcome) := by
  unfold handleAfterRun clearPending
  rw [bind_assoc]
  refine congrArg (_ >>= ·) (funext fun _ => ?_)
  by_cases h : l.entry.nextRole = .implementer ∧ (truthy l.pendingHandoffPacketUri).isSome = true
  · simp only [if_pos h]
    rfl
  · simp only [if_neg h]
    rfl

/-- A clear that throws has cleared nothing. -/
theorem clearPending_spec {outcome : RunOutcome} :
    OnCore (clearPending worker l outcome) env c (fun _ _ => True)
      fun _ c' => c'.pendingPacket l.entry.taskId = c.pendingPacket l.entry.taskId := by
  refine .bind (onCore_record ?_)
  refine .ite (fun _ => ?_) fun _ => .pure trivial
  exact QueueStore.onCore_setHandoffPacketUri (fun _ _ _ => trivial) fun _ => rfl

/-- A run that threw leaves what waits. -/
theorem handleAfterRun_error {e : Err} {aborted : Bool} :
    OnCore (handleAfterRun services worker l (.error e) aborted) env c
      (fun _ c' => c'.pendingPacket l.entry.taskId = c.pendingPacket l.entry.taskId)
      fun _ c' => c'.pendingPacket l.entry.taskId = c.pendingPacket l.entry.taskId := by
  have hkeep : ∀ us c', Updates (AfterRun worker l (.error e)) l.entry.taskId
      (noteSettled worker l (.error e) c) us c' →
      c'.pendingPacket l.entry.taskId = c.pendingPacket l.entry.taskId := by
    intro us c' hus
    refine hus.invariant (I := fun c' => c'.pendingPacket l.entry.taskId =
      c.pendingPacket l.entry.taskId) rfl ?_
    rintro c₁ u _ ⟨hA, rfl⟩ hc₁
    cases hA
    rw [← hc₁, Core.pendingPacket, Update.row_apply, Core.pendingPacket]
    cases c₁.row l.entry.taskId <;> rfl
  refine handleAfterRun_spec.mono ?_ ?_
  · rintro _ c' ⟨st, role, n, us, u, hus⟩
    exact hkeep _ c' hus
  · rintro _ c' ⟨us, hus, -⟩
    exact hkeep us c' hus

/-- The outcome of a run, from the clear on. -/
def ClearedAt (worker : String) (l : Launch) (run : RunTaskArgs → BackendM RunOutcome) (env : Env)
    (w : World) (outcome : RunOutcome) (w₁ : World) : Prop :=
  ∃ b, run l.runArgs env w.backend = .ok outcome b ∧
    clearPending worker l outcome env ⟨w.core, b⟩ = .ok () w₁

/-- **What waits stays, unless it was cleared**; then `account` decides how the call ends. -/
theorem runAndSettle_pending (services : HandlerServices) (worker : String) (l : Launch) (env : Env)
    (run : RunTaskArgs → BackendM RunOutcome) (aborted : Bool) (w : World) :
    Ensures (System.runAndSettle services worker l run aborted) env w
      (fun _ w' => w'.core.pendingPacket l.entry.taskId = w.core.pendingPacket l.entry.taskId ∨
        ∃ outcome w₁, ClearedAt worker l run env w outcome w₁ ∧
          account services worker l outcome env w₁ = .ok () w')
      fun e w' => w'.core.pendingPacket l.entry.taskId = w.core.pendingPacket l.entry.taskId ∨
        ∃ outcome w₁, ClearedAt worker l run env w outcome w₁ ∧
          account services worker l outcome env w₁ = .error e w' := by
  cases hrun : run l.runArgs env w.backend with
  | error e b =>
    unfold Ensures System.runAndSettle
    rw [bind_of_ok (onBackend_of_ok (attempt_of_error hrun))]
    refine Ensures.mono (handleAfterRun_error ⟨w.core, b⟩ rfl) ?_ ?_
    · exact fun _ _ h => Or.inl h
    · exact fun _ _ h => Or.inl h
  | ok outcome b =>
    unfold Ensures System.runAndSettle
    rw [bind_of_ok (onBackend_of_ok (attempt_of_ok hrun)), handleAfterRun_ok]
    refine ensures_bind.mpr (ensures_of_forall (fun _ w₁ hclear => ?_) fun e w₁ hclear => ?_)
    · exact ensures_of_forall (fun _ w' h => Or.inr ⟨outcome, w₁, ⟨b, hrun, hclear⟩, h⟩)
        fun e w' h => Or.inr ⟨outcome, w₁, ⟨b, hrun, hclear⟩, h⟩
    · exact Or.inl ((clearPending_spec ⟨w.core, b⟩ rfl).of_error hclear)

/-- An outcome that is accounted for has made its queue transition. -/
theorem account_transition {outcome : RunOutcome} {w₁ w' : World} {b : Backend}
    (hclear : clearPending worker l outcome env ⟨c, b⟩ = .ok () w₁)
    (h : account services worker l outcome env w₁ = .ok () w')
    (hrow : (c.row l.entry.taskId).isSome = true) :
    ∃ r status, w'.core.row l.entry.taskId = some r ∧
      transition l outcome status = (r.status, r.nextRole) := by
  have hcall : handleAfterRun services worker l (.ok outcome) false env ⟨c, b⟩ = .ok () w' := by
    rw [handleAfterRun_ok, bind_of_ok hclear, h]
  obtain ⟨st, role, n, us, u, hus⟩ := (handleAfterRun_spec (c := c)).of_ok hcall
  obtain ⟨c₁, hus, hlast⟩ := Run.snoc_iff.mp hus
  obtain ⟨hA, hc'⟩ := hlast
  have hrow₁ : (c₁.row l.entry.taskId).isSome = true := by
    refine hus.invariant (I := fun c₁ => (c₁.row l.entry.taskId).isSome = true) hrow ?_
    rintro c₂ u _ ⟨-, rfl⟩ hc₂
    rw [Update.row_apply, Option.isSome_map]
    exact hc₂
  obtain ⟨r, hr⟩ := Option.isSome_iff_exists.mp hrow₁
  cases hA with
  | @release _ _ budget _ _ _ hb hst hcontext =>
    refine ⟨releasedRow st role (l.entry.attempts + 1) u r, budget.status, ?_, hst⟩
    rw [hc', Update.row_apply, hr]
    rfl

end outcomes

/-! ## Runs -/

section systems

variable {services : HandlerServices} {s₀ s₁ s₂ s s' : System} {l : Label} {ls₁ ls₂ : List Label}
  {t w u : String}

/-- The packet URI that waits with a task. -/
def System.pendingPacket (s : System) (t : String) : Option String :=
  s.world.core.pendingPacket t

/-- The run of a settle step returns an outcome, and the clear is done. -/
def ClearsAt (s : System) (l : Label) (w : String) (launch : Launch) (env : Env)
    (outcome : RunOutcome) (w₁ : World) : Prop :=
  ∃ run aborted, l = .settle w env run aborted ∧ s.pc w = .running launch ∧
    ClearedAt w launch run env (s.load w) outcome w₁

/-- A step with which packets are delivered. -/
structure Delivers (services : HandlerServices) (s : System) (l : Label) : Prop where
  /-- No task is claimed while the catch path of another worker is still to come for it. -/
  fenced : FencedClaim s l
  /-- Once the URI of an attempt is cleared, the attempt is accounted for. -/
  accounted : ∀ w launch env outcome w₁, ClearsAt s l w launch env outcome w₁ →
    launch.packetUri.isSome = true → ∃ w₂, account services w launch outcome env w₁ = .ok () w₂
  /-- No review is settled while a packet waits. -/
  review : ∀ w launch env run aborted, l = .settle w env run aborted →
    s.pc w = .running launch → launch.entry.nextRole = .reviewer →
    s.pendingPacket launch.entry.taskId = none

/-- The step settles an implementer attempt at the task `t` that was given the packet at `u`: its
outcome is turned into a queue transition. -/
def Accounts (services : HandlerServices) (t u : String) (s : System) (l : Label) : Prop :=
  ∃ w launch env outcome w₁ w₂, ClearsAt s l w launch env outcome w₁ ∧
    launch.entry.taskId = t ∧ launch.packetUri = some u ∧
    account services w launch outcome env w₁ = .ok () w₂ ∧
    ∃ r status, w₂.core.row t = some r ∧
      transition launch outcome status = (r.status, r.nextRole)

/-- The implementers that run were launched with what waits. -/
def GivenPending (v : TaskState) : Prop :=
  ∀ w l, v.pc w = .running l → l.entry.nextRole = .implementer → v.pendingPacket = l.packetUri

/-- What a start step launches. -/
theorem start_given {env : Env} {aborted : Bool} {launch : Launch}
    (h : System.Step services s (.start w env aborted) s') (hpc : s'.pc w = .running launch) :
    Started services launch.entry (s.pendingPacket launch.entry.taskId) launch := by
  simp only [System.Step, System.step] at h
  split at h
  next entry hclaimed =>
    have hspec : OnCore (handleUntilLaunch services w entry aborted) env (s.load w).core
        (fun result _ => ∀ l, result = some l →
          Started services entry ((s.load w).core.pendingPacket entry.taskId) l)
        fun _ _ => True := handleUntilLaunch_started
    split at h
    next world hrun =>
      cases h
      simp [System.goto] at hpc
    next l world hrun =>
      cases h
      obtain rfl : l = launch := by simpa [System.goto] using hpc
      have hstarted := hspec.of_ok hrun l rfl
      have hentry : l.entry = entry := by
        obtain ⟨context, uri, hl, -⟩ := hstarted
        exact hl.entry_eq
      rw [← hentry] at hstarted
      exact hstarted
    next e world hrun =>
      cases h
      simp [System.goto] at hpc
  next => cases h

/-- The URI of an implementer attempt is what waited. -/
theorem Started.packetUri {launch : Launch}
    (h : Started services launch.entry (s.pendingPacket launch.entry.taskId) launch)
    (hrole : launch.entry.nextRole = .implementer) :
    launch.packetUri = s.pendingPacket launch.entry.taskId := by
  obtain ⟨context, uri, hl, himplementer, -⟩ := h
  rw [Launch.packetUri, if_pos hrole, hl.uri_eq, (himplementer hrole).2]
  exact truthy_filter_blank _

/-- Only a settle step changes what waits. -/
theorem pendingPacket_of_step {v v' : TaskState} (h : TaskStep t v l v')
    (hl : ∀ w env run aborted, l ≠ .settle w env run aborted) :
    v'.pendingPacket = v.pendingPacket := by
  have hbefore : ∀ {w entry us v₁}, TaskUpdates (BeforeRun w entry) t w v us v₁ →
      v₁.pendingPacket = v.pendingPacket := by
    intro w entry us v₁ hus
    refine TaskUpdates.keep (I := fun v₁ => v₁.pendingPacket = v.pendingPacket) hus rfl ?_
    intro v₂ u h₂ _ hA
    rw [TaskState.pendingPacket_update (by cases hA <;> simp), h₂]
  cases h with
  | other => rfl
  | enqueue ht hrow =>
    rw [TaskState.pendingPacket, TaskState.pendingPacket, hrow]
    rfl
  | load => exact TaskState.pendingPacket_update (by simp)
  | claim hload hpc hrow hclaim =>
    rw [TaskState.pendingPacket, TaskState.pendingPacket, hrow]
    rfl
  | refuse hpc ht hst hus =>
    have hsame := hbefore hus
    exact hsame
  | launch hpc ht hl => rfl
  | throwBefore hpc ht hus hrel =>
    have hsame := hbefore hus
    exact hsame
  | settle hpc ht hrun hus => exact absurd rfl (hl _ _ _ _)
  | throwAfter hpc ht hrun hus hrel => exact absurd rfl (hl _ _ _ _)
  | requeue hpc hrow =>
    rw [TaskState.pendingPacket, TaskState.pendingPacket, hrow]
    rfl
  | giveUp => rfl
  | crash => rfl

/-- A worker that is somewhere else than where a run was, or was there already. -/
theorem GivenPending.goto {v : TaskState} (v₁ : TaskState) {pc : Pc} (h : GivenPending v)
    (hpending : v₁.pendingPacket = v.pendingPacket) (hpc : v₁.pc = v.pc)
    (hnot : ∀ launch, pc = .running launch → launch.entry.nextRole = .implementer →
      v.pendingPacket = launch.packetUri) : GivenPending (v₁.goto w pc) := by
  intro x launch hx hrole
  show v₁.pendingPacket = _
  rw [hpending]
  rcases pc_goto_cases hx with ⟨-, hat⟩ | hx
  · exact hnot launch hat hrole
  · exact h x launch (hpc ▸ hx) hrole

/-- **The runs of a task stay given what waits** when a launch is. -/
theorem GivenPending.step {v v' : TaskState} (hgiven : GivenPending v)
    (hfenced : FencedTask (fun _ => True) v) (h : TaskStep t v l v')
    (hlaunch : ∀ w env aborted launch, l = .start w env aborted → v'.pc w = .running launch →
      launch.entry.nextRole = .implementer → launch.packetUri = v.pendingPacket) :
    GivenPending v' := by
  have hfree : ∀ {w : String} {v₁ : TaskState}, (v.pc w).busy = true → v₁.pc = v.pc →
      ∀ pc, (∀ l, pc ≠ .running l) → GivenPending (v₁.goto w pc) := by
    intro w v₁ hbusy hpc pc hnot x launch hx hrole
    by_cases hxw : x = w
    · subst hxw
      exact absurd (by simpa [TaskState.goto] using hx) (hnot launch)
    · have hother := hfenced.others hbusy x hxw
      have hpcx : v.pc x = .running launch := by simpa [TaskState.goto, hxw, hpc] using hx
      rw [hpcx] at hother
      cases hother
  have hpending : (∀ w env run aborted, l ≠ .settle w env run aborted) →
      v'.pendingPacket = v.pendingPacket := fun hl => pendingPacket_of_step h hl
  cases h with
  | other => exact hgiven
  | enqueue ht hrow =>
    intro x launch hx hrole
    rw [hpending (by simp)]
    exact hgiven x launch hx hrole
  | load =>
    intro x launch hx hrole
    rw [hpending (by simp)]
    exact hgiven x launch hx hrole
  | @claim v₀ w env r lease now hload hpc hrow hclaim =>
    refine hgiven.goto { v₀ with row := some (QueueStore.claimedRow w lease now r) }
      (hpending (by simp)) ?_ (by simp)
    rcases hload with rfl | rfl
    · rfl
    · rfl
  | refuse hpc ht hst hus =>
    exact hfree (by simp [hpc, Pc.busy]) ((pc_of_updates hus).trans rfl) _ (by simp)
  | @launch w env aborted entry launch gate hpc ht hl =>
    refine hgiven.goto (v.launched w launch gate) rfl rfl ?_
    rintro _ ⟨⟩ hrole
    exact (hlaunch w env aborted launch rfl (by simp [TaskState.goto]) hrole).symm
  | throwBefore hpc ht hus hrel =>
    exact hfree (by simp [hpc, Pc.busy]) ((pc_of_updates hus).trans rfl) _ (by simp)
  | settle hpc ht hrun hus =>
    exact hfree (by simp [hpc, Pc.busy]) ((pc_of_updates hus).trans rfl) _ (by simp)
  | throwAfter hpc ht hrun hus hrel =>
    exact hfree (by simp [hpc, Pc.busy]) ((pc_of_updates hus).trans rfl) _ (by simp)
  | @requeue w env entry r u hpc hrow =>
    show GivenPending (({ v with row := some (Worker.requeuedRow u r) } : TaskState).goto w .idle)
    have hbusy : (v.pc w).busy = true := by simp [hpc, Pc.busy]
    refine hfree hbusy ?_ _ ?_
    · rfl
    · simp
  | giveUp hpc => exact hgiven.goto v rfl rfl (by simp)
  | crash => exact hgiven.goto v rfl rfl (by simp)

/-- What the runs with `Delivers` keep: every task is fenced, and its runs are given what waits. -/
def System.Delivering (s : System) : Prop :=
  s.Fenced (fun _ => True) ∧ ∀ t, GivenPending (s.task t)

theorem System.Initial.delivering (h₀ : s₀.Initial) : s₀.Delivering := by
  refine ⟨h₀.fenced, fun t w launch hw => ?_⟩
  rw [h₀.task t] at hw
  cases hw

theorem System.Delivering.step (h : s.Delivering) (hC : Delivers services s l)
    (hstep : System.Step services s l s') : s'.Delivering := by
  obtain ⟨hfenced, hgiven⟩ := h
  refine ⟨hfenced.step hstep (fun _ _ _ hst => absurd trivial hst.2) fun _ => hC.fenced,
    fun t => ?_⟩
  obtain ⟨hheld, -, htask⟩ := hfenced t
  refine (hgiven t).step htask (System.step_task (fun t => (hfenced t).1.keyed) hstep t) ?_
  rintro w env aborted launch rfl hpc hrole
  have hat : (s'.pc w).taskId? = some t := taskId?_of_busy (by simp [hpc, Pc.busy])
  have hpc' : s'.pc w = .running launch := by
    rw [← hpc]
    simp [System.task, hat]
  rw [hpc'] at hat
  obtain rfl : launch.entry.taskId = t := Option.some.inj hat
  exact (start_given hstep hpc').packetUri hrole

/-- **A packet waits until it is accounted for**: one step. -/
theorem System.Delivering.pending (h : s.Delivering) (hC : Delivers services s l)
    (hstep : System.Step services s l s') (hu : s.pendingPacket t = some u) :
    s'.pendingPacket t = some u ∨ Accounts services t u s l := by
  obtain ⟨hfenced, hgiven⟩ := h
  have htask := System.step_task (fun t => (hfenced t).1.keyed) hstep t
  cases l with
  | settle w env run aborted =>
    have hwhole := hstep
    simp only [System.Step, System.step] at hstep
    split at hstep
    next launch hpc =>
      by_cases ht : launch.entry.taskId = t
      · subst ht
        have hat : (s.task launch.entry.taskId).pc w = .running launch := by
          simp [System.task, hpc, Pc.taskId?]
        have hrole : launch.entry.nextRole = .implementer := by
          cases hrole : launch.entry.nextRole with
          | implementer => rfl
          | reviewer =>
            rw [hC.review w launch env run aborted rfl hpc hrole] at hu
            cases hu
        have huri : launch.packetUri = some u := (hgiven _ w launch hat hrole).symm.trans hu
        have hspec := runAndSettle_pending services w launch env run aborted (s.load w)
        split at hstep
        next world hrun =>
          cases hstep
          rcases hspec.of_ok hrun with hsame | ⟨outcome, w₁, hclear, haccount⟩
          · exact Or.inl (hsame.trans hu)
          · have hrow : ((s.load w).core.row launch.entry.taskId).isSome = true := by
              by_contra hnone
              rw [Option.not_isSome_iff_eq_none] at hnone
              rw [System.pendingPacket, Core.pendingPacket, show s.world.core.row
                launch.entry.taskId = none from hnone] at hu
              cases hu
            have hmoved : ∃ r status, world.core.row launch.entry.taskId = some r ∧
                transition launch outcome status = (r.status, r.nextRole) := by
              obtain ⟨b, -, hclear⟩ := hclear
              exact account_transition hclear haccount hrow
            exact Or.inr ⟨w, launch, env, outcome, w₁, world, ⟨run, aborted, rfl, hpc, hclear⟩, rfl,
              huri, haccount, hmoved⟩
        next e world hrun =>
          cases hstep
          rcases hspec.of_error hrun with hsame | ⟨outcome, w₁, hclear, hthrew⟩
          · exact Or.inl (hsame.trans hu)
          · obtain ⟨w₂, haccount⟩ := hC.accounted w launch env outcome w₁
              ⟨run, aborted, rfl, hpc, hclear⟩ (by simp [huri])
            rw [hthrew] at haccount
            cases haccount
      · have haway : (s.task t).pc w = .idle := by simp [System.task, hpc, Pc.taskId?, ht]
        refine Or.inl (Eq.trans ?_ hu)
        show (s'.task t).pendingPacket = (s.task t).pendingPacket
        generalize s.task t = v at *
        generalize s'.task t = v' at *
        cases htask with
        | other => rfl
        | settle hpc' _ _ _ =>
          rw [haway] at hpc'
          cases hpc'
        | throwAfter hpc' _ _ _ _ =>
          rw [haway] at hpc'
          cases hpc'
    next => cases hstep
  | _ => exact Or.inl ((pendingPacket_of_step htask (by simp)).trans hu)

end systems

/-! ## A packet that is lost -/

namespace Sample

/-- An implementer that exits with a failure. -/
def failed : RunTaskArgs → BackendM RunOutcome := fun _ =>
  pure (.implementerFailed "R-1" .agentNonzeroExit none none none)

/-- The packet of alice's failed attempt. -/
def packet : HandoffPacket :=
  HandoffManager.packetOf
    { taskId := "T-1", fromRunId := "R-1", fromAgentId := "alice",
      workOrderGoal := workOrder.goal, reason := .agentNonzeroExit, diffArtifactUri := none,
      verificationOutputUri := none, reviewVerdictUri := none, priorExcludes := [] } 1031

/-- Services whose store holds the text of that packet. -/
def packetServices : HandlerServices :=
  { services with json := ⟨fun _ => "text", fun _ => some (HandoffPacket.codec.encode packet)⟩ }

/-- Alice fails, and hands off. -/
def handedOff : List Label :=
  .enqueue "main" workOrder .implementer env :: attempt "w1" failed

/-- The next attempt is launched. -/
def relaunched : List Label := [.claim "w1" env, .start "w1" env false]

theorem handedOff_faultless {l : Label} (hl : l ∈ handedOff) : l.Faultless := by
  rcases List.mem_cons.mp hl with rfl | hl
  · rintro env ⟨⟩
    exact env_faultless
  · exact attempt_faultless hl

end Sample

/-- The run a worker awaits. -/
def Pc.launch? : Pc → Option Launch
  | .running l => some l
  | .idle | .claimed _ | .failed _ | .stopped => none

theorem Pc.launch?_eq_some {pc : Pc} {l : Launch} : pc.launch? = some l ↔ pc = .running l := by
  cases pc <;> simp [Pc.launch?]

/-- The call of `handle` has thrown. -/
def Pc.threw : Pc → Bool
  | .failed _ => true
  | .idle | .claimed _ | .running _ | .stopped => false

/-- A step that settles no attempt which was given a packet, and no review. -/
def settlesUngiven (s : System) : Label → Bool
  | .settle w _ _ _ => (s.pc w).launch?.all fun l =>
      decide (l.entry.nextRole = .implementer ∧ l.packetUri = none)
  | _ => true

theorem delivers_of_ungiven {services : HandlerServices} {s : System} {l : Label}
    (hfenced : FencedClaim s l) (h : settlesUngiven s l = true) : Delivers services s l := by
  have hall : ∀ w env run aborted launch, l = .settle w env run aborted →
      s.pc w = .running launch →
      launch.entry.nextRole = .implementer ∧ launch.packetUri = none := by
    rintro w env run aborted launch rfl hpc
    simp only [settlesUngiven, Pc.launch?_eq_some.mpr hpc] at h
    exact of_decide_eq_true h
  refine ⟨hfenced, ?_, ?_⟩
  · rintro w launch env outcome w₁ ⟨run, aborted, hl, hpc, -⟩ huri
    rw [(hall w env run aborted launch hl hpc).2] at huri
    cases huri
  · intro w launch env run aborted hl hpc hrole
    rw [(hall w env run aborted launch hl hpc).1] at hrole
    cases hrole

end AgentWorkflow
