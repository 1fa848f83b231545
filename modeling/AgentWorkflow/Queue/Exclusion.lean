import AgentWorkflow.Queue.Fencing

/-!
# Excluded agents

What becomes of an agent id once `addWorkOrderExcludeAgentIds` has put it on the exclude list of a
task. The list is kept twice: in the row, and in the work order that each queue instance has cached.
`handle` reads the cached one.

* `RespectsExclusions` — a decision excludes what was excluded before it, and a packet excludes what
  the decision of its handle did.
* `FreshCopy` — the copy of a worker that starts to handle a task has the exclude list of the row.
* **`exclusions_respected`** — with fresh copies every call of every run respects the exclusions.
* **`excluded_agent_picked`** — a worker that cached the work order before another worker's reviewer
  excluded an agent picks that agent again: nothing refreshes a copy.
-/

namespace AgentWorkflow

open Fallible WorkerTaskHandler

/-! ## Calls -/

/-- The exclude list and the result of a decision. -/
def Call.decided? : Call → Option (List String × Option String)
  | .decided _ _ excludeAgentIds pickedAgentId => some (excludeAgentIds, pickedAgentId)
  | _ => none

/-- The ids an exclusion adds. -/
def Call.excluded? : Call → Option (List String)
  | .excluded _ agentIds => some agentIds
  | _ => none

/-- A handoff packet that was built. -/
def Call.packet? : Call → Option HandoffPacket
  | .packetBuilt _ packet => some packet
  | _ => none

/-- The exclude list of the last decision of a worker. -/
def lastDecided (w : String) (calls : List (String × Call)) : Option (List String) :=
  lastSome (fun call => if call.1 = w then call.2.decided?.map Prod.fst else none) calls

/-- What a call owes to the calls about its task before it. -/
structure RespectsExclusions (pre : List (String × Call)) (call : String × Call) : Prop where
  decided : ∀ excludeAgentIds picked, call.2.decided? = some (excludeAgentIds, picked) →
    ∀ c ∈ pre, ∀ agentIds, c.2.excluded? = some agentIds →
      ∀ id ∈ agentIds, id ∈ excludeAgentIds ∧ picked ≠ some id
  packet : ∀ packet, call.2.packet? = some packet → ∃ excludeAgentIds,
    lastDecided call.1 pre = some excludeAgentIds ∧
      ∀ id ∈ excludeAgentIds, id ∈ packet.excludeAgentIds

section calls

variable {w x : String} {calls : List (String × Call)} {call : Call}

theorem lastDecided_snoc_of_none (h : x ≠ w ∨ call.decided? = none) :
    lastDecided w (calls ++ [(x, call)]) = lastDecided w calls := by
  refine lastSome_snoc_of_none ?_
  rcases h with h | h
  · simp [h]
  · simp [h]

theorem lastDecided_snoc {excludeAgentIds : List String} {picked : Option String}
    (h : call.decided? = some (excludeAgentIds, picked)) :
    lastDecided w (calls ++ [(w, call)]) = some excludeAgentIds :=
  lastSome_snoc_of_some (by simp [h])

/-- A call that decides nothing and builds no packet. -/
theorem RespectsExclusions.of_none (hd : call.decided? = none) (hp : call.packet? = none) :
    RespectsExclusions calls (x, call) where
  decided _ _ h := by
    rw [hd] at h
    cases h
  packet _ h := by
    rw [hp] at h
    cases h

end calls

/-! ## The invariant -/

/-- A worker's copy has the exclude list of the row. -/
def CopyCurrent (v : TaskState) (w : String) : Prop :=
  ∀ wo ∈ v.cached w, ∀ wo' ∈ v.persisted,
    ∀ id ∈ wo'.agent.excludeAgentIds, id ∈ wo.agent.excludeAgentIds

instance (v : TaskState) (w : String) : Decidable (CopyCurrent v w) :=
  inferInstanceAs (Decidable (∀ wo ∈ v.cached w, ∀ wo' ∈ v.persisted,
    ∀ id ∈ wo'.agent.excludeAgentIds, id ∈ wo.agent.excludeAgentIds))

/-- Exclusions are in the row, a running worker's list is the one it decided with, and every call
respects the exclusions. -/
structure Excluding (v : TaskState) : Prop where
  kept : ∀ c ∈ v.calls, ∀ agentIds, c.2.excluded? = some agentIds → ∃ wo, v.persisted = some wo ∧
    ∀ id ∈ agentIds, id ∈ wo.agent.excludeAgentIds
  running : ∀ w l, v.pc w = .running l →
    lastDecided w v.calls = some l.workOrder.agent.excludeAgentIds
  respects : AtEach RespectsExclusions v.calls

section invariant

variable {t w : String} {v v' : TaskState}

theorem Excluding.fresh : Excluding TaskState.fresh where
  kept c hc := by cases hc
  running w l h := by cases h
  respects := atEach_nil

/-- The invariant after a step that notes nothing and leaves the work order alone. -/
theorem Excluding.congr (h : Excluding v) (hpersisted : v'.persisted = v.persisted)
    (hcalls : v'.calls = v.calls)
    (hpc : ∀ x l, v'.pc x = .running l → v.pc x = .running l) : Excluding v' where
  kept c hc agentIds hids := by
    rw [hpersisted]
    exact h.kept c (hcalls ▸ hc) agentIds hids
  running x l hx := by
    rw [hcalls]
    exact h.running x l (hpc x l hx)
  respects := hcalls ▸ h.respects

/-- The invariant after a call. -/
theorem Excluding.note {call : Call} (h : Excluding v)
    (hrunning : call.decided? = none ∨ ∀ l, v.pc w ≠ .running l)
    (hexcluded : ∀ agentIds, call.excluded? = some agentIds → ∃ wo, v.persisted = some wo ∧
      ∀ id ∈ agentIds, id ∈ wo.agent.excludeAgentIds)
    (hrespects : RespectsExclusions v.calls (w, call)) : Excluding (v.note w call) where
  kept c hc agentIds hids := by
    rcases List.mem_append.mp hc with hc | hc
    · exact h.kept c hc agentIds hids
    · obtain rfl := List.mem_singleton.mp hc
      exact hexcluded agentIds hids
  running x l hx := by
    have hlast := h.running x l hx
    refine (lastDecided_snoc_of_none ?_).trans hlast
    rcases hrunning with hnone | hnot
    · exact Or.inr hnone
    · left
      rintro rfl
      exact hnot l hx
  respects := atEach_snoc.mpr ⟨h.respects, hrespects⟩

/-- A call that is neither a decision, nor an exclusion, nor a packet. -/
theorem Excluding.quiet {x : String} (h : Excluding v) (call : Call) (hd : call.decided? = none)
    (he : call.excluded? = none) (hp : call.packet? = none) : Excluding (v.note x call) := by
  refine h.note (Or.inl hd) ?_ (.of_none hd hp)
  intro agentIds hids
  rw [he] at hids
  cases hids

/-- A worker that goes elsewhere than to a run. -/
theorem Excluding.goto {x : String} {pc : Pc} (h : Excluding v) (hpc : ∀ l, pc ≠ .running l) :
    Excluding (v.goto x pc) :=
  h.congr rfl rfl fun _ l hy => pc_of_goto (hpc l) hy

/-- An update that excludes nobody leaves the work order of a row alone. -/
theorem workOrderOf_onRow_of_ne {u : Update} (hu : ∀ agentIds at', u ≠ .exclude agentIds at')
    (r : TaskRow) : QueueStore.workOrderOf (u.onRow r) = QueueStore.workOrderOf r := by
  cases u with
  | exclude agentIds at' => exact absurd rfl (hu agentIds at')
  | _ => rfl

theorem persisted_update_of_ne {u : Update} (hu : ∀ agentIds at', u ≠ .exclude agentIds at') :
    (v.update t w u).persisted = v.persisted := by
  rw [persisted_update, TaskState.persisted]
  cases hr : v.row with
  | none => rfl
  | some r => exact workOrderOf_onRow_of_ne hu r

theorem update_note {x : String} {call : Call} :
    v.update t w (.note x call) = v.note x call := by
  refine TaskState.ext ?_ ?_ ?_ rfl rfl
  · simp [TaskState.update, TaskState.note]
  · rfl
  · exact Function.update_eq_self _ _

/-- An update that notes nothing keeps the invariant. -/
theorem Excluding.update (h : Excluding v) (u : Update) (hcalls : u.calls = []) :
    Excluding (v.update t w u) where
  kept c hc agentIds hids := by
    have hc' : c ∈ v.calls := by simpa [TaskState.update, hcalls] using hc
    obtain ⟨wo, hwo, hsub⟩ := h.kept c hc' agentIds hids
    obtain ⟨r, hr, hof⟩ := Option.bind_eq_some_iff.mp hwo
    obtain ⟨ids, hids', hmono, -⟩ := workOrderOf_onRow u hof
    refine ⟨wo.withExcludeAgentIds ids, ?_, fun id hid => ?_⟩
    · rw [persisted_update, hr]
      exact hids'
    · rw [withExcludeAgentIds_excludeAgentIds]
      exact hmono id (hsub id hid)
  running x l hx := by
    have hsame : (v.update t w u).calls = v.calls := by simp [TaskState.update, hcalls]
    rw [hsame]
    exact h.running x l hx
  respects := by
    have hsame : (v.update t w u).calls = v.calls := by simp [TaskState.update, hcalls]
    exact hsame ▸ h.respects

/-- What a worker takes up when it has a current copy is current. -/
theorem CopyCurrent.loaded (h : CopyCurrent v w) {wo wo' : ParsedWorkOrderV1}
    (hwo : (Update.loadWorkOrder.onHolding t (v.holding w)).cached = some wo)
    (hwo' : v.persisted = some wo') :
    ∀ id ∈ wo'.agent.excludeAgentIds, id ∈ wo.agent.excludeAgentIds := by
  simp only [Update.onHolding, Option.orElse_eq_orElse, Option.orElse_eq_or,
    Option.or_eq_some_iff] at hwo
  rcases hwo with hcached | ⟨-, hpersisted⟩
  · exact h wo hcached wo' hwo'
  · have hsame : wo = wo' := Option.some.inj (hpersisted.symm.trans hwo')
    subst hsame
    exact fun id hid => hid

/-- A decision with the list of a current copy respects the exclusions. -/
theorem Excluding.respects_decided (h : Excluding v) {role : Role} {wo : ParsedWorkOrderV1}
    {picked : Option String}
    (hcurrent : ∀ wo', v.persisted = some wo' →
      ∀ id ∈ wo'.agent.excludeAgentIds, id ∈ wo.agent.excludeAgentIds)
    (hpicked : ∀ id, picked = some id → id ∉ wo.agent.excludeAgentIds) :
    RespectsExclusions v.calls (w, .decided t role wo.agent.excludeAgentIds picked) where
  decided ex p heq c hc agentIds hids id hid := by
    cases heq
    obtain ⟨wo', hwo', hsub⟩ := h.kept c hc agentIds hids
    have hmem := hcurrent wo' hwo' id (hsub id hid)
    exact ⟨hmem, fun hp => hpicked id hp hmem⟩
  packet packet heq := by cases heq

/-- The half before the run keeps the invariant of a worker with a current copy. -/
theorem Excluding.beforeRun {entry : TaskQueueEntry} {us : List Update}
    (h : Excluding v) (hcurrent : CopyCurrent v w) (hpc : v.pc w = .claimed entry)
    (hus : TaskUpdates (BeforeRun w entry) t w v us v') : Excluding v' := by
  have hboth : Excluding v' ∧ CopyCurrent v' w := by
    refine TaskUpdates.keep (I := fun v => Excluding v ∧ CopyCurrent v w) hus ⟨h, hcurrent⟩ ?_
    rintro v₁ u ⟨h₁, hcurrent₁⟩ hpc₁ hA
    have hnot : ∀ l, v₁.pc w ≠ .running l := by
      intro l hl
      rw [hpc₁, hpc] at hl
      cases hl
    have hpersisted : (v₁.update t w u).persisted = v₁.persisted := by
      apply persisted_update_of_ne
      rintro agentIds at' rfl
      cases hA
    have hcached : ∀ wo, (v₁.update t w u).cached w = some wo →
        (Update.loadWorkOrder.onHolding t (v₁.holding w)).cached = some wo := by
      intro wo hwo
      simp only [TaskState.update, Function.update_self] at hwo
      cases hA with
      | load => exact hwo
      | _ =>
        simp only [Update.onHolding, Option.orElse_eq_orElse, Option.orElse_eq_or,
          Option.or_eq_some_iff]
        exact Or.inl hwo
    refine ⟨?_, fun wo hwo wo' hwo' => ?_⟩
    · cases hA with
      | @decided wo picked hw hpicked =>
        rw [update_note]
        refine h₁.note (Or.inr hnot) (by simp [Call.excluded?]) ?_
        exact h₁.respects_decided (hcurrent₁ wo hw) hpicked
      | _ => exact h₁.update _ rfl
    · rw [hpersisted] at hwo'
      exact hcurrent₁.loaded (hcached wo hwo) hwo'
  exact hboth.1

/-- So does the half after it, of any worker. -/
theorem Excluding.afterRun {l : Launch} {result : Except Err RunOutcome} {us : List Update}
    (h : Excluding v) (hpc : v.pc w = .running l)
    (hus : TaskUpdates (AfterRun w l result) t w v us v') : Excluding v' := by
  refine TaskUpdates.keep hus h ?_
  intro v₁ u h₁ hpc₁ hA
  have hat : v₁.pc w = .running l := by rw [hpc₁, hpc]
  cases hA with
  | packetBuilt hpacket =>
    rw [update_note]
    refine h₁.note (Or.inl rfl) (by simp [Call.excluded?]) ⟨by simp [Call.decided?], ?_⟩
    rintro packet ⟨⟩
    exact ⟨_, h₁.running w l hat, hpacket⟩
  | excluded hw hids =>
    rw [update_note]
    refine h₁.note (Or.inl rfl) ?_ (.of_none rfl rfl)
    rintro agentIds ⟨⟩
    exact ⟨_, hw, hids⟩
  | _ => exact h₁.update _ rfl

/-- The enqueueing of a task, of which nothing was excluded before. -/
theorem Excluding.enqueue {q : String} {workOrder : ParsedWorkOrderV1} {role : Role} {ts : ℕ}
    (h : Excluding v) (hrow : v.row = none) : Excluding (v.enqueued q workOrder role ts) := by
  have hnone : v.persisted = none := by simp [TaskState.persisted, hrow]
  have hexcluded : ∀ c ∈ v.calls, c.2.excluded? = none := by
    intro c hc
    by_contra hne
    obtain ⟨agentIds, hids⟩ := Option.ne_none_iff_exists'.mp hne
    obtain ⟨wo, hwo, -⟩ := h.kept c hc agentIds hids
    rw [hnone] at hwo
    cases hwo
  refine ⟨fun c hc agentIds hids => ?_, fun x l hx => ?_, ?_⟩
  · rcases List.mem_append.mp hc with hc | hc
    · rw [hexcluded c hc] at hids
      cases hids
    · obtain rfl := List.mem_singleton.mp hc
      cases hids
  · exact (lastDecided_snoc_of_none (Or.inr rfl)).trans (h.running x l hx)
  · exact atEach_snoc.mpr ⟨h.respects, .of_none rfl rfl⟩

/-- A claim copies the row. -/
theorem Excluding.claim {r : TaskRow} {lease now : ℕ} (h : Excluding v) (hrow : v.row = some r) :
    Excluding (v.claimed w lease now r) := by
  refine h.congr ?_ rfl fun x l hx => pc_of_goto (by simp) hx
  rw [TaskState.persisted, TaskState.persisted, hrow]
  rfl

/-- A launch of a worker with a current copy is decided with its list. -/
theorem Excluding.launch {entry : TaskQueueEntry} {l : Launch} {gate : BudgetState}
    (h : Excluding v) (hcopy : CopyCurrent v w) (hpc : v.pc w = .claimed entry)
    (hl : Launches entry (v.holding w) l gate) :
    Excluding ((v.launched w l gate).goto w (.running l)) := by
  have hnot : ∀ l, v.pc w ≠ .running l := by simp [hpc]
  have hpicked : ∀ id, some l.agentId = some id → id ∉ l.workOrder.agent.excludeAgentIds := by
    rintro id ⟨⟩
    exact hl.not_excluded
  have h₁ : Excluding (v.note w (.decided l.entry.taskId l.entry.nextRole
      l.workOrder.agent.excludeAgentIds (some l.agentId))) :=
    h.note (Or.inr hnot) (by simp [Call.excluded?])
      (h.respects_decided (fun wo' hwo' => hcopy.loaded hl.loaded hwo') hpicked)
  have h₂ := h₁.quiet (x := w) (.launched l.entry.taskId l.entry.nextRole l.agentId gate
    l.persistedReviewContext) rfl rfl rfl
  have hcalls : ((v.launched w l gate).goto w (.running l)).calls = ((v.note w (.decided
      l.entry.taskId l.entry.nextRole l.workOrder.agent.excludeAgentIds (some l.agentId))).note w
      (.launched l.entry.taskId l.entry.nextRole l.agentId gate
        l.persistedReviewContext)).calls := by
    simp [TaskState.goto, TaskState.launched, TaskState.note]
  refine ⟨fun c hc => h₂.kept c (hcalls ▸ hc), fun x l' hx => ?_, hcalls ▸ h₂.respects⟩
  rw [hcalls]
  rcases pc_goto_cases hx with ⟨rfl, hl'⟩ | hx
  · obtain rfl := Pc.running.inj hl'
    exact (lastDecided_snoc_of_none (Or.inr rfl)).trans (lastDecided_snoc rfl)
  · exact h₂.running x l' hx

/-- **A step keeps the invariant** when a worker that starts to handle the task has a current
copy. -/
theorem Excluding.step {l : Label} (h : Excluding v) (hstep : TaskStep t v l v')
    (hcurrent : ∀ w env aborted entry, l = .start w env aborted → v.pc w = .claimed entry →
      CopyCurrent v w) : Excluding v' := by
  cases hstep with
  | other => exact h
  | enqueue ht hrow => exact h.enqueue hrow
  | load => exact h.update _ rfl
  | claim hload hpc hrow hclaim =>
    rcases hload with rfl | rfl
    · exact h.claim hrow
    · exact (h.update _ rfl).claim (by simpa using hrow)
  | @refuse v₁ w env aborted entry us st u hpc ht hst hus =>
    have h₁ := h.beforeRun (hcurrent w env aborted entry rfl hpc) hpc hus
    exact (h₁.quiet (.returned t) rfl rfl rfl).goto (by simp)
  | @launch w env aborted entry l gate hpc ht hl =>
    exact h.launch (hcurrent w env aborted entry rfl hpc) hpc hl
  | @throwBefore v₁ w env aborted entry us hpc ht hus hrel =>
    have h₁ := h.beforeRun (hcurrent w env aborted entry rfl hpc) hpc hus
    exact (h₁.quiet (.threw t) rfl rfl rfl).goto (by simp)
  | @settle v₁ w env run aborted l result us st role n u hpc ht hrun hus =>
    have hsettled := h.quiet (x := w) (.settled t l.entry.nextRole l.agentId
      l.persistedReviewContext result) rfl rfl rfl
    exact ((hsettled.afterRun hpc hus).quiet (.returned t) rfl rfl rfl).goto (by simp)
  | @throwAfter v₁ w env run aborted l result us hpc ht hrun hus hrel =>
    have hsettled := h.quiet (x := w) (.settled t l.entry.nextRole l.agentId
      l.persistedReviewContext result) rfl rfl rfl
    exact ((hsettled.afterRun hpc hus).quiet (.threw t) rfl rfl rfl).goto (by simp)
  | @requeue w env entry r u hpc hrow =>
    have hkept : Excluding ({ v with row := some (Worker.requeuedRow u r) } : TaskState) := by
      refine h.congr ?_ rfl fun _ _ hx => hx
      rw [TaskState.persisted, TaskState.persisted, hrow]
      rfl
    exact hkept.goto (by simp)
  | giveUp hpc => exact h.goto (by simp)
  | crash => exact h.goto (by simp)

end invariant

/-! ## Runs -/

section runs

variable {services : HandlerServices} {s₀ s : System} {ls : List Label}

/-- A worker that starts to handle its task has cached no work order for it, or one with the exclude
list of the row. -/
def FreshCopy (s : System) : Label → Prop
  | .start w _ _ => ∀ t ∈ (s.pc w).taskId?, CopyCurrent (s.task t) w
  | _ => True

instance (s : System) : (l : Label) → Decidable (FreshCopy s l)
  | .start w _ _ => inferInstanceAs (Decidable (∀ t ∈ (s.pc w).taskId?, CopyCurrent (s.task t) w))
  | .enqueue .. | .claim .. | .settle .. | .release .. | .crash _ => .isTrue trivial

/-- **Exclusions are respected** in the runs whose workers have fresh copies. -/
theorem exclusions_respected (h₀ : s₀.Initial)
    (h : Run (Guarded FreshCopy (System.Step services)) s₀ ls s) (t : String) :
    AtEach RespectsExclusions (s.calls t) := by
  have hexcluding : Excluding (s.task t) := by
    refine System.task_invariant h₀ h .fresh ?_
    intro s l s' hfresh hstep htask _ hI
    refine hI.step htask fun w env aborted entry hl hpc => ?_
    subst hl
    exact hfresh t (taskId?_of_busy (by simp [hpc, Pc.busy]))
  exact hexcluding.respects

/-- The first worker implements, the second one's reviewer requests changes, and the first worker
handles the task again. -/
def twoWorkers : List Label :=
  .enqueue "main" Sample.workOrder .implementer Sample.env ::
    (Sample.attempt "w1" Sample.implemented ++ Sample.attempt "w2" Sample.changesRequested ++
      [.claim "w1" Sample.env, .start "w1" Sample.env false])

/-- The implementer whose work was sent back is picked again, with an empty exclude list. -/
theorem excluded_agent_picked :
    ∃ s, System.Steps Sample.services Sample.system twoWorkers s ∧
      ¬ AtEach RespectsExclusions (s.calls "T-1") := by
  have h : (Sample.system.steps Sample.services twoWorkers).any (fun s =>
      (s.calls "T-1").dropLast.getLast?.any fun call =>
        call.2.decided? = some ([], some "alice") ∧
        (s.calls "T-1").dropLast.dropLast.any (fun c => c.2.excluded? = some ["alice"])) = true := by
    decide +kernel
  obtain ⟨s, hs, hp⟩ := (Option.any_eq_true _ _).mp h
  obtain ⟨call, hlast, hp⟩ := (Option.any_eq_true _ _).mp hp
  obtain ⟨hdecided, hexcluded⟩ := of_decide_eq_true hp
  obtain ⟨c, hc, hids⟩ := List.any_eq_true.mp hexcluded
  refine ⟨s, System.steps_iff.mpr hs, fun hrespects => ?_⟩
  have hpre : (s.calls "T-1").dropLast.dropLast ++ [call] <+: s.calls "T-1" := by
    rw [List.dropLast_append_getLast? call hlast]
    exact List.dropLast_prefix _
  have hmem := (hrespects _ _ hpre).decided _ _ hdecided c hc _ (of_decide_eq_true hids) "alice"
    (by decide)
  exact hmem.2 rfl

/-- One worker, which writes the exclude list and reads it again. -/
def oneWorker : List Label :=
  .enqueue "main" Sample.workOrder .implementer Sample.env ::
    (Sample.attempt "w1" Sample.implemented ++ Sample.attempt "w1" Sample.changesRequested ++
      [.claim "w1" Sample.env, .start "w1" Sample.env false])

theorem exclusions_respected_oneWorker :
    ∃ s, System.Steps Sample.services Sample.system oneWorker s ∧
      AtEach RespectsExclusions (s.calls "T-1") ∧
      (s.calls "T-1").any (fun call => call.2.decided? = some (["alice"], some "bob")) := by
  have h : (Sample.system.guardedSteps Sample.services FreshCopy oneWorker).any (fun s =>
      (s.calls "T-1").any fun call => call.2.decided? = some (["alice"], some "bob")) = true := by
    decide +kernel
  obtain ⟨s, hs, hp⟩ := (Option.any_eq_true _ _).mp h
  have hrun := System.guardedSteps_iff.mpr hs
  exact ⟨s, hrun.of_guarded, exclusions_respected Sample.initial hrun "T-1", hp⟩

end runs

end AgentWorkflow
