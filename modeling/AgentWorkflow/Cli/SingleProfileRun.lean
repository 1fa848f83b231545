import AgentWorkflow.Scheduling.EligibleView

/-!
# The precheck of a run with one profile

`cli/run-command.ts` checks a run without review before it enqueues the task: one profile is
loaded, and `validateSingleProfileV1Run` says whether it can run the work order. Whether it does is
for the scheduler to decide, in a worker that loaded the same profile.

* `validateSingleProfileV1Run`, `assertValidV1RunAgentRegistrySource` — the precheck.
* `firstDecision` — what `handle` decides for a task that never ran; `dispatch` starts with it.
* **`validateSingleProfileV1Run_iff`** — the precheck accepts exactly what the scheduler picks: the
  first dispatch of an accepted run is not refused, and a rejected run would be, whatever the
  budget.
-/

namespace AgentWorkflow

open Fallible

namespace RunWorkOrderV1

/-! ## The precheck -/

/-- How the texts of the precheck start. -/
def cannotRun (agentId : String) : String :=
  "AgentProfile \"" ++ agentId ++ "\" cannot run this WorkOrder: "

/-- Source: `run-command.ts` `validateSingleProfileV1Run`; none is `undefined`. -/
def validateSingleProfileV1Run (workOrder : ParsedWorkOrderV1) (agentProfile : AgentProfileV1) :
    Option String :=
  let missingCapabilities :=
    workOrder.agent.requiredCapabilities.filter fun capability => capability ∉ agentProfile.kinds
  if Role.implementer ∉ agentProfile.roles then
    some (cannotRun agentProfile.agentId ++ "missing implementer role.")
  else if 0 < missingCapabilities.length then
    some (cannotRun agentProfile.agentId ++ "missing required capabilities " ++
      String.intercalate ", " missingCapabilities ++ ".")
  else if 0 < workOrder.agent.implementerPool.length ∧
      agentProfile.agentId ∉ workOrder.agent.implementerPool then
    some (cannotRun agentProfile.agentId ++ "it is not listed in agent.implementer_pool.")
  else if agentProfile.agentId ∈ workOrder.agent.excludeAgentIds then
    some (cannotRun agentProfile.agentId ++ "it is already listed in agent.exclude_agent_ids.")
  else none

/-- Source: `run-command.ts` `assertValidV1RunAgentRegistrySource`. A listed profile is parsed, and
parsing it again gives it back. -/
def assertValidV1RunAgentRegistrySource (resolvedAgentPath : String)
    (workOrder : ParsedWorkOrderV1) : BackendM Unit := do
  let entries ← AgentRegistry.list
  match entries with
  | [] =>
    throw (.error ("AgentRegistry validation failed: no workflow/v1 AgentProfiles found in " ++
      resolvedAgentPath ++ "."))
  | entry :: rest =>
    if workOrder.review.enabled = true then
      if rest.length = 0 then
        throw (.error ("workflow/v1 agentflow run no longer uses the single-profile smoke path " ++
          "when review.enabled=true. Provide an AgentRegistry source with separate implementer " ++
          "and reviewer profiles."))
      else pure ()
    else if rest.length ≠ 0 then
      throw (.error ("workflow/v1 agentflow run with review.enabled=false requires exactly one " ++
        "AgentProfile."))
    else
      match validateSingleProfileV1Run workOrder entry.profile with
      | some validationError => throw (.error validationError)
      | none => pure ()

/-! ## What the scheduler is asked -/

/-- Who may implement a work order at first. -/
def implementerRequest (workOrder : ParsedWorkOrderV1) : Scheduler.Request where
  workOrder := workOrder
  role := .implementer
  excludeAgentIds := workOrder.agent.excludeAgentIds
  mostRecentImplementerAgentId := none

/-- The decision about a task that is to be implemented. -/
def firstDecision (coll : Collation) (workOrder : ParsedWorkOrderV1) :
    WorldM (BudgetState × ScheduleDecision) := do
  let _ ← BudgetManager.init workOrder
  let budget ← BudgetManager.current workOrder.taskId
  let decision ← onBackend (Scheduler.decide coll workOrder .implementer
    workOrder.agent.excludeAgentIds budget none)
  pure (budget, decision)

/-- The registry holds this profile and no other, and the agent is healthy. -/
def HoldsOnly (b : Backend) (profile : AgentProfileV1) : Prop :=
  ∃ entry, b.listed = [entry] ∧ entry.profile = profile ∧ entry.quotaHealth = .healthy

section precheck

variable {coll : Collation} {workOrder : ParsedWorkOrderV1} {profile : AgentProfileV1}
  {budget : BudgetState} {env : Env} {b : Backend}

/-- **The precheck accepts exactly the eligible profiles**: its checks are the filters of the
scheduler but for the quota. -/
theorem validate_iff_eligible {entry : AgentRegistryEntry}
    (hhealth : entry.quotaHealth = .healthy) :
    validateSingleProfileV1Run workOrder entry.profile = none ↔
      (implementerRequest workOrder).Eligible entry := by
  unfold validateSingleProfileV1Run
  dsimp only
  have hcaps : 0 < (workOrder.agent.requiredCapabilities.filter fun capability =>
      capability ∉ entry.profile.kinds).length ↔
      ¬∀ cap ∈ workOrder.agent.requiredCapabilities, cap ∈ entry.profile.kinds := by
    rw [List.length_pos_iff, ne_eq, List.filter_eq_nil_iff]
    simp only [decide_eq_true_eq, not_not]
  have heligible : (implementerRequest workOrder).Eligible entry ↔
      Role.implementer ∈ entry.profile.roles ∧
      (∀ cap ∈ workOrder.agent.requiredCapabilities, cap ∈ entry.profile.kinds) ∧
      (workOrder.agent.implementerPool = [] ∨
        entry.profile.agentId ∈ workOrder.agent.implementerPool) ∧
      entry.profile.agentId ∉ workOrder.agent.excludeAgentIds := by
    have hquota : entry.quotaHealth ≠ .exhausted := by
      rw [hhealth]
      decide
    constructor
    · rintro ⟨⟨hcaps, hrole⟩, ⟨hpool, hexclude, -⟩, -⟩
      exact ⟨hrole, hcaps, hpool, hexclude⟩
    · rintro ⟨hrole, hcaps, hpool, hexclude⟩
      exact ⟨⟨hcaps, hrole⟩, ⟨hpool, hexclude, nofun⟩, hquota⟩
  rw [heligible]
  by_cases hrole : Role.implementer ∈ entry.profile.roles
  · rw [if_neg (not_not.mpr hrole)]
    by_cases hall : ∀ cap ∈ workOrder.agent.requiredCapabilities, cap ∈ entry.profile.kinds
    · rw [if_neg fun h => hcaps.mp h hall]
      by_cases hpool : workOrder.agent.implementerPool = [] ∨
        entry.profile.agentId ∈ workOrder.agent.implementerPool
      · rw [if_neg fun h => hpool.elim (List.ne_nil_of_length_pos h.1) h.2]
        by_cases hexclude : entry.profile.agentId ∈ workOrder.agent.excludeAgentIds
        · rw [if_pos hexclude]
          exact ⟨nofun, fun h => absurd hexclude h.2.2.2⟩
        · rw [if_neg hexclude]
          exact ⟨fun _ => ⟨hrole, hall, hpool, hexclude⟩, fun _ => rfl⟩
      · obtain ⟨hne, hnot⟩ := not_or.mp hpool
        rw [if_pos ⟨List.length_pos_of_ne_nil hne, hnot⟩]
        exact ⟨nofun, fun h => absurd h.2.2.1 hpool⟩
    · rw [if_pos (hcaps.mpr hall)]
      exact ⟨nofun, fun h => absurd h.2.1 hall⟩
  · rw [if_pos hrole]
    exact ⟨nofun, fun h => absurd h.1 hrole⟩

/-- What a correct decision over the one profile is. -/
theorem correct_singleton {d : ScheduleDecision} {entry : AgentRegistryEntry}
    (h : Scheduler.Correct coll (implementerRequest workOrder) budget [entry] d)
    (hhealth : entry.quotaHealth = .healthy) :
    (budget.status ≠ .exhausted → validateSingleProfileV1Run workOrder entry.profile = none →
      d.pickedAgentId = some entry.profile.agentId ∧ d.refusalReason = none) ∧
    (validateSingleProfileV1Run workOrder entry.profile ≠ none →
      d.pickedAgentId = none ∧ d.refusalReason.isSome = true) := by
  rw [ne_eq, validate_iff_eligible hhealth]
  constructor
  · intro hbudget heligible
    obtain ⟨id, hid⟩ := Option.isSome_iff_exists.mp
      (h.picks_iff.mpr ⟨hbudget, entry, List.mem_singleton_self entry, heligible⟩)
    obtain ⟨hreason, e, hpick, rfl⟩ := h.picked id hid
    exact ⟨hid.trans (List.mem_singleton.mp hpick.mem.1 ▸ rfl), hreason⟩
  · intro hnot
    have hpicked : d.pickedAgentId = none := by
      rw [← Option.not_isSome_iff_eq_none, h.picks_iff]
      rintro ⟨-, e, he, heligible⟩
      rw [List.mem_singleton.mp he, ← validate_iff_eligible hhealth] at heligible
      exact hnot heligible
    exact ⟨hpicked, by rw [h.refused hpicked]; rfl⟩

/-- **A run without review starts exactly when there is one profile and the precheck accepts
it.** -/
theorem assertValid_spec {resolvedAgentPath : String} (hreview : workOrder.review.enabled = false) :
    Ensures (assertValidV1RunAgentRegistrySource resolvedAgentPath workOrder) env b
      (fun _ _ => ∃ entry, b.listed = [entry] ∧
        validateSingleProfileV1Run workOrder entry.profile = none)
      fun _ _ => ¬∃ entry, b.listed = [entry] ∧
        validateSingleProfileV1Run workOrder entry.profile = none := by
  simp only [assertValidV1RunAgentRegistrySource, AgentRegistry.list, ensures_bind, ensures_get,
    ensures_set, ensures_pure, hreview]
  have hrows : ((AgentRegistry.syncAll b.sharedQuotaHealth b.registry).rows.map
      AgentRegistry.toExternal) = b.listed := rfl
  unfold AgentRegistry.syncAll at hrows
  rw [hrows]
  cases hlisted : b.listed with
  | nil =>
    rintro ⟨_, h, -⟩
    cases h
  | cons entry rest =>
    cases rest with
    | cons =>
      rintro ⟨_, h, -⟩
      cases h
    | nil =>
      cases hvalidate : validateSingleProfileV1Run workOrder entry.profile with
      | none =>
        simp only [Bool.false_eq_true, if_false, List.length_nil, ne_eq, not_true_eq_false,
          hvalidate, ensures_pure]
        exact ⟨entry, rfl, hvalidate⟩
      | some validationError =>
        simp only [Bool.false_eq_true, if_false, List.length_nil, ne_eq, not_true_eq_false,
          hvalidate, ensures_throw]
        rintro ⟨entry', hentry, hnone⟩
        rw [List.cons.injEq] at hentry
        rw [← hentry.1, hvalidate] at hnone
        cases hnone

/-! ## The first dispatch -/

/-- `handle` decides so for a task that is to be implemented. -/
theorem dispatch_eq (services : HandlerServices) (workerId : String) (entry : TaskQueueEntry)
    (aborted : Bool) (uri : Option String) (htask : entry.taskId = workOrder.taskId)
    (hrole : entry.nextRole = .implementer) :
    ∃ rest : BudgetState × ScheduleDecision → WorldM (Option Launch),
      WorkerTaskHandler.dispatch services workerId entry aborted workOrder none uri =
        firstDecision services.coll workOrder >>= rest := by
  obtain ⟨rest, hrest⟩ : ∃ rest : BudgetState → ScheduleDecision → WorldM (Option Launch),
      WorkerTaskHandler.dispatch services workerId entry aborted workOrder none uri =
        BudgetManager.init workOrder >>= fun _ =>
          BudgetManager.current entry.taskId >>= fun budget =>
            onBackend (Scheduler.decide services.coll workOrder entry.nextRole
              workOrder.agent.excludeAgentIds budget none) >>= rest budget := ⟨_, rfl⟩
  refine ⟨fun x => rest x.1 x.2, ?_⟩
  rw [hrest, htask, hrole]
  simp only [firstDecision, bind_assoc, pure_bind]

/-- The task has no budget row, or the row of a task that has not run. -/
def Unspent (workOrder : ParsedWorkOrderV1) (b : Backend) (w : World) : Prop :=
  (∀ budget, w.core.budget workOrder.taskId = some budget → budget.status = .ok) ∧
    w.backend.listed = b.listed

/-- A storage call lists what it listed. -/
theorem unspent_storageCall {k : StorageCall} :
    Maintains (Unspent workOrder b) (onBackend (storageCall k)) fun _ => True := fun env w hw => by
  rw [ensures_onBackend, ensures_storageCall_iff]
  exact ⟨fun _ => hw, fun _ => ⟨trivial, hw⟩⟩

/-- The budget that is read has not been spent. -/
theorem unspent_current :
    Maintains (Unspent workOrder b) (BudgetStore.current workOrder.taskId)
      fun budget => budget.status = .ok := by
  refine .bind unspent_storageCall fun _ _ =>
    .bind (Q := fun c => ∀ budget, c.budget workOrder.taskId = some budget → budget.status = .ok)
      (fun _ w hw => ⟨hw.1, hw⟩) fun c hc => ?_
  split
  next budget hbudget => exact .pure (hc budget hbudget)
  next => exact fun _ w hw => hw

/-- A budget row is inserted unspent. -/
theorem unspent_init :
    Maintains (Unspent workOrder b) (BudgetManager.init workOrder) fun _ => True := by
  refine .bind (Q := fun _ => True) ?_ fun _ _ => .bind unspent_current fun budget _ env w hw => ?_
  · refine .bind unspent_storageCall fun _ _ env w hw => ?_
    refine ensures_bind.mpr (ensures_ite.mpr ⟨fun _ => ⟨trivial, hw⟩, fun hnone => ?_⟩)
    refine ensures_bind.mpr ((unspent_storageCall env w hw).mono (fun _ w' hw' => ?_)
      fun _ _ h => h)
    split
    next q hq =>
      refine ⟨trivial, fun budget hbudget => ?_, hw'.2.2⟩
      have hrow : q.find? workOrder.taskId = some _ :=
        (Table.find?_insert hq workOrder.taskId).trans (if_pos rfl)
      obtain rfl := Option.some.inj (hrow.symm.trans hbudget)
      rfl
    next => exact hw'.2
  · refine ensures_bind.mpr (ensures_onBackend.mpr ?_)
    simp only [BudgetManager.syncEmitted, ensures_bind, ensures_ite, ensures_modify, ensures_pure]
    exact ⟨fun _ => ⟨fun _ => ⟨trivial, hw⟩, fun _ => ⟨trivial, hw⟩⟩,
      fun _ => ⟨fun _ => ⟨trivial, hw⟩, fun _ => ⟨trivial, hw⟩⟩⟩

/-- **The precheck and the scheduler agree** on a registry that holds the profile only. -/
theorem validateSingleProfileV1Run_iff (coll : Collation) (workOrder : ParsedWorkOrderV1)
    (profile : AgentProfileV1) (b : Backend) (hb : HoldsOnly b profile) :
    (∀ budget env, budget.status ≠ .exhausted →
      Ensures (Scheduler.decide coll workOrder .implementer workOrder.agent.excludeAgentIds budget
          none) env b
        (fun d _ => validateSingleProfileV1Run workOrder profile = none ↔
          d.pickedAgentId = some profile.agentId)
        fun _ _ => False) ∧
    (validateSingleProfileV1Run workOrder profile = none →
      ∀ core env, core.budget workOrder.taskId = none →
        Ensures (firstDecision coll workOrder) env ⟨core, b⟩
          (fun x _ => x.2.pickedAgentId = some profile.agentId ∧ x.2.refusalReason = none)
          fun _ _ => True) ∧
    (validateSingleProfileV1Run workOrder profile ≠ none →
      ∀ budget env,
        Ensures (Scheduler.decide coll workOrder .implementer workOrder.agent.excludeAgentIds
            budget none) env b
          (fun d _ => d.pickedAgentId = none ∧ d.refusalReason.isSome = true)
          fun _ _ => False) := by
  obtain ⟨entry, hlisted, rfl, hhealth⟩ := hb
  have hdecide : ∀ budget env b', b'.listed = [entry] →
      Ensures (Scheduler.decide coll workOrder .implementer workOrder.agent.excludeAgentIds budget
          none) env b'
        (fun d _ => Scheduler.Correct coll (implementerRequest workOrder) budget [entry] d)
        fun _ _ => False := fun budget env b' hb' =>
    hb' ▸ Scheduler.decide_correct coll (implementerRequest workOrder) budget env b'
  refine ⟨fun budget env hbudget => ?_, fun haccept core env hcore => ?_,
    fun hreject budget env => ?_⟩
  · refine (hdecide budget env b hlisted).mono (fun d _ hd => ?_) fun _ _ h => h
    obtain ⟨hpicks, hrefuses⟩ := correct_singleton hd hhealth
    refine ⟨fun haccept => (hpicks hbudget haccept).1, fun hpicked => ?_⟩
    by_contra hreject
    rw [(hrefuses hreject).1] at hpicked
    cases hpicked
  · have hstart : Unspent workOrder b ⟨core, b⟩ :=
      ⟨fun budget hbudget => absurd hbudget (by simp [hcore]), rfl⟩
    unfold firstDecision
    refine ensures_bind.mpr ((unspent_init env _ hstart).mono (fun _ w hw => ?_)
      fun _ _ _ => trivial)
    refine ensures_bind.mpr ((unspent_current env w hw.2).mono (fun budget w' hw' => ?_)
      fun _ _ _ => trivial)
    have hbudget : budget.status ≠ .exhausted := by
      rw [hw'.1]
      decide
    refine ensures_bind.mpr (ensures_onBackend.mpr
      ((hdecide budget env w'.backend (hw'.2.2.trans hlisted)).mono (fun d _ hd => ?_)
        fun _ _ h => h.elim))
    exact (correct_singleton hd hhealth).1 hbudget haccept
  · exact (hdecide budget env b hlisted).mono
      (fun d _ hd => (correct_singleton hd hhealth).2 hreject) fun _ _ h => h

end precheck

end RunWorkOrderV1

namespace Sample

theorem alice_ne_empty : "alice" ≠ "" := by decide

/-- The agent of a run with one profile. -/
def alice : InternalEntry := agent "alice" alice_ne_empty .implementer

def aliceOnly : Table InternalEntry.agentId := ⟨[alice], List.nodup_singleton _⟩

theorem holdsOnly_alice : RunWorkOrderV1.HoldsOnly (backendWith aliceOnly []) alice.profile :=
  ⟨_, rfl, rfl, rfl⟩

end Sample

namespace RunWorkOrderV1

theorem validateSingleProfileV1Run_iff_alice :
    Ensures (Scheduler.decide Sample.coll Sample.workOrder .implementer
        Sample.workOrder.agent.excludeAgentIds Sample.unspent none) Sample.env
        (Sample.backendWith Sample.aliceOnly [])
      (fun d _ => validateSingleProfileV1Run Sample.workOrder Sample.alice.profile = none ↔
        d.pickedAgentId = some "alice")
      fun _ _ => False :=
  (validateSingleProfileV1Run_iff Sample.coll Sample.workOrder _ _ Sample.holdsOnly_alice).1
    Sample.unspent Sample.env (by decide)

end RunWorkOrderV1

end AgentWorkflow
