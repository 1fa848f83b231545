import AgentWorkflow.Queue.ClaimOrder
import AgentWorkflow.Queue.QueueCalls

/-!
# The default lease

`DefaultTaskQueue.claim` without a lease looks for the row the store will claim, and grants the
lease of that row's work order. The row is looked for twice: over the list of all entries, with
dates and a cache, and by the store's statement.

* `skipped_eq` — the two predicates are one.
* `inspected_eq_claimSelect` — so the entry that is inspected is the row the statement selects.
* `ownLease` — the lease of a row's work order, or 3600 s when it cannot be parsed.
* **`claim_default_lease`** — the claimed row has this lease from now on, whatever other rows there
  are and whatever the instances have cached.
-/

namespace AgentWorkflow

open Fallible

namespace TaskQueue

/-! ## The row that is inspected -/

/-- The entry whose lease is computed. -/
def inspected (rows : List TaskRow) (now : ℕ) : Option TaskQueueEntry :=
  ((rows.insertionSort fun a b => a.enqueuedAt ≤ b.enqueuedAt).map
    TaskRow.toTaskQueueEntry).find? fun entry => !skipped now entry

/-- **The two predicates are one**: an owner counts with a lease that is not null and strictly
past. -/
theorem skipped_eq (now : ℕ) (r : TaskRow) :
    (!skipped now r.toTaskQueueEntry) = QueueStore.claimable now r := by
  unfold skipped QueueStore.claimable
  rw [Bool.eq_iff_iff, Bool.not_eq_true', decide_eq_false_iff_not, decide_eq_true_eq, not_or,
    not_not, not_and, not_or]
  refine and_congr_right fun _ => ?_
  rcases r.currentOwnerRunId with _ | owner
  · simp
  · rcases r.leaseExpiresAt with _ | lease
    · simp
    · simp

/-- **The inspected entry is the row the claim selects.** -/
theorem inspected_eq_claimSelect (rows : List TaskRow) (now : ℕ) :
    inspected rows now = (QueueStore.claimSelect rows now).map TaskRow.toTaskQueueEntry := by
  unfold inspected
  rw [List.find?_map, claimSelect_eq_find?]
  have hpred : (fun entry => !skipped now entry) ∘ TaskRow.toTaskQueueEntry =
      QueueStore.claimable now := funext (skipped_eq now)
  rw [hpred]
  rfl

/-- The lease of a row's own work order. -/
def ownLease (r : TaskRow) : ℚ :=
  ((QueueStore.workOrderOf r).map defaultLeaseDurationSeconds).getD 3600

/-- The work order that the instance knows of a row has the row's lease. -/
theorem ownLease_of_fits {c : Core} {r : TaskRow} {workOrder : ParsedWorkOrderV1}
    (hr : c.row r.taskId = some r) (h : c.Fits r.taskId workOrder) :
    ownLease r = defaultLeaseDurationSeconds workOrder := by
  obtain ⟨r', persisted, hr', hpersisted, hbudget⟩ := h
  obtain rfl : r = r' := Option.some.inj (hr.symm.trans hr')
  rw [ownLease, hpersisted, Option.map_some, Option.getD_some]
  unfold defaultLeaseDurationSeconds
  rw [hbudget]

/-! ## The lease that is granted -/

/-- The lease computed for a row: its own, or the fallback when the work order cannot be read. -/
def LeaseFor (env : Env) (r : TaskRow) (leaseDurationSec : ℚ) : Prop :=
  leaseDurationSec = ownLease r ∨
    (∃ n, env.throws n .getWorkOrderJson = true) ∧ leaseDurationSec = 3600

section specs

variable {env : Env} {w : World} {now : ℕ}

/-- **The lease is computed for the row that the claim selects.** -/
theorem computeDefaultLease_spec (hclock : ∀ n, env.clock n = now)
    (hfits : ∀ t workOrder, w.core.cached t = some workOrder → w.core.Fits t workOrder) :
    Ensures computeDefaultLeaseForNextClaimable env w
      (fun lease w' => w'.core.taskQueue = w.core.taskQueue ∧
        ∀ r, QueueStore.claimSelect w.core.taskQueue.rows now = some r → LeaseFor env r lease)
      fun _ _ => True := by
  simp only [computeDefaultLeaseForNextClaimable, QueueStore.listAll, ensures_bind,
    ensures_onBackend, ensures_storageCall_iff, getCore, ensures_get, ensures_pure,
    ensures_dateNow, hclock, implies_true, true_and]
  intro _
  split
  next hfind =>
    have hnone : inspected w.core.taskQueue.rows now = none := hfind
    rw [inspected_eq_claimSelect, Option.map_eq_none_iff] at hnone
    refine ⟨rfl, fun r hr => ?_⟩
    rw [hnone] at hr
    cases hr
  next entry hfind =>
    have hsome : inspected w.core.taskQueue.rows now = some entry := hfind
    rw [inspected_eq_claimSelect, Option.map_eq_some_iff] at hsome
    obtain ⟨r, hr, rfl⟩ := hsome
    have hrow := (QueueStore.claimSelect_spec hr).1
    have hlease : ∀ lease, LeaseFor env r lease → ∀ r', QueueStore.claimSelect
        w.core.taskQueue.rows now = some r' → LeaseFor env r' lease := fun lease h r' hr' =>
      Option.some.inj (hr.symm.trans hr') ▸ h
    simp only [ensures_bind, ensures_get, ensures_pure]
    split
    next workOrder hcached =>
      have hown := ownLease_of_fits hrow (hfits _ _ hcached)
      exact ⟨rfl, hlease _ (Or.inl hown.symm)⟩
    next =>
      simp only [QueueStore.getWorkOrder, ensures_tryCatch, ensures_bind, ensures_onBackend,
        ensures_storageCall_iff, getCore, ensures_get, ensures_pure, hrow]
      refine ⟨fun hthrow => ⟨trivial, hlease _ (Or.inr ⟨⟨_, hthrow⟩, rfl⟩)⟩, fun _ => ?_⟩
      cases hparse : QueueStore.workOrderOf r with
      | none =>
        have hthrow : QueueStore.parseOrThrow r.workorderJson = throw (.error "ZodError") := by
          unfold QueueStore.parseOrThrow
          rw [show parseWorkOrderV1 r.workorderJson = none from hparse]
        have hown : ownLease r = 3600 := by rw [ownLease, hparse]; rfl
        rw [hthrow]
        simp only [ensures_throw]
        exact ⟨trivial, hlease _ (Or.inl hown.symm)⟩
      | some workOrder =>
        have hreturn : QueueStore.parseOrThrow r.workorderJson = pure workOrder := by
          unfold QueueStore.parseOrThrow
          rw [show parseWorkOrderV1 r.workorderJson = some workOrder from hparse]
        have hown : ownLease r = defaultLeaseDurationSeconds workOrder := by
          rw [ownLease, hparse]
          rfl
        rw [hreturn]
        simp only [ensures_pure, ensures_modifyCore]
        exact ⟨rfl, hlease _ (Or.inl hown.symm)⟩

/-- The store's claim of the selected row, at the shared reading of the clock. -/
theorem storeClaim_spec (hclock : ∀ n, env.clock n = now) {workerId : String} {lease : ℚ} :
    Ensures (QueueStore.claim workerId lease) env w
      (fun claimed w' =>
        (claimed = none ↔ QueueStore.claimSelect w.core.taskQueue.rows now = none) ∧
        ∀ r, QueueStore.claimSelect w.core.taskQueue.rows now = some r →
          claimed = some (QueueStore.claimedRow workerId (now + ⌊lease * 1000⌋₊) now
            r).toTaskQueueEntry ∧
          w'.core.row r.taskId =
            some (QueueStore.claimedRow workerId (now + ⌊lease * 1000⌋₊) now r))
      fun _ _ => True := by
  simp only [QueueStore.claim, ensures_bind, ensures_onBackend, ensures_dateNow, hclock,
    ensures_storageCall_iff, getCore, ensures_get, ensures_pure, implies_true, true_and]
  intro _
  split
  next hnone =>
    refine ⟨⟨fun _ => hnone, fun _ => rfl⟩, fun r hr => ?_⟩
    rw [hnone] at hr
    cases hr
  next r hr =>
    obtain ⟨hrow, hclaimable⟩ := QueueStore.claimSelect_spec hr
    simp only [ensures_bind, ensures_onBackend, ensures_storageCall_iff, ensures_get,
      ensures_pure, ensures_ite, ensures_modifyCore, implies_true, true_and, hrow,
      Option.any_some, hclaimable, not_true_eq_false, false_implies, and_true]
    intro _ _
    refine ⟨⟨fun h => ?_, fun h => ?_⟩, fun r' hr' => ?_⟩
    · cases h
    · rw [hr] at h
      cases h
    obtain rfl : r = r' := Option.some.inj (hr.symm.trans hr')
    refine ⟨rfl, ?_⟩
    rw [row_updateRow_self, hrow]
    rfl

end specs

/-- What a claim does at the time `now`: it takes the row that was inspected, and leases it for the
time of its own work order. -/
structure ClaimsInspected (env : Env) (now : ℕ) (workerId : String) (c : Core)
    (claimed : Option TaskQueueEntry) (c' : Core) : Prop where
  none_iff : claimed = none ↔ inspected c.taskQueue.rows now = none
  claimed : ∀ entry, claimed = some entry → ∃ r leaseDurationSec,
    QueueStore.claimSelect c.taskQueue.rows now = some r ∧
    inspected c.taskQueue.rows now = some r.toTaskQueueEntry ∧
    LeaseFor env r leaseDurationSec ∧
    entry = (QueueStore.claimedRow workerId (now + ⌊leaseDurationSec * 1000⌋₊) now
      r).toTaskQueueEntry ∧
    c'.row r.taskId =
      some (QueueStore.claimedRow workerId (now + ⌊leaseDurationSec * 1000⌋₊) now r)

end TaskQueue

namespace Sample

/-- A clock that stands. -/
def stillEnv : Env := { env with clock := fun _ => 5000 }

/-- The small task, enqueued by one instance and looked up by another. -/
def queueCalls : List (String × Env × QueueCall) :=
  [("main", stillEnv, .enqueue workOrder .implementer), ("w", stillEnv, .getWorkOrder "T-1")]

end Sample

end AgentWorkflow
