import AgentWorkflow.Storage.QueueStore

/-!
# The task queue

`DefaultTaskQueue` of `queue/task-queue.ts`: the queue store behind a cache of work orders.

* `enqueue` — insert a queued row and cache its work order.
* `claim` — the lease of the row that will be claimed, then the store's claim.
* **`getWorkOrder` prefers the cache**, `addWorkOrderExcludeAgentIds` refreshes it: in the instance
  that makes the call.
* The other operations are the store's.
-/

namespace AgentWorkflow

open Fallible

namespace TaskQueue

/-- Source: `task-queue.ts` `defaultLeaseDurationSeconds`. -/
def defaultLeaseDurationSeconds (workOrder : ParsedWorkOrderV1) : ℚ :=
  min 3600 (workOrder.budget.maxWallTimeMinutes * 60 + 60)

/-- The row of a task when it is enqueued. -/
def enqueuedEntry (workOrder : ParsedWorkOrderV1) (nextRole : Role) (ts : ℕ) :
    TaskQueueEntry where
  taskId := workOrder.taskId
  projectId := workOrder.projectId
  status := .queued
  nextRole := nextRole
  currentOwnerRunId := none
  leaseExpiresAt := none
  attempts := 0
  enqueuedAt := ts
  updatedAt := ts

/-- Source: `task-queue.ts` `enqueue`. -/
def enqueue (queueId : String) (workOrder : ParsedWorkOrderV1) (nextRole : Role) :
    WorldM TaskQueueEntry := do
  let ts ← onBackend dateNow
  let entry := enqueuedEntry workOrder nextRole ts
  QueueStore.insert entry workOrder.toJson
  modifyCore fun c => c.cache workOrder.taskId workOrder
  record queueId (.enqueued workOrder nextRole)
  pure entry

/-- Whether an entry is passed over when looking for the row to claim. -/
def skipped (now : ℕ) (entry : TaskQueueEntry) : Bool :=
  entry.status ≠ .queued ∨
    (entry.currentOwnerRunId ≠ none ∧ (entry.leaseExpiresAt = none ∨
      entry.leaseExpiresAt.any (now ≤ ·)))

/-- Source: `task-queue.ts` `computeDefaultLeaseForNextClaimable`. -/
def computeDefaultLeaseForNextClaimable : WorldM ℚ := do
  let all ← QueueStore.listAll
  let now ← onBackend dateNow
  match all.find? fun entry => !skipped now entry with
  | none => pure 3600
  | some entry => do
    let c ← getCore
    match c.cached entry.taskId with
    | some workOrder => pure (defaultLeaseDurationSeconds workOrder)
    | none =>
      tryCatch (do
        let persisted ← QueueStore.getWorkOrder entry.taskId
        match persisted with
        | some workOrder => do
          modifyCore fun c => c.cache entry.taskId workOrder
          pure (defaultLeaseDurationSeconds workOrder)
        | none => pure 3600)
        fun _ => pure 3600

/-- Source: `task-queue.ts` `claim`, without an explicit lease, as the workers call it. -/
def claim (workerId : String) : WorldM (Option TaskQueueEntry) := do
  let leaseDuration ← computeDefaultLeaseForNextClaimable
  QueueStore.claim workerId leaseDuration

/-- Source: `task-queue.ts` `getWorkOrder`. -/
def getWorkOrder (taskId : String) : WorldM (Option ParsedWorkOrderV1) := do
  let c ← getCore
  match c.cached taskId with
  | some workOrder => pure (some workOrder)
  | none => do
    let persisted ← QueueStore.getWorkOrder taskId
    match persisted with
    | some workOrder => do
      modifyCore fun c => c.cache taskId workOrder
      pure (some workOrder)
    | none => pure none

/-- Source: `task-queue.ts` `addWorkOrderExcludeAgentIds`. -/
def addWorkOrderExcludeAgentIds (taskId : String) (agentIds : List String) :
    WorldM ParsedWorkOrderV1 := do
  let workOrder ← QueueStore.addWorkOrderExcludeAgentIds taskId agentIds
  modifyCore fun c => c.cache taskId workOrder
  pure workOrder

/-! ## What the operations do to the core -/

section specs

variable {env : Env} {c : Core} {taskId : String} {E : Err → Core → Prop}

theorem onCore_enqueue {queueId : String} {workOrder : ParsedWorkOrderV1} {nextRole : Role}
    {Q : TaskQueueEntry → Core → Prop}
    (hQ : ∀ ts q, c.taskQueue.insert
        ⟨enqueuedEntry workOrder nextRole ts, workOrder.toJson, none, none⟩ = some q →
      Q (enqueuedEntry workOrder nextRole ts)
        ((({ c with taskQueue := q } : Core).cache workOrder.taskId workOrder).note queueId
          (.enqueued workOrder nextRole)))
    (hE : ∀ e, E e c) : OnCore (enqueue queueId workOrder nextRole) env c Q E := by
  refine .bind (onCore_dateNow fun ts => ?_)
  refine .bind (QueueStore.onCore_insert (fun q hq => ?_) hE)
  exact .bind (onCore_modifyCore (.bind (onCore_record (.pure (hQ ts q hq)))))

/-- The core in which one more persisted work order may be cached. -/
def CachesPersisted (c c' : Core) : Prop :=
  c' = c ∨ ∃ t r w, c.row t = some r ∧ QueueStore.workOrderOf r = some w ∧
    c.cached t = none ∧ c' = c.cache t w

theorem onCore_computeDefaultLease {Q : ℚ → Core → Prop}
    (hQ : ∀ lease c', CachesPersisted c c' → Q lease c') (hE : ∀ e, E e c) :
    OnCore computeDefaultLeaseForNextClaimable env c Q E := by
  have hlist : ∀ {Q : List TaskQueueEntry → Core → Prop}, (∀ l, Q l c) →
      OnCore QueueStore.listAll env c Q E := fun hl =>
    .bind (onCore_storageCall (.bind (onCore_getCore (.pure (hl _)))) fun _ => hE)
  refine .bind (hlist fun all => ?_)
  refine .bind (onCore_dateNow fun now => ?_)
  split
  next => exact .pure (hQ _ _ (Or.inl rfl))
  next entry _ =>
    refine .bind (onCore_getCore ?_)
    split
    next => exact .pure (hQ _ _ (Or.inl rfl))
    next hcached =>
      refine .tryCatch (.bind (QueueStore.onCore_getWorkOrder (fun _ => ?_)
        (fun r w hr hw => ?_) fun _ => .pure (hQ _ _ (Or.inl rfl))))
      · exact .pure (hQ _ _ (Or.inl rfl))
      · exact .bind (onCore_modifyCore (.pure (hQ _ _ (Or.inr ⟨_, r, w, hr, hw, hcached, rfl⟩))))

/-- A claim may first cache the work order of the row it will claim. -/
theorem onCore_claim {workerId : String} {Q : Option TaskQueueEntry → Core → Prop}
    (hnone : ∀ c', CachesPersisted c c' → Q none c')
    (hsome : ∀ c' now leaseExpires row, CachesPersisted c c' →
      QueueStore.claimSelect c'.taskQueue.rows now = some row →
      Q (some (QueueStore.claimedRow workerId leaseExpires now row).toTaskQueueEntry)
        (c'.updateRow row.taskId (QueueStore.claimedRow workerId leaseExpires now)
          (QueueStore.key_claimedRow _ _ _)))
    (hE : ∀ e c', CachesPersisted c c' → E e c') : OnCore (claim workerId) env c Q E := by
  refine .bind (onCore_computeDefaultLease (fun lease c' hc' => ?_) fun e => hE e c (Or.inl rfl))
  exact QueueStore.onCore_claim (fun _ _ => hnone c' hc')
    (fun now leaseExpires row h => hsome c' now leaseExpires row hc' h) fun e => hE e c' hc'

/-- The cached work order, or else the persisted one, which is cached. -/
theorem onCore_getWorkOrder {Q : Option ParsedWorkOrderV1 → Core → Prop}
    (hcached : ∀ w, c.cached taskId = some w → Q (some w) c)
    (hnone : c.cached taskId = none → c.row taskId = none → Q none c)
    (hsome : ∀ r w, c.cached taskId = none → c.row taskId = some r →
      QueueStore.workOrderOf r = some w → Q (some w) (c.cache taskId w))
    (hE : ∀ e, E e c) : OnCore (getWorkOrder taskId) env c Q E := by
  refine .bind (onCore_getCore ?_)
  split
  next w h => exact .pure (hcached w h)
  next h =>
    refine .bind (QueueStore.onCore_getWorkOrder (fun hr => ?_) (fun r w hr hw => ?_) hE)
    · exact .pure (hnone h hr)
    · exact .bind (onCore_modifyCore (.pure (hsome r w h hr hw)))

/-- The exclude list of the row and of this instance's cached copy, extended alike. -/
theorem onCore_addWorkOrderExcludeAgentIds {agentIds : List String}
    {Q : ParsedWorkOrderV1 → Core → Prop}
    (hQ : ∀ r w u, c.row taskId = some r → QueueStore.workOrderOf r = some w →
      Q (w.withExcludeAgentIds (dedupeFirstSeen (w.agent.excludeAgentIds ++ agentIds)))
        ((c.updateRow taskId (QueueStore.withWorkOrderJson
            (rawWithExcludeAgentIds r.workorderJson
              (dedupeFirstSeen (w.agent.excludeAgentIds ++ agentIds))) u)
            (QueueStore.key_withWorkOrderJson _ _)).cache taskId
          (w.withExcludeAgentIds (dedupeFirstSeen (w.agent.excludeAgentIds ++ agentIds)))))
    (hE : ∀ e, E e c) : OnCore (addWorkOrderExcludeAgentIds taskId agentIds) env c Q E := by
  refine .bind (QueueStore.onCore_addWorkOrderExcludeAgentIds (fun r w u hr hw => ?_) hE)
  exact .bind (onCore_modifyCore (.pure (hQ r w u hr hw)))

end specs

end TaskQueue

end AgentWorkflow
