import AgentWorkflow.Queue.Worker

/-!
# Queues over one table

Several `DefaultTaskQueue` instances over one `task_queue`, each with a cache of its own, in calls of
any order, of which any may throw.

* `QueueCall` — the calls of the interface `TaskQueue`; `System.afterCall` — what one leaves.
* `Refits` — everything a call does to the work orders of the rows and to the caller's cache: a row
  keeps the budget of its work order, and what is cached anew is what the row says.
* **`System.cachesFit_of_calls`** — so every instance caches the budgets of the rows, whatever the
  table held when the instances were made.
-/

namespace AgentWorkflow

open Fallible

/-- A call of a queue. -/
inductive QueueCall
  | enqueue (workOrder : ParsedWorkOrderV1) (nextRole : Role)
  | claim (workerId : String)
  | claimFor (workerId : String) (leaseDurationSec : ℚ)
  | release (taskId : String) (patch : QueueStore.Patch)
  | get (taskId : String)
  | getWorkOrder (taskId : String)
  | addWorkOrderExcludeAgentIds (taskId : String) (agentIds : List String)
  | setReviewContext (taskId : String) (context : ReviewContextRecord)
  | getReviewContext (taskId : String)
  | setHandoffPacketUri (taskId : String) (uri : Option String)
  | getHandoffPacketUri (taskId : String)
  | list

/-- The call, without what it returns. -/
def QueueCall.run (queueId : String) : QueueCall → WorldM Unit
  | .enqueue workOrder nextRole => do
    let _ ← TaskQueue.enqueue queueId workOrder nextRole
  | .claim workerId => do
    let _ ← TaskQueue.claim workerId
  | .claimFor workerId leaseDurationSec => do
    let _ ← QueueStore.claim workerId leaseDurationSec
  | .release taskId patch => QueueStore.release taskId patch
  | .get taskId => do
    let _ ← QueueStore.get taskId
  | .getWorkOrder taskId => do
    let _ ← TaskQueue.getWorkOrder taskId
  | .addWorkOrderExcludeAgentIds taskId agentIds => do
    let _ ← TaskQueue.addWorkOrderExcludeAgentIds taskId agentIds
  | .setReviewContext taskId context => QueueStore.setReviewContext taskId context
  | .getReviewContext taskId => do
    let _ ← QueueStore.getReviewContext taskId
  | .setHandoffPacketUri taskId uri => QueueStore.setHandoffPacketUri taskId uri
  | .getHandoffPacketUri taskId => do
    let _ ← QueueStore.getHandoffPacketUri taskId
  | .list => do
    let _ ← QueueStore.listAll

namespace System

/-- The system after an instance has made a call, whether it returned or threw. -/
def afterCall (s : System) (q : String) (env : Env) (call : QueueCall) : System :=
  match call.run q env (s.load q) with
  | .ok _ w => s.store q w
  | .error _ w => s.store q w

/-- The system after calls of instances, each with its surroundings. -/
def afterCalls (s : System) (cs : List (String × Env × QueueCall)) : System :=
  cs.foldl (fun s c => s.afterCall c.1 c.2.1 c.2.2) s

/-- A call is specified by what it does to the core. -/
theorem afterCall_core {s : System} {q : String} {env : Env} {call : QueueCall}
    {P : Core → Prop} (h : OnCore (call.run q) env (s.load q).core (fun _ c => P c) fun _ c => P c) :
    P ((s.afterCall q env call).load q).core := by
  unfold afterCall
  have hload : ∀ w : World, ((s.store q w).load q).core = w.core := fun w => by
    simp [load, store]
  cases hrun : call.run q env (s.load q) with
  | ok _ w =>
    rw [hload]
    exact h.of_ok hrun
  | error _ w =>
    rw [hload]
    exact h.of_error hrun

/-- What an instance sees after a call of another: the table, and its own cache. -/
theorem afterCall_core_of_ne {s : System} {q q' : String} {env : Env} {call : QueueCall}
    (h : q' ≠ q) : ((s.afterCall q env call).load q').core =
      { ((s.afterCall q env call).load q).core with
        workOrders := (s.load q').core.workOrders } := by
  unfold afterCall
  split <;> simp [load, store, Function.update_of_ne h]

end System

/-! ## Budgets in rows and caches -/

/-- The row of a task has a work order with the same budget. -/
def Core.Fits (c : Core) (t : String) (workOrder : ParsedWorkOrderV1) : Prop :=
  ∃ r persisted, c.row t = some r ∧ QueueStore.workOrderOf r = some persisted ∧
    persisted.budget = workOrder.budget

/-- An enqueued work order fits its row. -/
theorem Core.fits_insert {c : Core} {workOrder : ParsedWorkOrderV1} {nextRole : Role} {ts : ℕ}
    {taskQueue : Table TaskRow.key} (h : c.taskQueue.insert ⟨TaskQueue.enqueuedEntry workOrder
      nextRole ts, workOrder.toJson, none, none⟩ = some taskQueue) :
    ({ c with taskQueue := taskQueue } : Core).Fits workOrder.taskId workOrder :=
  ⟨_, workOrder, (Table.find?_insert h workOrder.taskId).trans (if_pos rfl),
    parse_toJson workOrder, rfl⟩

/-- What a call does to work orders: rows keep their budgets, and what is new in the cache is what
the row says. -/
structure Refits (c c' : Core) : Prop where
  rows : ∀ t workOrder, c.Fits t workOrder → c'.Fits t workOrder
  cached : ∀ t workOrder, c'.cached t = some workOrder →
    c.cached t = some workOrder ∨ c'.Fits t workOrder

namespace Refits

variable {c c' c'' : Core} {t : String}

theorem refl : Refits c c := ⟨fun _ _ h => h, fun _ _ h => Or.inl h⟩

theorem trans (h : Refits c c') (h' : Refits c' c'') : Refits c c'' where
  rows t workOrder hfits := h'.rows t workOrder (h.rows t workOrder hfits)
  cached t workOrder hcached := by
    rcases h'.cached t workOrder hcached with hcached | hfits
    · exact (h.cached t workOrder hcached).imp_right (h'.rows t workOrder)
    · exact Or.inr hfits

/-- An insert leaves the rows that are there. -/
theorem insert {r : TaskRow} {taskQueue : Table TaskRow.key}
    (h : c.taskQueue.insert r = some taskQueue) :
    Refits c ({ c with taskQueue := taskQueue } : Core) where
  rows k workOrder := by
    rintro ⟨r', w, hr', hw, hbudget⟩
    refine ⟨r', w, ?_, hw, hbudget⟩
    have hne : k ≠ r.key := by
      rintro rfl
      have hnone : c.row r.key = none := Table.find?_of_insert h
      rw [hnone] at hr'
      cases hr'
    exact ((Table.find?_insert h k).trans (if_neg hne)).trans hr'
  cached _ _ hcached := Or.inl hcached

/-- A write of a row that keeps the budget of its work order. -/
theorem updateRow {f : TaskRow → TaskRow} {hf : ∀ r, (f r).key = r.key}
    (hkeep : ∀ r w, c.row t = some r → QueueStore.workOrderOf r = some w →
      ∃ w', QueueStore.workOrderOf (f r) = some w' ∧ w'.budget = w.budget) :
    Refits c (c.updateRow t f hf) where
  rows k workOrder := by
    rintro ⟨r, w, hr, hw, hbudget⟩
    by_cases hk : k = t
    · subst hk
      obtain ⟨w', hw', hbudget'⟩ := hkeep r w hr hw
      exact ⟨f r, w', by rw [row_updateRow_self, hr]; rfl, hw', hbudget'.trans hbudget⟩
    · exact ⟨r, w, by rw [row_updateRow, if_neg hk, hr], hw, hbudget⟩
  cached k workOrder h := Or.inl h

/-- A work order that fits its row is cached. -/
theorem cache {w : ParsedWorkOrderV1} (h : c.Fits t w) : Refits c (c.cache t w) where
  rows _ _ h := h
  cached k workOrder hcached := by
    rw [cached_cache] at hcached
    split at hcached
    next hk =>
      cases hcached
      subst hk
      exact Or.inr h
    next => exact Or.inl hcached

/-- A persisted work order may be cached. -/
theorem cachesPersisted (h : TaskQueue.CachesPersisted c c') : Refits c c' := by
  rcases h with rfl | ⟨k, r, w, hr, hw, -, rfl⟩
  · exact refl
  · exact cache ⟨r, w, hr, hw, rfl⟩

end Refits

section calls

variable {c : Core} {env : Env} {q : String}

/-- A release writes no work order, whatever its patch. -/
theorem refits_release {t : String} {patch : QueueStore.Patch} :
    OnCore (QueueStore.release t patch) env c (fun _ c' => Refits c c') fun _ c' => Refits c c' := by
  have hwrite : ∀ (existing : TaskQueueEntry) u,
      Refits c (c.updateRow t (patch.apply existing u) (QueueStore.key_apply _ _ _)) :=
    fun _ _ => .updateRow fun r w _ hw => ⟨w, hw, rfl⟩
  refine .bind (QueueStore.onCore_get ?_ fun _ => .refl)
  split
  · exact onCore_throw .refl
  · split
    · exact onCore_throw .refl
    · have hrest : ∀ existing u, OnCore (do
          onBackend (storageCall .releaseTask)
          modifyCore fun c => c.updateRow t (patch.apply existing u) (QueueStore.key_apply _ _ _))
          env c (fun _ c' => Refits c c') fun _ c' => Refits c c' := fun existing u =>
        .bind (onCore_storageCall (onCore_modifyCore (hwrite existing u)) fun _ _ => .refl)
      split
      · exact .bind (.pure (hrest _ _))
      · exact .bind (onCore_dateNow fun _ => hrest _ _)

/-- **What a call does to work orders.** -/
theorem QueueCall.refits (call : QueueCall) :
    OnCore (call.run q) env c (fun _ c' => Refits c c') fun _ c' => Refits c c' := by
  cases call with
  | enqueue workOrder nextRole =>
    refine .bind (TaskQueue.onCore_enqueue (fun ts taskQueue hinsert => .pure ?_) fun _ => .refl)
    have hcache := (Refits.insert hinsert).trans (.cache (Core.fits_insert hinsert))
    exact hcache.trans ⟨fun _ _ h => h, fun _ _ h => Or.inl h⟩
  | claim workerId =>
    refine .bind (TaskQueue.onCore_claim (fun c' hc' => .pure (.cachesPersisted hc'))
      (fun c' now lease row hc' _ => .pure ?_) fun _ c' hc' => .cachesPersisted hc')
    exact (Refits.cachesPersisted hc').trans (.updateRow fun r w _ hw => ⟨w, hw, rfl⟩)
  | claimFor workerId lease =>
    refine .bind (QueueStore.onCore_claim (fun _ _ => .pure .refl)
      (fun now lease row _ => .pure ?_) fun _ => .refl)
    exact .updateRow fun r w _ hw => ⟨w, hw, rfl⟩
  | release t patch => exact refits_release
  | get t => exact .bind (QueueStore.onCore_get (.pure .refl) fun _ => .refl)
  | getWorkOrder t =>
    refine .bind (TaskQueue.onCore_getWorkOrder (fun _ _ => .pure .refl) (fun _ _ => .pure .refl)
      (fun r w _ hr hw => .pure (.cache ⟨r, w, hr, hw, rfl⟩)) fun _ => .refl)
  | addWorkOrderExcludeAgentIds t agentIds =>
    refine .bind (TaskQueue.onCore_addWorkOrderExcludeAgentIds (fun r w u hr hw => .pure ?_)
      fun _ => .refl)
    have hparse : QueueStore.workOrderOf (QueueStore.withWorkOrderJson _ u r) = some _ :=
      parse_withExcludeAgentIds hw (dedupeFirstSeen (w.agent.excludeAgentIds ++ agentIds))
    refine Refits.trans (.updateRow fun r' w' hr' hw' => ?_) (.cache ⟨_, _, ?_, hparse, rfl⟩)
    · obtain rfl : r = r' := Option.some.inj (hr.symm.trans hr')
      obtain rfl : w = w' := Option.some.inj (hw.symm.trans hw')
      exact ⟨_, hparse, rfl⟩
    · rw [row_updateRow_self, hr]
      rfl
  | setReviewContext t context =>
    exact QueueStore.onCore_setReviewContext (fun r u _ => .updateRow fun r w _ hw => ⟨w, hw, rfl⟩)
      fun _ => .refl
  | getReviewContext t =>
    exact .bind (QueueStore.onCore_getReviewContext (.pure .refl) fun _ => .refl)
  | setHandoffPacketUri t uri =>
    exact QueueStore.onCore_setHandoffPacketUri
      (fun r u _ => .updateRow fun r w _ hw => ⟨w, hw, rfl⟩) fun _ => .refl
  | getHandoffPacketUri t =>
    exact .bind (QueueStore.onCore_getHandoffPacketUri (fun _ => .pure .refl) fun _ => .refl)
  | list =>
    exact .bind (.bind (onCore_storageCall (.bind (onCore_getCore (.pure (.pure .refl))))
      fun _ _ => .refl))

end calls

/-! ## Runs -/

namespace System

variable {s : System}

/-- Every instance caches the budgets of the rows. -/
def CachesFit (s : System) : Prop :=
  ∀ q t workOrder, (s.load q).core.cached t = some workOrder → (s.load q).core.Fits t workOrder

theorem cachesFit_afterCall (h : s.CachesFit) (q : String) (env : Env) (call : QueueCall) :
    (s.afterCall q env call).CachesFit := by
  have hrefits : Refits (s.load q).core ((s.afterCall q env call).load q).core :=
    afterCall_core call.refits
  intro q' t workOrder hcached
  by_cases hq : q' = q
  · subst hq
    rcases hrefits.cached t workOrder hcached with hcached | hfits
    · exact hrefits.rows t workOrder (h q' t workOrder hcached)
    · exact hfits
  · rw [afterCall_core_of_ne hq] at hcached ⊢
    exact hrefits.rows t workOrder (h q' t workOrder hcached)

/-- **Whatever the table held when the instances were made, and whatever they have called since,
every instance caches the budgets of the rows.** -/
theorem cachesFit_of_calls (h : ∀ q, (s.memory q).workOrders = [])
    (cs : List (String × Env × QueueCall)) : (s.afterCalls cs).CachesFit := by
  have hstart : s.CachesFit := fun q t workOrder hcached => by
    have hnone : (s.load q).core.cached t = none := by
      show (s.memory q).workOrders.lookup t = none
      rw [h q]
      rfl
    rw [hnone] at hcached
    cases hcached
  exact (Run.foldl_iff.mpr rfl).invariant hstart fun _ c _ hstep hs =>
    hstep ▸ cachesFit_afterCall hs c.1 c.2.1 c.2.2

end System

end AgentWorkflow
