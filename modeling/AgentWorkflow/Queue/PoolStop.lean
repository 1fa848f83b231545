import AgentWorkflow.Queue.PoolTasks

/-!
# Stopping a pool

What holds of a pool whose `stop` has been called, over every content of the queue and every
interleaving.

* `Orderly` — the runs in which `stop` does what it says: it is not called while an earlier call is
  on its way, the pool is not started after it, and no loop goes on between the call and its first
  continuation.
* `Control` — **a call of `stop` past its first `await` has told every worker, and a resolved one
  has seen every loop end.** `Control.step`.
* `not_claim_of_stops` — so no worker claims.
* **`stop_holds`** — and no task is left with the pool. **`stop_fails`**: runs that are not orderly.
-/

namespace AgentWorkflow

namespace DefaultWorkerPool

variable {services : HandlerServices} {s₀ s s' : DefaultWorkerPool} {l : PoolLabel}

/-! ## Orderly runs -/

/-- When a step is orderly: the pool is not started after a call of `stop`, which is not called
while an earlier call is on its way, and no loop goes on before a call that is at its first
`await`. -/
def Orderly (s : DefaultWorkerPool) : PoolLabel → Prop
  | .start .. => s.started = true ∨ s.stops = []
  | .stop _ => ∀ call ∈ s.stops, call.pc = .resolved
  | .claim .. | .handle .. | .settle .. | .release .. | .wake _ | .quit _ =>
    ∀ call ∈ s.stops, call.pc ≠ .called
  | .enqueue .. | .cleanUp | .resume _ | .expire .. | .resolve _ => True

instance decidableOrderly (s : DefaultWorkerPool) : (l : PoolLabel) → Decidable (s.Orderly l)
  | .start .. => inferInstanceAs (Decidable (s.started = true ∨ s.stops = []))
  | .stop _ => inferInstanceAs (Decidable (∀ call ∈ s.stops, call.pc = .resolved))
  | .claim .. | .handle .. | .settle .. | .release .. | .wake _ | .quit _ =>
    inferInstanceAs (Decidable (∀ call ∈ s.stops, call.pc ≠ .called))
  | .enqueue .. | .cleanUp | .resume _ | .expire .. | .resolve _ => inferInstanceAs (Decidable True)

/-- No storage call of the catch path's release throws. -/
def Releases (l : PoolLabel) : Prop := ∀ w env, l = .release w env → env.Faultless

/-! ## Calls of `stop` -/

section stops

variable {k : ℕ} {call : StopCall} {pc : StopPc}

@[simp] theorem stops_setStop : (s.setStop k pc).stops.length = s.stops.length :=
  List.length_modify ..

/-- The calls after one of them has gone on. -/
theorem getElem?_setStop {i : ℕ} (h : (s.setStop k pc).stops[i]? = some call) :
    (i ≠ k ∧ s.stops[i]? = some call) ∨
      i = k ∧ call.pc = pc ∧ ∃ call', s.stops[k]? = some call' := by
  unfold setStop at h
  rw [List.getElem?_modify] at h
  by_cases hi : k = i
  · subst hi
    simp only [↓reduceIte] at h
    obtain ⟨call', hcall', rfl⟩ := Option.map_eq_some_iff.mp h
    exact Or.inr ⟨rfl, rfl, call', hcall'⟩
  · simp only [if_neg hi, id_map'] at h
    exact Or.inl ⟨Ne.symm hi, h⟩

theorem mem_setStop (h : call ∈ (s.setStop k pc).stops) : call ∈ s.stops ∨ call.pc = pc := by
  obtain ⟨i, hi⟩ := List.mem_iff_getElem?.mp h
  rcases getElem?_setStop hi with ⟨-, hi⟩ | ⟨-, hpc, -⟩
  · exact Or.inl (List.mem_of_getElem? hi)
  · exact Or.inr hpc

end stops

/-! ## The flags -/

/-- What the flags of a pool and of its workers say about each other. -/
structure Control (s : DefaultWorkerPool) : Prop where
  member : ∀ w, (s.worker w).loop ≠ .unstarted → w ∈ s.workers
  running : ∀ w, (s.worker w).running = false →
    (s.worker w).loop = .unstarted ∨ (s.worker w).loop = .ended
  fresh : s.started = false → s.workers = []
  /-- A call past its first `await` has told the workers. -/
  requested : (∃ call ∈ s.stops, call.pc ≠ .called) → ∀ w ∈ s.workers,
    (s.worker w).stopRequested = true
  /-- A resolved call has seen the loops end. -/
  ended : (∃ call ∈ s.stops, call.pc = .resolved) → ∀ w,
    (s.worker w).loop = .unstarted ∨ (s.worker w).loop = .ended
  /-- Only the last call is on its way. -/
  last : ∀ i call, s.stops[i]? = some call → i + 1 < s.stops.length → call.pc = .resolved
  stopped : s.stopped = true → ∃ call ∈ s.stops, call.pc ≠ .called

theorem Initial.control (h : s.Initial) : Control s where
  member w hw := by
    rw [h.worker w] at hw
    exact absurd rfl hw
  running w _ := by
    rw [h.worker w]
    exact Or.inl rfl
  fresh _ := h.workers
  requested := by
    rintro ⟨call, hcall, -⟩
    rw [h.stops] at hcall
    cases hcall
  ended := by
    rintro ⟨call, hcall, -⟩
    rw [h.stops] at hcall
    cases hcall
  last i call hi := by
    rw [h.stops] at hi
    cases hi
  stopped hs := by
    rw [h.stopped] at hs
    cases hs

section control

variable {w : String} {k : ℕ}

/-- Before the pool is started, no loop runs. -/
theorem Control.unstarted (h : Control s) (hs : s.started = false) :
    (s.worker w).loop = .unstarted := by
  by_contra hne
  have hmem := h.member w hne
  rw [h.fresh hs] at hmem
  cases hmem

/-- A loop goes on. -/
theorem Control.loopStep (h : Control s) (hstep : LoopStep w s s') : Control s' where
  member x hx := by
    rw [hstep.workers]
    by_cases hxw : x = w
    · subst hxw
      exact h.member x hstep.active.1
    · exact h.member x (hstep.others x hxw ▸ hx)
  running x hx := by
    by_cases hxw : x = w
    · subst hxw
      rcases hstep.running with hrunning | hended
      · rw [hrunning] at hx
        rcases h.running x hx with hpc | hpc
        · exact absurd hpc hstep.active.1
        · exact absurd hpc hstep.active.2
      · exact Or.inr hended
    · rw [hstep.others x hxw] at hx ⊢
      exact h.running x hx
  fresh hs := by
    rw [hstep.workers]
    exact h.fresh (hstep.started ▸ hs)
  requested hcall x hx := by
    rw [hstep.stops] at hcall
    rw [hstep.workers] at hx
    by_cases hxw : x = w
    · subst hxw
      rw [hstep.requested]
      exact h.requested hcall x hx
    · rw [hstep.others x hxw]
      exact h.requested hcall x hx
  ended hcall := by
    rw [hstep.stops] at hcall
    rcases h.ended hcall w with hpc | hpc
    · exact absurd hpc hstep.active.1
    · exact absurd hpc hstep.active.2
  last := by
    rw [hstep.stops]
    exact h.last
  stopped hs := by
    rw [hstep.stops]
    exact h.stopped (hstep.stopped ▸ hs)

/-- A step that leaves the loops, and takes no request back. -/
theorem Control.of_same (h : Control s) (hstops : s'.stops = s.stops)
    (hworkers : s'.workers = s.workers) (hstarted : s'.started = s.started)
    (hstopped : s'.stopped = s.stopped) (hloop : ∀ x, (s'.worker x).loop = (s.worker x).loop)
    (hrunning : ∀ x, (s'.worker x).running = (s.worker x).running)
    (hrequested : ∀ x, (s.worker x).stopRequested = true → (s'.worker x).stopRequested = true) :
    Control s' where
  member x hx := by
    rw [hloop] at hx
    rw [hworkers]
    exact h.member x hx
  running x hx := by
    rw [hrunning] at hx
    rw [hloop]
    exact h.running x hx
  fresh hs := by
    rw [hworkers]
    exact h.fresh (hstarted ▸ hs)
  requested hcall x hx := hrequested x (h.requested (hstops ▸ hcall) x (hworkers ▸ hx))
  ended hcall x := by
    rw [hloop]
    exact h.ended (hstops ▸ hcall) x
  last := by
    rw [hstops]
    exact h.last
  stopped hs := by
    rw [hstops]
    exact h.stopped (hstopped ▸ hs)

/-- The pool is started. -/
theorem Control.start (h : Control s) {ids : List String} {created : ℕ}
    (hstops : s.started = true ∨ s.stops = []) : Control (s.start ids created) := by
  unfold DefaultWorkerPool.start
  split
  · exact h
  next hstarted =>
    have hnone := Or.resolve_left hstops hstarted
    have hfresh : s.started = false := by simpa using hstarted
    have hno : ∀ {P : StopCall → Prop}, ¬ ∃ call ∈ s.stops, P call := by
      rintro P ⟨call, hcall, -⟩
      rw [hnone] at hcall
      cases hcall
    split
    · exact h
    split
    · -- nothing has been started
      have hloop : ∀ w, (if w ∈ ids.take created then DefaultWorker.new else s.worker w).loop =
          .unstarted := fun w => by
        split
        · rfl
        · exact h.unstarted hfresh
      exact ⟨fun w hw => absurd (hloop w) hw, fun w _ => Or.inl (hloop w), nofun,
        fun hcall => absurd hcall hno, fun hcall => absurd hcall hno, h.last, h.stopped⟩
    · refine ⟨fun w hw => ?_, fun w hw => ?_, nofun, fun hcall => absurd hcall hno,
        fun hcall => absurd hcall hno, h.last, h.stopped⟩
      · dsimp only at hw
        split at hw
        next hmem => exact List.mem_append_right _ hmem
        next => exact absurd (h.unstarted hfresh) hw
      · dsimp only at hw ⊢
        split at hw
        · cases hw
        next hmem =>
          rw [if_neg hmem]
          exact Or.inl (h.unstarted hfresh)

/-- A call of `stop`. -/
theorem Control.stop (h : Control s) {graceMs : Option ℚ}
    (hresolved : ∀ call ∈ s.stops, call.pc = .resolved) :
    Control { s with stops := s.stops ++ [⟨graceMs, .called⟩] } := by
  have hold : ∀ call ∈ s.stops ++ [⟨graceMs, .called⟩], call.pc ≠ .called → call ∈ s.stops := by
    intro call hcall hpc
    rcases List.mem_append.mp hcall with hcall | hcall
    · exact hcall
    · rw [List.mem_singleton.mp hcall] at hpc
      exact absurd rfl hpc
  refine ⟨h.member, h.running, h.fresh, ?_, ?_, fun i call hi hlt => ?_, fun hs => ?_⟩
  · rintro ⟨call, hcall, hpc⟩
    exact h.requested ⟨call, hold call hcall hpc, hpc⟩
  · rintro ⟨call, hcall, hpc⟩
    exact h.ended ⟨call, hold call hcall (by rw [hpc]; nofun), hpc⟩
  · have hlt : i < s.stops.length := by
      rw [List.length_append, List.length_singleton] at hlt
      omega
    rw [List.getElem?_append_left hlt] at hi
    exact hresolved call (List.mem_of_getElem? hi)
  · obtain ⟨call, hcall, hpc⟩ := h.stopped hs
    exact ⟨call, List.mem_append_left _ hcall, hpc⟩

/-- The call at `k` is the last one, if it has not resolved. -/
theorem Control.last_setStop (h : Control s) {call : StopCall} {pc : StopPc}
    (hk : s.stops[k]? = some call) (hpc : call.pc ≠ .resolved) :
    ∀ i call, (s.setStop k pc).stops[i]? = some call → i + 1 < (s.setStop k pc).stops.length →
      call.pc = .resolved := by
  intro i call' hi hlt
  rw [stops_setStop] at hlt
  rcases getElem?_setStop hi with ⟨-, hi⟩ | ⟨rfl, -, -⟩
  · exact h.last i call' hi hlt
  · exact absurd (h.last i call hk hlt) hpc

/-- A call that has gone on is past its first `await`. -/
theorem exists_setStop {call : StopCall} {pc : StopPc} (hk : s.stops[k]? = some call)
    (hpc : pc ≠ .called) : ∃ call ∈ (s.setStop k pc).stops, call.pc ≠ .called := by
  refine ⟨{ call with pc }, ?_, hpc⟩
  refine List.mem_of_getElem? (i := k) ?_
  unfold setStop
  simp only [List.getElem?_modify, hk, ↓reduceIte]
  rfl

theorem loop_stopWorkers (w : String) :
    (s.stopWorkers.worker w).loop = (s.worker w).loop := by
  unfold stopWorkers
  dsimp only
  split
  · rfl
  · rfl

theorem running_stopWorkers (w : String) :
    (s.stopWorkers.worker w).running = (s.worker w).running := by
  unfold stopWorkers
  dsimp only
  split
  · rfl
  · rfl

theorem requested_stopWorkers (w : String) (h : (s.worker w).stopRequested = true) :
    (s.stopWorkers.worker w).stopRequested = true := by
  unfold stopWorkers
  dsimp only
  split
  · rfl
  · exact h

/-- A call of `stop` goes on after its first `await`. -/
theorem Control.resume (h : Control s) {graceMs : Option ℚ}
    (hk : s.stops[k]? = some ⟨graceMs, .called⟩) : Control (s.resume k graceMs) := by
  unfold DefaultWorkerPool.resume
  split
  next hs =>
    -- an earlier call has stopped the pool, and has resolved
    obtain ⟨call, hcall, hpc⟩ := h.stopped hs
    obtain ⟨i, hi⟩ := List.mem_iff_getElem?.mp hcall
    have hresolved : call.pc = .resolved := by
      refine h.last i call hi ?_
      have hik : i ≠ k := fun hik => by
        rw [hik, hk] at hi
        cases hi
        exact hpc rfl
      have hlt : i < s.stops.length := (List.getElem?_eq_some_iff.mp hi).1
      by_contra hge
      have hklt : k < s.stops.length := (List.getElem?_eq_some_iff.mp hk).1
      have hlast := h.last k _ hk (by omega)
      cases hlast
    exact ⟨h.member, h.running, h.fresh, fun _ => h.requested ⟨call, hcall, hpc⟩,
      fun _ => h.ended ⟨call, hcall, hresolved⟩, h.last_setStop hk nofun,
      fun _ => exists_setStop hk nofun⟩
  next =>
    have htold : ∀ w ∈ s.workers, (s.stopWorkers.worker w).stopRequested = true := fun w hw =>
      congrArg DefaultWorker.stopRequested (if_pos hw)
    have hsame : Control { s.stopWorkers with stopped := s.stopped } :=
      h.of_same rfl rfl rfl rfl loop_stopWorkers running_stopWorkers requested_stopWorkers
    refine ⟨hsame.member, hsame.running, h.fresh, fun _ => htold, ?_, h.last_setStop hk nofun,
      fun _ => exists_setStop hk nofun⟩
    rintro ⟨call, hcall, hpc⟩
    rcases mem_setStop hcall with hcall | hnew
    · exact hsame.ended ⟨call, hcall, hpc⟩
    · rw [hpc] at hnew
      cases hnew

/-- The call at `k` goes from one place to another while the workers stop. -/
theorem Control.setStop (h : Control s) {call : StopCall} {pc : StopPc}
    (hk : s.stops[k]? = some call) (hcall : call.pc ≠ .called) (hpc : call.pc ≠ .resolved)
    (hnew : pc ≠ .called)
    (hended : pc = .resolved → ∀ w, (s.worker w).loop = .unstarted ∨ (s.worker w).loop = .ended) :
    Control (s.setStop k pc) := by
  refine ⟨h.member, h.running, h.fresh, fun _ => h.requested ?_, ?_, h.last_setStop hk hpc,
    fun _ => exists_setStop hk hnew⟩
  · exact ⟨call, List.mem_of_getElem? hk, hcall⟩
  · rintro ⟨call', hcall', hresolved⟩
    rcases mem_setStop hcall' with hold | hgone
    · exact h.ended ⟨call', hold, hresolved⟩
    · exact hended (hgone ▸ hresolved)

/-- The workers of a call of `stop` have stopped. -/
theorem Control.resolve (h : Control s) {call : StopCall} (hk : s.stops[k]? = some call)
    (hcall : call.pc ≠ .called) (hpc : call.pc ≠ .resolved)
    (hstopped : ∀ w ∈ s.workers, (s.worker w).running = false) :
    Control (s.setStop k .resolved) := by
  refine h.setStop hk hcall hpc nofun fun _ w => ?_
  by_cases hw : (s.worker w).loop = .unstarted
  · exact Or.inl hw
  · exact h.running w (hstopped w (h.member w hw))

/-- A worker changes, and its loop does not. -/
theorem Control.set (h : Control s) {x : DefaultWorker} (hloop : x.loop = (s.worker w).loop)
    (hrunning : x.running = (s.worker w).running)
    (hrequested : (s.worker w).stopRequested = true → x.stopRequested = true) :
    Control (s.set w x) := by
  refine h.of_same rfl rfl rfl rfl (fun y => ?_) (fun y => ?_) fun y hy => ?_ <;>
    by_cases hyw : y = w
  · subst hyw
    rwa [worker_set_self]
  · rw [worker_set_of_ne hyw]
  · subst hyw
    rwa [worker_set_self]
  · rw [worker_set_of_ne hyw]
  · subst hyw
    rw [worker_set_self]
    exact hrequested hy
  · rwa [worker_set_of_ne hyw]

/-- **Every orderly step keeps the control.** -/
theorem Control.step (h : Control s) (hl : Orderly s l) (hstep : Step services s l s') :
    Control s' := by
  by_cases hloop : l.isLoop = true
  · obtain ⟨w, hw⟩ := loopStep_of_isLoop hstep hloop
    exact h.loopStep hw
  cases l with
  | enqueue queueId workOrder nextRole env =>
    obtain ⟨system, -, rfl⟩ := Option.map_eq_some_iff.mp hstep
    exact h.of_same rfl rfl rfl rfl (fun _ => rfl) (fun _ => rfl) fun _ hx => hx
  | start ids created =>
    cases hstep
    exact h.start hl
  | cleanUp =>
    simp only [Step, DefaultWorkerPool.step] at hstep
    split at hstep
    · cases hstep
    next w rest hcleanup =>
      cases hstep
      have hset : Control (s.set w (s.worker w).stop) := h.set rfl rfl fun _ => rfl
      exact hset.of_same rfl rfl rfl rfl (fun _ => rfl) (fun _ => rfl) fun _ hx => hx
  | stop graceMs =>
    cases hstep
    exact h.stop hl
  | resume k =>
    simp only [Step, DefaultWorkerPool.step] at hstep
    split at hstep
    next graceMs hk =>
      obtain ⟨-, hs⟩ := Option.ite_none_right_eq_some.mp hstep
      cases hs
      exact h.resume hk
    · cases hstep
  | expire k w =>
    simp only [Step, DefaultWorkerPool.step] at hstep
    split at hstep
    next graceMs graces hk =>
      obtain ⟨-, hs⟩ := Option.ite_none_right_eq_some.mp hstep
      cases hs
      have hset : Control (s.set w (s.worker w).abort) := h.set rfl rfl fun hx => hx
      exact hset.setStop hk (by simp) (by simp) (by simp) (by simp)
    · cases hstep
  | resolve k =>
    simp only [Step, DefaultWorkerPool.step] at hstep
    split at hstep
    next graceMs graces hk =>
      obtain ⟨hstopped, hs⟩ := Option.ite_none_right_eq_some.mp hstep
      cases hs
      exact h.resolve hk (by simp) (by simp) hstopped
    · cases hstep
  | _ => exact absurd rfl hloop

/-- **After a call of `stop` no worker claims.** -/
theorem Control.not_claim (h : Control s) (hl : Orderly s l) (hstep : Step services s l s')
    (hstops : s.stops ≠ []) : l.isClaim = false := by
  cases l with
  | claim w env =>
    obtain ⟨⟨hhead, hrequested⟩, -⟩ := Option.ite_none_right_eq_some.mp hstep
    obtain ⟨call, hcall⟩ := List.exists_mem_of_ne_nil _ hstops
    have htold := h.requested ⟨call, hcall, hl call hcall⟩ w
      (h.member w (by rw [hhead]; nofun))
    rw [hrequested] at htold
    cases htold
  | _ => rfl

end control

/-- The calls of `stop` are kept. -/
theorem stops_of_step (hstep : Step services s l s') : s.stops.length ≤ s'.stops.length := by
  by_cases hloop : l.isLoop = true
  · obtain ⟨w, hw⟩ := loopStep_of_isLoop hstep hloop
    rw [hw.stops]
  cases l with
  | enqueue queueId workOrder nextRole env =>
    obtain ⟨system, -, rfl⟩ := Option.map_eq_some_iff.mp hstep
    exact le_rfl
  | start ids created =>
    cases hstep
    unfold DefaultWorkerPool.start
    split_ifs <;> exact le_rfl
  | cleanUp =>
    simp only [Step, step] at hstep
    split at hstep
    · cases hstep
    · cases hstep
      exact le_rfl
  | stop graceMs =>
    cases hstep
    simp
  | resume k =>
    simp only [Step, step] at hstep
    split at hstep
    next graceMs hk =>
      obtain ⟨-, hs⟩ := Option.ite_none_right_eq_some.mp hstep
      cases hs
      unfold resume
      split
      · exact stops_setStop.ge
      · exact stops_setStop.ge
    · cases hstep
  | expire k w =>
    simp only [Step, step] at hstep
    split at hstep
    · obtain ⟨-, hs⟩ := Option.ite_none_right_eq_some.mp hstep
      cases hs
      exact stops_setStop.ge
    · cases hstep
  | resolve k =>
    simp only [Step, step] at hstep
    split at hstep
    · obtain ⟨-, hs⟩ := Option.ite_none_right_eq_some.mp hstep
      cases hs
      exact stops_setStop.ge
    · cases hstep
  | _ => exact absurd rfl hloop

/-- So a pool that has been stopped stays so. -/
theorem stops_of_run {C : DefaultWorkerPool → PoolLabel → Prop} {ls : List PoolLabel}
    (h : Run (Guarded C (Step services)) s ls s') (hs : s.stops ≠ []) : s'.stops ≠ [] := by
  have hpos : 0 < s'.stops.length := by
    refine h.invariant_of_guard (I := fun s => 0 < s.stops.length) (List.length_pos_iff.mpr hs) ?_
    exact fun s l s' _ hstep hpos => Nat.lt_of_lt_of_le hpos (stops_of_step hstep)
  exact List.length_pos_iff.mp hpos

/-- **Every step keeps the tasks with their workers**, when the catch path's releases succeed. -/
theorem Tasks.step (h : Tasks s₀ s) (hcontrol : Control s) (hl : Releases l)
    (hstep : Step services s l s') : Tasks s₀ s' := by
  cases l with
  | enqueue queueId workOrder nextRole env =>
    obtain ⟨system, hsystem, rfl⟩ := Option.map_eq_some_iff.mp hstep
    exact h.enqueue hsystem
  | start ids created =>
    cases hstep
    refine h.of_loops ?_ ?_ fun w hw => ?_
    · unfold DefaultWorkerPool.start
      split_ifs <;> rfl
    · unfold DefaultWorkerPool.start
      split_ifs <;> rfl
    · by_cases hs : s.started = true
      · rwa [DefaultWorkerPool.start, if_pos hs] at hw
      · rw [hcontrol.unstarted (by simpa using hs)]
        decide
  | cleanUp =>
    simp only [Step, DefaultWorkerPool.step] at hstep
    split at hstep
    · cases hstep
    next w rest hcleanup =>
      cases hstep
      refine h.of_loops rfl rfl fun y hy => ?_
      by_cases hyw : y = w
      · subst hyw
        rwa [worker_set_self] at hy
      · rwa [worker_set_of_ne hyw] at hy
  | stop graceMs =>
    cases hstep
    exact h.of_loops rfl rfl fun _ hw => hw
  | resume k =>
    simp only [Step, DefaultWorkerPool.step] at hstep
    split at hstep
    next graceMs hk =>
      obtain ⟨-, hs⟩ := Option.ite_none_right_eq_some.mp hstep
      cases hs
      unfold resume
      split
      · exact h.of_loops rfl rfl fun _ hw => hw
      · exact h.of_loops rfl rfl fun w hw => loop_stopWorkers w ▸ hw
    · cases hstep
  | expire k w =>
    simp only [Step, DefaultWorkerPool.step] at hstep
    split at hstep
    · obtain ⟨-, hs⟩ := Option.ite_none_right_eq_some.mp hstep
      cases hs
      refine h.of_loops rfl rfl fun y hy => ?_
      by_cases hyw : y = w
      · subst hyw
        have hself : (s.set y (s.worker y).abort).worker y = (s.worker y).abort := worker_set_self
        exact fun hhandling => hy ((congrArg DefaultWorker.loop hself).trans hhandling)
      · have hsame : (s.set w (s.worker w).abort).worker y = s.worker y := worker_set_of_ne hyw
        exact fun hhandling => hy ((congrArg DefaultWorker.loop hsame).trans hhandling)
    · cases hstep
  | resolve k =>
    simp only [Step, DefaultWorkerPool.step] at hstep
    split at hstep
    · obtain ⟨-, hs⟩ := Option.ite_none_right_eq_some.mp hstep
      cases hs
      exact h.of_loops rfl rfl fun _ hw => hw
    · cases hstep
  | claim w env =>
    obtain ⟨⟨hhead, -⟩, hstep⟩ := Option.ite_none_right_eq_some.mp hstep
    obtain ⟨system, hsystem, rfl⟩ := Option.map_eq_some_iff.mp hstep
    exact h.afterClaim hhead hsystem
  | handle w env =>
    obtain ⟨hhandling, hstep⟩ := Option.ite_none_right_eq_some.mp hstep
    obtain ⟨system, hsystem, rfl⟩ := Option.map_eq_some_iff.mp hstep
    exact h.afterHandle hhandling (System.atTask_start hsystem)
  | settle w env run =>
    obtain ⟨hhandling, hstep⟩ := Option.ite_none_right_eq_some.mp hstep
    obtain ⟨system, hsystem, rfl⟩ := Option.map_eq_some_iff.mp hstep
    exact h.afterHandle hhandling (System.atTask_settle hsystem)
  | release w env =>
    obtain ⟨-, hstep⟩ := Option.ite_none_right_eq_some.mp hstep
    obtain ⟨system, hsystem, rfl⟩ := Option.map_eq_some_iff.mp hstep
    exact h.afterRelease (hl w env rfl) hsystem
  | wake w =>
    obtain ⟨hbackoff, hs⟩ := Option.ite_none_right_eq_some.mp hstep
    cases hs
    refine h.of_loops rfl rfl fun y hy => ?_
    by_cases hyw : y = w
    · rw [hyw, hbackoff]
      decide
    · rwa [worker_set_of_ne hyw] at hy
  | quit w =>
    obtain ⟨⟨hhead, -⟩, hs⟩ := Option.ite_none_right_eq_some.mp hstep
    cases hs
    refine h.of_loops rfl rfl fun y hy => ?_
    by_cases hyw : y = w
    · rw [hyw, hhead]
      decide
    · rwa [worker_set_of_ne hyw] at hy

/-! ## The claim -/

/-- What a resolved call of `stop` leaves. -/
structure NothingLeft (s₀ s : DefaultWorkerPool) : Prop where
  /-- No row is owned by a worker of the pool. -/
  unowned : ∀ t r, s.system.world.core.row t = some r → ∀ w ∈ s.workers,
    r.currentOwnerRunId ≠ some w
  /-- A dispatched row is one that the pool found dispatched and has never claimed. -/
  dispatched : ∀ t r, s.system.world.core.row t = some r → r.status = .dispatched →
    (∀ w, (w, t) ∉ s.claims) ∧
      ∃ r₀, s₀.system.world.core.row t = some r₀ ∧ r₀.status = .dispatched
  /-- A task the pool has claimed is queued or has ended, without owner and lease. -/
  claimed : ∀ w t, (w, t) ∈ s.claims → s.system.world.core.FreeAt t

/-- When all loops have ended, nothing is left with the pool. -/
theorem nothingLeft_of_ended (h : Tasks s₀ s)
    (hended : ∀ w, (s.worker w).loop = .unstarted ∨ (s.worker w).loop = .ended)
    (hnew : ∀ w ∈ s.workers, ∀ t r, s₀.system.world.core.row t = some r →
      r.currentOwnerRunId ≠ some w) : NothingLeft s₀ s := by
  have hrests : ∀ t, Rests s₀ s t := fun t => h.rest t fun w hw => by
    have hnone := h.busy w (by rcases hended w with hpc | hpc <;> (rw [hpc]; nofun))
    rw [hnone] at hw
    cases hw
  have hfound : ∀ t r, s.system.world.core.row t = some r → ¬ r.Free →
      (∀ w, (w, t) ∉ s.claims) ∧
        ∃ r₀, s₀.system.world.core.row t = some r₀ ∧ r₀.standing = r.standing := by
    intro t r hr hfree
    rcases hrests t with ⟨r', hr', hfree'⟩ | ⟨hnot, hsame⟩
    · rw [hr] at hr'
      cases hr'
      exact absurd hfree' hfree
    · have hstanding : s₀.system.world.core.standing t = some r.standing := by
        rw [← hsame, Core.standing, hr]
        rfl
      exact ⟨hnot, Option.map_eq_some_iff.mp hstanding⟩
  refine ⟨fun t r hr w hw howner => ?_, fun t r hr hst => ?_, fun w t hw => ?_⟩
  · obtain ⟨-, r₀, hr₀, hstanding⟩ := hfound t r hr fun hfree => by
      rw [hfree.owner] at howner
      cases howner
    simp only [TaskRow.standing, Prod.mk.injEq] at hstanding
    exact hnew w hw t r₀ hr₀ (hstanding.2.2.1.trans howner)
  · obtain ⟨hnot, r₀, hr₀, hstanding⟩ := hfound t r hr fun hfree => by
      have hstatus := hfree.status
      rw [hst] at hstatus
      rcases hstatus with hstatus | hstatus
      · cases hstatus
      · cases hstatus
    simp only [TaskRow.standing, Prod.mk.injEq] at hstanding
    exact ⟨hnot, r₀, hr₀, hstanding.1.trans hst⟩
  · rcases hrests t with hfree | ⟨hnot, -⟩
    · exact hfree
    · exact absurd hw (hnot w)

/-- What holds in every state of an orderly run. -/
theorem control_tasks_of_run {ls : List PoolLabel} (h₀ : s₀.Initial)
    (h : Run (Guarded (fun s l => Orderly s l ∧ Releases l) (Step services)) s₀ ls s) :
    Control s ∧ Tasks s₀ s := by
  refine h.invariant_of_guard (I := fun s => Control s ∧ Tasks s₀ s) ⟨h₀.control, h₀.tasks⟩ ?_
  rintro s l s' ⟨hl, hrel⟩ hstep ⟨hcontrol, htasks⟩
  exact ⟨hcontrol.step hl hstep, htasks.step hcontrol hrel hstep⟩

/-- What `stop` promises of a run. -/
structure StopHolds (s₀ : DefaultWorkerPool) (ls : List PoolLabel) (s : DefaultWorkerPool) :
    Prop where
  /-- After a call of `stop` no worker claims. -/
  noClaim : ∀ before graceMs after, ls = before ++ .stop graceMs :: after →
    ∀ l ∈ after, l.isClaim = false
  /-- When a call has resolved, nothing is left with the pool. -/
  nothingLeft : (∃ call ∈ s.stops, call.pc = .resolved) → NothingLeft s₀ s

/-- **In an orderly run `stop` holds what it promises.** The workers' ids are new. -/
theorem stop_holds {ls : List PoolLabel} (h₀ : s₀.Initial)
    (h : Run (Guarded (fun s l => Orderly s l ∧ Releases l) (Step services)) s₀ ls s)
    (hnew : ∀ w ∈ s.workers, ∀ t r, s₀.system.world.core.row t = some r →
      r.currentOwnerRunId ≠ some w) : StopHolds s₀ ls s := by
  refine ⟨?_, fun hresolved => ?_⟩
  · rintro before graceMs after rfl l hl
    obtain ⟨among, rest, rfl⟩ := List.append_of_mem hl
    obtain ⟨s₁, h₁, h₂⟩ := Run.append_iff.mp h
    obtain ⟨s₂, ⟨hstop, hstep⟩, h₂⟩ := Run.cons_iff.mp h₂
    obtain ⟨s₃, h₃, h₄⟩ := Run.append_iff.mp h₂
    obtain ⟨s₄, ⟨⟨horderly, -⟩, hlast⟩, -⟩ := Run.cons_iff.mp h₄
    have hrun : Run (Guarded (fun s l => Orderly s l ∧ Releases l) (Step services)) s₀
        (before ++ (.stop graceMs :: among)) s₃ :=
      Run.append_iff.mpr ⟨s₁, h₁, .cons ⟨hstop, hstep⟩ h₃⟩
    have hstops : s₂.stops ≠ [] := by
      cases hstep
      simp
    exact (control_tasks_of_run h₀ hrun).1.not_claim horderly hlast (stops_of_run h₃ hstops)
  · obtain ⟨hcontrol, htasks⟩ := control_tasks_of_run h₀ h
    exact nothingLeft_of_ended htasks (hcontrol.ended hresolved) hnew

end DefaultWorkerPool

namespace Sample

/-- A pool over an empty queue. -/
def pool : DefaultWorkerPool where
  system := system
  worker _ := .new
  workers := []
  started := false
  stopped := false
  cleanup := []
  stops := []
  claims := []

theorem pool_initial : pool.Initial :=
  ⟨fun _ => rfl, fun _ => rfl, rfl, rfl, rfl, rfl, rfl, rfl⟩

theorem pool_empty (t : String) (r : TaskRow) : pool.system.world.core.row t ≠ some r := nofun

/-- One worker, whose handler runs. -/
def handled : List PoolLabel :=
  [.enqueue "main" workOrder .implementer env, .start ["w1"] 1, .claim "w1" env, .handle "w1" env]

/-- `stop` with a grace period that ends before the handler. -/
def stopAborts : List PoolLabel :=
  handled ++ [.stop (some 1000), .resume 0, .expire 0 "w1",
    .settle "w1" env fun _ => throw .aborted, .release "w1" env, .quit "w1", .resolve 0]

/-- `stop` is called again while the handler runs. -/
def secondStop : List PoolLabel :=
  handled ++ [.stop (some 1000), .resume 0, .stop none, .resume 1]

/-- `stop` is called before the pool is started. -/
def stopFirst : List PoolLabel :=
  [.stop none, .resume 0, .resolve 0] ++ handled

/-- The handler returns before `stop` goes on after its first `await`. -/
def claimFirst : List PoolLabel :=
  handled ++ [.settle "w1" env implemented, .stop none, .claim "w1" env]

end Sample

namespace DefaultWorkerPool

/-- A handler that is aborted: its task is queued again. -/
theorem stop_holds_aborted : ∃ s,
    Steps Sample.services Sample.pool Sample.stopAborts s ∧
      (∃ call ∈ s.stops, call.pc = .resolved) ∧ s.claims = [("w1", "T-1")] ∧
      StopHolds Sample.pool Sample.stopAborts s := by
  have h : (Sample.stopAborts.foldlM (fun s l => if Orderly s l then s.step Sample.services l
      else none) Sample.pool).any (fun s => (∃ call ∈ s.stops, call.pc = .resolved) ∧
        s.claims = [("w1", "T-1")]) = true := by
    decide +kernel
  obtain ⟨s, hs, hp⟩ := (Option.any_eq_true _ _).mp h
  obtain ⟨hresolved, hclaims⟩ := of_decide_eq_true hp
  have hrun : Run (Guarded Orderly (Step Sample.services)) Sample.pool Sample.stopAborts s :=
    Run.guarded_foldlM_iff.mpr hs
  have hreleases : ∀ l ∈ Sample.stopAborts, Releases l := by
    rintro l hl w e rfl
    simp only [Sample.stopAborts, Sample.handled, List.cons_append, List.nil_append,
      List.mem_cons, List.not_mem_nil, or_false, reduceCtorEq, false_or] at hl
    obtain ⟨-, rfl⟩ := PoolLabel.release.inj hl
    exact Sample.env_faultless
  have hboth : Run (Guarded (fun s l => Orderly s l ∧ Releases l) (Step Sample.services))
      Sample.pool Sample.stopAborts s :=
    (hrun.guarded_of_labels hreleases).mono fun _ _ _ hl => ⟨⟨hl.2.1, hl.1⟩, hl.2.2⟩
  exact ⟨s, hrun.of_guarded, hresolved, hclaims, stop_holds Sample.pool_initial hboth
    fun _ _ t r hr => absurd hr (Sample.pool_empty t r)⟩

/-- **Three runs in which `stop` does not hold what it promises**: a second call resolves at once,
while a task is dispatched; a pool is started after it was stopped; a loop goes on before the call
does. -/
theorem stop_fails :
    (∃ s, Steps Sample.services Sample.pool Sample.secondStop s ∧
      ¬ StopHolds Sample.pool Sample.secondStop s) ∧
    (∃ s, Steps Sample.services Sample.pool Sample.stopFirst s ∧
      ¬ StopHolds Sample.pool Sample.stopFirst s) ∧
    ∃ s, Steps Sample.services Sample.pool Sample.claimFirst s ∧
      ¬ StopHolds Sample.pool Sample.claimFirst s := by
  refine ⟨?_, ?_, ?_⟩
  · have h : (Sample.secondStop.foldlM (step Sample.services) Sample.pool).any (fun s =>
        (∃ call ∈ s.stops, call.pc = .resolved) ∧ "w1" ∈ s.workers ∧
          (s.system.world.core.row "T-1").any fun r =>
            r.status = .dispatched ∧ r.currentOwnerRunId = some "w1") = true := by
      decide +kernel
    obtain ⟨s, hs, hp⟩ := (Option.any_eq_true _ _).mp h
    obtain ⟨hresolved, hw, hp⟩ := of_decide_eq_true hp
    obtain ⟨r, hr, hp⟩ := (Option.any_eq_true _ _).mp hp
    obtain ⟨-, howner⟩ := of_decide_eq_true hp
    refine ⟨s, Run.foldlM_iff.mpr hs, fun hholds => ?_⟩
    exact (hholds.nothingLeft hresolved).unowned "T-1" r hr "w1" hw howner
  · have h : (Sample.stopFirst.foldlM (step Sample.services) Sample.pool).isSome = true := by
      decide +kernel
    obtain ⟨s, hs⟩ := Option.isSome_iff_exists.mp h
    refine ⟨s, Run.foldlM_iff.mpr hs, fun hholds => ?_⟩
    have hclaim := hholds.noClaim [] none _ rfl (.claim "w1" Sample.env) (by simp [Sample.handled])
    cases hclaim
  · have h : (Sample.claimFirst.foldlM (step Sample.services) Sample.pool).isSome = true := by
      decide +kernel
    obtain ⟨s, hs⟩ := Option.isSome_iff_exists.mp h
    refine ⟨s, Run.foldlM_iff.mpr hs, fun hholds => ?_⟩
    have hclaim := hholds.noClaim (Sample.handled ++ [.settle "w1" Sample.env Sample.implemented])
      none _ rfl (.claim "w1" Sample.env) (by simp)
    cases hclaim

end DefaultWorkerPool

end AgentWorkflow
