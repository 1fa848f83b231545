import AgentWorkflow.Queue.ReviewGate

/-!
# The run budget of a task

How often a task is run. The gate is spread over `init`, the scheduler's refusal, `preLaunch`,
`postRun` and the stored status; here it is one invariant of a task.

* `Budgeted` — **launches are paid for**: at most `runs_used` of them, `runs_used` at most
  `max_runs`, each from a gate below all three caps.
* `Spent` — nothing is launched once the stored status is exhausted.
* **`budget_respected`** — both, in every run of any number of workers.
-/

namespace AgentWorkflow

open Fallible WorkerTaskHandler

/-! ## Counters -/

namespace TaskState

/-- The runs the budget of a task has charged. -/
def runsUsed (v : TaskState) : ℕ := v.budget.elim 0 BudgetState.runsUsed

/-- The calls of `runTaskOnce`. -/
def launches (v : TaskState) : ℕ := v.calls.countP (·.2.isLaunched)

end TaskState

/-- The budget the gate of a launch read. -/
def Call.gate? : Call → Option BudgetState
  | .launched _ _ _ gate _ => some gate
  | _ => none

/-- A budget on whose every axis something is left. -/
structure BudgetState.BelowCaps (b : BudgetState) : Prop where
  runs : b.runsUsed < b.caps.maxRuns
  wallTime : b.wallTimeMsUsed < b.caps.maxWallTimeMs
  cost : b.costUnitsUsed < b.caps.maxTotalCostUnits

/-- A charge of one run exhausts a budget below its caps only by its runs. -/
theorem BudgetState.BelowCaps.chargeRun {b : BudgetState} (h : b.BelowCaps)
    (hexhausted : b.chargeRun.status = .exhausted) (hb : b.Consistent) :
    b.runsUsed + 1 = b.caps.maxRuns := by
  have hruns := h.runs
  rcases hb.chargeRun.exhausted_iff.mp hexhausted with hmax | hmax | hmax
  · have hle : b.caps.maxRuns ≤ b.runsUsed + 1 := hmax
    omega
  · exact absurd h.wallTime (not_lt.mpr hmax)
  · exact absurd h.cost (not_lt.mpr hmax)

/-! ## Launches are paid for -/

/-- A budget whose status is right, and whose runs are within its cap. -/
structure WithinCap (b : BudgetState) : Prop where
  consistent : b.Consistent
  runs_le : b.runsUsed ≤ b.caps.maxRuns

/-- The accounts of a task. -/
structure Budgeted (v : TaskState) : Prop where
  within : ∀ b, v.budget = some b → WithinCap b
  launches : v.launches ≤ v.runsUsed
  attempts : ∀ r, v.row = some r → r.attempts ≤ v.runsUsed
  claimed : ∀ w entry, v.pc w = .claimed entry → entry.attempts ≤ v.runsUsed
  running : ∀ w l, v.pc w = .running l → l.entry.attempts + 1 ≤ v.runsUsed
  gates : ∀ call ∈ v.calls, ∀ gate, call.2.gate? = some gate → gate.Consistent ∧ gate.BelowCaps

section budgets

variable {t w : String} {v v' : TaskState} {b : BudgetState}

theorem WithinCap.below (h : WithinCap b) (hne : b.status ≠ .exhausted) : b.BelowCaps := by
  obtain ⟨hr, hw, hc⟩ := h.consistent.below_caps hne
  exact ⟨hr, hw, hc⟩

theorem WithinCap.fresh (wo : ParsedWorkOrderV1) :
    WithinCap (BudgetState.fresh t (BudgetManager.capsOf wo)) :=
  ⟨BudgetManager.fresh_consistent wo t, Nat.zero_le _⟩

theorem WithinCap.chargeRun (h : WithinCap b) (hne : b.status ≠ .exhausted) :
    WithinCap b.chargeRun := by
  have hruns := (h.below hne).runs
  refine ⟨h.consistent.chargeRun, ?_⟩
  show b.runsUsed + 1 ≤ b.caps.maxRuns
  omega

/-- The budget after `init` is the one that was there, or a fresh one. -/
theorem onBudget_initBudget {caps : BudgetCaps} {o : Option BudgetState} {gate : BudgetState}
    (h : (Update.initBudget caps).onBudget t o = some gate) :
    (o = none ∧ gate = BudgetState.fresh t caps) ∨ o = some gate := by
  cases o with
  | none => exact Or.inl ⟨rfl, (Option.some.inj h).symm⟩
  | some b => exact Or.inr h

theorem runsUsed_of_some (h : v.budget = some b) : v.runsUsed = b.runsUsed := by
  rw [TaskState.runsUsed, h]
  rfl

theorem runsUsed_of_none (h : v.budget = none) : v.runsUsed = 0 := by
  rw [TaskState.runsUsed, h]
  rfl

/-- The accounts after a change that launches nothing and takes nothing back. -/
theorem Budgeted.congr (h : Budgeted v) (hwithin : ∀ b, v'.budget = some b → WithinCap b)
    (hused : v.runsUsed ≤ v'.runsUsed)
    (hrow : ∀ r, v'.row = some r → r.attempts ≤ v'.runsUsed)
    (hclaimed : ∀ x entry, v'.pc x = .claimed entry → entry.attempts ≤ v'.runsUsed)
    (hrunning : ∀ x l, v'.pc x = .running l → v.pc x = .running l)
    (calls : List (String × Call)) (hcalls : v'.calls = v.calls ++ calls)
    (hquiet : ∀ call ∈ calls, call.2.isLaunched = false) : Budgeted v' where
  within := hwithin
  launches := by
    have hnone : calls.countP (·.2.isLaunched) = 0 := by
      rw [List.countP_eq_zero]
      intro call hcall
      simp [hquiet call hcall]
    have hsame : v'.launches = v.launches := by
      rw [TaskState.launches, hcalls, List.countP_append, hnone, Nat.add_zero, TaskState.launches]
    have hle := h.launches
    omega
  attempts := hrow
  claimed := hclaimed
  running x l hx := le_trans (h.running x l (hrunning x l hx)) hused
  gates call hcall gate hgate := by
    rw [hcalls] at hcall
    rcases List.mem_append.mp hcall with hcall | hcall
    · exact h.gates call hcall gate hgate
    · have hnot := hquiet call hcall
      obtain ⟨x, c⟩ := call
      cases c with
      | launched => simp [Call.isLaunched] at hnot
      | _ => simp [Call.gate?] at hgate

/-- The accounts after an update. -/
theorem Budgeted.update (h : Budgeted v) (u : Update)
    (hwithin : ∀ b, u.onBudget t v.budget = some b → WithinCap b)
    (hused : v.runsUsed ≤ (v.update t w u).runsUsed)
    (hrow : ∀ r, v.row = some r → (u.onRow r).attempts ≤ (v.update t w u).runsUsed)
    (hquiet : ∀ call ∈ u.calls, call.2.isLaunched = false) : Budgeted (v.update t w u) := by
  refine h.congr hwithin hused ?_ ?_ (fun _ _ hx => hx) u.calls rfl hquiet
  · intro r' hr'
    obtain ⟨r, hr, rfl⟩ := Option.map_eq_some_iff.mp hr'
    exact hrow r hr
  · intro x entry hx
    exact le_trans (h.claimed x entry hx) hused

/-- An update that charges nothing and releases nothing. -/
theorem Budgeted.update_of_same (h : Budgeted v) (u : Update)
    (hbudget : u.onBudget t v.budget = v.budget) (hrow : ∀ r, (u.onRow r).attempts = r.attempts)
    (hquiet : ∀ call ∈ u.calls, call.2.isLaunched = false) : Budgeted (v.update t w u) := by
  have hused : (v.update t w u).runsUsed = v.runsUsed := congrArg (Option.elim · 0 _) hbudget
  refine h.update u (fun b hb => h.within b (hbudget ▸ hb)) (le_of_eq hused.symm) ?_ hquiet
  intro r hr
  rw [hrow, hused]
  exact h.attempts r hr

/-- A release of at most the attempts that were charged. -/
theorem Budgeted.release (h : Budgeted v) {st : TaskStatus} {role : Role} {n u : ℕ}
    (hn : n ≤ v.runsUsed) : Budgeted (v.update t w (.release st role n u)) :=
  h.update _ h.within le_rfl (fun _ _ => hn) (by simp [Update.calls])

theorem Budgeted.fresh : Budgeted TaskState.fresh where
  within b hb := by simp [TaskState.fresh] at hb
  launches := Nat.zero_le _
  attempts r hr := by simp [TaskState.fresh] at hr
  claimed w entry hw := by simp [TaskState.fresh] at hw
  running w l hw := by simp [TaskState.fresh] at hw
  gates call hcall := by simp [TaskState.fresh] at hcall

/-- The accounts after a worker went elsewhere. -/
theorem Budgeted.goto (h : Budgeted v) {pc : Pc} (hclaimed : ∀ entry, pc ≠ .claimed entry)
    (hrunning : ∀ l, pc ≠ .running l) : Budgeted (v.goto w pc) :=
  h.congr h.within le_rfl h.attempts (fun _ _ hx => h.claimed _ _ (pc_of_goto (hclaimed _) hx))
    (fun _ _ hx => pc_of_goto (hrunning _) hx) [] (by simp [TaskState.goto]) (by simp)

theorem Budgeted.note (h : Budgeted v) {call : Call} (hcall : call.isLaunched = false) :
    Budgeted (v.note w call) :=
  h.congr h.within le_rfl h.attempts h.claimed (fun _ _ hx => hx) [(w, call)] rfl
    (by simpa using hcall)

/-- A claim copies the attempts of the row. -/
theorem Budgeted.claim (h : Budgeted v) {r : TaskRow} (hrow : v.row = some r) (lease now : ℕ) :
    Budgeted (v.claimed w lease now r) := by
  have hattempts := h.attempts r hrow
  refine h.congr h.within le_rfl ?_ ?_ (fun _ _ hx => pc_of_goto (by simp) hx) []
    (by simp [TaskState.claimed, TaskState.goto]) (by simp)
  · intro r' hr'
    obtain rfl := Option.some.inj hr'
    exact hattempts
  · intro x entry hx
    rcases pc_goto_cases hx with ⟨-, hentry⟩ | hx
    · rw [← Pc.claimed.inj hentry]
      exact hattempts
    · exact h.claimed x entry hx

/-- `init` writes a fresh budget where there is none. -/
theorem Budgeted.initBudget (h : Budgeted v) (wo : ParsedWorkOrderV1) :
    Budgeted (v.update t w (.initBudget (BudgetManager.capsOf wo))) := by
  cases hb : v.budget with
  | none =>
    have hused : v.runsUsed = 0 := runsUsed_of_none hb
    refine h.update _ ?_ (by omega) ?_ (by simp [Update.calls])
    · intro b hb'
      rw [hb] at hb'
      obtain rfl := Option.some.inj hb'
      exact .fresh wo
    · intro r hr
      have := h.attempts r hr
      exact le_trans this (by omega)
  | some b =>
    refine h.update_of_same _ ?_ (fun _ => rfl) (by simp [Update.calls])
    rw [hb]
    rfl

/-- A run is charged on a budget that is not exhausted. -/
theorem Budgeted.chargeRun (h : Budgeted v) (hb : v.budget = some b) (hne : b.status ≠ .exhausted) :
    Budgeted (v.update t w .chargeRun) := by
  have hnew : (v.update t w .chargeRun).budget = some b.chargeRun := by
    rw [TaskState.update, hb]
    rfl
  have hused : (v.update t w .chargeRun).runsUsed = v.runsUsed + 1 := by
    rw [runsUsed_of_some hnew, runsUsed_of_some hb]
    rfl
  refine h.update _ ?_ (by omega) ?_ (by simp [Update.calls])
  · intro b' hb'
    obtain rfl := Option.some.inj (hnew.symm.trans hb')
    exact (h.within b hb).chargeRun hne
  · intro r hr
    have := h.attempts r hr
    exact le_trans this (by omega)

/-- The usage of a run is charged where there is a budget, and no run with it. -/
theorem Budgeted.chargeUsage (h : Budgeted v) (wallMs : ℕ) {cost : ℚ} (hcost : 0 ≤ cost) :
    Budgeted (v.update t w (.chargeUsage wallMs cost)) := by
  cases hb : v.budget with
  | none =>
    refine h.update_of_same _ ?_ (fun _ => rfl) (by simp [Update.calls])
    rw [hb]
    rfl
  | some b =>
    have hnew : (v.update t w (.chargeUsage wallMs cost)).budget =
        some (b.chargeUsage wallMs cost) := by
      rw [TaskState.update, hb]
      rfl
    have hused : (v.update t w (.chargeUsage wallMs cost)).runsUsed = v.runsUsed := by
      rw [runsUsed_of_some hnew, runsUsed_of_some hb]
      rfl
    refine h.update _ ?_ (by omega) ?_ (by simp [Update.calls])
    · intro b' hb'
      obtain rfl := Option.some.inj (hnew.symm.trans hb')
      have hwithin := h.within b hb
      exact ⟨hwithin.consistent.chargeUsage (by positivity) hcost, hwithin.runs_le⟩
    · intro r hr
      exact le_trans (h.attempts r hr) (by omega)

/-- A launch charges one run, on the budget its gate read. -/
theorem runsUsed_launched {entry : TaskQueueEntry} {l : Launch} {gate : BudgetState}
    (hl : Launches entry (v.holding w) l gate) :
    ((v.launched w l gate).goto w (.running l)).runsUsed = v.runsUsed + 1 := by
  have hgate : gate.runsUsed = v.runsUsed := by
    rcases onBudget_initBudget hl.gate_eq with ⟨hnone, rfl⟩ | hsome
    · exact (runsUsed_of_none hnone).symm
    · exact (runsUsed_of_some hsome).symm
  rw [runsUsed_of_some (b := gate.chargeRun) rfl, ← hgate]
  rfl

/-- **A launch is paid for with the run it charges**, from the budget its gate read. -/
theorem Budgeted.launch (h : Budgeted v) {entry : TaskQueueEntry} {l : Launch} {gate : BudgetState}
    (hpc : v.pc w = .claimed entry) (hl : Launches entry (v.holding w) l gate) :
    Budgeted ((v.launched w l gate).goto w (.running l)) := by
  have hentry := h.claimed w entry hpc
  have hwithin : WithinCap gate := by
    rcases onBudget_initBudget hl.gate_eq with ⟨hnone, rfl⟩ | hsome
    · exact .fresh l.workOrder
    · exact h.within gate hsome
  have hused := runsUsed_launched hl
  have hlaunches : ((v.launched w l gate).goto w (.running l)).launches = v.launches + 1 := by
    simp [TaskState.launches, TaskState.goto, TaskState.launched, List.countP_append,
      Call.isLaunched]
  have hpaid := h.launches
  refine ⟨?_, by omega, ?_, ?_, ?_, ?_⟩
  · intro b hb
    obtain rfl := Option.some.inj hb
    exact hwithin.chargeRun hl.gate_open
  · intro r hr
    have := h.attempts r hr
    omega
  · intro x entry' hx
    have := h.claimed x entry' (pc_of_goto (v := v.launched w l gate) (by simp) hx)
    omega
  · intro x l' hx
    rcases pc_goto_cases hx with ⟨-, hl'⟩ | hx
    · rw [← Pc.running.inj hl', hl.entry_eq]
      omega
    · have := h.running x l' hx
      omega
  · intro call hcall g hg
    have hcall' : call ∈ v.calls ∨ call ∈ [(w, Call.decided l.entry.taskId l.entry.nextRole
        l.workOrder.agent.excludeAgentIds (some l.agentId)), (w, Call.launched l.entry.taskId
        l.entry.nextRole l.agentId gate l.persistedReviewContext)] := List.mem_append.mp hcall
    rcases hcall' with hcall' | hcall'
    · exact h.gates call hcall' g hg
    · rcases List.mem_pair.mp hcall' with rfl | rfl
      · simp [Call.gate?] at hg
      · obtain rfl : gate = g := by simpa [Call.gate?] using hg
        exact ⟨hwithin.consistent, hwithin.below hl.gate_open⟩

/-- **Every step keeps the accounts.** -/
theorem closed_budgeted : Closed t Budgeted where
  enqueue v q workOrder role ts h ht hrow := by
    refine h.congr h.within le_rfl ?_ h.claimed (fun _ _ hx => hx) [(q, .enqueued workOrder role)]
      rfl (by simp [Call.isLaunched])
    intro r hr
    obtain rfl := Option.some.inj hr
    exact Nat.zero_le _
  load v w h := h.update_of_same _ rfl (fun _ => rfl) (by simp [Update.calls])
  claim v w lease now r h hpc hrow hclaim := h.claim hrow lease now
  beforeRun v w entry u h hpc ht hA := by
    cases hA with
    | load => exact h.update_of_same _ rfl (fun _ => rfl) (by simp [Update.calls])
    | @init wo hw => exact h.initBudget wo
    | decided =>
      exact h.update_of_same _ rfl (fun _ => rfl) (by simp [Update.calls, Call.isLaunched])
    | charge hb hne => exact h.chargeRun hb hne
    | release hst => exact h.release (h.claimed w entry hpc)
  launch v w entry l gate h hpc ht hl := h.launch hpc hl
  settled v w l result h hpc ht := h.note rfl
  afterRun v w l result u h hpc ht hA := by
    have hpaid := h.running w l hpc
    cases hA with
    | failed => exact h.release (by omega)
    | release => exact h.release hpaid
    | charge hcost => exact h.chargeUsage _ hcost
    | exclude =>
      refine h.update_of_same _ rfl (fun r => ?_) (by simp [Update.calls])
      simp only [Update.onRow, excludedRow]
      split
      · rfl
      · rfl
    | packetBuilt =>
      exact h.update_of_same _ rfl (fun _ => rfl) (by simp [Update.calls, Call.isLaunched])
    | excluded =>
      exact h.update_of_same _ rfl (fun _ => rfl) (by simp [Update.calls, Call.isLaunched])
    | _ => exact h.update_of_same _ rfl (fun _ => rfl) (by simp [Update.calls])
  returned v w h hpc := (h.note rfl).goto (by simp) (by simp)
  threw v w entry h hpc := (h.note rfl).goto (by simp) (by simp)
  requeue v w entry u r h hpc hrow := by
    have hkept : Budgeted ({ v with row := some (Worker.requeuedRow u r) } : TaskState) := by
      refine h.congr h.within le_rfl ?_ h.claimed (fun _ _ hx => hx) [] (by simp) (by simp)
      intro r' hr'
      obtain rfl := Option.some.inj hr'
      exact h.attempts r hrow
    exact hkept.goto (by simp) (by simp)
  leave v w h := h.goto (by simp) (by simp)

/-! ## Nothing is launched on a spent budget -/

/-- The budget of a task is exhausted, and `n` runs have been launched. -/
structure Spent (n : ℕ) (v : TaskState) : Prop where
  exhausted : ∃ b, v.budget = some b ∧ b.Consistent ∧ b.status = .exhausted
  launches : v.launches = n

variable {n : ℕ}

theorem Spent.congr (h : Spent n v) (hbudget : v'.budget = v.budget)
    (calls : List (String × Call)) (hcalls : v'.calls = v.calls ++ calls)
    (hquiet : ∀ call ∈ calls, call.2.isLaunched = false) : Spent n v' := by
  refine ⟨hbudget ▸ h.exhausted, ?_⟩
  have hnone : calls.countP (·.2.isLaunched) = 0 := by
    rw [List.countP_eq_zero]
    intro call hcall
    simp [hquiet call hcall]
  rw [TaskState.launches, hcalls, List.countP_append, hnone, Nat.add_zero]
  exact h.launches

/-- **What is spent stays spent.** -/
theorem closed_spent : Closed t (Spent n) where
  enqueue v q workOrder role ts h ht hrow :=
    h.congr rfl [(q, .enqueued workOrder role)] rfl (by simp [Call.isLaunched])
  load v w h := h.congr rfl [] (by simp [TaskState.update, Update.calls]) (by simp)
  claim v w lease now r h hpc hrow hclaim :=
    h.congr rfl [] (by simp [TaskState.claimed, TaskState.goto]) (by simp)
  beforeRun v w entry u h hpc ht hA := by
    obtain ⟨b, hb, hcons, hst⟩ := h.exhausted
    cases hA with
    | @charge b' hb' hne =>
      have hsame : b = b' := Option.some.inj (hb.symm.trans hb')
      exact absurd (hsame ▸ hst) hne
    | init =>
      refine h.congr ?_ [] (by simp [TaskState.update, Update.calls]) (by simp)
      rw [TaskState.update, hb]
      rfl
    | decided => exact h.congr rfl _ rfl (by simp [Update.calls, Call.isLaunched])
    | _ => exact h.congr rfl [] (by simp [TaskState.update, Update.calls]) (by simp)
  launch v w entry l gate h hpc ht hl := by
    obtain ⟨b, hb, hcons, hst⟩ := h.exhausted
    have hgate : gate = b := by
      rcases onBudget_initBudget hl.gate_eq with ⟨hnone, -⟩ | hsome
      · exact absurd (hb.symm.trans hnone) (by simp)
      · exact Option.some.inj (hsome.symm.trans hb)
    exact absurd (hgate ▸ hst) hl.gate_open
  settled v w l result h hpc ht := h.congr rfl _ rfl (by simp [Call.isLaunched])
  afterRun v w l result u h hpc ht hA := by
    obtain ⟨b, hb, hcons, hst⟩ := h.exhausted
    cases hA with
    | @charge _ _ wallMs cost hcost =>
      have hsame : (v.update t w (.chargeUsage wallMs cost)).launches = v.launches := by
        simp [TaskState.launches, TaskState.update, Update.calls]
      refine ⟨⟨b.chargeUsage wallMs cost, ?_, hcons.chargeUsage (by positivity) hcost, ?_⟩,
        hsame.trans h.launches⟩
      · rw [TaskState.update, hb]
        rfl
      · exact hcons.chargeUsage_exhausted (by positivity) hcost hst
    | packetBuilt => exact h.congr rfl _ rfl (by simp [Update.calls, Call.isLaunched])
    | excluded => exact h.congr rfl _ rfl (by simp [Update.calls, Call.isLaunched])
    | _ => exact h.congr rfl [] (by simp [TaskState.update, Update.calls]) (by simp)
  returned v w h hpc := h.congr rfl _ rfl (by simp [Call.isLaunched])
  threw v w entry h hpc := h.congr rfl _ rfl (by simp [Call.isLaunched])
  requeue v w entry u r h hpc hrow :=
    h.congr rfl [] (by simp [TaskState.requeued, TaskState.goto]) (by simp)
  leave v w h := h.congr rfl [] (by simp [TaskState.goto]) (by simp)

end budgets

/-! ## Runs -/

section runs

variable {services : HandlerServices} {s₀ s : System} {ls : List Label}

theorem System.budgeted_of_steps (h₀ : s₀.Initial) (h : System.Steps services s₀ ls s)
    (t : String) : Budgeted (s.task t) :=
  System.task_invariant' h₀ h .fresh fun _ _ _ hstep _ hv => closed_budgeted.step hstep hv

/-- **The run budget is respected.** In every state of every run: the calls of `runTaskOnce` for a
task and its attempts are at most `runs_used`, which is at most `max_runs`; each call was made from
a gate strictly below all three caps, and its own charge can exhaust the budget only by reaching
`max_runs`; and once the stored status is exhausted no call follows. -/
theorem budget_respected (h₀ : s₀.Initial) (h : System.Steps services s₀ ls s) (t : String) :
    ((s.task t).launches ≤ (s.task t).runsUsed ∧
      (∀ r, s.world.core.row t = some r → r.attempts ≤ (s.task t).runsUsed) ∧
      ∀ b, s.world.core.budget t = some b → (s.task t).runsUsed ≤ b.caps.maxRuns) ∧
    (∀ call ∈ s.calls t, ∀ gate, call.2.gate? = some gate → gate.BelowCaps ∧
      (gate.chargeRun.status = .exhausted → gate.runsUsed + 1 = gate.caps.maxRuns)) ∧
    ∀ b, s.world.core.budget t = some b → b.status = .exhausted →
      ∀ ls' s', System.Steps services s ls' s' → (s'.task t).launches = (s.task t).launches := by
  have hbudgeted := System.budgeted_of_steps h₀ h t
  refine ⟨⟨hbudgeted.launches, hbudgeted.attempts, fun b hb => ?_⟩, ?_, ?_⟩
  · have hused : (s.task t).runsUsed = b.runsUsed := runsUsed_of_some hb
    rw [hused]
    exact (hbudgeted.within b hb).runs_le
  · intro call hcall gate hgate
    obtain ⟨hcons, hbelow⟩ := hbudgeted.gates call hcall gate hgate
    exact ⟨hbelow, fun hexhausted => hbelow.chargeRun hexhausted hcons⟩
  · intro b hb hst ls' s' h'
    have hspent : Spent (s.task t).launches (s.task t) :=
      ⟨⟨b, hb, (hbudgeted.within b hb).consistent, hst⟩, rfl⟩
    have hspent' : Spent (s.task t).launches (s'.task t) :=
      System.task_continues h₀ h hspent (fun _ _ _ hstep _ hv => closed_spent.step hstep hv) h'
    exact hspent'.launches

theorem budget_respected_reviewed :
    ∃ s, System.Steps Sample.services Sample.system reviewedOnce s ∧ (s.task "T-1").launches = 2 ∧
      2 ≤ (s.task "T-1").runsUsed := by
  have h : (Sample.system.steps Sample.services reviewedOnce).any (fun s =>
      (s.task "T-1").launches = 2) = true := by
    decide +kernel
  obtain ⟨s, hs, hp⟩ := (Option.any_eq_true _ _).mp h
  have hsteps := System.steps_iff.mpr hs
  have hlaunches := of_decide_eq_true hp
  have hpaid := (budget_respected Sample.initial hsteps "T-1").1.1
  refine ⟨s, hsteps, hlaunches, ?_⟩
  omega

end runs

end AgentWorkflow
