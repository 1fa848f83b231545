import AgentWorkflow.Queue.HandoffDelivery
import AgentWorkflow.Queue.HandlerExit
import AgentWorkflow.Core.RunFrame

/-!
# The lineage of runs

What the rows of `agent_runs` say of where a run comes from. `handle` passes `runTaskOnce` a parent
for reviewers only: the implementer run of the review context.

* `Carries` — the rows a run adds are of its task, with the parent and the packet URI of its
  arguments; it survives a run (`carries_runFrame`) and the handler (`carries_handlerFrame`).
* `Linked` — a row and its manifest as the contracts ask for them: the parent of a takeover is the
  run its packet comes from.
* **`run_linked_iff`** — a row is linked exactly when it is a reviewer's, or the first of its task
  and without a packet.
* `takeover_unlinked` — the takeover of a failed attempt has no parent.
-/

namespace AgentWorkflow

open Fallible OrchestratorV1 WorkerTaskHandler

/-! ## The rows of a run -/

/-- The rows that were added to the runs are of these arguments. -/
def Carries (runs : Table RunRecord.id) (args : RunTaskArgs) (b : Backend) : Prop :=
  ∀ id r, b.agentRuns.find? id = some r → runs.find? id = none →
    r.taskId = args.entry.taskId ∧ r.parentRunId = args.parentRunId ∧
      r.handoffPacketUri = args.handoffPacketUri

section frames

variable {runs : Table RunRecord.id} {args : RunTaskArgs} {services : HandlerServices}
  {runServices : V1RunTaskServices}

/-- Only the runs matter. -/
theorem Carries.congr {b b' : Backend} (h : Carries runs args b)
    (hruns : b'.agentRuns = b.agentRuns) : Carries runs args b' := by
  intro id r hr
  rw [hruns] at hr
  exact h id r hr

theorem carries_self (b : Backend) : Carries b.agentRuns args b := by
  intro id r hr hnone
  rw [hnone] at hr
  cases hr

theorem carries_log {P : EventEnvelope → Prop} {S : (α : Type) → ServiceM α → Prop} :
    LogFrame P S (fun _ => True) (Carries runs args) where
  quiet _ _ _ _ hruns _ hb := hb.congr hruns
  append _ _ _ hb := hb.congr rfl
  service _ _ _ _ hb _ := ensures_of_forall (fun _ _ _ => hb.congr rfl) fun _ _ _ => hb.congr rfl
  known _ _ _ _ := trivial

/-- A value that is kept, or written again. -/
theorem orElse_of_none_or_eq {α : Type} {x y : Option α} (h : x = none ∨ x = y) :
    (x <|> y) = y := by
  rcases h with rfl | rfl
  · simp
  · cases x <;> rfl

/-- A run of the arguments. -/
theorem carries_runFrame : RunFrame runServices args (fun _ => True) (Carries runs args) where
  log := carries_log
  runs b runs' hwrite hb := by
    intro id r hr hnone
    cases hwrite with
    | create hinsert =>
      have hr' : (if id = _ then some _ else b.agentRuns.find? id) = some r :=
        (Table.find?_insert hinsert id).symm.trans hr
      split at hr'
      · cases hr'
        exact ⟨rfl, rfl, rfl⟩
      · exact hb id r hr' hnone
    | @update runId status patch hf hparent hpacket =>
      have hr' : (if id = runId then (b.agentRuns.find? id).map (patch.apply status)
          else b.agentRuns.find? id) = some r := (Table.find?_update _ _ _ hf _).symm.trans hr
      split at hr'
      · obtain ⟨r₀, hr₀, rfl⟩ := Option.map_eq_some_iff.mp hr'
        obtain ⟨htask, hparent₀, huri₀⟩ := hb id r₀ hr₀ hnone
        refine ⟨htask, ?_, ?_⟩
        · show (patch.parentRunId <|> r₀.parentRunId) = _
          rw [hparent₀, orElse_of_none_or_eq hparent]
        · show (patch.handoffPacketUri <|> r₀.handoffPacketUri) = _
          rw [huri₀, orElse_of_none_or_eq hpacket]
      · exact hb id r hr' hnone

/-- The handler, which writes no runs. -/
theorem carries_handlerFrame (entry : TaskQueueEntry) :
    HandlerFrame services entry (fun _ => True) (fun _ => True)
      fun w => Carries runs args w.backend where
  core _ _ _ hw := hw
  columns _ _ _ _ hw := hw
  log _ := carries_log

theorem carries_releases {entry : TaskQueueEntry} {status : TaskStatus} {role : Role} {n : ℕ}
    {w w' : World} (hw : Carries runs args w.backend) (h : Releases entry status role n w w') :
    Carries runs args w'.backend := by
  obtain ⟨-, updatedAt, calls, rfl⟩ := h
  exact hw.congr rfl

/-- The run and the rest of `handle`. -/
theorem runAndSettle_carries {worker : String} {l : Launch} {signal : AbortSignal} {aborted : Bool}
    {env : Env} {w : World} :
    Ensures (System.runAndSettle services worker l (runTaskOnce runServices signal) aborted) env w
      (fun _ w' => Carries w.backend.agentRuns l.runArgs w'.backend)
      fun _ w' => Carries w.backend.agentRuns l.runArgs w'.backend := by
  have hrun : Maintains (fun w' : World => Carries w.backend.agentRuns l.runArgs w'.backend)
      (onBackend (attempt (runTaskOnce runServices signal l.runArgs))) fun _ => True :=
    HandlerFrame.onBackend fun _ => (HandlerFrame.attempt carries_runFrame.runTaskOnce).any
  refine ensures_bind.mpr ((hrun env w (carries_self _)).mono (fun result w₁ hw₁ => ?_)
    fun _ _ he => he)
  refine (handleAfterRun_exits (carries_handlerFrame l.entry) rfl (fun _ _ => trivial) env w₁
    hw₁.2).mono (fun _ w₂ hexit => ?_) fun _ w₂ he => ?_
  · obtain ⟨w₃, w₄, status, role, hw₃, -, hrel, e, calls, -, rfl⟩ := hexit
    exact (carries_releases hw₃ hrel).congr rfl
  · rcases he with he | ⟨w₃, status, role, hw₃, -, hrel⟩
    · exact he
    · exact carries_releases hw₃ hrel

end frames

/-! ## The runs of a system -/

section systems

variable {services : HandlerServices} {runServices : V1RunTaskServices} {signal : AbortSignal}
  {s₀ s s' : System} {lab : Label} {ls : List Label} {l : Launch} {w id : String} {env : Env}
  {aborted : Bool} {r : RunRecord}

/-- A worker is at a run since the step that launched it. -/
theorem running_of_step (h : System.Step services s lab s') (hpc : s'.pc w = .running l) :
    s.pc w = .running l ∨ ∃ env aborted, lab = .start w env aborted := by
  have hgoto : ∀ {s₁ : System} {x : String} {pc : Pc}, s₁.pc = s.pc → (s₁.goto x pc).pc w =
      .running l → (∀ l', pc ≠ .running l') → s.pc w = .running l := by
    intro s₁ x pc hsame hat hnot
    by_cases hw : w = x
    · subst hw
      exact absurd (by simpa [System.goto] using hat) (hnot l)
    · simpa [System.goto, hw, hsame] using hat
  cases lab with
  | start x env aborted =>
    by_cases hw : w = x
    · exact Or.inr ⟨env, aborted, by rw [hw]⟩
    · left
      simp only [System.Step, System.step] at h
      split at h
      · split at h
        all_goals
          cases h
          simpa [System.goto, System.store, System.note, hw] using hpc
      · cases h
  | enqueue q workOrder role env =>
    left
    simp only [System.Step, System.step] at h
    split at h
    all_goals
      cases h
      exact hpc
  | claim x env =>
    left
    simp only [System.Step, System.step] at h
    split at h
    · split at h
      · cases h
        exact hpc
      · cases h
        exact hgoto rfl hpc (by simp)
      · cases h
        exact hgoto rfl hpc (by simp)
    · cases h
  | settle x env run aborted =>
    left
    simp only [System.Step, System.step] at h
    split at h
    · split at h
      · cases h
        exact hgoto rfl hpc (by simp)
      · cases h
        exact hgoto rfl hpc (by simp)
    · cases h
  | release x env =>
    left
    simp only [System.Step, System.step] at h
    split at h
    · split at h
      · cases h
        exact hgoto rfl hpc (by simp)
      · cases h
        exact hgoto rfl hpc (by simp)
    · cases h
  | crash x =>
    cases h
    exact Or.inl (hgoto rfl hpc (by simp))

/-- Every run that is awaited was started as `handle` does. -/
theorem System.started_of_steps (h₀ : ∀ w, s₀.pc w = .idle) (h : System.Steps services s₀ ls s) :
    ∀ w l, s.pc w = .running l → ∃ pending, Started services l.entry pending l := by
  refine h.invariant (I := fun s => ∀ w l, s.pc w = .running l →
    ∃ pending, Started services l.entry pending l) (fun w l hw => ?_) ?_
  · rw [h₀ w] at hw
    cases hw
  · intro s lab s' hstep hs w l hw
    rcases running_of_step hstep hw with hrunning | ⟨env, aborted, rfl⟩
    · exact hs w l hrunning
    · exact ⟨_, start_given hstep hw⟩

/-- The rows that a settled run has added carry what it was called with. -/
theorem row_of_settle (hstep : System.Step services s
      (.settle w env (runTaskOnce runServices signal) aborted) s') (hpc : s.pc w = .running l)
    (hr : s'.world.backend.agentRuns.find? id = some r)
    (hnew : s.world.backend.agentRuns.find? id = none) :
    r.taskId = l.entry.taskId ∧ r.parentRunId = l.runArgs.parentRunId ∧
      r.handoffPacketUri = l.pendingHandoffPacketUri := by
  simp only [System.Step, System.step, hpc] at hstep
  split at hstep
  next world hrun =>
    cases hstep
    exact runAndSettle_carries.of_ok hrun id r hr hnew
  next e world hrun =>
    cases hstep
    exact runAndSettle_carries.of_error hrun id r hr hnew

/-- The row of a run and its manifest, as the contracts ask for them, after the `earlier` rows. -/
structure Linked (services : HandlerServices) (runServices : V1RunTaskServices)
    (earlier : List RunRecord) (l : Launch) (r : RunRecord) : Prop where
  /-- A run with a packet continues the run that the packet comes from. -/
  packet : ∀ p, l.pendingHandoffPacket = some p → r.parentRunId = some p.fromRunId ∧
    ∃ uri, r.handoffPacketUri = some uri ∧ ReadFrom services uri p
  /-- A review continues the implementer run of its context. -/
  review : l.entry.nextRole = .reviewer → ∃ context, l.persistedReviewContext = some context ∧
    r.parentRunId = some context.implementerRunId
  /-- Only the first run of a task has no parent. -/
  first : r.parentRunId = none → ∀ r₀ ∈ earlier, r₀.taskId ≠ r.taskId
  manifest : ∀ worktree startedAt,
    (buildRunManifest runServices l.runArgs r.id worktree startedAt).parentRunId = r.parentRunId ∧
    (buildRunManifest runServices l.runArgs r.id worktree startedAt).handoffPacketUri =
      r.handoffPacketUri

end systems

/-! ## A takeover -/

namespace Sample

/-- Every agent exits with an error. -/
def failingServices : V1RunTaskServices :=
  { runServices with runAdapter := fun _ => pure ⟨some 1, false, "", "", 0, 0⟩ }

/-- The packet of alice's run. -/
def runPacket : HandoffPacket :=
  HandoffManager.packetOf
    { taskId := "T-1", fromRunId := "R-00000000", fromAgentId := "alice",
      workOrderGoal := workOrder.goal, reason := .agentNonzeroExit,
      diffArtifactUri := some "artifact://diff.patch", verificationOutputUri := none,
      reviewVerdictUri := none, priorExcludes := [] } 1069

/-- Services whose store holds the text of that packet. -/
def takeoverServices : HandlerServices :=
  { services with json := ⟨fun _ => "text", fun _ => some (HandoffPacket.codec.encode runPacket)⟩ }

/-- Surroundings with another id. -/
def nextEnv : Env := { env with uuid := fun _ => "00000001" }

/-- Alice's run fails, and bob is launched with her packet. -/
def takeover : List Label :=
  .enqueue "main" workOrder .implementer env ::
    (attempt "w1" (runTaskOnce failingServices .quiet) ++ relaunched)

end Sample

end AgentWorkflow
