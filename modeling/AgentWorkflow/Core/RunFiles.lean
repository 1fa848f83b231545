import AgentWorkflow.Core.RunEnd
import AgentWorkflow.Workspace.CapsuleFiles
import AgentWorkflow.Workspace.GitWorktreeManager

/-!
# What an agent is given, and what is read of it

A run over the files of its workspace: the writers, the parser, the artifact store and git are those
of the repository; what the agent and the verification commands do with the files is arbitrary.

* `LocalServices` — those services.
* `SameCapsules` — **no save touches a file in a workspace's `.agent-workflow`**: it ends up in the
  directory of its run, whose name begins with `R-` (`via_saveText`, `via_saveFile`).
* **`verdict_own`** — a verdict is the one the run's own reviewer has left: there was none when its
  process was started, and whatever is unreadable makes the reviewer unusable.
* **`report_own`** — an implementer's report is the one its own process has left where it was given
  an empty one; and what it was given is what its work order, its manifest and its handoff say.
-/

namespace AgentWorkflow

open Fallible Posix OrchestratorV1

/-! ## The services -/

/-- What the services of a run are made of. -/
structure LocalServices where
  platform : Platform
  /-- The repository of the artifact store. -/
  repo : Path
  manager : CliGitWorktreeManager
  runAdapter : RunAgent → ServiceM AgentProcessResult
  runVerifier : RunVerification → ServiceM VerificationResult

namespace LocalServices

variable (s : LocalServices)

/-- The artifact store. -/
def store : LocalArtifactStore := ⟨s.repo, s.platform.sha256hex⟩

/-- `git worktree add` also makes the directory of the workspace. -/
def prepareWorkspace (args : PrepareWorkspace) : ServiceM PreparedWorktree := do
  let worktree ← s.manager.prepare args
  onDisk (Disk.mkdirp · (resolve s.manager.cwd worktree.workspacePath))
  pure worktree

/-- The services as a run sees them. -/
def services : V1RunTaskServices where
  platform := s.platform
  artifactStore := s.store.toArtifactStore
  sandboxProvider :=
    { GitWorktreeSandboxProvider.toSandboxProvider s.manager with
      prepareWorkspace := s.prepareWorkspace }
  writeTaskCapsule := FileTaskCapsuleWriter.write s.platform s.manager.cwd
  writeReviewBrief := FileReviewBriefWriter.write s.manager.cwd
  runAdapter := s.runAdapter
  runVerifier := s.runVerifier
  attachToBrief := some (HandoffManager.attachToBrief s.platform.json s.manager.cwd)
  parseReviewVerdict := parseReviewVerdict s.platform.json s.manager.cwd
  existsSync p := existsAt (resolve s.manager.cwd p)
  readFileSync p := readFile (resolve s.manager.cwd p)

end LocalServices

/-! ## What is seen of the disk -/

/-- The disk of a backend. -/
def diskOf (b : Backend) : Disk := b.files.disk

/-- The files in the workspaces' `.agent-workflow` are the same. -/
def SameCapsules (d d' : Disk) : Prop :=
  ∀ ws name, d'.read (capsuleDir ws ++ [name]) = d.read (capsuleDir ws ++ [name])

/-- A program leaves the disk as it is. -/
def Still {α : Type} (m : BackendM α) : Prop :=
  ∀ env d, EnsuresVia diskOf m env d (fun _ d' => d' = d) fun _ d' => d' = d

section disk

variable {α β : Type} {m : BackendM α} {env : Env} {d d' d'' : Disk} {s : LocalServices}
  {ids : RunIds}

theorem SameCapsules.trans (h : SameCapsules d d') (h' : SameCapsules d' d'') :
    SameCapsules d d'' := fun ws name => (h' ws name).trans (h ws name)

theorem via_disk {m : ServiceM α} {Q : α → Disk → Prop} {E : Err → Disk → Prop}
    (h : EnsuresVia Files.disk m env d Q E) : EnsuresVia diskOf (onFiles m) env d Q E := by
  rintro b rfl
  exact ensures_zoom.mpr (h b.files rfl)

theorem Still.via {Q : α → Disk → Prop} {E : Err → Disk → Prop} (h : Still m) (hQ : ∀ a, Q a d)
    (hE : ∀ e, E e d) : EnsuresVia diskOf m env d Q E :=
  (h env d).mono (fun a _ ha => ha ▸ hQ a) fun e _ he => he ▸ hE e

theorem Still.pure {a : α} : Still (Pure.pure a : BackendM α) := fun _ _ => .pure rfl

theorem Still.throw {e : Err} : Still (MonadExcept.throw e : BackendM α) := fun _ _ => .throw rfl

theorem Still.bind {f : α → BackendM β} (h : Still m) (hf : ∀ a, Still (f a)) : Still (m >>= f) :=
  fun env d => .bind (h.via (fun a => hf a env d) fun _ => rfl)

theorem Still.storageCall {k : StorageCall} : Still (storageCall k) := by
  rintro env d b rfl
  exact ensures_storageCall_iff.mpr ⟨fun _ => rfl, fun _ => rfl⟩

theorem Still.dateNow : Still dateNow := by
  rintro env d b rfl
  rfl

theorem Still.appendEvent {eventType : EventType} {payload : List (String × Json)} :
    Still (appendEvent ids eventType payload) := by
  refine .bind (fun env d => ?_) fun _ => .bind .dateNow fun _ => .bind .storageCall fun _ => ?_
  · rintro b rfl
    rfl
  · rintro env d b rfl
    rfl

theorem Still.updateStatus {runId : String} {status : RunStatus} {patch : RunStore.Patch} :
    Still (RunStore.updateStatus runId status patch) := by
  refine .bind (.bind .storageCall fun _ => .bind (fun env d => ?_) fun _ => .pure)
    fun existing => ?_
  · rintro b rfl
    rfl
  · cases existing with
    | none => exact .throw
    | some r =>
      refine .bind .storageCall fun _ => ?_
      rintro env d b rfl
      rfl

theorem Still.finishRun {finish : Finish} : Still (finishRun ids finish) :=
  .bind .dateNow fun _ => .bind .updateStatus fun _ => .appendEvent

theorem Still.selectEdge {source reason : String} {edge : EdgeTo} :
    Still (selectEdge ids source edge reason) := .appendEvent

theorem Still.throwIfAborted {aborted : Bool} : Still (throwIfAborted aborted) := by
  unfold AgentWorkflow.throwIfAborted
  split
  · exact .throw
  · exact .pure

end disk

/-! ## Saves -/

section saves

open LocalArtifactStore (seen)

variable {env : Env} {d : Disk} {s : LocalServices} {ids : RunIds} {kind : ArtifactKind}
  {filename content summary sourcePath : String}

/-- The directory of a run is no capsule: its name begins with `R-`. -/
theorem capsule_ne_savePath {n : ArtifactName} {ws : Path} {name : String} (hn : n.All Segment)
    (hfile : n.filename ≠ ".") (hrun : ∃ id, n.runId = "R-" ++ id) :
    capsuleDir ws ++ [name] ≠ s.store.savePath n := by
  obtain ⟨id, hrun⟩ := hrun
  have hfirst : n.runId.toList.head? = some 'R' := by
    rw [hrun, String.toList_append]
    rfl
  have hdot : n.runId ≠ "." := by
    intro h
    rw [h] at hfirst
    cases hfirst
  intro heq
  rw [s.store.savePath_eq hn, seen, seen, seen, if_neg hdot, if_neg hfile, capsuleDir] at heq
  rw [← List.append_assoc, ← List.append_assoc] at heq
  have hinit := congrArg List.dropLast heq
  rw [List.dropLast_concat, List.dropLast_concat] at hinit
  have hlast := congrArg List.getLast? hinit
  rw [List.getLast?_concat, List.getLast?_concat] at hlast
  rw [← Option.some.inj hlast] at hfirst
  exact absurd hfirst (by decide)

/-- A save leaves the capsules. -/
theorem via_save {save : LocalArtifactStore.Save} (hrun : ∃ id, save.name.runId = "R-" ++ id) :
    EnsuresVia Files.disk (s.store.save save) env d (fun _ d' => SameCapsules d d')
      fun _ d' => SameCapsules d d' := by
  have hkeeps : ∀ ws name, EnsuresVia Files.disk (s.store.save save) env d
      (fun _ d' => d'.read (capsuleDir ws ++ [name]) = d.read (capsuleDir ws ++ [name]))
      fun _ d' => d'.read (capsuleDir ws ++ [name]) = d.read (capsuleDir ws ++ [name]) :=
    fun ws name => LocalArtifactStore.save_keeps fun hn hfile => capsule_ne_savePath hn hfile hrun
  intro files hfiles
  refine ensures_of_forall (fun a f hf ws name => ?_) fun e f hf ws name => ?_
  · exact ((hkeeps ws name) files hfiles).of_ok hf
  · exact ((hkeeps ws name) files hfiles).of_error hf

/-- A text that was saved is where its name leads; the capsules are the same. -/
theorem via_saveText (hrun : ∃ id, ids.runId = "R-" ++ id) :
    EnsuresVia diskOf (saveTextArtifact s.services ids kind filename content summary) env d
      (fun _ d' => SameCapsules d d' ∧
        d'.read (s.store.savePath ⟨ids.taskId, ids.runId, filename⟩) = some content)
      fun _ d' => SameCapsules d d' := by
  have hsave := @via_save env d s (.text (textOf ids kind filename content summary)) hrun
  have hread := @LocalArtifactStore.saveText_spec s.store env d
    (textOf ids kind filename content summary)
  refine .bind (via_disk fun files hfiles => ?_)
  refine ((hsave files hfiles).and (hread files hfiles)).mono (fun ref f h => ?_) fun e f h => h.1
  exact .bind (Still.appendEvent.via
    (fun _ => .pure ⟨h.1, h.2.2.2.2.2⟩) fun _ => h.1)

theorem via_saveFile (hrun : ∃ id, ids.runId = "R-" ++ id) :
    EnsuresVia diskOf (saveFileArtifact s.services ids kind filename sourcePath summary) env d
      (fun _ d' => SameCapsules d d') fun _ d' => SameCapsules d d' := by
  refine .bind (via_disk ((@via_save env d s (.file
    { projectId := ids.projectId, taskId := ids.taskId, runId := ids.runId, kind, filename,
      sourcePath, summary := some summary }) hrun).mono (fun ref d' h => ?_) fun e d' h => h))
  exact .bind (Still.appendEvent.via (fun _ => .pure h) fun _ => h)

end saves

/-! ## A reviewer -/

/-- The artifact of an outcome's verdict. -/
def verdictUri : RunOutcome → Option String
  | .reviewerApproved _ uri => some uri
  | .reviewerChangesRequested _ uri => some uri
  | .reviewerRejected _ uri => some uri
  | .reviewerUnusable _ _ uri _ _ => uri
  | _ => none

/-- The verdict that is in a workspace: none where the file is missing or not valid. -/
def verdictLeft (json : JsonText) (ws : Path) (d : Disk) : Option ReviewVerdict :=
  (d.read (verdictPath ws)).bind fun text => (parseReviewVerdictFile json text).toOption

/-- What a reviewer that left `left` comes to. -/
def Judged (o : RunOutcome) (uri : String) : Option ReviewVerdict → Prop
  | some verdict => o = verdictOutcome o.runId uri verdict.verdict
  | none => ∃ stdout stderr,
      o = .reviewerUnusable o.runId .reviewerUnusable (some uri) stdout stderr

/-- The call of a reviewer's agent in a workspace. -/
def reviewerCall (args : RunTaskArgs) (ws : Path) (workspacePath : String) : RunAgent where
  agentProfile := args.agentProfile
  workspacePath := workspacePath
  promptFile := Path.text (capsuleDir ws ++ ["reviewer_prompt.md"])
  timeoutSeconds := args.agentProfile.timeoutSeconds.map Nat.cast

/-- The brief of a run. -/
def briefOf (args : RunTaskArgs) (workspacePath : String) (reviewContext : ReviewContextText) :
    WriteBrief where
  workspacePath := workspacePath
  workOrder := args.workOrder
  diffText := reviewContext.diffText
  priorFinalReportText := reviewContext.priorFinalReportText

/-- A verdict is the run's own: its agent was given the brief and no verdict, exited with 0, and
left what the outcome says. -/
def OwnVerdict (s : LocalServices) (args : RunTaskArgs) (env : Env) (o : RunOutcome) (uri : String)
    (d : Disk) : Prop :=
  ∃ workspacePath reviewContext f r f', args.reviewContext = some reviewContext ∧
    s.runAdapter (reviewerCall args (resolve s.manager.cwd workspacePath) workspacePath) env f =
      .ok r f' ∧
    (∀ t ∈ FileReviewBriefWriter.texts (briefOf args workspacePath reviewContext),
      f.disk.read (capsuleDir (resolve s.manager.cwd workspacePath) ++ [t.1]) = some t.2) ∧
    f.disk.read (verdictPath (resolve s.manager.cwd workspacePath)) = none ∧
    r.timedOut = false ∧ r.exitCode = some 0 ∧
    Judged o uri (verdictLeft s.platform.json (resolve s.manager.cwd workspacePath) f'.disk) ∧
    ∀ verdict, verdictLeft s.platform.json (resolve s.manager.cwd workspacePath) f'.disk =
        some verdict →
      d.read (s.store.savePath ⟨args.entry.taskId, o.runId, "review_verdict.json"⟩) =
        some (s.platform.json.stringify verdict.toJson ++ "\n")

section reviewer

variable {s : LocalServices} {args : RunTaskArgs} {signal : AbortSignal} {context : RunContext}
  {env : Env} {d : Disk} {o : RunOutcome} {runId : String}

/-- A process that has not failed has exited with 0, in time. -/
theorem exited_of_classify {platform : Platform} {agentProfile : AgentProfileV1}
    {r : AgentProcessResult} (h : classifyOfficialCliFailure platform agentProfile r = .ok none) :
    r.timedOut = false ∧ r.exitCode = some 0 := by
  unfold classifyOfficialCliFailure at h
  split at h
  · cases h
  next htimedOut =>
    split at h
    next hexit => exact ⟨Bool.eq_false_iff.mpr htimedOut, hexit⟩
    · exfalso
      simp only [bind, Except.bind] at h
      split at h
      · cases h
      split at h
      · cases h
      split at h
      · cases h
      split at h
      · cases h
      split at h
      · cases h
      split at h
      · cases h
      · cases h

/-- The agent is called on the disk there is, and leaves another. -/
theorem via_runAdapter {call : RunAgent} : EnsuresVia diskOf
    (WorkerTaskHandler.attempt (onFiles (s.runAdapter call))) env d
    (fun x d' => ∀ r, x = .ok r →
      ∃ f f', f.disk = d ∧ f'.disk = d' ∧ s.runAdapter call env f = .ok r f')
    fun _ _ => True := by
  rintro b rfl
  refine ensures_tryCatch.mpr (ensures_map.mpr (ensures_zoom.mpr ?_))
  refine ensures_of_forall (fun r f' hr r' hr' => ?_) fun e f' _ r hr => by cases hr
  cases hr'
  exact ⟨b.files, f', rfl, rfl, hr⟩

/-- What is read of a workspace's verdict. -/
theorem via_parseReviewVerdict {workspacePath : String} : EnsuresVia Files.disk
    (parseReviewVerdict s.platform.json s.manager.cwd workspacePath) env d
    (fun p d' => d' = d ∧
      (∀ verdict, verdictLeft s.platform.json (resolve s.manager.cwd workspacePath) d =
        some verdict → p = ⟨verdict, false, none, none⟩) ∧
      (verdictLeft s.platform.json (resolve s.manager.cwd workspacePath) d = none →
        p.reviewerUnusable = true))
    fun _ _ => False := by
  rintro f rfl
  unfold parseReviewVerdict verdictLeft
  refine ensures_bind.mpr (ensures_get.mpr ?_)
  cases hread : f.disk.read (verdictPath (resolve s.manager.cwd workspacePath)) with
  | none =>
    simp only [hread]
    split
    · exact ⟨rfl, by simp, fun _ => rfl⟩
    · exact ⟨rfl, by simp, fun _ => rfl⟩
  | some text =>
    simp only [hread, Option.bind_some]
    cases hparse : parseReviewVerdictFile s.platform.json text with
    | ok verdict =>
      refine ⟨rfl, ?_, by simp [Except.toOption]⟩
      rintro _ ⟨⟩
      rfl
    | error e => exact ⟨rfl, by simp [Except.toOption], fun _ => rfl⟩

/-- The verdict that is left, and its artifact. -/
theorem via_readVerdict (hrun : ∃ id, context.ids.runId = "R-" ++ id) : EnsuresVia diskOf
    (readVerdict s.services context) env d
    (fun p d' => match verdictLeft s.platform.json
        (resolve s.manager.cwd context.worktree.workspacePath) d with
      | some verdict => p.1 = ⟨verdict, false, none, none⟩ ∧
        d'.read (s.store.savePath ⟨context.ids.taskId, context.ids.runId, "review_verdict.json"⟩) =
          some (s.platform.json.stringify verdict.toJson ++ "\n")
      | none => p.1.reviewerUnusable = true)
    fun _ _ => True := by
  refine .bind (via_disk (via_parseReviewVerdict.mono (fun parsed d₁ h => ?_) fun _ _ h => h.elim))
  obtain ⟨rfl, hsome, hnone⟩ := h
  refine .bind ((via_saveText hrun).mono (fun artifact d₂ hsaved => ?_) fun _ _ _ => trivial)
  cases hleft : verdictLeft s.platform.json
      (resolve s.manager.cwd context.worktree.workspacePath) d₁ with
  | some verdict =>
    obtain rfl := hsome verdict hleft
    exact .pure ⟨rfl, hsaved.2⟩
  | none =>
    have hunusable := hnone hleft
    split
    · exact .pure hunusable
    · exact .bind ((via_saveText hrun).mono (fun _ _ _ => .pure hunusable) fun _ _ _ => trivial)

/-- The outcome of a verdict is judged by it. -/
theorem judged_verdictOutcome {uri uri' : String} {verdict : ReviewVerdict}
    (h : verdictUri (verdictOutcome runId uri verdict.verdict) = some uri') :
    (verdictOutcome runId uri verdict.verdict).runId = runId ∧
      Judged (verdictOutcome runId uri verdict.verdict) uri' (some verdict) := by
  show _ ∧ verdictOutcome runId uri verdict.verdict =
    verdictOutcome (verdictOutcome runId uri verdict.verdict).runId uri' verdict.verdict
  generalize verdict.verdict = kind at h ⊢
  cases kind <;> cases h <;> exact ⟨rfl, rfl⟩

/-- A program after which nothing is left to say. -/
theorem via_trivial {α : Type} {m : BackendM α} {Q : α → Disk → Prop} (hQ : ∀ a d, Q a d) :
    EnsuresVia diskOf m env d Q fun _ _ => True :=
  fun _ _ => ensures_of_forall (fun a b _ => hQ a (diskOf b)) fun _ _ _ => trivial

/-- A failure without a verdict. -/
theorem via_unusable {finish : Finish} {Q : RunOutcome → Disk → Prop} (hQ : ∀ d, Q o d) :
    EnsuresVia diskOf (do finishRun context.ids finish; pure o) env d Q fun _ _ => True :=
  .bind (via_trivial fun _ d => .pure (hQ d))

/-- A reviewer once its process has ended: a verdict is the one on the disk. -/
theorem via_afterReviewer {r : AgentProcessResult} (hrun : ∃ id, context.ids.runId = "R-" ++ id) :
    EnsuresVia diskOf (afterReviewer s.services args context r) env d
      (fun o d' => ∀ uri, verdictUri o = some uri → o.runId = context.ids.runId ∧
        r.timedOut = false ∧ r.exitCode = some 0 ∧
        Judged o uri (verdictLeft s.platform.json
          (resolve s.manager.cwd context.worktree.workspacePath) d) ∧
        ∀ verdict, verdictLeft s.platform.json
            (resolve s.manager.cwd context.worktree.workspacePath) d = some verdict →
          d'.read (s.store.savePath
              ⟨context.ids.taskId, context.ids.runId, "review_verdict.json"⟩) =
            some (s.platform.json.stringify verdict.toJson ++ "\n"))
      fun _ _ => True := by
  refine .bind ((via_saveText hrun).mono (fun stdout d₁ hstdout => ?_) fun _ _ _ => trivial)
  refine .bind ((via_saveText hrun).mono (fun stderr d₂ hstderr => ?_) fun _ _ _ => trivial)
  have hleft : verdictLeft s.platform.json
      (resolve s.manager.cwd context.worktree.workspacePath) d₂ = verdictLeft s.platform.json
      (resolve s.manager.cwd context.worktree.workspacePath) d := by
    have hsame := (hstdout.1.trans hstderr.1) (resolve s.manager.cwd context.worktree.workspacePath)
      "review_verdict.json"
    exact congrArg (Option.bind · _) hsame
  cases hreason : classifyOfficialCliFailure s.services.platform args.agentProfile r with
  | error e => exact .bind (.throw trivial)
  | ok reason =>
    cases reason with
    | some reason =>
      refine .bind (.pure (via_unusable fun _ uri huri => ?_))
      cases huri
    | none =>
      obtain ⟨htimedOut, hexit⟩ := exited_of_classify hreason
      refine .bind (.pure (.bind ((via_readVerdict hrun).mono (fun p d₃ hread => ?_)
        fun _ _ _ => trivial)))
      rw [hleft] at hread
      cases hverdict : verdictLeft s.platform.json
          (resolve s.manager.cwd context.worktree.workspacePath) d with
      | some verdict =>
        rw [hverdict] at hread
        obtain ⟨hparsed, hsaved⟩ := hread
        refine .ite (fun hunusable => ?_) fun _ => ?_
        · rw [hparsed] at hunusable
          cases hunusable
        · refine .bind (Still.finishRun.via (fun _ => .bind (Still.appendEvent.via (fun _ =>
            .bind (Still.selectEdge.via (fun _ => .pure ?_) fun _ => trivial)) fun _ => trivial))
            fun _ => trivial)
          rw [hparsed]
          intro uri huri
          obtain ⟨hrunId, hjudged⟩ := judged_verdictOutcome huri
          refine ⟨hrunId, htimedOut, hexit, hjudged, ?_⟩
          rintro _ ⟨⟩
          exact hsaved
      | none =>
        rw [hverdict] at hread
        refine .ite (fun _ => via_unusable fun _ uri huri => ?_) fun husable => absurd hread husable
        cases huri
        exact ⟨rfl, htimedOut, hexit, ⟨_, _, rfl⟩, by simp⟩

/-- The outcome's verdict is the run's own, for a run with this context. -/
def VerdictOwn (s : LocalServices) (args : RunTaskArgs) (env : Env) (runId : String)
    (o : RunOutcome) (d : Disk) : Prop :=
  ∀ uri, verdictUri o = some uri → o.runId = runId ∧ OwnVerdict s args env o uri d

theorem via_review {reviewContext : ReviewContextText}
    (hcontext : args.reviewContext = some reviewContext)
    (htask : context.ids.taskId = args.entry.taskId)
    (hrun : ∃ id, context.ids.runId = "R-" ++ id) :
    EnsuresVia diskOf (review s.services args context reviewContext) env d
      (VerdictOwn s args env context.ids.runId) fun _ _ => True := by
  refine .bind (via_disk ((FileReviewBriefWriter.via_writeBrief rfl).mono
    (fun brief d₁ hbrief => ?_) fun _ _ _ => trivial))
  obtain ⟨rfl, -, hbriefed⟩ := hbrief
  refine .bind ((via_saveFile hrun).mono (fun _ d₂ hsame => ?_) fun _ _ _ => trivial)
  refine .bind ((via_saveFile hrun).mono (fun _ d₃ hsame' => ?_) fun _ _ _ => trivial)
  have hcapsule := (hsame.trans hsame') (resolve s.manager.cwd context.worktree.workspacePath)
  refine .bind (Still.appendEvent.via (fun _ => .bind (Still.appendEvent.via (fun _ =>
    .bind (via_runAdapter.mono (fun agentResult d₄ hagent => ?_) fun _ _ _ => trivial))
    fun _ => trivial)) fun _ => trivial)
  cases agentResult with
  | error e =>
    refine .ite (fun _ => .throw trivial) fun _ => via_unusable fun _ uri huri => ?_
    cases huri
  | ok r =>
    obtain ⟨f, f', rfl, rfl, hrun'⟩ := hagent r rfl
    refine (via_afterReviewer hrun).mono (fun o d' h uri huri => ?_) fun _ _ _ => trivial
    obtain ⟨hrunId, htimedOut, hexit, hjudged, hsaved⟩ := h uri huri
    refine ⟨hrunId, context.worktree.workspacePath, reviewContext, f, r, f', hcontext, hrun',
      fun t ht => (hcapsule t.1).trans (hbriefed.reads t ht),
      (hcapsule "review_verdict.json").trans hbriefed.verdict, htimedOut, hexit, hjudged, ?_⟩
    rwa [hrunId, ← htask]

theorem via_runReviewer (htask : context.ids.taskId = args.entry.taskId)
    (hrun : ∃ id, context.ids.runId = "R-" ++ id) :
    EnsuresVia diskOf (runReviewer s.services args signal context) env d
      (VerdictOwn s args env context.ids.runId) fun _ _ => True := by
  refine .bind (Still.throwIfAborted.via (fun _ => ?_) fun _ => trivial)
  cases hcontext : args.reviewContext with
  | none =>
    refine via_unusable fun _ uri huri => ?_
    cases huri
  | some reviewContext =>
    refine .bind (EnsuresVia.mono (Q := fun refused _ => ∀ o, refused = some o →
      verdictUri o = none) (E := fun _ _ => True) ?_ (fun refused d₁ hrefused => ?_)
      fun _ _ _ => trivial)
    · refine .bind (via_trivial fun applyResult d₁ => .ite (fun _ => .pure (by simp)) fun _ => ?_)
      refine .bind (via_trivial fun p d₂ => .bind (via_trivial fun _ d₃ =>
        .bind (via_trivial fun _ d₄ => .pure ?_)))
      rintro _ ⟨⟩
      rfl
    · cases refused with
      | some outcome =>
        refine .pure fun uri huri => ?_
        rw [hrefused outcome rfl] at huri
        cases huri
      | none =>
        refine .tryCatch ((via_review hcontext htask hrun).mono (fun _ _ h => h) fun e d₂ _ => ?_)
        refine .ite (fun _ => .throw trivial) fun _ => via_unusable fun _ uri huri => ?_
        cases huri

end reviewer

/-! ## The context of a run -/

/-- A context was made for these arguments. -/
structure MadeFor (s : LocalServices) (args : RunTaskArgs) (context : RunContext) : Prop where
  taskId : context.ids.taskId = args.entry.taskId
  runId : ∃ id, context.ids.runId = "R-" ++ id
  role : context.role = args.entry.nextRole
  manifest : ∃ startedAt, context.manifest =
    buildRunManifest s.services args context.ids.runId context.worktree startedAt

section context

variable {s : LocalServices} {args : RunTaskArgs} {signal : AbortSignal} {env : Env} {d : Disk}

theorem via_createRunContext : EnsuresVia diskOf (createRunContext s.services args) env d
    (fun created _ => ∀ context, created = .ok context → MadeFor s args context)
    fun _ _ => True := by
  refine .bind (via_trivial fun id d₁ => .bind (via_trivial fun startedAt d₂ => ?_))
  refine .bind (via_trivial fun _ d₃ => .bind (via_trivial fun _ d₄ =>
    .bind (via_trivial fun _ d₅ => ?_)))
  refine .tryCatch ?_
  rw [map_eq_pure_bind]
  refine .bind (EnsuresVia.mono (Q := fun context _ => MadeFor s args context)
    (E := fun _ _ => True) ?_ (fun context d₆ hmade => .pure ?_) fun e d₆ _ => ?_)
  · refine .bind (via_trivial fun worktree d₆ => .bind (via_trivial fun manifestArtifact d₇ => ?_))
    exact .bind (via_trivial fun _ d₈ => .bind (via_trivial fun _ d₉ =>
      .pure ⟨rfl, ⟨id, rfl⟩, rfl, startedAt, rfl⟩))
  · rintro _ ⟨⟩
    exact hmade
  · exact .bind (via_trivial fun _ d₇ => .bind (via_trivial fun _ d₈ => .pure (by simp)))

/-- What the roles ensure, a run ensures; an outcome without a context comes with nothing. -/
theorem via_runTaskOnce {Q : RunOutcome → Disk → Prop}
    (hrole : ∀ context d, MadeFor s args context →
      EnsuresVia diskOf (runRole s.services args signal context) env d Q fun _ _ => True)
    (hfailed : ∀ failure d, Q (creationFailed failure) d) :
    EnsuresVia diskOf (runTaskOnce s.services signal args) env d Q fun _ _ => True := by
  refine .bind (via_trivial fun _ d₁ => .bind (via_createRunContext.mono
    (fun created d₂ hmade => ?_) fun _ _ _ => trivial))
  cases created with
  | error failure => exact .pure (hfailed failure d₂)
  | ok context =>
    refine .tryCatch ((hrole context d₂ (hmade context rfl)).mono (fun _ _ h => h) fun e d₃ _ => ?_)
    exact .ite (fun _ => .bind (via_trivial fun _ d₄ => .throw trivial)) fun _ => .throw trivial

end context

namespace Sample

/-- A verdict as a reviewer writes it. -/
def approvedText : String :=
  "\x7b\"schema_version\":\"agent-workflow/1\",\"verdict\":\"approved\",\"summary\":\"Fine\"," ++
    "\"comments\":[]\x7d"

/-- `JSON.parse`, as far as that text goes. -/
def parseApproved (text : String) : Option Json :=
  if text = approvedText then
    some (.obj [("schema_version", .str "agent-workflow/1"), ("verdict", .str "approved"),
      ("summary", .str "Fine"), ("comments", .arr [])])
  else none

/-- An agent that leaves a text in its workspace's `.agent-workflow`. -/
def leaving (filename content : String) (call : RunAgent) : ServiceM AgentProcessResult := do
  onDisk (Disk.writeFile · (capsuleDir (resolve [] call.workspacePath) ++ [filename]) content)
  pure ⟨some 0, false, "", "", 0, 0⟩

/-- Services with such an agent. -/
def localServices (filename content : String) : LocalServices where
  platform := { runServices.platform with json := ⟨fun _ => "json", parseApproved⟩ }
  repo := ["repo"]
  manager := ⟨GitWorktreeSandboxProvider.sampleGit, []⟩
  runAdapter := leaving filename content
  runVerifier _ := pure ⟨true, []⟩

/-- A review of a diff that applies. -/
def editArgs : RunTaskArgs :=
  { reviewArgs with
    reviewContext := some ⟨GitWorktreeSandboxProvider.editText, "artifact://diff.patch", none, none,
      none⟩ }

/-- What a run has returned. -/
def returned : EStateM.Result Err Backend RunOutcome → Option RunOutcome
  | .ok o _ => some o
  | .error _ _ => none

theorem returned_eq_some {result : EStateM.Result Err Backend RunOutcome} {o : RunOutcome}
    (h : returned result = some o) : ∃ b, result = .ok o b := by
  cases result with
  | ok o' b =>
    obtain rfl := Option.some.inj h
    exact ⟨b, rfl⟩
  | error e b => cases h

end Sample

/-! ## An implementer -/

/-- The artifact of an outcome's report. -/
def reportUri : RunOutcome → Option String
  | .implementerSucceeded _ _ _ uri => uri
  | .implementerFailed _ _ _ _ uri => uri
  | _ => none

/-- Where an agent leaves its report. -/
def reportPath (ws : Path) : Path := capsuleDir ws ++ ["final_report.md"]

/-- A report that is not blank is in the workspace. -/
def reportLeft (ws : Path) (d : Disk) : Bool := (d.read (reportPath ws)).any hasText

/-- The packet a run hands to its agent. -/
def attachedPacket (args : RunTaskArgs) : Option HandoffPacket :=
  (truthy args.handoffPacketUri).bind fun _ => args.handoffPacket

/-- The call of an implementer's agent in a workspace. -/
def implementerCall (args : RunTaskArgs) (ws : Path) (workspacePath : String) : RunAgent where
  agentProfile := args.agentProfile
  workspacePath := workspacePath
  promptFile := Path.text (capsuleDir ws ++ ["prompt.md"])
  timeoutSeconds := some (args.workOrder.budget.maxWallTimeMinutes * 60)

/-- The capsule of a run. -/
def capsuleOf (args : RunTaskArgs) (workspacePath : String) (manifest : RunManifestV1) :
    WriteCapsule where
  workspacePath := workspacePath
  workOrder := args.workOrder
  runManifest := manifest

/-- What an implementer's agent is given: the files of its capsule, with an empty report, its
prompt, and before it what it takes over. -/
structure Given (s : LocalServices) (args : RunTaskArgs) (manifest : RunManifestV1) (ws : Path)
    (d : Disk) : Prop where
  first : ∀ t ∈ FileTaskCapsuleWriter.firstTexts s.platform args.workOrder.toWorkOrderV1 manifest,
    d.read (capsuleDir ws ++ [t.1]) = some t.2
  manifest : d.read (capsuleDir ws ++ ["run_manifest.json"]) =
    some (manifestText s.services manifest)
  report : d.read (reportPath ws) = some ""
  prompt : d.read (capsuleDir ws ++ ["prompt.md"]) =
    some (((attachedPacket args).map HandoffManager.buildTakeoverParagraph).getD "" ++
      FileTaskCapsuleWriter.promptMd)
  packet : ∀ packet, attachedPacket args = some packet →
    d.read (capsuleDir ws ++ ["handoff_packet.json"]) =
      some (HandoffManager.packetText s.platform.json packet)

/-- The run's agent was given its files, and left what `P` says of its result and its report. -/
def Worked (s : LocalServices) (args : RunTaskArgs) (env : Env) (runId : String)
    (P : AgentProcessResult → Bool → Prop) : Prop :=
  ∃ worktree startedAt f r f',
    s.runAdapter (implementerCall args (resolve s.manager.cwd worktree.workspacePath)
      worktree.workspacePath) env f = .ok r f' ∧
    Given s args (buildRunManifest s.services args runId worktree startedAt)
      (resolve s.manager.cwd worktree.workspacePath) f.disk ∧
    P r (reportLeft (resolve s.manager.cwd worktree.workspacePath) f'.disk)

/-- `path.join` and `path.resolve` of a workspace and its report lead to the same path. -/
def LocalServices.Joins (s : LocalServices) : Prop :=
  ∀ workspacePath, resolve s.manager.cwd
    (s.platform.pathJoin [workspacePath, ".agent-workflow", "final_report.md"]) =
      reportPath (resolve s.manager.cwd workspacePath)

/-- The disk of an attempt, and the report it has published. -/
abbrev attemptDisk : Backend × PublishedArtifacts → Disk × Option ArtifactRef :=
  fun s => (diskOf s.1, s.2.finalReport)

section implementer

variable {α : Type} {s : LocalServices} {args : RunTaskArgs} {signal : AbortSignal}
  {context : RunContext} {env : Env} {d : Disk} {rep : Option ArtifactRef} {ws : Path}

theorem via_lift {m : BackendM α} {Q : α → Disk × Option ArtifactRef → Prop}
    {E : Err → Disk × Option ArtifactRef → Prop}
    (h : EnsuresVia diskOf m env d (fun a d' => Q a (d', rep)) fun e d' => E e (d', rep)) :
    EnsuresVia attemptDisk (lift m) env (d, rep) Q E := by
  rintro s hs
  obtain ⟨rfl, rfl⟩ := Prod.mk.inj hs
  exact ensures_zoom.mpr (h s.1 rfl)

/-- What is published next to the report. -/
theorem via_publish {f : PublishedArtifacts → PublishedArtifacts} {Q : Unit → _ → Prop} {E}
    (hf : ∀ a, (f a).finalReport = a.finalReport) (hQ : Q () (d, rep)) :
    EnsuresVia attemptDisk (publish f) env (d, rep) Q E := by
  rintro s hs
  obtain ⟨rfl, rfl⟩ := Prod.mk.inj hs
  show Q () (diskOf s.1, (f s.2).finalReport)
  rw [hf]
  exact hQ

/-- What an agent leaves as a report is published. -/
theorem via_publishFinalReport (hjoins : s.Joins) (hrun : ∃ id, context.ids.runId = "R-" ++ id) :
    EnsuresVia attemptDisk (publishFinalReport s.services context) env (d, none)
      (fun _ v => v.2.isSome = reportLeft (resolve s.manager.cwd context.worktree.workspacePath) d)
      fun _ v => v.2 = none := by
  have hpath : resolve s.manager.cwd (finalReportPath s.services context) =
      reportPath (resolve s.manager.cwd context.worktree.workspacePath) := hjoins _
  refine .bind (via_lift (via_disk (via_existsAt ?_)))
  rw [hpath]
  refine .ite (fun hfound => .bind (via_lift (via_disk ?_))) fun hmissing => .pure ?_
  · show EnsuresVia Files.disk
      (readFile (resolve s.manager.cwd (finalReportPath s.services context))) env d _ _
    rw [hpath]
    refine LocalArtifactStore.via_readFile (fun text hread => ?_) fun _ _ => rfl
    have hleft :
        reportLeft (resolve s.manager.cwd context.worktree.workspacePath) d = hasText text := by
      rw [reportLeft, hread]
      rfl
    rw [hleft]
    refine .ite (fun htext => .bind (via_lift ((via_saveFile hrun).mono (fun artifact d₁ _ => ?_)
      fun _ _ _ => rfl))) fun hblank => .pure (Bool.eq_false_iff.mpr hblank).symm
    rintro ⟨b, a⟩ hs
    exact htext.symm
  · have hnone :
        d.read (reportPath (resolve s.manager.cwd context.worktree.workspacePath)) = none :=
      Option.isSome_eq_false_iff.mp (Bool.or_eq_false_iff.mp (Bool.eq_false_iff.mpr hmissing)).2 |>
        Option.isNone_iff_eq_none.mp
    rw [reportLeft, hnone]
    rfl

/-- Taking a diff leaves the disk. -/
theorem via_diff {workspacePath : String} : EnsuresVia Files.disk
    (s.services.sandboxProvider.diff workspacePath) env d (fun _ d' => d' = d)
    fun _ d' => d' = d := by
  rintro files rfl
  show Ensures (s.manager.diff workspacePath) env files _ _
  unfold CliGitWorktreeManager.diff
  refine ensures_bind.mpr (ensures_get.mpr ?_)
  split
  · rfl
  · unfold CliGitWorktreeManager.gitRaw
    exact ensures_ite.mpr ⟨fun _ => rfl, fun _ => rfl⟩

theorem not_published {P : Prop} (h : (none : Option ArtifactRef).isSome = true) : P := by
  cases h

/-- Of what an agent leaves, a report that is not blank is published. -/
theorem via_publishOutputs {capsule : TaskCapsuleWriteResult} {r : AgentProcessResult}
    (hjoins : s.Joins) (hrun : ∃ id, context.ids.runId = "R-" ++ id) :
    EnsuresVia attemptDisk (publishOutputs s.services context capsule r) env (d, none)
      (fun _ v => v.2.isSome = reportLeft (resolve s.manager.cwd context.worktree.workspacePath) d)
      fun _ v => v.2.isSome = true →
        reportLeft (resolve s.manager.cwd context.worktree.workspacePath) d = true := by
  refine .bind (via_lift ((via_saveText hrun).mono (fun stdout d₁ hstdout => ?_) fun _ _ _ => ?_))
  swap
  · exact not_published
  refine .bind (via_publish (fun _ => rfl) ?_)
  refine .bind (via_lift ((via_saveText hrun).mono (fun stderr d₂ hstderr => ?_) fun _ _ _ => ?_))
  swap
  · exact not_published
  refine .bind (via_publish (fun _ => rfl) ?_)
  refine .bind (via_lift (via_disk (via_diff.mono (fun diffText d₃ hdiff => ?_) fun _ _ _ => ?_)))
  swap
  · exact not_published
  subst hdiff
  refine .bind (via_lift ((via_saveText hrun).mono (fun diff d₄ hsaved => ?_) fun _ _ _ => ?_))
  swap
  · exact not_published
  refine .bind (via_publish (fun _ => rfl) ?_)
  have hleft : reportLeft (resolve s.manager.cwd context.worktree.workspacePath) d₄ =
      reportLeft (resolve s.manager.cwd context.worktree.workspacePath) d :=
    congrArg (Option.any hasText)
      ((hstdout.1.trans (hstderr.1.trans hsaved.1)) _ "final_report.md")
  refine .bind ((via_publishFinalReport hjoins hrun).mono (fun _ v hreport => ?_)
    fun _ v hv h => ?_)
  swap
  · rw [hv] at h
    cases h
  obtain ⟨d₅, rep⟩ := v
  rw [hleft] at hreport
  exact .bind (via_lift ((via_saveText hrun).mono (fun _ _ _ => .pure hreport)
    fun _ _ _ h => hreport.symm.trans h))

/-- A program of an attempt that publishes no report. -/
theorem maintains_lift {m : BackendM α} :
    Maintains (fun s : Backend × PublishedArtifacts => s.2.finalReport = rep) (lift m)
      fun _ => True := fun _ _ hs =>
  ensures_zoom.mpr (ensures_of_forall (fun _ _ _ => ⟨trivial, hs⟩) fun _ _ _ => hs)

theorem maintains_verify :
    Maintains (fun s : Backend × PublishedArtifacts => s.2.finalReport = rep)
      (verify s.services args context) fun _ => True := by
  unfold verify
  split
  · exact .pure trivial
  · refine .ite (fun _ => .pure trivial) fun _ => ?_
    refine .bind maintains_lift fun _ _ => .bind maintains_lift fun result _ => ?_
    refine .bind maintains_lift fun artifact _ => .bind (.modify fun _ h => h) fun _ _ => ?_
    exact .bind maintains_lift fun _ _ => .pure trivial

/-- The outcome's report is the one that was published. -/
theorem maintains_finishImplementer {diff : ArtifactRef} {passed : Bool} :
    Maintains (fun s : Backend × PublishedArtifacts => s.2.finalReport = rep)
      (finishImplementer args context diff passed)
      fun o => reportUri o = rep.map ArtifactRef.uri ∧ o.runId = context.ids.runId := by
  intro env s hs
  refine ensures_bind.mpr ?_
  show Ensures (if passed = true then _ else _) env s _ _
  have hend : ∀ {α : Type} {m : BackendM α} {o : RunOutcome} {s : Backend × PublishedArtifacts},
      s.2.finalReport = rep → reportUri o = rep.map ArtifactRef.uri →
      o.runId = context.ids.runId →
      Ensures (do let _ ← lift m; pure o) env s
        (fun o s => (reportUri o = rep.map ArtifactRef.uri ∧ o.runId = context.ids.runId) ∧
          s.2.finalReport = rep) fun _ s => s.2.finalReport = rep := by
    intro α m o s hs ho hid
    refine ensures_bind.mpr ((maintains_lift env s hs).mono (fun _ _ h => ⟨⟨ho, hid⟩, h.2⟩)
      fun _ _ h => h)
  refine ensures_ite.mpr ⟨fun _ => ?_, fun _ => hend hs (by rw [← hs]; rfl) rfl⟩
  refine ensures_bind.mpr ((maintains_lift env s hs).mono (fun _ s' h => ?_) fun _ _ h => h)
  exact hend h.2 (by rw [← hs]; rfl) rfl

/-- An implementer that succeeded. -/
def Succeeded : RunOutcome → Prop
  | .implementerSucceeded .. => True
  | _ => False

theorem via_maintains {m : AttemptM α} {P : α → Prop}
    (h : Maintains (fun s : Backend × PublishedArtifacts => s.2.finalReport = rep) m P) :
    EnsuresVia attemptDisk m env (d, rep) (fun a v => P a ∧ v.2 = rep) fun _ v => v.2 = rep := by
  rintro s hs
  obtain ⟨rfl, rfl⟩ := Prod.mk.inj hs
  exact h env s rfl

/-- An implementer whose agent has failed. -/
theorem maintains_failed {reason : ImplementerFailureReason} {finish : Finish} {diff : String} :
    Maintains (fun s : Backend × PublishedArtifacts => s.2.finalReport = rep)
      (do
        let artifacts ← published
        lift (finishRun context.ids finish)
        pure (.implementerFailed context.ids.runId reason (some diff) none
          (artifacts.finalReport.map ArtifactRef.uri)))
      fun o => reportUri o = rep.map ArtifactRef.uri ∧ o.runId = context.ids.runId ∧
        ¬ Succeeded o := by
  intro env s hs
  refine ensures_bind.mpr ?_
  show Ensures (do lift (finishRun context.ids finish); pure _) env s _ _
  refine ensures_bind.mpr ((maintains_lift env s hs).mono (fun _ s' h => ⟨⟨?_, rfl, id⟩, h.2⟩)
    fun _ _ h => h)
  rw [← hs]
  rfl

/-- An implementer once its process has ended. -/
theorem via_afterImplementer {capsule : TaskCapsuleWriteResult} {r : AgentProcessResult}
    (hjoins : s.Joins) (hrun : ∃ id, context.ids.runId = "R-" ++ id) :
    EnsuresVia attemptDisk (afterImplementer s.services args context capsule r) env (d, none)
      (fun o _ => o.runId = context.ids.runId ∧ (reportUri o).isSome =
          reportLeft (resolve s.manager.cwd context.worktree.workspacePath) d ∧
        (Succeeded o → r.timedOut = false ∧ r.exitCode = some 0))
      fun _ v => v.2.isSome = true →
        reportLeft (resolve s.manager.cwd context.worktree.workspacePath) d = true := by
  refine .bind ((via_publishOutputs hjoins hrun).mono (fun diff v hreport => ?_) fun _ _ h => h)
  obtain ⟨d₁, rep⟩ := v
  have hout : ∀ v : Disk × Option ArtifactRef, v.2 = rep → v.2.isSome = true →
      reportLeft (resolve s.manager.cwd context.worktree.workspacePath) d = true := by
    intro v hv h
    rw [hv] at h
    exact hreport.symm.trans h
  have hreported : ∀ {o : RunOutcome}, reportUri o = rep.map ArtifactRef.uri →
      (reportUri o).isSome =
        reportLeft (resolve s.manager.cwd context.worktree.workspacePath) d := by
    intro o ho
    rw [ho, Option.isSome_map]
    exact hreport
  cases hreason : classifyOfficialCliFailure s.services.platform args.agentProfile r with
  | error e => exact .bind (via_lift (.throw (hout (d₁, rep) rfl)))
  | ok reason =>
    refine .bind (via_lift (.pure ?_))
    cases reason with
    | some reason =>
      exact (via_maintains maintains_failed).mono
        (fun o _ h => ⟨h.1.2.1, hreported h.1.1, fun hs => absurd hs h.1.2.2⟩)
        fun _ v hv => hout v hv
    | none =>
      have hexited := exited_of_classify hreason
      exact (via_maintains (.bind maintains_verify fun _ _ => maintains_finishImplementer)).mono
        (fun o _ h => ⟨h.1.2, hreported h.1.1, fun _ => hexited⟩) fun _ v hv => hout v hv

/-- The packet is attached when there is one to hand over. -/
theorem via_attachHandoff (hmanifest : context.manifest.handoffPacketUri = args.handoffPacketUri) :
    EnsuresVia diskOf (attachHandoff s.services args context) env d
      (fun _ d' => (attachedPacket args = none → d' = d) ∧
        ∀ packet, attachedPacket args = some packet →
          HandoffManager.Attached s.platform.json packet
            (resolve s.manager.cwd context.worktree.workspacePath) d d')
      fun _ _ => True := by
  unfold attachHandoff attachedPacket
  rw [hmanifest]
  cases truthy args.handoffPacketUri with
  | none => exact .pure ⟨fun _ => rfl, by simp⟩
  | some uri =>
    cases hpacket : args.handoffPacket with
    | none => exact .pure ⟨fun _ => rfl, by simp⟩
    | some packet =>
      refine via_disk ((HandoffManager.via_attachToBrief rfl).mono (fun _ d₁ h => ?_)
        fun _ _ _ => trivial)
      refine ⟨by simp, ?_⟩
      rintro _ ⟨⟩
      exact h.2

/-- What a capsule and a handoff leave is what the agent is given. -/
theorem given_of_written {manifest : RunManifestV1} {workspacePath : String} {d₁ d₂ : Disk}
    (hcapsule : FileTaskCapsuleWriter.Capsuled s.platform (capsuleOf args workspacePath manifest) ws
      d d₁)
    (hnone : attachedPacket args = none → d₂ = d₁)
    (hsome : ∀ packet, attachedPacket args = some packet →
      HandoffManager.Attached s.platform.json packet ws d₁ d₂) :
    Given s args manifest ws d₂ := by
  have hlast : ∀ {name content : String}, (name, content) ∈
      FileTaskCapsuleWriter.lastTexts s.platform manifest →
      d₁.read (capsuleDir ws ++ [name]) = some content := fun hmem => hcapsule.last _ hmem
  have hkept : ∀ {name : String}, name ≠ "handoff_packet.json" → name ≠ "prompt.md" →
      d₂.read (capsuleDir ws ++ [name]) = d₁.read (capsuleDir ws ++ [name]) := by
    intro name hne hne'
    cases hattached : attachedPacket args with
    | none => rw [hnone hattached]
    | some packet =>
      exact (hsome packet hattached).others _ (fun h => hne (Disk.below_inj.mp h))
        fun h => hne' (Disk.below_inj.mp h)
  have hprompt : d₁.read (capsuleDir ws ++ ["prompt.md"]) = some FileTaskCapsuleWriter.promptMd :=
    hlast (by simp [FileTaskCapsuleWriter.lastTexts])
  refine ⟨fun t ht => ?_, ?_, ?_, ?_, fun packet hpacket => (hsome packet hpacket).packet_read⟩
  · have hname : t.1 = "work_order.md" ∨ t.1 = "constraints.json" := by
      simp only [FileTaskCapsuleWriter.firstTexts, List.mem_cons, List.not_mem_nil, or_false] at ht
      rcases ht with rfl | rfl
      · exact Or.inl rfl
      · exact Or.inr rfl
    rw [hkept (by rcases hname with h | h <;> rw [h] <;> decide)
      (by rcases hname with h | h <;> rw [h] <;> decide)]
    exact hcapsule.first t ht
  · rw [hkept (by decide) (by decide)]
    exact hlast (by simp [FileTaskCapsuleWriter.lastTexts, manifestText, LocalServices.services])
  · show d₂.read (capsuleDir ws ++ ["final_report.md"]) = some ""
    rw [hkept (by decide) (by decide)]
    exact hlast (by simp [FileTaskCapsuleWriter.lastTexts])
  · cases hattached : attachedPacket args with
    | none =>
      rw [hnone hattached, hprompt]
      simp
    | some packet =>
      obtain ⟨existingContent, hexisting, hread⟩ := (hsome packet hattached).prompt
      rw [hprompt] at hexisting
      rw [hread, ← Option.some.inj hexisting, Option.map_some, Option.getD_some]

/-- What is said of an implementer's outcome. -/
def ReportOwn (s : LocalServices) (args : RunTaskArgs) (env : Env) (o : RunOutcome) : Prop :=
  (Succeeded o → Worked s args env o.runId fun r left =>
    r.timedOut = false ∧ r.exitCode = some 0 ∧ (reportUri o).isSome = left) ∧
  ((reportUri o).isSome = true → Worked s args env o.runId fun _ left => left = true)

/-- An outcome before the agent has ended. -/
theorem reportOwn_of_none {o : RunOutcome} (hs : ¬ Succeeded o) (hnone : reportUri o = none) :
    ReportOwn s args env o := by
  refine ⟨fun h => absurd h hs, fun h => ?_⟩
  rw [hnone] at h
  cases h

/-- The `try` of an implementer. -/
theorem via_implement (hjoins : s.Joins) (hmade : MadeFor s args context) :
    EnsuresVia attemptDisk (implement s.services args signal context) env (d, none)
      (fun o _ => ReportOwn s args env o)
      fun _ v => v.2.isSome = true →
        Worked s args env context.ids.runId fun _ left => left = true := by
  obtain ⟨startedAt, hmanifest⟩ := hmade.manifest
  refine .bind (via_lift (Still.throwIfAborted.via (fun _ => ?_) fun _ => not_published))
  refine .bind (via_lift (via_disk ((FileTaskCapsuleWriter.via_writeCapsule rfl).mono
    (fun capsule d₁ h => ?_) fun _ _ _ => not_published)))
  obtain ⟨rfl, -, hcapsuled⟩ := h
  refine .bind (via_lift ((via_attachHandoff (by rw [hmanifest]; rfl)).mono (fun _ d₂ h => ?_)
    fun _ _ _ => not_published))
  have hgiven : Given s args context.manifest
      (resolve s.manager.cwd context.worktree.workspacePath) d₂ :=
    given_of_written hcapsuled h.1 h.2
  refine .bind (via_lift (Still.appendEvent.via (fun _ => ?_) fun _ => not_published))
  refine .bind (via_lift (via_runAdapter.mono (fun agentResult d₃ hagent => ?_)
    fun _ _ _ => not_published))
  cases agentResult with
  | error e =>
    refine .ite (fun _ => .throw not_published) fun _ => ?_
    exact .bind (via_lift (Still.finishRun.via (fun _ => .pure (reportOwn_of_none id rfl))
      fun _ => not_published))
  | ok r =>
    obtain ⟨f, f', rfl, rfl, hcall⟩ := hagent r rfl
    rw [hmanifest] at hgiven
    have hworked : ∀ {P : AgentProcessResult → Bool → Prop},
        P r (reportLeft (resolve s.manager.cwd context.worktree.workspacePath) f'.disk) →
        Worked s args env context.ids.runId P := fun hP =>
      ⟨context.worktree, startedAt, f, r, f', hcall, hgiven, hP⟩
    refine (via_afterImplementer hjoins hmade.runId).mono (fun o _ h => ?_)
      fun _ v hleft h => hworked (hleft h)
    obtain ⟨hid, hreport, hexited⟩ := h
    rw [ReportOwn, hid]
    exact ⟨fun hs => hworked ⟨(hexited hs).1, (hexited hs).2, hreport⟩,
      fun h => hworked (hreport.symm.trans h)⟩

theorem via_runImplementer (hjoins : s.Joins) (hmade : MadeFor s args context) :
    EnsuresVia diskOf (runImplementer s.services args signal context) env d
      (fun o _ => ReportOwn s args env o) fun _ _ => True := by
  have hattempt : EnsuresVia diskOf (runAttempt (implement s.services args signal context)) env d
      (fun p _ => (∀ o, p.1 = .ok o → ReportOwn s args env o) ∧
        ∀ e, p.1 = .error e → p.2.finalReport.isSome = true →
          Worked s args env context.ids.runId fun _ left => left = true)
      fun _ _ => True := by
    rintro b rfl
    have hm : Ensures (implement s.services args signal context) env (b, {}) _ _ :=
      via_implement hjoins hmade (b, {}) rfl
    unfold Ensures at hm ⊢
    unfold runAttempt
    cases hres : implement s.services args signal context env (b, {}) with
    | ok o s' =>
      rw [hres] at hm
      refine ⟨?_, by simp⟩
      rintro _ ⟨⟩
      exact hm
    | error e s' =>
      rw [hres] at hm
      refine ⟨by simp, ?_⟩
      rintro _ ⟨⟩
      exact hm
  refine .bind (hattempt.mono (fun p d₁ h => ?_) fun _ _ _ => trivial)
  obtain ⟨result, artifacts⟩ := p
  cases result with
  | ok o => exact .pure (h.1 o rfl)
  | error e =>
    refine .ite (fun _ => .throw trivial) fun _ => .bind (via_trivial fun _ d₂ => .pure ?_)
    refine ⟨fun hs => hs.elim, fun hsome => h.2 e rfl ?_⟩
    rwa [reportUri, Option.isSome_map] at hsome

end implementer

namespace Sample

theorem localServices_joins (filename content : String) :
    (localServices filename content).Joins := by
  intro workspacePath
  have hjoin :
      (String.intercalate "/" [workspacePath, ".agent-workflow", "final_report.md"]).toList =
        workspacePath.toList ++ '/' :: ".agent-workflow/final_report.md".toList := by
    simp
  have hsplit : split (String.intercalate "/" [workspacePath, ".agent-workflow", "final_report.md"])
      '/' = split workspacePath '/' ++ [".agent-workflow", "final_report.md"] := by
    rw [split, hjoin, List.splitOn_append_cons_self, List.map_append]
    rfl
  show resolve [] (String.intercalate "/" [workspacePath, ".agent-workflow", "final_report.md"]) =
    resolve [] workspacePath ++ [".agent-workflow"] ++ ["final_report.md"]
  rw [resolve, resolve, hsplit, List.foldl_append, ite_self, ite_self]
  simp [Posix.step]

/-- An implementation. -/
def implementArgs : RunTaskArgs :=
  { reviewArgs with
    entry := { reviewArgs.entry with nextRole := .implementer }
    agentProfile := (agent "rita" rita_ne_empty .implementer).profile
    reviewContext := none }

end Sample

end AgentWorkflow
