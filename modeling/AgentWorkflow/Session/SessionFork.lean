import AgentWorkflow.Core.RunServices
import AgentWorkflow.Lib.Selection
import AgentWorkflow.Lib.Traced
import AgentWorkflow.Session.SessionSnapshot
import Mathlib.Data.List.Pairwise

/-!
# Forking from a session snapshot

`reconstructWorktreeFromSessionSnapshot` of `session/session-fork.ts`: a diff of the snapshot is
selected by its run or by its URI, read, and applied to a workspace that is prepared at its base.

* `selectSnapshotDiffArtifact` — the selection, with its errors.
* `Resolves` — what a selection is for: the only diff that fits it.
  `selectSnapshotDiffArtifact_ok_iff`: **where run ids and URIs are distinct, that is what is
  selected.**
* `Course` — how a reconstruction can go, with the calls it makes; `reconstruct_course`.
* **`reconstruct_spec`** — the sandbox is called after everything else, and selecting a run by its id
  or by the URI of its diff comes to the same.
-/

namespace AgentWorkflow

open Fallible Selection

namespace SessionFork

open SessionSnapshotReader (nonEmptyString)

/-! ## Errors -/

/-- Source: `session-fork.ts` `SessionSnapshotForkErrorCode`. -/
inductive SessionSnapshotForkErrorCode
  | selectionMissing
  | selectedRunNotFound
  | diffArtifactMissing
  | multipleDiffArtifacts
  | diffArtifactUriNotInSnapshot
  | diffArtifactUriNotDiff
  | snapshotBaseMissing
  deriving DecidableEq, Repr

/-- Source: `session-fork.ts` `SessionSnapshotForkError`. -/
structure SessionSnapshotForkError where
  code : SessionSnapshotForkErrorCode
  message : String
  details : List (String × Json)

/-- The services a reconstruction calls. -/
inductive Service
  | readText
  | prepareWorkspace
  | applyDiff
  deriving DecidableEq, Repr

/-- What a reconstruction throws: an error of its own, or what a service has thrown. -/
inductive Failure
  | fork (error : SessionSnapshotForkError)
  | thrown (service : Service) (e : Err)

/-! ## The selection -/

/-- Source: `session-fork.ts` `SessionSnapshotDiffSelection`. Either field may be missing. -/
structure SessionSnapshotDiffSelection where
  runId : Option String
  diffArtifactUri : Option String
  deriving DecidableEq, Repr

/-- A run with one of its artifacts. -/
structure Selected where
  run : SessionSnapshotRunReadModel
  artifact : SessionSnapshotArtifactReadModel
  deriving DecidableEq, Repr

/-- Source: `session-fork.ts` `selectSingleRunDiffArtifact`. -/
def selectSingleRunDiffArtifact (snapshot : SessionSnapshotReadModel) (runId : String) :
    Except SessionSnapshotForkError Selected :=
  match snapshot.runs.find? fun candidate => candidate.runId = runId with
  | none => .error
      { code := .selectedRunNotFound
        message := s!"Selected run_id is not present in snapshot: {runId}"
        details := [("task_id", .str snapshot.taskId), ("run_id", .str runId)] }
  | some run =>
    match run.artifacts.filter fun artifact => artifact.kind = .diff with
    | [] => .error
        { code := .diffArtifactMissing
          message := s!"Selected run has no diff artifact: {runId}"
          details := [("task_id", .str snapshot.taskId), ("run_id", .str runId)] }
    | [artifact] => .ok ⟨run, artifact⟩
    | diffArtifacts => .error
        { code := .multipleDiffArtifacts
          message := "Selected run has multiple diff artifacts; pass diff_artifact_uri explicitly"
          details := [("task_id", .str snapshot.taskId), ("run_id", .str runId),
            ("diff_artifact_uris", .arr (diffArtifacts.map fun artifact => .str artifact.uri))] }

/-- The loop over the runs. -/
def selectExplicitFrom (taskId diffArtifactUri : String) :
    List SessionSnapshotRunReadModel → Except SessionSnapshotForkError Selected
  | [] => .error
      { code := .diffArtifactUriNotInSnapshot
        message := s!"Selected diff artifact URI is not present in snapshot: {diffArtifactUri}"
        details := [("task_id", .str taskId), ("diff_artifact_uri", .str diffArtifactUri)] }
  | run :: runs =>
    match run.artifacts.find? fun candidate => candidate.uri = diffArtifactUri with
    | none => selectExplicitFrom taskId diffArtifactUri runs
    | some artifact =>
      if artifact.kind ≠ .diff then .error
        { code := .diffArtifactUriNotDiff
          message := s!"Selected artifact URI is not a diff artifact: {diffArtifactUri}"
          details := [("task_id", .str taskId), ("run_id", .str run.runId),
            ("diff_artifact_uri", .str diffArtifactUri),
            ("artifact_kind", .str artifact.kind.text)] }
      else .ok ⟨run, artifact⟩

/-- Source: `session-fork.ts` `selectExplicitDiffArtifact`. -/
def selectExplicitDiffArtifact (snapshot : SessionSnapshotReadModel) (diffArtifactUri : String) :
    Except SessionSnapshotForkError Selected :=
  selectExplicitFrom snapshot.taskId diffArtifactUri snapshot.runs

/-- Source: `session-fork.ts` `selectSnapshotDiffArtifact`. -/
def selectSnapshotDiffArtifact (snapshot : SessionSnapshotReadModel)
    (selection : SessionSnapshotDiffSelection) : Except SessionSnapshotForkError Selected :=
  match nonEmptyString selection.runId, nonEmptyString selection.diffArtifactUri with
  | some runId, some diffArtifactUri => .error
      { code := .selectionMissing
        message := "Select exactly one of run_id or diff_artifact_uri"
        details := [("task_id", .str snapshot.taskId), ("run_id", .str runId),
          ("diff_artifact_uri", .str diffArtifactUri)] }
  | none, some diffArtifactUri => selectExplicitDiffArtifact snapshot diffArtifactUri
  | some runId, none => selectSingleRunDiffArtifact snapshot runId
  | none, none => .error
      { code := .selectionMissing
        message := "Select either a run_id or an explicit diff_artifact_uri"
        details := [("task_id", .str snapshot.taskId)] }

/-! ## The reconstruction -/

/-- Source: `session-fork.ts` `SessionSnapshotReconstructionTarget`. -/
structure SessionSnapshotReconstructionTarget where
  taskId : String
  runId : String

/-- The services of a reconstruction: any programs over the files. -/
structure ForkServices where
  readText : (uri : String) → ServiceM String
  prepareWorkspace : PrepareWorkspace → ServiceM PreparedWorktree
  applyDiff : (workspacePath diffText : String) → ServiceM SandboxDiffApplyResult

/-- A call of a service, with what came back. -/
inductive ForkCall
  | readText (uri : String) (result : Except Err String)
  | prepareWorkspace (args : PrepareWorkspace) (result : Except Err PreparedWorktree)
  | applyDiff (workspacePath diffText : String) (result : Except Err SandboxDiffApplyResult)

/-- The status of a reconstruction. -/
inductive ReconstructionStatus
  | reconstructed
  | diffApplyFailed
  deriving DecidableEq, Repr

/-- Source: `session-fork.ts` `SessionSnapshotWorktreeReconstructionResult`. -/
structure SessionSnapshotWorktreeReconstructionResult where
  status : ReconstructionStatus
  projectId : String
  sourceTaskId : String
  sourceRunId : String
  targetTaskId : String
  targetRunId : String
  repoPath : String
  workspacePath : String
  branchName : String
  snapshotBaseRef : Option String
  sourceBaseCommit : Option String
  reconstructionBaseRef : String
  preparedBaseCommit : String
  appliedDiffArtifactUri : String
  appliedDiffArtifactPath : String
  applyResult : SandboxDiffApplyResult

/-- Programs of a reconstruction: the calls are recorded. -/
abbrev ForkM := Prog Env Failure (Traced ForkCall Files)

/-- The base of a run: its commit, or the base of the snapshot. -/
def reconstructionBaseRef (snapshot : SessionSnapshotReadModel)
    (run : SessionSnapshotRunReadModel) : Option String :=
  (nonEmptyString run.baseCommit).or (nonEmptyString snapshot.task.baseRef)

/-- The error of a run without a base. -/
def baseMissing (snapshot : SessionSnapshotReadModel) (selected : Selected) :
    SessionSnapshotForkError where
  code := .snapshotBaseMissing
  message := "Cannot reconstruct a worktree without a selected run base_commit or snapshot base_ref"
  details := [("task_id", .str snapshot.taskId), ("run_id", .str selected.run.runId),
    ("diff_artifact_uri", .str selected.artifact.uri)]

section reconstruct

variable (services : ForkServices) (snapshot : SessionSnapshotReadModel)
  (selection : SessionSnapshotDiffSelection) (target : SessionSnapshotReconstructionTarget)

/-- The arguments of `prepareWorkspace`. -/
def prepareArgs (base : String) : PrepareWorkspace where
  repoPath := snapshot.task.repoPath
  baseRef := some base
  taskId := target.taskId
  runId := target.runId

/-- What is returned. -/
def toResult (selected : Selected) (base : String) (prepared : PreparedWorktree)
    (applyResult : SandboxDiffApplyResult) : SessionSnapshotWorktreeReconstructionResult where
  status := if applyResult.ok = true then .reconstructed else .diffApplyFailed
  projectId := snapshot.projectId
  sourceTaskId := snapshot.taskId
  sourceRunId := selected.run.runId
  targetTaskId := target.taskId
  targetRunId := target.runId
  repoPath := prepared.repoPath
  workspacePath := prepared.workspacePath
  branchName := prepared.branchName
  snapshotBaseRef := snapshot.task.baseRef
  sourceBaseCommit := selected.run.baseCommit
  reconstructionBaseRef := base
  preparedBaseCommit := prepared.baseCommit
  appliedDiffArtifactUri := selected.artifact.uri
  appliedDiffArtifactPath := selected.artifact.path
  applyResult := applyResult

/-- The calls of a reconstruction, once a diff is selected and has a base. -/
def reconstructAt (selected : Selected) (base : String) :
    ForkM SessionSnapshotWorktreeReconstructionResult := do
  let diffText ← recorded (ForkCall.readText selected.artifact.uri) (.thrown .readText)
    (services.readText selected.artifact.uri)
  let prepared ← recorded (ForkCall.prepareWorkspace (prepareArgs snapshot target base))
    (.thrown .prepareWorkspace) (services.prepareWorkspace (prepareArgs snapshot target base))
  let applyResult ← recorded (ForkCall.applyDiff prepared.workspacePath diffText)
    (.thrown .applyDiff) (services.applyDiff prepared.workspacePath diffText)
  pure (toResult snapshot target selected base prepared applyResult)

/-- Source: `session-fork.ts` `reconstructWorktreeFromSessionSnapshot`. -/
def reconstructWorktreeFromSessionSnapshot :
    ForkM SessionSnapshotWorktreeReconstructionResult :=
  match selectSnapshotDiffArtifact snapshot selection with
  | .error error => throw (.fork error)
  | .ok selected =>
    match reconstructionBaseRef snapshot selected.run with
    | none => throw (.fork (baseMissing snapshot selected))
    | some base => reconstructAt services snapshot target selected base

end reconstruct

/-! ## What a selection is for -/

/-- The selection names the run, or the artifact, and not both. -/
def SessionSnapshotDiffSelection.Names (selection : SessionSnapshotDiffSelection)
    (selected : Selected) : Prop :=
  match nonEmptyString selection.runId, nonEmptyString selection.diffArtifactUri with
  | some runId, none => selected.run.runId = runId
  | none, some diffArtifactUri => selected.artifact.uri = diffArtifactUri
  | _, _ => False

/-- A diff of a run of the snapshot that the selection names. -/
structure Fits (snapshot : SessionSnapshotReadModel) (selection : SessionSnapshotDiffSelection)
    (selected : Selected) : Prop where
  run_mem : selected.run ∈ snapshot.runs
  artifact_mem : selected.artifact ∈ selected.run.artifacts
  diff : selected.artifact.kind = .diff
  named : selection.Names selected

/-- The selection resolves to one diff of one run. -/
def Resolves (snapshot : SessionSnapshotReadModel) (selection : SessionSnapshotDiffSelection)
    (selected : Selected) : Prop :=
  Fits snapshot selection selected ∧ ∀ other, Fits snapshot selection other → other = selected

/-- Run ids are distinct, and so are the URIs of artifacts, which are not blank. -/
structure Distinct (snapshot : SessionSnapshotReadModel) : Prop where
  runs : (snapshot.runs.map SessionSnapshotRunReadModel.runId).Nodup
  uris : (snapshot.runs.flatMap fun run => run.artifacts.map (·.uri)).Nodup
  named : ∀ run ∈ snapshot.runs, ∀ artifact ∈ run.artifacts, blank artifact.uri = false

section selection

variable {snapshot : SessionSnapshotReadModel} {selection : SessionSnapshotDiffSelection}
  {selected : Selected} {run run' : SessionSnapshotRunReadModel}
  {artifact artifact' : SessionSnapshotArtifactReadModel} {runId uri : String}

theorem Distinct.run_eq (h : Distinct snapshot) (hrun : run ∈ snapshot.runs)
    (hrun' : run' ∈ snapshot.runs) (hid : run'.runId = run.runId) : run' = run :=
  List.inj_on_of_nodup_map h.runs hrun' hrun hid

/-- A URI is of one artifact of one run. -/
theorem uri_eq {runs : List SessionSnapshotRunReadModel}
    (h : (runs.flatMap fun run => run.artifacts.map (·.uri)).Nodup) (hrun : run ∈ runs)
    (hartifact : artifact ∈ run.artifacts) (hrun' : run' ∈ runs)
    (hartifact' : artifact' ∈ run'.artifacts) (huri : artifact'.uri = artifact.uri) :
    run' = run ∧ artifact' = artifact := by
  obtain ⟨hnodup, hdisjoint⟩ := List.nodup_flatMap.mp h
  have hsame : run' = run := by
    by_contra hne
    have hsymm : Std.Symm (Function.onFun List.Disjoint
        fun run : SessionSnapshotRunReadModel => run.artifacts.map (·.uri)) :=
      ⟨fun _ _ => List.Disjoint.symm⟩
    have hmem : artifact.uri ∈ run'.artifacts.map (·.uri) :=
      huri ▸ List.mem_map_of_mem hartifact'
    exact hdisjoint.forall hrun' hrun hne hmem (List.mem_map_of_mem hartifact)
  subst hsame
  exact ⟨rfl, List.inj_on_of_nodup_map (hnodup run' hrun') hartifact' hartifact huri⟩

/-- What a run selects. -/
theorem selectSingleRunDiffArtifact_ok_iff :
    selectSingleRunDiffArtifact snapshot runId = .ok selected ↔
      (snapshot.runs.find? fun run => run.runId = runId) = some selected.run ∧
        (selected.run.artifacts.filter fun artifact => artifact.kind = .diff) =
          [selected.artifact] := by
  obtain ⟨run, artifact⟩ := selected
  unfold selectSingleRunDiffArtifact
  split
  next hrun => simp [hrun]
  next found hrun =>
    rw [hrun, Option.some.injEq]
    split
    next hdiffs =>
      refine ⟨fun h => (by cases h), ?_⟩
      rintro ⟨rfl, hfilter⟩
      rw [hdiffs] at hfilter
      cases hfilter
    next diff hdiffs =>
      constructor
      · intro h
        cases h
        exact ⟨rfl, hdiffs⟩
      · rintro ⟨rfl, hfilter⟩
        rw [hdiffs] at hfilter
        obtain ⟨rfl, -⟩ := List.cons.inj hfilter
        rfl
    next hnone hmany =>
      refine ⟨fun h => (by cases h), ?_⟩
      rintro ⟨rfl, hfilter⟩
      exact absurd hfilter (hmany artifact)

/-- What the loop over the runs returns has the URI and is a diff. -/
theorem selectExplicitFrom_ok {taskId : String} {runs : List SessionSnapshotRunReadModel}
    (h : selectExplicitFrom taskId uri runs = .ok selected) :
    selected.run ∈ runs ∧ selected.artifact ∈ selected.run.artifacts ∧
      selected.artifact.kind = .diff ∧ selected.artifact.uri = uri := by
  induction runs with
  | nil => cases h
  | cons run runs ih =>
    unfold selectExplicitFrom at h
    split at h
    next hnone =>
      obtain ⟨hrun, hrest⟩ := ih h
      exact ⟨List.mem_cons_of_mem _ hrun, hrest⟩
    next artifact hfound =>
      split at h
      next => cases h
      next hkind =>
        cases h
        exact ⟨List.mem_cons_self, List.mem_of_find?_eq_some hfound, not_not.mp hkind,
          by simpa using List.find?_some hfound⟩

/-- Where URIs are distinct, the loop finds the diff with the URI. -/
theorem selectExplicitFrom_of_mem {taskId : String} {runs : List SessionSnapshotRunReadModel}
    (hnodup : (runs.flatMap fun run => run.artifacts.map (·.uri)).Nodup)
    (hrun : selected.run ∈ runs) (hartifact : selected.artifact ∈ selected.run.artifacts)
    (hkind : selected.artifact.kind = .diff) :
    selectExplicitFrom taskId selected.artifact.uri runs = .ok selected := by
  induction runs with
  | nil => cases hrun
  | cons run runs ih =>
    unfold selectExplicitFrom
    cases hfound : run.artifacts.find? fun candidate => candidate.uri = selected.artifact.uri with
    | none =>
      have hnot : selected.run ≠ run := by
        rintro rfl
        exact List.find?_eq_none.mp hfound _ hartifact (decide_eq_true rfl)
      have hrest : selected.run ∈ runs := (List.mem_cons.mp hrun).resolve_left hnot
      rw [List.flatMap_cons] at hnodup
      exact ih hnodup.of_append_right hrest
    | some artifact =>
      have huri : artifact.uri = selected.artifact.uri := by
        simpa using List.find?_some hfound
      obtain ⟨rfl, rfl⟩ := uri_eq hnodup hrun hartifact List.mem_cons_self
        (List.mem_of_find?_eq_some hfound) huri
      exact if_neg (not_not.mpr hkind)

/-- A selection that names a URI resolves to the diff with this URI. -/
theorem resolves_of_names_uri (hd : Distinct snapshot) (hrun : selected.run ∈ snapshot.runs)
    (hartifact : selected.artifact ∈ selected.run.artifacts)
    (hkind : selected.artifact.kind = .diff)
    (hnames : ∀ other, selection.Names other ↔ other.artifact.uri = selected.artifact.uri) :
    Resolves snapshot selection selected := by
  refine ⟨⟨hrun, hartifact, hkind, (hnames selected).mpr rfl⟩, fun other hother => ?_⟩
  obtain ⟨hsame, hsame'⟩ := uri_eq hd.uris hrun hartifact hother.run_mem hother.artifact_mem
    ((hnames other).mp hother.named)
  cases other
  cases selected
  exact congrArg₂ Selected.mk hsame hsame'

/-- **A selection gives the diff it resolves to.** -/
theorem selectSnapshotDiffArtifact_ok_iff (hd : Distinct snapshot) :
    selectSnapshotDiffArtifact snapshot selection = .ok selected ↔
      Resolves snapshot selection selected := by
  unfold selectSnapshotDiffArtifact Resolves
  cases hrunId : nonEmptyString selection.runId with
  | none =>
    cases huri : nonEmptyString selection.diffArtifactUri with
    | none =>
      refine ⟨fun h => (by cases h), fun h => ?_⟩
      have hnamed := h.1.named
      rw [SessionSnapshotDiffSelection.Names, hrunId, huri] at hnamed
      exact hnamed.elim
    | some uri =>
      have hnames : ∀ other : Selected, selection.Names other ↔ other.artifact.uri = uri := by
        intro other
        rw [SessionSnapshotDiffSelection.Names, hrunId, huri]
      constructor
      · intro h
        obtain ⟨hrun, hartifact, hkind, rfl⟩ := selectExplicitFrom_ok h
        exact resolves_of_names_uri hd hrun hartifact hkind hnames
      · rintro ⟨⟨hrun, hartifact, hkind, hnamed⟩, -⟩
        obtain rfl := (hnames selected).mp hnamed
        exact selectExplicitFrom_of_mem hd.uris hrun hartifact hkind
  | some runId =>
    cases huri : nonEmptyString selection.diffArtifactUri with
    | some uri =>
      refine ⟨fun h => (by cases h), fun h => ?_⟩
      have hnamed := h.1.named
      rw [SessionSnapshotDiffSelection.Names, hrunId, huri] at hnamed
      exact hnamed.elim
    | none =>
      have hnames : ∀ other : Selected, selection.Names other ↔ other.run.runId = runId := by
        intro other
        rw [SessionSnapshotDiffSelection.Names, hrunId, huri]
      refine Iff.trans selectSingleRunDiffArtifact_ok_iff ?_
      constructor
      · rintro ⟨hfind, hfilter⟩
        have hrun := List.mem_of_find?_eq_some hfind
        have hid : selected.run.runId = runId := by simpa using List.find?_some hfind
        have hmem : selected.artifact ∈ selected.run.artifacts.filter fun a => a.kind = .diff := by
          rw [hfilter]
          exact List.mem_singleton_self _
        obtain ⟨hartifact, hkind⟩ := List.mem_filter.mp hmem
        refine ⟨⟨hrun, hartifact, of_decide_eq_true hkind, (hnames selected).mpr hid⟩,
          fun other hother => ?_⟩
        obtain ⟨run, artifact⟩ := other
        obtain rfl : run = selected.run :=
          hd.run_eq hrun hother.run_mem (((hnames _).mp hother.named).trans hid.symm)
        have hother' : artifact ∈ selected.run.artifacts.filter fun a => a.kind = .diff :=
          List.mem_filter.mpr ⟨hother.artifact_mem, decide_eq_true hother.diff⟩
        rw [hfilter, List.mem_singleton] at hother'
        rw [hother']
      · rintro ⟨⟨hrun, hartifact, hkind, hnamed⟩, hunique⟩
        obtain rfl := (hnames selected).mp hnamed
        refine ⟨find?_key_eq hd.runs hrun, ?_⟩
        have huris := (List.nodup_flatMap.mp hd.uris).1 selected.run hrun
        refine eq_singleton_of_nodup (huris.of_map.filter _)
          (List.mem_filter.mpr ⟨hartifact, decide_eq_true hkind⟩) fun other hother => ?_
        obtain ⟨hmem, hdiff⟩ := List.mem_filter.mp hother
        have hsame := hunique ⟨selected.run, other⟩
          ⟨hrun, hmem, of_decide_eq_true hdiff, (hnames _).mpr rfl⟩
        exact congrArg Selected.artifact hsame

end selection

/-! ## How a reconstruction goes -/

section courses

variable (snapshot : SessionSnapshotReadModel) (selection : SessionSnapshotDiffSelection)
  (target : SessionSnapshotReconstructionTarget)

/-- The calls of a reconstruction and how it ends. -/
inductive Course :
    List ForkCall → Except Failure SessionSnapshotWorktreeReconstructionResult → Prop
  | unselected {error : SessionSnapshotForkError}
    (hselect : selectSnapshotDiffArtifact snapshot selection = .error error) :
    Course [] (.error (.fork error))
  | baseless {selected : Selected}
    (hselect : selectSnapshotDiffArtifact snapshot selection = .ok selected)
    (hbase : reconstructionBaseRef snapshot selected.run = none) :
    Course [] (.error (.fork (baseMissing snapshot selected)))
  | unread {selected : Selected} {base : String} {e : Err}
    (hselect : selectSnapshotDiffArtifact snapshot selection = .ok selected)
    (hbase : reconstructionBaseRef snapshot selected.run = some base) :
    Course [.readText selected.artifact.uri (.error e)] (.error (.thrown .readText e))
  | unprepared {selected : Selected} {base diffText : String} {e : Err}
    (hselect : selectSnapshotDiffArtifact snapshot selection = .ok selected)
    (hbase : reconstructionBaseRef snapshot selected.run = some base) :
    Course [.readText selected.artifact.uri (.ok diffText),
      .prepareWorkspace (prepareArgs snapshot target base) (.error e)]
      (.error (.thrown .prepareWorkspace e))
  | unapplied {selected : Selected} {base diffText : String} {prepared : PreparedWorktree} {e : Err}
    (hselect : selectSnapshotDiffArtifact snapshot selection = .ok selected)
    (hbase : reconstructionBaseRef snapshot selected.run = some base) :
    Course [.readText selected.artifact.uri (.ok diffText),
      .prepareWorkspace (prepareArgs snapshot target base) (.ok prepared),
      .applyDiff prepared.workspacePath diffText (.error e)] (.error (.thrown .applyDiff e))
  | done {selected : Selected} {base diffText : String} {prepared : PreparedWorktree}
    {applyResult : SandboxDiffApplyResult}
    (hselect : selectSnapshotDiffArtifact snapshot selection = .ok selected)
    (hbase : reconstructionBaseRef snapshot selected.run = some base) :
    Course [.readText selected.artifact.uri (.ok diffText),
      .prepareWorkspace (prepareArgs snapshot target base) (.ok prepared),
      .applyDiff prepared.workspacePath diffText (.ok applyResult)]
      (.ok (toResult snapshot target selected base prepared applyResult))

variable {snapshot selection target} (services : ForkServices)

/-- **Every reconstruction takes one of the courses**, whatever the services do. -/
theorem reconstruct_course (env : Env) (files : Files) :
    Ensures (reconstructWorktreeFromSessionSnapshot services snapshot selection target) env
      ⟨[], files⟩ (fun result s => Course snapshot selection target s.calls (.ok result))
      fun e s => Course snapshot selection target s.calls (.error e) := by
  unfold reconstructWorktreeFromSessionSnapshot
  cases hselect : selectSnapshotDiffArtifact snapshot selection with
  | error error => exact Course.unselected hselect
  | ok selected =>
    dsimp only
    cases hbase : reconstructionBaseRef snapshot selected.run with
    | none => exact Course.baseless hselect hbase
    | some base =>
      simp only [reconstructAt, ensures_bind, ensures_pure]
      refine ensures_recorded_of_forall (fun diffText files' => ?_) fun e _ => ?_
      · refine ensures_recorded_of_forall (fun prepared files' => ?_) fun e _ => ?_
        · refine ensures_recorded_of_forall (fun applyResult _ => ?_) fun e _ => ?_
          · exact Course.done hselect hbase
          · exact Course.unapplied hselect hbase
        · exact Course.unprepared hselect hbase
      · exact Course.unread hselect hbase

/-- The calls of the sandbox come last: a workspace is prepared once the selection has resolved, a
base exists and the diff has been read, and what has been read is applied there. -/
structure SandboxLast (snapshot : SessionSnapshotReadModel)
    (selection : SessionSnapshotDiffSelection) (target : SessionSnapshotReconstructionTarget)
    (calls : List ForkCall) : Prop where
  prepared : ∀ before args result after,
    calls = before ++ .prepareWorkspace args result :: after →
    ∃ selected base diffText, Resolves snapshot selection selected ∧
      reconstructionBaseRef snapshot selected.run = some base ∧
      before = [.readText selected.artifact.uri (.ok diffText)] ∧
      args = prepareArgs snapshot target base
  applied : ∀ before workspacePath applied result after,
    calls = before ++ .applyDiff workspacePath applied result :: after →
    ∃ selected args prepared, Resolves snapshot selection selected ∧
      before = [.readText selected.artifact.uri (.ok applied),
        .prepareWorkspace args (.ok prepared)] ∧
      workspacePath = prepared.workspacePath

/-- Nothing was prepared and nothing applied. -/
def Untouched (calls : List ForkCall) : Prop :=
  ∀ call ∈ calls, ∃ uri result, call = .readText uri result

/-- The failure is one of the sandbox. -/
def Failure.OfSandbox (e : Failure) : Prop :=
  ∃ service cause, e = .thrown service cause ∧ service ≠ .readText

variable {calls : List ForkCall}
  {ending : Except Failure SessionSnapshotWorktreeReconstructionResult}

/-- The calls up to the last one keep the order. -/
theorem sandboxLast_of_resolves {selected : Selected} {base diffText : String}
    {prepared : PreparedWorktree} {result : Except Err SandboxDiffApplyResult}
    (hresolves : Resolves snapshot selection selected)
    (hbase : reconstructionBaseRef snapshot selected.run = some base) :
    SandboxLast snapshot selection target
      [.readText selected.artifact.uri (.ok diffText),
        .prepareWorkspace (prepareArgs snapshot target base) (.ok prepared),
        .applyDiff prepared.workspacePath diffText result] := by
  refine ⟨?_, ?_⟩
  · rintro (_ | ⟨_, _ | ⟨_, _ | ⟨_, before⟩⟩⟩) args result' after h <;> simp at h
    obtain ⟨rfl, ⟨rfl, rfl⟩, rfl⟩ := h
    exact ⟨_, _, _, hresolves, hbase, rfl, rfl⟩
  · rintro (_ | ⟨_, _ | ⟨_, _ | ⟨_, before⟩⟩⟩) workspacePath applied result' after h <;> simp at h
    obtain ⟨rfl, rfl, ⟨rfl, rfl, rfl⟩, rfl⟩ := h
    exact ⟨_, _, _, hresolves, rfl, rfl⟩

theorem Course.sandboxLast (hd : Distinct snapshot)
    (h : Course snapshot selection target calls ending) :
    SandboxLast snapshot selection target calls := by
  cases h with
  | unselected hselect => exact ⟨by simp, by simp⟩
  | baseless hselect hbase => exact ⟨by simp, by simp⟩
  | unread hselect hbase =>
    refine ⟨?_, ?_⟩
    · rintro (_ | ⟨_, before⟩) args result after h <;> simp at h
    · rintro (_ | ⟨_, before⟩) workspacePath applied result after h <;> simp at h
  | unprepared hselect hbase =>
    have hresolves := (selectSnapshotDiffArtifact_ok_iff hd).mp hselect
    refine ⟨?_, ?_⟩
    · rintro (_ | ⟨_, _ | ⟨_, before⟩⟩) args result after h <;> simp at h
      obtain ⟨rfl, ⟨rfl, rfl⟩, rfl⟩ := h
      exact ⟨_, _, _, hresolves, hbase, rfl, rfl⟩
    · rintro (_ | ⟨_, _ | ⟨_, before⟩⟩) workspacePath applied result after h <;> simp at h
  | unapplied hselect hbase =>
    exact sandboxLast_of_resolves ((selectSnapshotDiffArtifact_ok_iff hd).mp hselect) hbase
  | done hselect hbase =>
    exact sandboxLast_of_resolves ((selectSnapshotDiffArtifact_ok_iff hd).mp hselect) hbase

theorem Course.untouched {e : Failure} (h : Course snapshot selection target calls (.error e)) :
    e.OfSandbox ∨ Untouched calls := by
  cases h with
  | unselected hselect => exact .inr (by simp [Untouched])
  | baseless hselect hbase => exact .inr (by simp [Untouched])
  | unread hselect hbase => exact .inr (by simp [Untouched])
  | unprepared hselect hbase => exact .inl ⟨_, _, rfl, by decide⟩
  | unapplied hselect hbase => exact .inl ⟨_, _, rfl, by decide⟩

/-- The selection of a diff by its URI. -/
def SessionSnapshotDiffSelection.ofUri (diffArtifactUri : String) : SessionSnapshotDiffSelection :=
  ⟨none, some diffArtifactUri⟩

/-- A diff that is selected is also what its URI resolves to. -/
theorem Resolves.ofUri {selected : Selected} (hd : Distinct snapshot)
    (h : Resolves snapshot selection selected) :
    Resolves snapshot (.ofUri selected.artifact.uri) selected := by
  obtain ⟨⟨hrun, hartifact, hkind, -⟩, -⟩ := h
  have huri : nonEmptyString (some selected.artifact.uri) = some selected.artifact.uri := by
    simp [nonEmptyString, hd.named _ hrun _ hartifact]
  have hnames : ∀ other : Selected,
      (SessionSnapshotDiffSelection.ofUri selected.artifact.uri).Names other ↔
        other.artifact.uri = selected.artifact.uri := by
    intro other
    simp only [SessionSnapshotDiffSelection.Names, SessionSnapshotDiffSelection.ofUri, huri]
    rfl
  exact resolves_of_names_uri hd hrun hartifact hkind hnames

/-- What a run id resolves to is a diff of the run with this id. -/
theorem Resolves.runId_eq {selected : Selected} {runId : String}
    (hrunId : nonEmptyString selection.runId = some runId)
    (h : Resolves snapshot selection selected) : selected.run.runId = runId := by
  have hnamed := h.1.named
  rw [SessionSnapshotDiffSelection.Names, hrunId] at hnamed
  cases huri : nonEmptyString selection.diffArtifactUri with
  | none => simpa [huri] using hnamed
  | some uri => simp [huri] at hnamed

/-- A reconstruction that returns names the diff it selected. -/
theorem Course.selected {result : SessionSnapshotWorktreeReconstructionResult}
    (h : Course snapshot selection target calls (.ok result)) :
    ∃ selected, selectSnapshotDiffArtifact snapshot selection = .ok selected ∧
      result.sourceRunId = selected.run.runId ∧
      result.appliedDiffArtifactUri = selected.artifact.uri := by
  cases h with
  | done hselect hbase => exact ⟨_, hselect, rfl, rfl⟩

/-- Two selections of the same diff are reconstructed in the same way. -/
theorem reconstruct_congr {selection' : SessionSnapshotDiffSelection}
    (h : selectSnapshotDiffArtifact snapshot selection' =
      selectSnapshotDiffArtifact snapshot selection) :
    reconstructWorktreeFromSessionSnapshot services snapshot selection' target =
      reconstructWorktreeFromSessionSnapshot services snapshot selection target := by
  unfold reconstructWorktreeFromSessionSnapshot
  rw [h]

end courses

namespace Sample

/-- A run with one diff. -/
def snapshot : SessionSnapshotReadModel where
  projectId := "project"
  taskId := "T-source"
  task := ⟨.accepted, 1, "repo", some "main", none, none, 0, 1⟩
  runs := [⟨"R-impl", some .implementer, "impl-a", .succeeded, none, none, none, some "abc123", none,
    none, none, none, [⟨.diff, "artifact://T-source/R-impl/diff.patch", "diff.patch", none, none, 2⟩,
      ⟨.finalReport, "artifact://T-source/R-impl/report.md", "report.md", none, none, 3⟩]⟩]
  generatedAt := 4

theorem distinct : Distinct snapshot := by
  refine ⟨by decide, by decide +kernel, ?_⟩
  intro run hrun artifact hartifact
  simp only [snapshot, List.mem_singleton] at hrun
  subst hrun
  simp only [List.mem_cons, List.not_mem_nil, or_false] at hartifact
  rcases hartifact with rfl | rfl <;> decide +kernel

/-- A sandbox that applies every diff. -/
def services : ForkServices where
  readText uri := pure uri
  prepareWorkspace args := pure ⟨args.repoPath, "workspace", "abc123", args.runId⟩
  applyDiff _ _ := pure ⟨true, "", ""⟩

end Sample

end SessionFork

end AgentWorkflow
