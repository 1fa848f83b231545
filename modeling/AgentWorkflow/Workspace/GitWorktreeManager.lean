import AgentWorkflow.Core.RunServices
import AgentWorkflow.Storage.ArtifactStore

/-!
# Git worktrees as workspaces

`CliGitWorktreeManager` of `workspace/git-worktree-manager.ts` and `GitWorktreeSandboxProvider` of
`workspace/sandbox-provider.ts`: a workspace is a git worktree, a diff is what `git diff` prints, and
it is applied with `git apply --3way`.

* `Git` — what the two ask git for: its commits, its text of a patch, and what it does with a patch
  that does not apply.
* `prepare`, `diff`, `applyDiff` — programs over the worktrees.
* **`reproduces_iff`** — when a diff that was taken, stored, read and applied to a fresh workspace
  gives the files its author left: a new file is tracked by nobody, so it is in no diff.
-/

namespace AgentWorkflow

open Fallible Posix

/-- A patch of texts. -/
abbrev FilePatch := List (Patching.Change String String)

/-- What is asked of git. -/
structure Git where
  /-- `git rev-parse --git-dir` succeeds. -/
  isRepo : (repoPath : String) → Bool
  /-- `git rev-parse`; none when it fails. -/
  revParse : (repoPath ref : String) → Option String
  /-- The files of a commit. -/
  tree : (repoPath commit : String) → FileTree
  /-- `git worktree add -b` succeeds. -/
  addsWorktree : (repoPath branchName workspacePath commit : String) → Bool
  /-- What `git diff` prints for a list of changes. -/
  render : FilePatch → String
  /-- The changes `git apply` reads in a text; none when it reads no patch. -/
  parse : String → Option FilePatch
  /-- `git apply --3way` on a patch that does not apply as it is: whether it succeeds, and the
  worktree it leaves. -/
  threeWay : FilePatch → Worktree → Bool × Worktree
  /-- What `git apply` prints on its two outputs. -/
  messages : String → Worktree → String × String

/-- Git, and the directory the process was started in. -/
structure CliGitWorktreeManager where
  git : Git
  cwd : Path

namespace CliGitWorktreeManager

variable (manager : CliGitWorktreeManager)

/-- Source: `git-worktree-manager.ts` `validatePathSegment`. The artifact store's refuses a percent
sign as well. -/
def validatePathSegment (name value : String) : Except Err Unit :=
  if value = "" then .error (.error ("Invalid " ++ name ++ ": empty string"))
  else if blank value = true then .error (.error ("Invalid " ++ name ++ ": whitespace only"))
  else if includes value ".." = true then
    .error (.error ("Invalid " ++ name ++ " (path traversal): \"" ++ value ++ "\""))
  else if isAbsolute value = true then
    .error (.error ("Invalid " ++ name ++ " (absolute path): \"" ++ value ++ "\""))
  else if value ≠ basename value then
    .error (.error ("Invalid " ++ name ++ " (contains path separator): \"" ++ value ++ "\""))
  else .ok ()

/-- The bytes `execFileSync` takes from a process by default. -/
def maxBuffer : ℕ := 1024 * 1024

/-- The output of a git command, as it is. Source: `git-worktree-manager.ts` `gitRaw`. -/
def gitRaw (args output : String) : ServiceM String :=
  if maxBuffer < output.utf8ByteSize then
    throw (.error ("git " ++ args ++ " failed: spawnSync git ENOBUFS"))
  else pure output

/-- Source: `git-worktree-manager.ts` `diff`. -/
def diff (workspacePath : String) : ServiceM String := do
  let files ← get
  match files.worktrees.lookup workspacePath with
  | none => throw (.error "git diff failed: spawnSync git ENOENT")
  | some w => gitRaw "diff" (manager.git.render (Patching.between w.index w.worktree))

/-- Add a line to a file. Source: `fs.appendFileSync`. -/
def appendFile (p : Path) (content : String) : ServiceM Unit := do
  let files ← get
  onDisk (Disk.writeFile · p ((files.disk.read p).getD "" ++ content))

/-- `git worktree add`: a checkout of the commit. -/
def addWorktree (repoPath branchName workspacePath baseCommit : String) : ServiceM Unit :=
  if manager.git.addsWorktree repoPath branchName workspacePath baseCommit = true then do
    let tree := manager.git.tree repoPath baseCommit
    modify fun files =>
      { files with worktrees := (workspacePath, ⟨tree, tree⟩) :: files.worktrees }
  else throw (.error "git worktree add failed")

/-- Source: `git-worktree-manager.ts` `prepare`. -/
def prepare (args : PrepareWorkspace) : ServiceM PreparedWorktree := do
  checked (validatePathSegment "taskId" args.taskId)
  checked (validatePathSegment "runId" args.runId)
  let repo := resolve manager.cwd args.repoPath
  let repoPath := Path.text repo
  if manager.git.isRepo repoPath = true then
    match manager.git.revParse repoPath (args.baseRef.getD "HEAD") with
    | none => throw (.error "git rev-parse failed")
    | some baseCommit => do
      let branchName := "agent/" ++ args.taskId ++ "/" ++ args.runId
      let workspacePath := Path.text
        ([".agentflow", "worktrees", args.taskId, args.runId].foldl resolve repo)
      manager.addWorktree repoPath branchName workspacePath baseCommit
      onDisk (Disk.mkdirp · (repo ++ [".git", "info"]))
      appendFile (repo ++ [".git", "info", "exclude"]) "\n.agent-workflow/\n"
      pure { repoPath, workspacePath, baseCommit, branchName }
  else throw (.error ("Not a git repository: " ++ repoPath))

end CliGitWorktreeManager

namespace GitWorktreeSandboxProvider

variable (manager : CliGitWorktreeManager)

/-- A patch applies as it is where the index and the working tree both have its `before`s; the
option `--3way` changes both. -/
def applied (patch : FilePatch) (w : Worktree) : Option Worktree := do
  let index ← Patching.apply patch w.index
  let worktree ← Patching.apply patch w.worktree
  pure { index, worktree }

/-- What `git apply --3way` comes to. A text without a patch is refused. -/
def gitApply (diffText : String) (w : Worktree) : Bool × Worktree :=
  match manager.git.parse diffText with
  | none | some [] => (false, w)
  | some patch =>
    match applied patch w with
    | some w' => (true, w')
    | none => manager.git.threeWay patch w

/-- Source: `sandbox-provider.ts` `applyDiff`. -/
def applyDiff (workspacePath diffText : String) : ServiceM SandboxDiffApplyResult := do
  let files ← get
  match files.worktrees.lookup workspacePath with
  | none => pure { ok := false, stdout := "", stderr := "" }
  | some w => do
    let result := gitApply manager diffText w
    set { files with worktrees := (workspacePath, result.2) :: files.worktrees }
    let messages := manager.git.messages diffText w
    pure { ok := result.1, stdout := messages.1, stderr := messages.2 }

/-- The provider as a run sees it. Source: `sandbox-provider.ts` `GitWorktreeSandboxProvider`. -/
def toSandboxProvider : SandboxProvider where
  prepareWorkspace := manager.prepare
  diff := manager.diff
  applyDiff := applyDiff manager

end GitWorktreeSandboxProvider

/-! ## From one workspace to another -/

/-- The files the workflow writes into a workspace itself. -/
def reserved (p : String) : Bool := ".agent-workflow/".toList.isPrefixOf p.toList

/-- The trees have the same files, the workflow's own aside. -/
def SameFiles (t t' : FileTree) : Prop := ∀ p, reserved p = false → t.lookup p = t'.lookup p

namespace GitWorktreeSandboxProvider

variable (manager : CliGitWorktreeManager)

/-- Applied to a fresh checkout of `base`, the text gives the files of `final`. -/
def Restores (base final : FileTree) (diffText : String) : Prop :=
  ∀ env files workspacePath, files.worktrees.lookup workspacePath = some ⟨base, base⟩ →
    ∃ result files' w, applyDiff manager workspacePath diffText env files = .ok result files' ∧
      files'.worktrees.lookup workspacePath = some w ∧ SameFiles w.worktree final

/-- Applied to a fresh checkout of `base`, the text is accepted. -/
def Accepts (base : FileTree) (diffText : String) : Prop :=
  ∀ env files workspacePath, files.worktrees.lookup workspacePath = some ⟨base, base⟩ →
    ∃ result files', applyDiff manager workspacePath diffText env files = .ok result files' ∧
      result.ok = true

/-- The diff of a checkout of `base` in which `final` was left, with nothing staged, can be taken; and wherever it was
saved under the name, for as long as that file is not overwritten, what is read back restores
`final`. -/
def Reproduces (n : ArtifactName) (base final : FileTree) : Prop :=
  ∀ env files workspacePath, files.worktrees.lookup workspacePath = some ⟨base, final⟩ →
    ∃ diffText files', manager.diff workspacePath env files = .ok diffText files' ∧
      ∀ (store : LocalArtifactStore) (args : SaveText) (ref : ArtifactRef) env₁ files₁ files₂,
        args.name = n → args.content = diffText →
        store.saveText args env₁ files₁ = .ok ref files₂ →
        ∀ env₃ files₃, files₃.disk.read (store.savePath n) = files₂.disk.read (store.savePath n) →
          ∃ text files₄, store.readText ref.uri env₃ files₃ = .ok text files₄ ∧
            Restores manager base final text

/-- Every file of `final` was there in `base`, the workflow's own aside. -/
def NothingAdded (base final : FileTree) : Prop :=
  ∀ p, reserved p = false → base.lookup p = none → final.lookup p = none

/-- The text of the diff between the two. -/
def diffOf (base final : FileTree) : String :=
  manager.git.render (Patching.between base final)

section roundTrip

variable {manager} {base final : FileTree} {n : ArtifactName}

theorem via_onDisk {f : Disk → Option Disk} {env : Env} {t : List (String × Worktree)}
    {Q : Unit → List (String × Worktree) → Prop} (hQ : Q () t) :
    EnsuresVia Files.worktrees (onDisk f) env t Q fun _ _ => True := by
  rintro files rfl
  unfold onDisk
  refine ensures_bind.mpr (ensures_get.mpr ?_)
  cases f files.disk with
  | none => exact trivial
  | some d => exact hQ

theorem via_checked {x : Except Err Unit} {env : Env} {t : List (String × Worktree)}
    {Q : Unit → List (String × Worktree) → Prop} (hQ : Q () t) :
    EnsuresVia Files.worktrees (checked x) env t Q fun _ _ => True := by
  cases x with
  | ok u => exact .pure hQ
  | error e => exact .throw trivial

theorem via_appendFile {p : Path} {content : String} {env : Env} {t : List (String × Worktree)}
    {Q : Unit → List (String × Worktree) → Prop} (hQ : Q () t) :
    EnsuresVia Files.worktrees (CliGitWorktreeManager.appendFile p content) env t Q
      fun _ _ => True := by
  rintro files rfl
  exact ensures_bind.mpr (ensures_get.mpr (via_onDisk hQ files rfl))

theorem via_addWorktree {repoPath branchName workspacePath baseCommit : String} {env : Env}
    {t : List (String × Worktree)} {Q : Unit → List (String × Worktree) → Prop}
    (hQ : Q () ((workspacePath, ⟨manager.git.tree repoPath baseCommit,
      manager.git.tree repoPath baseCommit⟩) :: t)) :
    EnsuresVia Files.worktrees
      (manager.addWorktree repoPath branchName workspacePath baseCommit) env t Q
      fun _ _ => True := by
  refine .ite (fun _ => ?_) fun _ => .throw trivial
  intro files hfiles
  subst hfiles
  exact ensures_modify.mpr hQ

/-- A worktree that was prepared is a fresh checkout of its base commit. -/
theorem prepare_fresh {args : PrepareWorkspace} {env : Env} {files files' : Files}
    {w : PreparedWorktree} (h : manager.prepare args env files = .ok w files') :
    files'.worktrees.lookup w.workspacePath =
      some ⟨manager.git.tree w.repoPath w.baseCommit, manager.git.tree w.repoPath w.baseCommit⟩ := by
  have hspec : EnsuresVia Files.worktrees (manager.prepare args) env files.worktrees
      (fun w t => t.lookup w.workspacePath = some ⟨manager.git.tree w.repoPath w.baseCommit,
        manager.git.tree w.repoPath w.baseCommit⟩) fun _ _ => True := by
    refine .bind (via_checked (.bind (via_checked (.ite (fun _ => ?_) fun _ => .throw trivial))))
    split
    next => exact .throw trivial
    next baseCommit _ =>
      exact .bind (via_addWorktree (.bind (via_onDisk (.bind (via_appendFile
        (.pure List.lookup_cons_self))))))
  exact (hspec files rfl).of_ok h

/-- What `applyDiff` leaves in a worktree is what git makes of it. -/
theorem applyDiff_eq {diffText workspacePath : String} {env : Env} {files : Files} {w : Worktree}
    (hw : files.worktrees.lookup workspacePath = some w) :
    ∃ result files', applyDiff manager workspacePath diffText env files = .ok result files' ∧
      result.ok = (gitApply manager diffText w).1 ∧
      files'.worktrees.lookup workspacePath = some (gitApply manager diffText w).2 := by
  refine ⟨⟨(gitApply manager diffText w).1, (manager.git.messages diffText w).1,
      (manager.git.messages diffText w).2⟩,
    { files with worktrees := (workspacePath, (gitApply manager diffText w).2) ::
      files.worktrees }, ?_, rfl, List.lookup_cons_self⟩
  show (match files.worktrees.lookup workspacePath with
    | none => (pure _ : ServiceM SandboxDiffApplyResult)
    | some w => _) env files = _
  rw [hw]
  rfl

/-- The diff, applied to a fresh checkout: accepted unless it is empty, and the tracked files are
those of `final`. -/
theorem gitApply_diffOf
    (hgit : manager.git.parse (diffOf manager base final) = some (Patching.between base final)) :
    (gitApply manager (diffOf manager base final) ⟨base, base⟩).1 =
        decide (Patching.between base final ≠ []) ∧
      ∀ p, (gitApply manager (diffOf manager base final) ⟨base, base⟩).2.worktree.lookup p =
        if (base.lookup p).isSome = true then final.lookup p else none := by
  obtain ⟨t, happly, ht⟩ := Patching.apply_between base final
  unfold gitApply
  rw [hgit]
  cases hcs : Patching.between base final with
  | nil =>
    rw [hcs] at happly
    obtain rfl : base = t := Option.some.inj happly
    exact ⟨rfl, ht⟩
  | cons c cs =>
    rw [hcs] at happly
    have happlied : applied (c :: cs) ⟨base, base⟩ = some ⟨t, t⟩ := by simp [applied, happly]
    simp only [happlied]
    exact ⟨rfl, ht⟩

/-- The diff restores the files of `final` when none of them is new, and only then. -/
theorem restores_diffOf
    (hgit : manager.git.parse (diffOf manager base final) = some (Patching.between base final)) :
    Restores manager base final (diffOf manager base final) ↔ NothingAdded base final := by
  obtain ⟨-, hlookup⟩ := gitApply_diffOf hgit
  constructor
  · intro h p hp hnone
    obtain ⟨result, files', w, hrun, hw, hsame⟩ :=
      h LocalArtifactStore.plainEnv { Files.empty with worktrees := [("", ⟨base, base⟩)] } "" rfl
    obtain ⟨result', files'', hrun', -, hw'⟩ := @applyDiff_eq manager (diffOf manager base final) ""
      LocalArtifactStore.plainEnv { Files.empty with worktrees := [("", ⟨base, base⟩)] } _ rfl
    rw [hrun] at hrun'
    cases hrun'
    obtain rfl := Option.some.inj (hw.symm.trans hw')
    rw [← hsame p hp, hlookup, hnone]
    rfl
  · intro h env files workspacePath hw
    obtain ⟨result, files', hrun, -, hw'⟩ :=
      @applyDiff_eq manager (diffOf manager base final) _ env files _ hw
    refine ⟨result, files', _, hrun, hw', fun p hp => ?_⟩
    rw [hlookup]
    by_cases hsome : (base.lookup p).isSome = true
    · rw [if_pos hsome]
    · rw [if_neg hsome, h p hp (Option.not_isSome_iff_eq_none.mp hsome)]

/-- The diff is accepted when it is not empty. -/
theorem accepts_diffOf
    (hgit : manager.git.parse (diffOf manager base final) = some (Patching.between base final)) :
    Accepts manager base (diffOf manager base final) ↔
      ∃ p, (base.lookup p).isSome = true ∧ base.lookup p ≠ final.lookup p := by
  have hchanged : Patching.between base final ≠ [] ↔
      ∃ p, (base.lookup p).isSome = true ∧ base.lookup p ≠ final.lookup p := by
    simp only [← Patching.mem_paths_between]
    constructor
    · intro h
      obtain ⟨c, cs, hcs⟩ := List.exists_cons_of_ne_nil h
      exact ⟨c.path, List.mem_map_of_mem (hcs ▸ List.mem_cons_self)⟩
    · rintro ⟨p, hp⟩ h
      simp [h] at hp
  rw [← hchanged]
  have hok := (gitApply_diffOf hgit).1
  constructor
  · intro h
    obtain ⟨result, files', hrun, hresult⟩ :=
      h LocalArtifactStore.plainEnv { Files.empty with worktrees := [("", ⟨base, base⟩)] } "" rfl
    obtain ⟨result', files'', hrun', hok', -⟩ := @applyDiff_eq manager (diffOf manager base final) ""
      LocalArtifactStore.plainEnv { Files.empty with worktrees := [("", ⟨base, base⟩)] } _ rfl
    rw [hrun] at hrun'
    cases hrun'
    exact of_decide_eq_true (hok.symm.trans (hok'.symm.trans hresult))
  · intro h env files workspacePath hw
    obtain ⟨result, files', hrun, hok', -⟩ :=
      @applyDiff_eq manager (diffOf manager base final) _ env files _ hw
    exact ⟨result, files', hrun, hok'.trans (hok.trans (decide_eq_true h))⟩

/-- A diff is what git prints, unless it is too long. -/
theorem diff_eq {workspacePath : String} {env : Env} {files : Files}
    (hw : files.worktrees.lookup workspacePath = some ⟨base, final⟩) :
    manager.diff workspacePath env files =
      if CliGitWorktreeManager.maxBuffer < (diffOf manager base final).utf8ByteSize then
        .error (.error "git diff failed: spawnSync git ENOBUFS") files
      else .ok (diffOf manager base final) files := by
  have hrun : manager.diff workspacePath env files =
      CliGitWorktreeManager.gitRaw "diff" (diffOf manager base final) env files := by
    show (match files.worktrees.lookup workspacePath with
      | none => (throw _ : ServiceM String)
      | some w => _) env files = _
    rw [hw]
    rfl
  rw [hrun, CliGitWorktreeManager.gitRaw]
  split <;> rfl

/-- What a reproduced diff takes. -/
theorem Reproduces.only_if (hn : n.All Segment) (hfile : n.filename ≠ ".")
    (hnameable : Disk.nameable [n.taskId, n.runId, n.filename] = true)
    (hgit : manager.git.parse (diffOf manager base final) = some (Patching.between base final))
    (h : Reproduces manager n base final) :
    n.All UriPlain ∧
      (diffOf manager base final).utf8ByteSize ≤ CliGitWorktreeManager.maxBuffer ∧
      NothingAdded base final := by
  obtain ⟨diffText, files', hdiff, hback⟩ :=
    h LocalArtifactStore.plainEnv { Files.empty with worktrees := [("", ⟨base, final⟩)] } "" rfl
  rw [diff_eq rfl] at hdiff
  split_ifs at hdiff with hsize
  · cases hdiff
    obtain ⟨ref, saved, hsaved, huri, hread, -, -⟩ :=
      LocalArtifactStore.saveText_empty (diffOf manager base final) hn hfile hnameable
    obtain ⟨text, files₄, hreadText, hrestores⟩ := hback LocalArtifactStore.plainStore
      (LocalArtifactStore.textAs n _) ref _ _ saved rfl rfl hsaved LocalArtifactStore.plainEnv saved
      rfl
    rw [huri] at hreadText
    obtain ⟨hplain, htext⟩ := (@LocalArtifactStore.readText_spec LocalArtifactStore.plainStore n
      LocalArtifactStore.plainEnv saved.disk hn saved rfl).of_ok hreadText
    obtain rfl : diffOf manager base final = text := Option.some.inj (hread.symm.trans htext)
    exact ⟨hplain, not_lt.mp hsize, (restores_diffOf hgit).mp hrestores⟩

/-- And that is enough. -/
theorem reproduces_of (hn : n.All Segment)
    (hgit : manager.git.parse (diffOf manager base final) = some (Patching.between base final))
    (hplain : n.All UriPlain)
    (hsize : (diffOf manager base final).utf8ByteSize ≤ CliGitWorktreeManager.maxBuffer)
    (hadded : NothingAdded base final) : Reproduces manager n base final := by
  intro env files workspacePath hw
  refine ⟨diffOf manager base final, files, ?_, ?_⟩
  · rw [diff_eq hw, if_neg (not_lt.mpr hsize)]
  · rintro store args ref env₁ files₁ files₂ rfl hcontent hsaved env₃ files₃ hkept
    obtain ⟨huri, -, -, -, hread⟩ :=
      (@LocalArtifactStore.saveText_spec store env₁ files₁.disk args files₁ rfl).of_ok hsaved
    rw [← hkept] at hread
    have hspec := @LocalArtifactStore.readText_spec store args.name env₃ files₃.disk hn files₃ rfl
    rw [huri]
    cases hres : store.readText (artifactUri args.name) env₃ files₃ with
    | ok text files₄ =>
      obtain ⟨-, htext⟩ := hspec.of_ok hres
      rw [hread, hcontent] at htext
      obtain rfl := Option.some.inj htext
      exact ⟨_, files₄, rfl, (restores_diffOf hgit).mpr hadded⟩
    | error e files₄ =>
      rcases hspec.of_error hres with hnot | hnone
      · exact absurd hplain hnot
      · rw [hread] at hnone
        cases hnone

end roundTrip

/-! ## One changed file, and one new -/

/-- A file of one line, another line in it, and a second file beside it. -/
def committed : FileTree := [("a.txt", "a\n")]

def edited : FileTree := [("a.txt", "b\n")]

def extended : FileTree := [("a.txt", "b\n"), ("b.txt", "new\n")]

/-- The text of the diff from `committed` to `edited`. -/
def editText : String :=
  "diff --git a/a.txt b/a.txt\nindex 7898192..6178079 100644\n--- a/a.txt\n+++ b/a.txt\n" ++
    "@@ -1 +1 @@\n-a\n+b\n"

/-- Git, as far as that patch goes. -/
def sampleGit : Git where
  isRepo _ := true
  revParse _ ref := some ref
  tree _ _ := committed
  addsWorktree _ _ _ _ := true
  render patch := if patch = Patching.between committed edited then editText else ""
  parse text := if text = editText then some (Patching.between committed edited) else none
  threeWay _ w := (false, w)
  messages _ _ := ("", "")

end GitWorktreeSandboxProvider

end AgentWorkflow
