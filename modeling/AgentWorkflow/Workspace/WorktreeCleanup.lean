import AgentWorkflow.Lib.Marker
import AgentWorkflow.Workspace.GitWorktreeManager

/-!
# The repository of a worktree

`cleanup` of `workspace/git-worktree-manager.ts` is given the path of a worktree and has to run git
in the repository the worktree was made in. It reads the repository off the path: what stands before
`/.agentflow/worktrees/`.

* `workspacePath` — the path `prepare` builds; `prepare_paths`.
* `getMainRepoPath`, `cleanup` — the way back.
* **`getMainRepoPath_iff`** — it leads to the repository exactly when this is not the root, has no
  `/.agentflow/worktrees/` in its own path, and something is left of the two ids. A repository below
  a worktree is taken for the one the worktree belongs to.
-/

namespace AgentWorkflow

open Fallible Posix

namespace CliGitWorktreeManager

/-- The path of a worktree. Source: `git-worktree-manager.ts` `prepare`. -/
def workspacePath (repo : Path) (taskId runId : String) : String :=
  Path.text ([".agentflow", "worktrees", taskId, runId].foldl resolve repo)

/-- What every such path contains. Source: `git-worktree-manager.ts` `getMainRepoPath`. -/
def marker : String := "/.agentflow/worktrees/"

/-- Source: `git-worktree-manager.ts` `getMainRepoPath`. -/
def getMainRepoPath (workspacePath : String) : Except Err String :=
  match workspacePath.toList.dropInfix? marker.toList with
  | none => .error (.error ("Cannot determine main repo from worktree path: " ++ workspacePath))
  | some (before, _) => .ok (String.ofList before)

/-- Source: `git-worktree-manager.ts` `cleanup`; `git` runs a command in a directory. -/
def cleanup (git : (args : List String) → (cwd : String) → ServiceM String)
    (workspacePath : String) : ServiceM Unit := do
  let repoPath ← checked (getMainRepoPath workspacePath)
  let _ ← git ["worktree", "remove", workspacePath, "--force"] repoPath
  pure ()

/-- The repository can be read off the path of its worktree. -/
structure Recognised (repoPath taskId runId : String) : Prop where
  not_root : repoPath ≠ "/"
  not_below : includes (repoPath ++ "/") marker = false
  not_dots : ¬ (taskId = "." ∧ runId = ".")

/-! ## The paths `prepare` builds -/

section prepared

variable {manager : CliGitWorktreeManager} {args : PrepareWorkspace} {name value : String}

theorem validatePathSegment_ok_iff : validatePathSegment name value = .ok () ↔
    blank value = false ∧ includes value ".." = false ∧ '/' ∉ value.toList := by
  unfold validatePathSegment
  constructor
  · intro h
    split_ifs at h with h₁ h₂ h₃ h₄ h₅
    exact ⟨by simpa using h₂, by simpa using h₃, basename_eq_self_iff.mp (not_not.mp h₅).symm⟩
  · rintro ⟨h₂, h₃, h₅⟩
    rw [if_neg (ne_empty_of_not_blank h₂), if_neg (by simp [h₂]), if_neg (by simp [h₃]),
      if_neg (by simp [isAbsolute_of_notMem h₅]),
      if_neg (not_not.mpr (basename_eq_self_iff.mpr h₅).symm)]

/-- Both ids of a prepared worktree are accepted, and its path is theirs below the repository. -/
theorem prepare_paths {env : Env} {files files' : Files} {w : PreparedWorktree}
    (h : manager.prepare args env files = .ok w files') :
    validatePathSegment "taskId" args.taskId = .ok () ∧
    validatePathSegment "runId" args.runId = .ok () ∧
    w.repoPath = Path.text (resolve manager.cwd args.repoPath) ∧
    w.workspacePath = workspacePath (resolve manager.cwd args.repoPath) args.taskId args.runId := by
  have hspec : Ensures (manager.prepare args) env files
      (fun w _ => validatePathSegment "taskId" args.taskId = .ok () ∧
        validatePathSegment "runId" args.runId = .ok () ∧
        w.repoPath = Path.text (resolve manager.cwd args.repoPath) ∧
        w.workspacePath =
          workspacePath (resolve manager.cwd args.repoPath) args.taskId args.runId)
      fun _ _ => True := by
    have hchecked : ∀ {x : Except Err Unit} {files : Files} {Q : Unit → Files → Prop},
        (x = .ok () → Q () files) → Ensures (checked x) env files Q fun _ _ => True := by
      intro x files Q hQ
      cases x with
      | ok u => exact hQ rfl
      | error e => exact trivial
    unfold prepare
    refine ensures_bind.mpr (hchecked fun htask => ensures_bind.mpr (hchecked fun hrun => ?_))
    dsimp only
    split
    · split
      · exact trivial
      · refine ensures_bind.mpr (ensures_of_forall (fun _ _ _ => ?_) fun _ _ _ => trivial)
        refine ensures_bind.mpr (ensures_of_forall (fun _ _ _ => ?_) fun _ _ _ => trivial)
        refine ensures_bind.mpr (ensures_of_forall (fun _ _ _ => ?_) fun _ _ _ => trivial)
        exact ⟨htask, hrun, rfl, rfl⟩
    · exact trivial
  exact hspec.of_ok h

open LocalArtifactStore (seen resolve_seen ne_up) in
/-- A worktree lies below `.agentflow/worktrees`, by as many levels as its ids are not dots. -/
theorem workspacePath_eq {repo : Path} {taskId runId : String}
    (htask : validatePathSegment "taskId" taskId = .ok ())
    (hrun : validatePathSegment "runId" runId = .ok ()) :
    workspacePath repo taskId runId =
      Path.text (repo ++ ([".agentflow", "worktrees"] ++ (seen taskId ++ seen runId))) := by
  have hresolve : ∀ {name value : String} {p : Path}, validatePathSegment name value = .ok () →
      resolve p value = p ++ seen value := by
    intro name value p h
    obtain ⟨hblank, htraversal, hplain⟩ := validatePathSegment_ok_iff.mp h
    exact resolve_seen (ne_empty_of_not_blank hblank) (ne_up htraversal) hplain
  have hflow : ∀ {p : Path}, resolve p ".agentflow" = p ++ [".agentflow"] := fun {p} => by
    rw [resolve_of_plain (by decide)]
    rfl
  have hworktrees : ∀ {p : Path}, resolve p "worktrees" = p ++ ["worktrees"] := fun {p} => by
    rw [resolve_of_plain (by decide)]
    rfl
  unfold workspacePath
  simp only [List.foldl_cons, List.foldl_nil, hflow, hworktrees, hresolve htask, hresolve hrun]
  simp only [List.append_assoc, List.cons_append, List.nil_append]

end prepared

/-! ## The way back -/

section back

variable {p q : Path} {repoPath taskId runId : String}

/-- A path goes on with the text of what comes below. -/
theorem text_append (hp : p ≠ []) (hq : q ≠ []) : Path.text (p ++ q) = Path.text p ++ Path.text q := by
  unfold Path.text
  rw [String.intercalate_append_of_ne_nil hp hq]
  simp only [String.append_assoc]

/-- What is found before the marker. -/
theorem getMainRepoPath_ok_iff {path : String} : getMainRepoPath path = .ok repoPath ↔
    ∃ rest, path.toList.dropInfix? marker.toList = some (repoPath.toList, rest) := by
  unfold getMainRepoPath
  constructor
  · intro h
    split at h
    · cases h
    next before rest hfound =>
      refine ⟨rest, ?_⟩
      rw [hfound, ← Except.ok.inj h, String.toList_ofList]
  · rintro ⟨rest, hfound⟩
    rw [hfound]
    exact congrArg _ String.ofList_toList

theorem overlapless_marker : Marker.Overlapless marker.toList := by decide

/-- What is put behind the marker does not matter. -/
theorem getMainRepoPath_marker {rest : String} :
    getMainRepoPath (repoPath ++ (marker ++ rest)) = .ok repoPath ↔
      includes (repoPath ++ "/") marker = false := by
  have hpath : (repoPath ++ (marker ++ rest)).toList =
      repoPath.toList ++ marker.toList ++ rest.toList := by
    simp only [String.toList_append, List.append_assoc]
  have hfirst : (repoPath ++ "/").toList = repoPath.toList ++ marker.toList.take 1 := by
    rw [String.toList_append]
    rfl
  rw [getMainRepoPath_ok_iff, includes, decide_eq_false_iff_not, hfirst,
    ← Marker.found_iff overlapless_marker (by decide), hpath]
  constructor
  · rintro ⟨rest', hfound⟩
    have hsplit := (Marker.dropInfix?_eq_some.mp hfound).1
    rw [hfound, List.append_cancel_left hsplit]
  · intro hfound
    exact ⟨rest.toList, hfound⟩

/-- Nothing is found where the marker has no room behind the repository. -/
theorem getMainRepoPath_ne {path below : String} (hpath : path = repoPath ++ below)
    (hbelow : ¬ marker.toList <+: below.toList) : getMainRepoPath path ≠ .ok repoPath := by
  intro h
  obtain ⟨rest, hfound⟩ := getMainRepoPath_ok_iff.mp h
  have hsplit := (Marker.dropInfix?_eq_some.mp hfound).1
  rw [hpath, String.toList_append, List.append_assoc] at hsplit
  exact hbelow ⟨rest, (List.append_cancel_left hsplit).symm⟩

open LocalArtifactStore (seen) in
theorem seen_eq_nil_iff : seen taskId ++ seen runId = [] ↔ taskId = "." ∧ runId = "." := by
  have hseen : ∀ value, seen value = [] ↔ value = "." := by
    intro value
    unfold seen
    by_cases hdot : value = "."
    · simp [hdot]
    · simp [hdot]
  rw [List.append_eq_nil_iff, hseen, hseen]

/-- The marker, and what there is of the two ids. -/
theorem text_worktrees (hq : q ≠ []) :
    Path.text ([".agentflow", "worktrees"] ++ q) = marker ++ String.intercalate "/" q := by
  rw [text_append (List.cons_ne_nil _ _) hq]
  simp only [Path.text, marker, ← String.append_assoc]
  rfl

/-- The root is written with the separator that the marker begins with. -/
theorem root_not_found :
    getMainRepoPath (Path.text ([] ++ ([".agentflow", "worktrees"] ++ q))) ≠ .ok "/" := by
  refine getMainRepoPath_ne rfl ?_
  rintro ⟨rest, hrest⟩
  have hhead := congrArg List.head? hrest
  simp [marker] at hhead

end back

/-- **When `cleanup` runs in the repository of the worktree.** The path that `prepare` builds leads
back to the repository exactly when the repository is recognised, and then git is run there. -/
theorem getMainRepoPath_iff (cwd : Path) (repoPath taskId runId : String)
    (hnormalised : Path.text (resolve cwd repoPath) = repoPath)
    (htask : validatePathSegment "taskId" taskId = .ok ())
    (hrun : validatePathSegment "runId" runId = .ok ()) :
    (∀ git baseRef env files files' w,
      prepare ⟨git, cwd⟩ ⟨repoPath, baseRef, taskId, runId⟩ env files = .ok w files' →
      w.repoPath = repoPath ∧
        w.workspacePath = workspacePath (resolve cwd repoPath) taskId runId) ∧
    (getMainRepoPath (workspacePath (resolve cwd repoPath) taskId runId) = .ok repoPath ↔
      Recognised repoPath taskId runId) ∧
    (Recognised repoPath taskId runId → ∀ git,
      cleanup git (workspacePath (resolve cwd repoPath) taskId runId) = do
        let _ ← git ["worktree", "remove",
          workspacePath (resolve cwd repoPath) taskId runId, "--force"] repoPath
        pure ()) := by
  have hiff : getMainRepoPath (workspacePath (resolve cwd repoPath) taskId runId) = .ok repoPath ↔
      Recognised repoPath taskId runId := by
    rw [workspacePath_eq htask hrun]
    by_cases hroot : resolve cwd repoPath = []
    · have hslash : repoPath = "/" := by
        rw [← hnormalised, hroot]
        rfl
      rw [hroot, hslash]
      exact ⟨fun h => absurd h root_not_found, fun h => absurd rfl h.not_root⟩
    · have hslash : repoPath ≠ "/" := by
        rintro rfl
        refine hroot ?_
        rw [resolve, if_pos (by decide)]
        decide +kernel
      rw [text_append hroot (by simp), hnormalised]
      by_cases hdots : taskId = "." ∧ runId = "."
      · rw [seen_eq_nil_iff.mpr hdots]
        exact ⟨fun h => absurd h (getMainRepoPath_ne rfl (by decide +kernel)),
          fun h => absurd hdots h.not_dots⟩
      · rw [text_worktrees (fun h => hdots (seen_eq_nil_iff.mp h)), getMainRepoPath_marker]
        exact ⟨fun h => ⟨hslash, h, hdots⟩, fun h => h.not_below⟩
  refine ⟨fun git baseRef env files files' w h => ?_, hiff, fun h git => ?_⟩
  · obtain ⟨-, -, hrepo, hworkspace⟩ := prepare_paths h
    exact ⟨hrepo.trans hnormalised, hworkspace⟩
  · unfold cleanup
    rw [hiff.mpr h]
    rfl

theorem getMainRepoPath_repo :
    getMainRepoPath (workspacePath (resolve [] "/home/me/repo") "T-1" "R-1") =
      .ok "/home/me/repo" :=
  (getMainRepoPath_iff [] "/home/me/repo" "T-1" "R-1" (by decide +kernel) (by decide +kernel)
    (by decide +kernel)).2.1.mpr ⟨by decide, by decide +kernel, by decide⟩

/-- A repository that lies in a worktree of another one: the other one is found. -/
theorem outer_repo_found :
    Path.text (resolve [] "/repo/.agentflow/worktrees/T-1/R-1/inner") =
      "/repo/.agentflow/worktrees/T-1/R-1/inner" ∧
    validatePathSegment "taskId" "T-2" = .ok () ∧ validatePathSegment "runId" "R-2" = .ok () ∧
    workspacePath (resolve [] "/repo/.agentflow/worktrees/T-1/R-1/inner") "T-2" "R-2" =
      "/repo/.agentflow/worktrees/T-1/R-1/inner/.agentflow/worktrees/T-2/R-2" ∧
    getMainRepoPath (workspacePath (resolve [] "/repo/.agentflow/worktrees/T-1/R-1/inner")
      "T-2" "R-2") = .ok "/repo" := by
  decide +kernel

end CliGitWorktreeManager

end AgentWorkflow
