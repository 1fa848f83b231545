import AgentWorkflow.Storage.ArtifactStore

/-!
# Where artifacts lie

A name of three valid segments is resolved to a path, when it is saved and when a URI is read. Each
name should have a file of its own, three levels below the directory of the artifacts.

* `ResolvesTo` — the path of a name, on either way in; `resolvesTo_iff` — both lead to `savePath`.
* `HasOwnFile` — the path is where it should be, and no other name has it.
* **`hasOwnFile_iff`** — this is so exactly when no segment is a single dot: the validation lets the
  dot through, and the path does without it.
-/

namespace AgentWorkflow

open Posix

namespace LocalArtifactStore

variable (store : LocalArtifactStore)

/-- The name is accepted, and the store goes to `p` for it: to write there, or to read under a
URI. -/
inductive ResolvesTo (n : ArtifactName) (p : Path) : Prop
  | save (hvalid : validateName n = .ok ()) (hpath : store.savePath n = p)
  | read (uri : String) (huri : parseArtifactUri uri = .ok n) (hpath : store.artifactPath n = .ok p)

/-- The file of a name is three levels below `.agentflow/artifacts`, and no other name has it. -/
structure HasOwnFile (n : ArtifactName) : Prop where
  below : ∀ p, store.ResolvesTo n p →
    ∃ a b c, p = store.repo ++ [".agentflow", "artifacts"] ++ [a, b, c]
  apart : ∀ p n', store.ResolvesTo n p → store.ResolvesTo n' p → n' = n

/-- No segment is the current directory. -/
def Dotless (n : ArtifactName) : Prop := n.All (· ≠ ".")

instance (n : ArtifactName) : Decidable (Dotless n) := inferInstanceAs (Decidable (_ ∧ _ ∧ _))

section paths

variable {store} {n n' : ArtifactName} {p : Path}

theorem ResolvesTo.segments (h : store.ResolvesTo n p) : n.All Segment := by
  cases h with
  | save hvalid _ => exact validateName_ok_iff.mp hvalid
  | read uri huri _ => exact (parse_spec huri).2.1

/-- A save and a read of one name go to one path. -/
theorem resolvesTo_iff : store.ResolvesTo n p ↔ n.All Segment ∧ store.savePath n = p := by
  constructor
  · intro h
    refine ⟨h.segments, ?_⟩
    cases h with
    | save _ hpath => exact hpath
    | read uri huri hpath =>
      rw [store.artifactPath_eq (parse_spec huri).2.1] at hpath
      exact Except.ok.inj hpath
  · rintro ⟨hn, hpath⟩
    exact .save (validateName_ok_iff.mpr hn) hpath

theorem root_eq : store.root = store.repo ++ [".agentflow", "artifacts"] := by
  have hflow : resolve store.repo ".agentflow" = store.repo ++ [".agentflow"] := by
    rw [resolve_of_plain (by decide)]
    rfl
  have hartifacts : resolve (store.repo ++ [".agentflow"]) "artifacts" =
      store.repo ++ [".agentflow"] ++ ["artifacts"] := by
    rw [resolve_of_plain (by decide)]
    rfl
  show resolve (resolve store.repo ".agentflow") "artifacts" = _
  rw [hflow, hartifacts, List.append_assoc]
  rfl

theorem length_seen {value : String} : (seen value).length ≤ 1 ∧
    ((seen value).length = 1 ↔ value ≠ ".") := by
  unfold seen
  by_cases hdot : value = "."
  · simp [hdot]
  · simp [hdot]

theorem seen_of_ne {value : String} (h : value ≠ ".") : seen value = [value] := if_neg h

/-- A name without dots is resolved segment by segment. -/
theorem savePath_of_dotless (hn : n.All Segment) (hdot : Dotless n) :
    store.savePath n = store.root ++ [n.taskId, n.runId, n.filename] := by
  rw [store.savePath_eq hn, seen_of_ne hdot.1, seen_of_ne hdot.2.1, seen_of_ne hdot.2.2]
  rfl

/-- Only such a name is three levels down. -/
theorem dotless_of_length (hn : n.All Segment)
    (hlength : (store.savePath n).length = store.root.length + 3) : Dotless n := by
  rw [store.savePath_eq hn] at hlength
  simp only [List.length_append] at hlength
  have htask := @length_seen n.taskId
  have hrun := @length_seen n.runId
  have hfile := @length_seen n.filename
  exact ⟨htask.2.mp (by omega), hrun.2.mp (by omega), hfile.2.mp (by omega)⟩

/-- Two names at one path three levels down are one. -/
theorem eq_of_savePath (hn : n.All Segment) (hn' : n'.All Segment) (hdot : Dotless n)
    (hpath : store.savePath n' = store.savePath n) : n' = n := by
  have hlength : (store.savePath n').length = store.root.length + 3 := by
    rw [hpath, savePath_of_dotless hn hdot, List.length_append]
    rfl
  have hdot' : Dotless n' := dotless_of_length hn' hlength
  rw [savePath_of_dotless hn hdot, savePath_of_dotless hn' hdot'] at hpath
  obtain ⟨t, r, f⟩ := n
  obtain ⟨t', r', f'⟩ := n'
  have hsegments : [t', r', f'] = [t, r, f] := List.append_cancel_left hpath
  simp only [List.cons.injEq, and_true] at hsegments
  obtain ⟨rfl, rfl, rfl⟩ := hsegments
  rfl

end paths

/-- **A name has a file of its own exactly when none of its segments is a dot.** -/
theorem hasOwnFile_iff (n : ArtifactName) (hvalid : validateName n = .ok ()) :
    store.HasOwnFile n ↔ Dotless n := by
  have hn := validateName_ok_iff.mp hvalid
  constructor
  · intro h
    obtain ⟨a, b, c, hpath⟩ := h.below _ (resolvesTo_iff.mpr ⟨hn, rfl⟩)
    have hlength : (store.savePath n).length = store.root.length + 3 := by
      rw [hpath, root_eq, List.length_append]
      rfl
    exact dotless_of_length hn hlength
  · intro hdot
    refine ⟨fun p hp => ?_, fun p n' hp hp' => ?_⟩
    · obtain ⟨-, rfl⟩ := resolvesTo_iff.mp hp
      exact ⟨n.taskId, n.runId, n.filename, by rw [savePath_of_dotless hn hdot, root_eq]⟩
    · obtain ⟨-, hpath⟩ := resolvesTo_iff.mp hp
      obtain ⟨hn', hpath'⟩ := resolvesTo_iff.mp hp'
      exact eq_of_savePath hn hn' hdot (hpath'.trans hpath.symm)

theorem hasOwnFile_diff : plainStore.HasOwnFile ⟨"T-1", "R-1", "diff.patch"⟩ :=
  (plainStore.hasOwnFile_iff ⟨"T-1", "R-1", "diff.patch"⟩ rfl).mpr (by decide)

/-- The task `.` of the run `R-1` and the task `R-1` of the run `.` have one file, and it is two
levels down. -/
theorem dotted_names_share :
    validateName ⟨".", "R-1", "diff.patch"⟩ = .ok () ∧
    validateName ⟨"R-1", ".", "diff.patch"⟩ = .ok () ∧
    plainStore.savePath ⟨".", "R-1", "diff.patch"⟩ =
      [".agentflow", "artifacts", "R-1", "diff.patch"] ∧
    plainStore.savePath ⟨"R-1", ".", "diff.patch"⟩ =
      [".agentflow", "artifacts", "R-1", "diff.patch"] ∧
    ¬ plainStore.HasOwnFile ⟨".", "R-1", "diff.patch"⟩ := by
  have hdot : plainStore.savePath ⟨".", "R-1", "diff.patch"⟩ =
      [".agentflow", "artifacts", "R-1", "diff.patch"] := by decide +kernel
  refine ⟨rfl, rfl, hdot, by decide +kernel, fun h => ?_⟩
  obtain ⟨a, b, c, hpath⟩ := h.below _ (.save rfl hdot)
  have hlength := congrArg List.length hpath
  simp [plainStore] at hlength

end LocalArtifactStore

end AgentWorkflow
