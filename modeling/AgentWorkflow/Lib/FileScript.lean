import AgentWorkflow.Lib.Posix
import Mathlib.Data.List.Nodup

/-!
# Files that are written together

A directory is made, files are removed from it and written into it.

* `Disk.removeFile`, `Disk.writeAll` — the operations on a disk.
* **`writeAll_isSome_iff`** — files can be written together exactly when each can be written alone.
* **`read_writeAll`** — afterwards every one of them is read as it was written, and every other file
  as before.
* **`fill_spec`** — the same for names in one directory: they can be written exactly when none of
  them is a directory.
-/

namespace Posix

namespace Disk

variable {d d' : Disk} {p q : Path} {content : String} {texts : List (Path × String)}

/-- `rm`, of a file. -/
def removeFile (d : Disk) (p : Path) : Disk := { d with files := d.files.filter (·.1 ≠ p) }

/-- Write files, one after the other. -/
def writeAll (d : Disk) : List (Path × String) → Option Disk
  | [] => some d
  | (p, content) :: texts =>
    match d.writeFile p content with
    | none => none
    | some d' => d'.writeAll texts

/-- A file can be written here: it has a name, its directory is there, and it is none itself. -/
structure Writable (d : Disk) (p : Path) : Prop where
  nameable : nameable p = true
  not_dir : d.isDir p = false
  parent : d.isDir p.dropLast = true

/-- A file that was removed is not read. -/
theorem read_removeFile_self : (d.removeFile p).read p = none := by
  refine List.lookup_eq_none_iff.mpr fun x hx => ?_
  have hne := (List.mem_filter.mp hx).2
  exact bne_iff_ne.mpr (Ne.symm (of_decide_eq_true hne))

/-- The other files stay. -/
theorem read_removeFile_of_ne (hne : q ≠ p) : (d.removeFile p).read q = d.read q := by
  unfold read removeFile
  induction d.files with
  | nil => rfl
  | cons x files ih =>
    by_cases hx : x.1 = p
    · rw [List.filter_cons_of_neg (by simpa using hx), ih, List.lookup_cons,
        beq_false_of_ne (hx ▸ hne)]
    · rw [List.filter_cons_of_pos (by simpa using hx), List.lookup_cons, List.lookup_cons, ih]

theorem isDir_congr (h : d'.dirs = d.dirs) : d'.isDir q = d.isDir q := by
  rw [isDir, isDir, h]

theorem writeFile_isSome_iff (content : String) :
    (d.writeFile p content).isSome = true ↔ d.Writable p := by
  unfold writeFile
  split
  next h => exact iff_of_true rfl ⟨h.1, h.2.1, h.2.2⟩
  next h => exact iff_of_false (by simp) fun hw => h ⟨hw.nameable, hw.not_dir, hw.parent⟩

theorem dirs_writeFile (h : d.writeFile p content = some d') : d'.dirs = d.dirs := by
  unfold writeFile at h
  split at h
  · cases h
    rfl
  · cases h

theorem Writable.congr (h : d'.dirs = d.dirs) : d'.Writable p ↔ d.Writable p := by
  constructor
  · rintro ⟨hname, hdir, hparent⟩
    exact ⟨hname, isDir_congr h ▸ hdir, isDir_congr h ▸ hparent⟩
  · rintro ⟨hname, hdir, hparent⟩
    exact ⟨hname, (isDir_congr h).trans hdir, (isDir_congr h).trans hparent⟩

theorem mkdirp_isSome_iff :
    (d.mkdirp p).isSome = true ↔ nameable p = true ∧ ∀ q ∈ p.inits, d.read q = none := by
  unfold mkdirp
  split
  next h => exact iff_of_true rfl h
  next h => exact iff_of_false (by simp) h

/-- Its directories are those it had, and the ones on the way. -/
theorem isDir_mkdirp (h : d.mkdirp p = some d') :
    d'.isDir q = true ↔ q ∈ p.inits ∨ d.isDir q = true := by
  unfold mkdirp at h
  split at h
  · cases h
    simp only [isDir, decide_eq_true_eq, List.mem_append]
    tauto
  · cases h

/-- Below a directory that was made, the directories are those that were there. -/
theorem isDir_mkdirp_below {c : String} (h : d.mkdirp p = some d') :
    d'.isDir (p ++ [c]) = d.isDir (p ++ [c]) := by
  rw [Bool.eq_iff_iff, isDir_mkdirp h, or_iff_right]
  intro hinit
  have hlength := ((List.mem_inits _ _).mp hinit).length_le
  rw [List.length_append] at hlength
  exact absurd hlength (by simp)

/-- Beside a directory that was made as well. -/
theorem isDir_mkdirp_beside {b c : String} (h : d.mkdirp (p ++ [b]) = some d') (hne : c ≠ b) :
    d'.isDir (p ++ [c]) = d.isDir (p ++ [c]) := by
  rw [Bool.eq_iff_iff, isDir_mkdirp h, or_iff_right]
  intro hinit
  have hprefix := (List.mem_inits _ _).mp hinit
  have heq := hprefix.eq_of_length (by simp)
  rw [List.append_cancel_left_eq, List.cons.injEq] at heq
  exact hne heq.1

theorem isDir_of_mkdirp (h : d.mkdirp p = some d') (hq : q <+: p) : d'.isDir q = true :=
  (isDir_mkdirp h).mpr (Or.inl ((List.mem_inits _ _).mpr hq))

theorem nameable_of_mkdirp (h : d.mkdirp p = some d') : nameable p = true :=
  (mkdirp_isSome_iff.mp (by rw [h]; rfl)).1

/-- **In a directory, a file can be written wherever no directory is.** -/
theorem writable_below {c : String} (hdir : d.isDir p = true) (hname : nameable p = true)
    (hc : '\x00' ∉ c.toList) : d.Writable (p ++ [c]) ↔ d.isDir (p ++ [c]) = false := by
  constructor
  · intro h
    exact h.not_dir
  · intro h
    refine ⟨?_, h, ?_⟩
    · rw [nameable, List.all_append, Bool.and_eq_true]
      exact ⟨hname, by simpa using hc⟩
    · rwa [List.dropLast_concat]

/-- **Files can be written together exactly when each can be written alone.** -/
theorem writeAll_isSome_iff :
    (d.writeAll texts).isSome = true ↔ ∀ f ∈ texts, d.Writable f.1 := by
  induction texts generalizing d with
  | nil => simp [writeAll]
  | cons f texts ih =>
    obtain ⟨p, content⟩ := f
    rw [List.forall_mem_cons, ← writeFile_isSome_iff content, writeAll]
    cases h : d.writeFile p content with
    | none => simp
    | some d' =>
      have hdirs := dirs_writeFile h
      rw [ih, and_iff_right (Option.isSome_some)]
      exact forall₂_congr fun f _ => Writable.congr hdirs

theorem dirs_writeAll (h : d.writeAll texts = some d') : d'.dirs = d.dirs := by
  induction texts generalizing d with
  | nil =>
    obtain rfl := Option.some.inj h
    rfl
  | cons f texts ih =>
    obtain ⟨p, content⟩ := f
    rw [writeAll] at h
    cases hp : d.writeFile p content with
    | none =>
      rw [hp] at h
      cases h
    | some d₁ =>
      rw [hp] at h
      exact (ih h).trans (dirs_writeFile hp)

/-- The files that were not written stay. -/
theorem read_writeAll_of_notMem (h : d.writeAll texts = some d') (hq : q ∉ texts.map Prod.fst) :
    d'.read q = d.read q := by
  induction texts generalizing d with
  | nil =>
    obtain rfl := Option.some.inj h
    rfl
  | cons f texts ih =>
    obtain ⟨p, content⟩ := f
    rw [List.map_cons, List.mem_cons, not_or] at hq
    rw [writeAll] at h
    cases hp : d.writeFile p content with
    | none =>
      rw [hp] at h
      cases h
    | some d₁ =>
      rw [hp] at h
      rw [ih h hq.2, read_writeFile_of_ne hp hq.1]

/-- **Files of different paths are read as they were written.** -/
theorem read_writeAll (h : d.writeAll texts = some d') (hnodup : (texts.map Prod.fst).Nodup)
    (hmem : (p, content) ∈ texts) : d'.read p = some content := by
  induction texts generalizing d with
  | nil => cases hmem
  | cons f texts ih =>
    obtain ⟨p', content'⟩ := f
    rw [List.map_cons, List.nodup_cons] at hnodup
    rw [writeAll] at h
    cases hp : d.writeFile p' content' with
    | none =>
      rw [hp] at h
      cases h
    | some d₁ =>
      rw [hp] at h
      rcases List.mem_cons.mp hmem with heq | hmem
      · cases heq
        rw [read_writeAll_of_notMem h hnodup.1, read_writeFile hp]
      · exact ih h hnodup.2 hmem

/-! ## Names in a directory -/

/-- Names with their contents, in a directory. -/
def below (p : Path) (names : List (String × String)) : List (Path × String) :=
  names.map fun f => (p ++ [f.1], f.2)

theorem below_inj {b c : String} : p ++ [b] = p ++ [c] ↔ b = c := by
  rw [List.append_cancel_left_eq, List.cons.injEq, and_iff_left rfl]

/-- What it is that names were written in a directory. -/
structure Filled (d d' : Disk) (p : Path) (names : List (String × String)) : Prop where
  dirs : d'.dirs = d.dirs
  reads : ∀ f ∈ names, d'.read (p ++ [f.1]) = some f.2
  others : ∀ q, (∀ f ∈ names, q ≠ p ++ [f.1]) → d'.read q = d.read q

/-- **Names are written in a directory exactly when none of them is a directory.** -/
theorem fill_spec {names : List (String × String)} (hdir : d.isDir p = true)
    (hname : nameable p = true) (hplain : ∀ f ∈ names, '\x00' ∉ f.1.toList)
    (hnodup : (names.map Prod.fst).Nodup) :
    ((d.writeAll (below p names)).isSome = true ↔ ∀ f ∈ names, d.isDir (p ++ [f.1]) = false) ∧
      ∀ d', d.writeAll (below p names) = some d' → d.Filled d' p names := by
  have hpaths : (below p names).map Prod.fst = (names.map Prod.fst).map fun c => p ++ [c] := by
    rw [below, List.map_map, List.map_map]
    rfl
  refine ⟨?_, fun d' h => ⟨dirs_writeAll h, fun f hf => ?_, fun q hq => ?_⟩⟩
  · rw [writeAll_isSome_iff, below, List.forall_mem_map]
    exact forall₂_congr fun f hf => writable_below hdir hname (hplain f hf)
  · refine read_writeAll h ?_ (List.mem_map.mpr ⟨f, hf, rfl⟩)
    rw [hpaths]
    exact List.Nodup.map (fun b c hbc => below_inj.mp hbc) hnodup
  · refine read_writeAll_of_notMem h ?_
    rw [hpaths, List.map_map]
    intro hmem
    obtain ⟨f, hf, hqf⟩ := List.mem_map.mp hmem
    exact hq f hf hqf.symm

end Disk

end Posix
