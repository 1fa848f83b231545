import Mathlib.Data.List.Infix
import Mathlib.Data.List.Basic

/-!
# Path segments, paths and a disk

Strings as a program inspects them to build a path, the paths of a POSIX system, and a tree of files
that returns what was written.

* `includes`, `split`, `isAbsolute`, `basename` — inspections of a string. `basename_eq_self_iff`:
  **a string is its own base name exactly when it has no separator.**
* `resolve` — a path, from a path and a relative name: `.` and empty components vanish, `..` goes up.
  On a plain name it is `step` (`resolve_of_plain`).
* `Disk` — directories and files. `mkdirp` and `writeFile` fail where a file is in the way of a
  directory or a directory of a file; **what was written is read until it is written again**
  (`read_writeFile`, `read_writeFile_of_ne`, `read_mkdirp`).
-/

namespace Posix

/-! ## Strings -/

/-- `s.includes(sub)`. -/
def includes (s sub : String) : Bool := decide (sub.toList <:+: s.toList)

/-- `s.split(c)`. -/
def split (s : String) (c : Char) : List String := (s.toList.splitOn c).map String.ofList

/-- `path.isAbsolute`. -/
def isAbsolute (s : String) : Bool := s.toList.head? = some '/'

/-- `path.basename`: the last component, trailing separators ignored. -/
def basename (s : String) : String := ((split s '/').filter (· ≠ "")).getLastD ""

section strings

variable {s : String} {c : Char}

theorem includes_singleton : includes s (String.ofList [c]) = true ↔ c ∈ s.toList := by
  simp [includes, List.singleton_infix_iff]

/-- A string without the separator is not split. -/
theorem split_of_notMem (h : c ∉ s.toList) : split s c = [s] := by
  rw [split, List.splitOn_eq_singleton h]
  simp

/-- No piece has the separator. -/
theorem notMem_of_mem_split {p : String} (h : p ∈ split s c) : c ∉ p.toList := by
  obtain ⟨l, hl, rfl⟩ := List.mem_map.mp h
  rw [String.toList_ofList]
  have hall : ∀ xs : List Char, ∀ l ∈ xs.splitOn c, c ∉ l := by
    intro xs
    induction xs with
    | nil => simp
    | cons x xs ih =>
      intro l hl
      rw [List.splitOn_cons_eq_if_modifyHead] at hl
      by_cases hx : (x == c) = true
      · rw [if_pos hx] at hl
        rcases List.mem_cons.mp hl with rfl | hl
        · exact List.not_mem_nil
        · exact ih l hl
      · rw [if_neg hx] at hl
        obtain ⟨first, rest, hfr⟩ := List.exists_cons_of_ne_nil (List.splitOn_ne_nil c xs)
        rw [hfr, List.modifyHead_cons] at hl
        rcases List.mem_cons.mp hl with rfl | hl
        · intro hmem
          rcases List.mem_cons.mp hmem with rfl | hmem
          · exact hx (beq_self_eq_true c)
          · exact ih first (hfr ▸ List.mem_cons_self) hmem
        · exact ih l (hfr ▸ List.mem_cons_of_mem first hl)
  exact hall _ l hl

/-- Three pieces without the separator, joined, are split again. -/
theorem split_three {a b d : String} (ha : c ∉ a.toList) (hb : c ∉ b.toList) (hd : c ∉ d.toList) :
    split (a ++ String.ofList [c] ++ b ++ String.ofList [c] ++ d) c = [a, b, d] := by
  have hjoin : (a ++ String.ofList [c] ++ b ++ String.ofList [c] ++ d).toList =
      a.toList ++ c :: (b.toList ++ c :: d.toList) := by
    simp [String.toList_append]
  rw [split, hjoin, List.splitOn_append_cons_self_of_not_mem ha,
    List.splitOn_append_cons_self_of_not_mem hb, List.splitOn_eq_singleton hd]
  simp

/-- A string that is split into three pieces is the three, joined. -/
theorem eq_of_split_three {a b d : String} (h : split s c = [a, b, d]) :
    s = a ++ String.ofList [c] ++ b ++ String.ofList [c] ++ d := by
  refine String.toList_injective ?_
  have hsplit : s.toList.splitOn c = [a.toList, b.toList, d.toList] := by
    have := congrArg (List.map String.toList) h
    simpa [split, Function.comp_def] using this
  have hjoin : [c].intercalate (s.toList.splitOn c) = s.toList := List.intercalate_splitOn c
  rw [hsplit] at hjoin
  rw [← hjoin]
  simp [String.toList_append, List.intercalate]

/-- **A string is its own base name exactly when it has no separator.** -/
theorem basename_eq_self_iff : basename s = s ↔ '/' ∉ s.toList := by
  constructor
  · intro h
    by_cases hempty : (split s '/').filter (· ≠ "") = []
    · rw [basename, hempty] at h
      rw [← h]
      simp
    · have hmem : basename s ∈ split s '/' := by
        have hlast := List.getLast_mem hempty
        rw [basename, List.getLastD_eq_getLast?, List.getLast?_eq_some_getLast hempty]
        exact (List.mem_filter.mp hlast).1
      rw [h] at hmem
      exact notMem_of_mem_split hmem
  · intro h
    rw [basename, split_of_notMem h]
    by_cases hs : s = ""
    · simp [hs]
    · simp [hs]

theorem isAbsolute_of_notMem (h : '/' ∉ s.toList) : isAbsolute s = false := by
  unfold isAbsolute
  rw [decide_eq_false_iff_not]
  intro hhead
  exact h (List.mem_of_mem_head? hhead)

end strings

/-! ## Paths -/

/-- The components of an absolute path. -/
abbrev Path := List String

/-- Go on by one component. -/
def step (p : Path) (c : String) : Path :=
  if c = "" ∨ c = "." then p else if c = ".." then p.dropLast else p ++ [c]

/-- `path.resolve(p, name)`. -/
def resolve (p : Path) (name : String) : Path :=
  (split name '/').foldl step (if isAbsolute name = true then [] else p)

/-- `path.relative(a, b)`: up to the common part, and down. -/
def relative : Path → Path → String
  | x :: a, y :: b =>
    if x = y then relative a b
    else String.intercalate "/" ((x :: a).map (fun _ => "..") ++ y :: b)
  | a, b => String.intercalate "/" (a.map (fun _ => "..") ++ b)

/-- A path as text. -/
def Path.text (p : Path) : String := "/" ++ String.intercalate "/" p

section paths

variable {p q : Path} {name : String}

theorem resolve_of_plain (h : '/' ∉ name.toList) : resolve p name = step p name := by
  rw [resolve, isAbsolute_of_notMem h, split_of_notMem h]
  rfl

/-- Down from a path to one below it, nothing goes up. -/
theorem relative_append : relative p (p ++ q) = String.intercalate "/" q := by
  induction p with
  | nil => cases q <;> simp [relative]
  | cons x p ih => simpa [relative] using ih

end paths

/-! ## A disk -/

/-- Directories and files, by path. The root is always there. -/
structure Disk where
  dirs : List Path
  /-- Latest first. -/
  files : List (Path × String)

namespace Disk

variable {d d' : Disk} {p q : Path} {content : String}

/-- The path is a directory. -/
def isDir (d : Disk) (p : Path) : Bool := p = [] ∨ p ∈ d.dirs

/-- The content of a file. -/
def read (d : Disk) (p : Path) : Option String := d.files.lookup p

/-- A name the system takes: without a zero character. -/
def nameable (p : Path) : Bool := p.all fun c => !c.toList.contains '\x00'

/-- `mkdir -p`: fails where a file is in the way. -/
def mkdirp (d : Disk) (p : Path) : Option Disk :=
  if nameable p = true ∧ ∀ q ∈ p.inits, d.read q = none then some { d with dirs := p.inits ++ d.dirs }
  else none

/-- Write a file into a directory that is there. -/
def writeFile (d : Disk) (p : Path) (content : String) : Option Disk :=
  if nameable p = true ∧ d.isDir p = false ∧ d.isDir p.dropLast = true then
    some { d with files := (p, content) :: d.files }
  else none

/-- Directories leave the files as they are. -/
theorem read_mkdirp (h : d.mkdirp p = some d') : d'.read q = d.read q := by
  unfold mkdirp at h
  split at h
  · cases h
    rfl
  · cases h

/-- A directory that was made is no place for a file. -/
theorem writeFile_mkdirp (h : d.mkdirp p = some d') : d'.writeFile p content = none := by
  unfold mkdirp at h
  split at h
  · cases h
    have hdir : isDir { d with dirs := p.inits ++ d.dirs } p = true := by
      simp [isDir, List.mem_inits]
    simp [writeFile, hdir]
  · cases h

theorem nameable_of_writeFile (h : d.writeFile p content = some d') : nameable p = true := by
  unfold writeFile at h
  split at h
  next hw => exact hw.1
  · cases h

/-- What was written is read. -/
theorem read_writeFile (h : d.writeFile p content = some d') : d'.read p = some content := by
  unfold writeFile at h
  split at h
  · cases h
    simp [read]
  · cases h

/-- The other files stay as they are. -/
theorem read_writeFile_of_ne (h : d.writeFile p content = some d') (hne : q ≠ p) :
    d'.read q = d.read q := by
  unfold writeFile at h
  split at h
  · cases h
    simp [read, List.lookup_cons, beq_false_of_ne hne]
  · cases h

end Disk

end Posix
