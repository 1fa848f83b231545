import Mathlib.Data.List.Dedup
import Mathlib.Tactic.Common

/-!
# Trees of files and patches between them

A `Tree` gives some keys a value; a patch is a list of changes, each with the value before and after.

* `between a b` — the changes from `a` to `b` at the keys of `a`. **A key that only `b` has is not
  among them.**
* `apply` — every change in turn; one that does not find its `before` is refused.
* **`apply_between`** — applied to `a`, the patch from `a` to `b` gives the values of `b` at the keys
  of `a`, and no others.
-/

namespace Patching

universe u v

/-- Keys with values; the first pair of a key counts. -/
abbrev Tree (κ : Type u) (ν : Type v) := List (κ × ν)

/-- One key, before and after; a value that is missing is `none`. -/
structure Change (κ : Type u) (ν : Type v) where
  path : κ
  before : Option ν
  after : Option ν
  deriving DecidableEq, Repr

variable {κ : Type u} {ν : Type v} [DecidableEq κ]

namespace Tree

/-- Give a key a value, or remove it. -/
def write (t : Tree κ ν) (k : κ) : Option ν → Tree κ ν
  | some v => (k, v) :: t
  | none => t.filter fun entry => entry.1 ≠ k

theorem lookup_write (t : Tree κ ν) (k j : κ) (v : Option ν) :
    (t.write k v).lookup j = if j = k then v else t.lookup j := by
  rcases v with _ | v
  · induction t with
    | nil => by_cases hj : j = k <;> simp [write, hj]
    | cons entry t ih =>
      obtain ⟨i, w⟩ := entry
      by_cases hi : i = k
      · subst hi
        have hskip : write ((i, w) :: t) i none = write t i none := by simp [write]
        rw [hskip, ih]
        by_cases hj : j = i
        · rw [if_pos hj, if_pos hj]
        · rw [if_neg hj, if_neg hj, List.lookup_cons, beq_false_of_ne hj]
      · have hkeep : write ((i, w) :: t) k none = (i, w) :: write t k none := by
          simp [write, hi]
        rw [hkeep, List.lookup_cons, List.lookup_cons, ih]
        by_cases hj : j = i
        · subst hj
          simp [hi]
        · rw [beq_false_of_ne hj]
  · unfold write
    rw [List.lookup_cons]
    by_cases hj : j = k
    · rw [if_pos hj, hj, beq_self_eq_true]
    · rw [if_neg hj, beq_false_of_ne hj]

end Tree

/-- Make a change where its `before` is found. -/
def Change.apply (c : Change κ ν) [DecidableEq ν] (t : Tree κ ν) : Option (Tree κ ν) :=
  if t.lookup c.path = c.before then some (t.write c.path c.after) else none

/-- Make every change in turn. -/
def apply [DecidableEq ν] : List (Change κ ν) → Tree κ ν → Option (Tree κ ν)
  | [], t => some t
  | c :: cs, t => (c.apply t).bind (apply cs)

/-- The changes from `a` to `b` at the keys of `a`. -/
def between [DecidableEq ν] (a b : Tree κ ν) : List (Change κ ν) :=
  ((a.map Prod.fst).dedup.filter fun k => a.lookup k ≠ b.lookup k).map fun k =>
    { path := k, before := a.lookup k, after := b.lookup k }

section patches

variable [DecidableEq ν] {a b t : Tree κ ν} {cs : List (Change κ ν)}

/-- Changes of different keys that find their `before` are all made, and nothing else changes. -/
theorem apply_spec (hnodup : (cs.map Change.path).Nodup)
    (hbefore : ∀ c ∈ cs, t.lookup c.path = c.before) :
    ∃ t', apply cs t = some t' ∧ (∀ c ∈ cs, t'.lookup c.path = c.after) ∧
      ∀ k, k ∉ cs.map Change.path → t'.lookup k = t.lookup k := by
  induction cs generalizing t with
  | nil => exact ⟨t, rfl, by simp, fun _ _ => rfl⟩
  | cons c cs ih =>
    rw [List.map_cons, List.nodup_cons] at hnodup
    obtain ⟨hc, hnodup⟩ := hnodup
    have hfresh : ∀ c' ∈ cs, c'.path ≠ c.path := fun c' hc' h =>
      hc (h ▸ List.mem_map_of_mem hc')
    have hfirst : c.apply t = some (t.write c.path c.after) :=
      if_pos (hbefore c List.mem_cons_self)
    obtain ⟨t', happly, hafter, hothers⟩ := @ih (t.write c.path c.after) hnodup fun c' hc' => by
      rw [Tree.lookup_write, if_neg (hfresh c' hc')]
      exact hbefore c' (List.mem_cons_of_mem c hc')
    refine ⟨t', ?_, ?_, ?_⟩
    · show (c.apply t).bind (apply cs) = some t'
      rw [hfirst, Option.bind_some, happly]
    · intro c' hc'
      rcases List.mem_cons.mp hc' with rfl | hc'
      · rw [hothers _ hc, Tree.lookup_write, if_pos rfl]
      · exact hafter c' hc'
    · intro k hk
      rw [List.map_cons, List.mem_cons, not_or] at hk
      rw [hothers k hk.2, Tree.lookup_write, if_neg hk.1]

/-- The keys of a patch between two trees are those that `a` has and that differ. -/
theorem mem_paths_between {k : κ} : k ∈ (between a b).map Change.path ↔
    (a.lookup k).isSome = true ∧ a.lookup k ≠ b.lookup k := by
  simp [between, List.mem_map, List.mem_filter, List.mem_dedup, Function.comp_def]

/-- **The patch from `a` to `b`, applied to `a`**, gives the values of `b` at the keys of `a`. -/
theorem apply_between (a b : Tree κ ν) : ∃ t, apply (between a b) a = some t ∧
    ∀ k, t.lookup k = if (a.lookup k).isSome = true then b.lookup k else none := by
  have hnodup : ((between a b).map Change.path).Nodup := by
    have hpaths : (between a b).map Change.path =
        (a.map Prod.fst).dedup.filter fun k => a.lookup k ≠ b.lookup k := by
      simp [between, Function.comp_def]
    rw [hpaths]
    exact (List.nodup_dedup _).filter _
  have hchange : ∀ c ∈ between a b, c.before = a.lookup c.path ∧ c.after = b.lookup c.path := by
    intro c hc
    obtain ⟨k, -, rfl⟩ := List.mem_map.mp hc
    exact ⟨rfl, rfl⟩
  obtain ⟨t, happly, hafter, hothers⟩ :=
    apply_spec hnodup fun c hc => (hchange c hc).1.symm
  refine ⟨t, happly, fun k => ?_⟩
  by_cases hk : k ∈ (between a b).map Change.path
  · obtain ⟨c, hc, rfl⟩ := List.mem_map.mp hk
    rw [hafter c hc, (hchange c hc).2, if_pos (mem_paths_between.mp hk).1]
  · rw [hothers k hk]
    by_cases hsome : (a.lookup k).isSome = true
    · have hsame : a.lookup k = b.lookup k := by
        by_contra hne
        exact hk (mem_paths_between.mpr ⟨hsome, hne⟩)
      rw [if_pos hsome, hsame]
    · rw [if_neg hsome]
      exact Option.not_isSome_iff_eq_none.mp hsome

end patches

end Patching
