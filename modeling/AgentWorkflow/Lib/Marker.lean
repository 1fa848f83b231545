import Mathlib.Data.List.Infix
import Mathlib.Data.List.Basic

/-!
# Finding a marker again

A marker is put behind a text, something follows, and the text is to be found again: it is what
stands before the first occurrence of the marker, `List.dropInfix?`.

* `dropInfix?_eq_some` — the split at the first occurrence.
* `Marker` — a marker that overlaps itself in one element at most.
* **`Marker.found_iff`** — the text is found again exactly when the marker does not occur in it, the
  first element of the marker behind it included.
-/

universe u

namespace Marker

variable {α : Type u} [DecidableEq α] {l m p s r t : List α}

/-- The split at the first occurrence. -/
theorem dropInfix?_eq_some : l.dropInfix? m = some (p, s) ↔
    l = p ++ m ++ s ∧ ∀ p' s', l = p' ++ m ++ s' → p.length ≤ p'.length := by
  rw [List.dropInfix?_eq_some_iff]
  constructor
  · rintro ⟨⟨m', hl, hm⟩, hfirst⟩
    obtain rfl := eq_of_beq hm
    exact ⟨hl, fun p' s' h => hfirst p' m' s' h (beq_self_eq_true m')⟩
  · rintro ⟨hl, hfirst⟩
    refine ⟨⟨m, hl, beq_self_eq_true m⟩, fun p' m' s' h hm => ?_⟩
    obtain rfl := eq_of_beq hm
    exact hfirst p' s' h

/-- No end of the marker begins it, but for its last element and the whole. -/
def Overlapless (m : List α) : Prop :=
  ∀ k < m.length - 1, 1 ≤ k → m.drop k ≠ m.take (m.length - k)

instance (m : List α) : Decidable (Overlapless m) :=
  inferInstanceAs (Decidable (∀ k < m.length - 1, 1 ≤ k → m.drop k ≠ m.take (m.length - k)))

omit [DecidableEq α] in
/-- An occurrence that begins in the text ends there, or with the first element of the marker. -/
theorem prefix_of_overlapless (hm : Overlapless m) {c b : List α} (hc : c ≠ [])
    (h : c ++ m ++ t = m ++ b) : m <+: c ++ m.take 1 := by
  have hprefix : m <+: c ++ m ++ t := ⟨b, h.symm⟩
  have htake : c ++ m.take 1 <+: c ++ m ++ t := by
    rw [List.append_assoc, List.prefix_append_right_inj]
    exact (List.take_prefix 1 m).trans (List.prefix_append m t)
  by_cases hlength : m.length ≤ (c ++ m.take 1).length
  · exact List.prefix_of_prefix_length_le hprefix htake hlength
  · -- The rest of the marker would begin the marker that was put there.
    exfalso
    have hpos : 1 ≤ c.length := List.length_pos_iff.mpr hc
    simp only [List.length_append, List.length_take, not_le] at hlength
    have hdrop : m.drop c.length <+: m ++ t := by
      have hshort := hprefix.drop c.length
      rwa [List.append_assoc, List.drop_left] at hshort
    have hbegins : m.drop c.length <+: m :=
      List.prefix_of_prefix_length_le hdrop (List.prefix_append m t) (by simp)
    refine hm c.length (by omega) hpos ?_
    rw [List.prefix_iff_eq_take.mp hbegins, List.length_drop]

/-- **Where the text is found again.** -/
theorem found_iff (hm : Overlapless m) (hlength : 2 ≤ m.length) :
    (r ++ m ++ t).dropInfix? m = some (r, t) ↔ ¬ m <:+: r ++ m.take 1 := by
  rw [dropInfix?_eq_some]
  constructor
  · rintro ⟨-, hfirst⟩ ⟨a, b, hinfix⟩
    have hm' : m.take 1 ++ m.drop 1 = m := List.take_append_drop 1 m
    have hsplit : r ++ m ++ t = r ++ m.take 1 ++ m.drop 1 ++ t := by
      rw [List.append_assoc r (m.take 1), hm']
    have hearlier := hfirst a (b ++ m.drop 1 ++ t) (by
      rw [hsplit, ← hinfix]
      simp only [List.append_assoc])
    have hcount := congrArg List.length hinfix
    simp only [List.length_append, List.length_take] at hcount
    omega
  · intro hnot
    refine ⟨rfl, fun a b h => ?_⟩
    by_contra hshort
    rw [not_le] at hshort
    have ha : a <+: r := by
      refine @List.prefix_of_prefix_length_le α a r (r ++ m ++ t) ⟨m ++ b, ?_⟩ ⟨m ++ t, ?_⟩ hshort.le
      · rw [h, List.append_assoc]
      · rw [List.append_assoc]
    obtain ⟨c, rfl⟩ := ha
    have hc : c ≠ [] := by
      rintro rfl
      simp at hshort
    have hrest : c ++ m ++ t = m ++ b := by
      simp only [List.append_assoc] at h ⊢
      exact List.append_cancel_left h
    obtain ⟨d, hd⟩ := prefix_of_overlapless hm hc hrest
    exact hnot ⟨a, d, by rw [List.append_assoc, hd, List.append_assoc]⟩

end Marker
