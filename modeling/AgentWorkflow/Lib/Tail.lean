import Mathlib.Data.List.DropRight

/-!
# Keeping the last elements

A machine that is given a sequence in pieces, and the last `m` elements of what it has been given:
`List.rtake`.

* `rtake_of_length_le` — when those are all.
* `rtake_rtake_append` — what has been dropped is not needed for what comes later.
* **`fed_foldl`** — what a machine knows of the sequence after each piece, it knows of the whole.
-/

universe u v

namespace Tail

variable {α : Type u} {m : ℕ} {l c : List α}

theorem rtake_of_length_le (h : l.length ≤ m) : l.rtake m = l := by
  rw [List.rtake, Nat.sub_eq_zero_of_le h, List.drop_zero]

/-- Of a sequence whose dropped part is dropped again, nothing else is lost. -/
theorem rtake_rtake_append : (l.rtake m ++ c).rtake m = (l ++ c).rtake m := by
  by_cases hl : l.length ≤ m
  · rw [rtake_of_length_le hl]
  · have hdrop : l.rtake m ++ c = (l ++ c).drop (l.length - m) := by
      rw [List.rtake, List.drop_append_of_le_length (Nat.sub_le _ _)]
    rw [hdrop, List.rtake, List.rtake, List.drop_drop, List.length_drop, List.length_append]
    congr 1
    omega

/-- A machine that is fed pieces. `Knows l s`: in the state `s` it has been given `l`. -/
theorem fed_foldl {σ : Type v} {Knows : List α → σ → Prop} {feed : σ → List α → σ} {s : σ}
    (hs : Knows [] s) (hfeed : ∀ l s piece, Knows l s → Knows (l ++ piece) (feed s piece))
    (pieces : List (List α)) : Knows pieces.flatten (pieces.foldl feed s) := by
  induction pieces using List.reverseRecOn with
  | nil => exact hs
  | append_singleton pieces piece ih =>
    rw [List.foldl_append, List.foldl_cons, List.foldl_nil, List.flatten_append,
      List.flatten_singleton]
    exact hfeed _ _ piece ih

end Tail
