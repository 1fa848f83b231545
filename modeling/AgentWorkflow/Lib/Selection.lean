import Mathlib.Data.List.Perm.Basic
import Mathlib.Data.List.Sort
import Mathlib.Order.MinMax

/-!
# Selecting by score

The candidate with the highest score, ties going to the least key: what a sort by score with a
tie-break by key puts first.

* `Ahead score le key` — the order of the sort.
* `Best score le key S a` — `a` is the selected member of `S`.
* **`best_of_head?`** — the first of the sorted list is the best of the list.
* **`Best.of_view`** — the best depends on what is seen of the candidates, not on the list they
  come in: neither on the order nor on which of two candidates with the same view is there.
* `highest` — the highest value over a list, at least a floor; `highest_perm`.
* `filter_key_eq`, `find?_key_eq` — where keys are distinct, a key selects one element.
-/

universe u v w x

namespace Selection

variable {α : Type u} {σ : Type v} {κ : Type w} [LinearOrder σ]

/-! ## The order -/

/-- A higher score, or the same score and a key that is not greater. -/
def Ahead (score : α → σ) (le : κ → κ → Prop) (key : α → κ) (a b : α) : Prop :=
  score b < score a ∨ score a = score b ∧ le (key a) (key b)

/-- The selected member: ahead of every member. -/
structure Best (score : α → σ) (le : κ → κ → Prop) (key : α → κ) (S : α → Prop) (a : α) :
    Prop where
  mem : S a
  ahead : ∀ b, S b → Ahead score le key a b

section order

variable {score : α → σ} {le : κ → κ → Prop} {key : α → κ} {S : α → Prop} {a b : α}

/-- No member scores higher. -/
theorem Ahead.score_le (h : Ahead score le key a b) : score b ≤ score a := by
  rcases h with h | ⟨h, -⟩
  · exact h.le
  · exact h.ge

theorem Ahead.total (htotal : ∀ k k', le k k' ∨ le k' k) (a b : α) :
    Ahead score le key a b ∨ Ahead score le key b a := by
  rcases lt_trichotomy (score a) (score b) with h | h | h
  · exact .inr (.inl h)
  · rcases htotal (key a) (key b) with hk | hk
    · exact .inl (.inr ⟨h, hk⟩)
    · exact .inr (.inr ⟨h.symm, hk⟩)
  · exact .inl (.inl h)

theorem Ahead.trans (htrans : ∀ k k' k'', le k k' → le k' k'' → le k k'') {a b c : α}
    (h : Ahead score le key a b) (h' : Ahead score le key b c) : Ahead score le key a c := by
  rcases h with h | ⟨h, hk⟩
  · exact .inl (h'.score_le.trans_lt h)
  · rcases h' with h' | ⟨h', hk'⟩
    · exact .inl (h ▸ h')
    · exact .inr ⟨h.trans h', htrans _ _ _ hk hk'⟩

/-- Two selected members have one key. -/
theorem Best.key_eq (hanti : ∀ k k', le k k' → le k' k → k = k') (h : Best score le key S a)
    (h' : Best score le key S b) : key a = key b := by
  rcases h.ahead b h'.mem with hab | ⟨-, hab⟩
  · exact absurd (h'.ahead a h.mem).score_le (not_le.mpr hab)
  · rcases h'.ahead a h.mem with hba | ⟨-, hba⟩
    · exact absurd (h.ahead b h'.mem).score_le (not_le.mpr hba)
    · exact hanti _ _ hab hba

/-- **The first of the sorted list is the best of the list.** -/
theorem best_of_head? (htotal : ∀ k k', le k k' ∨ le k' k)
    (htrans : ∀ k k' k'', le k k' → le k' k'' → le k k'') {r : α → α → Prop} [DecidableRel r]
    (hr : ∀ a b, r a b ↔ Ahead score le key a b) {l : List α}
    (h : (l.insertionSort r).head? = some a) : Best score le key (· ∈ l) a := by
  have : Std.Total r := ⟨fun a b => by
    simpa only [hr] using Ahead.total htotal a b⟩
  have : IsTrans α r := ⟨fun a b c => by
    simpa only [hr] using Ahead.trans htrans⟩
  have hsorted := List.pairwise_insertionSort r l
  obtain ⟨rest, hrest⟩ := List.head?_eq_some_iff.mp h
  have hmem : ∀ b, b ∈ l ↔ b ∈ a :: rest := fun b => hrest ▸ (List.mem_insertionSort r).symm
  rw [hrest] at hsorted
  refine ⟨(hmem a).mpr List.mem_cons_self, fun b hb => ?_⟩
  rcases List.mem_cons.mp ((hmem b).mp hb) with rfl | hb
  · rcases htotal (key b) (key b) with hbb | hbb <;> exact .inr ⟨rfl, hbb⟩
  · exact (hr a b).mp ((List.pairwise_cons.mp hsorted).1 b hb)

/-- **The best depends on what is seen of the candidates only.** -/
theorem Best.of_view {ν : Type x} (view : α → ν) {score' : α → σ} {T : α → Prop}
    (h : Best score le key S a) (hb : T b) (hab : view a = view b)
    (hT : ∀ c, T c → ∃ d, S d ∧ view d = view c)
    (hscore : ∀ c d, view c = view d → score c = score' d)
    (hkey : ∀ c d, view c = view d → key c = key d) : Best score' le key T b := by
  refine ⟨hb, fun c hc => ?_⟩
  obtain ⟨d, hd, hdc⟩ := hT c hc
  rcases h.ahead d hd with had | ⟨had, hle⟩
  · rw [hscore d c hdc, hscore a b hab] at had
    exact .inl had
  · rw [hscore d c hdc, hscore a b hab] at had
    rw [hkey d c hdc, hkey a b hab] at hle
    exact .inr ⟨had, hle⟩

end order

/-! ## The highest value -/

/-- The highest value over a list, and the floor when there is none above it. -/
def highest (floor : σ) (f : α → σ) (l : List α) : σ := (l.map f).foldl max floor

/-- A list in another order has the same highest value. -/
theorem highest_perm (floor : σ) (f : α → σ) {l l' : List α} (h : l.Perm l') :
    highest floor f l = highest floor f l' :=
  (h.map f).foldl_eq floor

/-! ## Selecting by key -/

/-- Where keys are distinct, the key of an element selects it alone. -/
theorem filter_key_eq [DecidableEq κ] {key : α → κ} {l : List α} (hnodup : (l.map key).Nodup)
    {a : α} (ha : a ∈ l) : l.filter (fun b => key b = key a) = [a] := by
  induction l with
  | nil => cases ha
  | cons b l ih =>
    rw [List.map_cons, List.nodup_cons] at hnodup
    obtain ⟨hb, hl⟩ := hnodup
    rcases List.mem_cons.mp ha with rfl | ha
    · have hrest : l.filter (fun b => key b = key a) = [] :=
        List.filter_eq_nil_iff.mpr fun c hc h =>
          hb (of_decide_eq_true h ▸ List.mem_map_of_mem hc)
      rw [List.filter_cons, hrest, if_pos (decide_eq_true rfl)]
    · have hne : ¬key b = key a := fun h => hb (h ▸ List.mem_map_of_mem ha)
      rw [List.filter_cons, ih hl ha, if_neg fun h => hne (of_decide_eq_true h)]

theorem find?_key_eq [DecidableEq κ] {key : α → κ} {l : List α} (hnodup : (l.map key).Nodup)
    {a : α} (ha : a ∈ l) : l.find? (fun b => key b = key a) = some a := by
  rw [← List.head?_filter, filter_key_eq hnodup ha]
  rfl

/-- A list without repetitions whose elements are all the same. -/
theorem eq_singleton_of_nodup {l : List α} (hnodup : l.Nodup) {a : α} (ha : a ∈ l)
    (h : ∀ b ∈ l, b = a) : l = [a] := by
  cases l with
  | nil => cases ha
  | cons b l =>
    obtain ⟨hb, -⟩ := List.nodup_cons.mp hnodup
    have hnil : l = [] := List.eq_nil_iff_forall_not_mem.mpr fun c hc => by
      have hcb : c = b := (h c (List.mem_cons_of_mem _ hc)).trans (h b List.mem_cons_self).symm
      exact hb (hcb ▸ hc)
    rw [hnil, h b List.mem_cons_self]

end Selection
