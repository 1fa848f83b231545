import Mathlib.Data.List.Sort
import Mathlib.Data.List.TakeWhile

/-!
# Lineups

The rows of a store in the order of a rank, equal ranks in the order they came in: what
`select … where p order by rank limit 1` goes through.

* `List.lineup rank l` — the rows, lowest rank first.
* `List.ahead rank p l` — the rows before the first one with `p`.
* **`find?_lineup`** — a filter before the sort selects the same row as one after it: the first of
  the lineup that meets the condition.
* `lineup_map`, `ahead_map` — a rewrite of rows that keeps ranks keeps the order.
* `insertionSort_eq_lineup` — a sort by rank and then by insertion is the lineup;
  `filter_rank_lineup`: the rows of one rank stand in it as they came.
* `find?_lineup_of_mem` — when a row with `p` meets the condition, the selection is it or a row
  ahead of it.
-/

universe u v

namespace List

variable {α : Type u} {β : Type v} [LinearOrder β] (rank : α → β)

/-- The rows by rank. -/
def lineup (l : List α) : List α := l.insertionSort fun a b => rank a ≤ rank b

/-- The rows before the first one with `p`. -/
def ahead (p : α → Bool) (l : List α) : List α := (l.lineup rank).takeWhile fun a => !p a

variable {rank} {l : List α} {p q : α → Bool} {f : α → α}

/-! ## Filters -/

/-- What comes before everything is inserted first. -/
theorem orderedInsert_of_forall_le {a : α} (h : ∀ b ∈ l, rank a ≤ rank b) :
    l.orderedInsert (fun a b => rank a ≤ rank b) a = a :: l := by
  cases l with
  | nil => rfl
  | cons b l => exact List.orderedInsert_cons_of_le _ l (h b List.mem_cons_self)

/-- An insertion into an ordered list, seen through a filter. -/
theorem filter_orderedInsert {a : α} (hl : l.Pairwise fun a b => rank a ≤ rank b) :
    (l.orderedInsert (fun a b => rank a ≤ rank b) a).filter p =
      if p a = true then (l.filter p).orderedInsert (fun a b => rank a ≤ rank b) a
      else l.filter p := by
  induction l with
  | nil => by_cases ha : p a = true <;> simp [ha]
  | cons b l ih =>
    obtain ⟨hb, hl⟩ := List.pairwise_cons.mp hl
    by_cases hab : rank a ≤ rank b
    · have hall : ∀ c ∈ (b :: l).filter p, rank a ≤ rank c := by
        intro c hc
        rcases List.mem_cons.mp (List.mem_of_mem_filter hc) with rfl | hc
        · exact hab
        · exact hab.trans (hb c hc)
      have hcons : (b :: l).orderedInsert (fun a b => rank a ≤ rank b) a = a :: b :: l := if_pos hab
      rw [hcons, orderedInsert_of_forall_le hall]
      by_cases ha : p a = true <;> simp [ha]
    · have hcons : ∀ m : List α, (b :: m).orderedInsert (fun a b => rank a ≤ rank b) a =
          b :: m.orderedInsert (fun a b => rank a ≤ rank b) a := fun _ => if_neg hab
      rw [hcons, List.filter_cons, ih hl, List.filter_cons]
      by_cases ha : p a = true
      · by_cases hpb : p b = true
        · simp only [ha, hpb, if_true]
          exact (hcons _).symm
        · simp [ha, hpb]
      · by_cases hpb : p b = true <;> simp [ha, hpb]

/-- A filter commutes with the sort. -/
theorem lineup_filter : (l.filter p).lineup rank = (l.lineup rank).filter p := by
  induction l with
  | nil => rfl
  | cons a l ih =>
    have hsorted : (l.lineup rank).Pairwise fun a b => rank a ≤ rank b :=
      List.pairwise_insertionSort (fun a b => rank a ≤ rank b) l
    have hstep : (a :: l).lineup rank =
        (l.lineup rank).orderedInsert (fun a b => rank a ≤ rank b) a := rfl
    rw [hstep, filter_orderedInsert hsorted, ← ih, List.filter_cons]
    by_cases ha : p a = true
    · rw [if_pos ha, if_pos ha]
      rfl
    · rw [if_neg ha, if_neg ha]

/-- **The selected row is the first of the lineup that meets the condition.** -/
theorem find?_lineup : ((l.filter p).lineup rank).head? = (l.lineup rank).find? p := by
  rw [lineup_filter, List.head?_filter]

theorem pairwise_lineup : (l.lineup rank).Pairwise fun a b => rank a ≤ rank b :=
  List.pairwise_insertionSort (fun a b => rank a ≤ rank b) l

/-- The rows of one rank, as they came in. -/
theorem filter_rank_lineup (k : β) :
    (l.lineup rank).filter (fun a => rank a = k) = l.filter fun a => rank a = k := by
  rw [← lineup_filter]
  refine List.Pairwise.insertionSort_eq (List.pairwise_of_forall_mem_list fun a ha b hb => ?_)
  have hrank : ∀ c ∈ l.filter (fun a => rank a = k), rank c = k := fun c hc =>
    of_decide_eq_true (List.mem_filter.mp hc).2
  exact ((hrank a ha).trans (hrank b hb).symm).le

/-! ## Ties by the order of insertion -/

theorem orderedInsert_congr {r r' : α → α → Prop} [DecidableRel r] [DecidableRel r'] {a : α}
    (h : ∀ b ∈ l, r a b ↔ r' a b) : l.orderedInsert r a = l.orderedInsert r' a := by
  induction l with
  | nil => rfl
  | cons b l ih =>
    rw [List.orderedInsert_cons, List.orderedInsert_cons,
      ih fun c hc => h c (List.mem_cons_of_mem _ hc)]
    exact if_congr (h b List.mem_cons_self) rfl rfl

/-- Where an index grows along the rows, a sort by rank and then by index is the lineup. -/
theorem insertionSort_eq_lineup {γ : Type*} [LinearOrder γ] {index : α → γ}
    (hindex : l.Pairwise fun a b => index a < index b) :
    (l.insertionSort fun a b => rank a < rank b ∨ rank a = rank b ∧ index a ≤ index b) =
      l.lineup rank := by
  induction l with
  | nil => rfl
  | cons a l ih =>
    obtain ⟨ha, hl⟩ := List.pairwise_cons.mp hindex
    rw [List.insertionSort_cons, ih hl]
    refine orderedInsert_congr fun b hb => ?_
    have hlt := ha b ((List.mem_insertionSort _).mp hb)
    rw [and_iff_left hlt.le, le_iff_lt_or_eq]

/-! ## Rewrites -/

/-- A rewrite that keeps ranks keeps the order. -/
theorem lineup_map (hf : ∀ a, rank (f a) = rank a) :
    (l.map f).lineup rank = (l.lineup rank).map f :=
  (List.map_insertionSort (fun a b => rank a ≤ rank b) (fun a b => rank a ≤ rank b) f l
    fun a _ b _ => by rw [hf, hf]).symm

/-- A rewrite of the rows with `p` leaves those ahead of them. -/
theorem ahead_map (hf : ∀ a, rank (f a) = rank a) (hp : ∀ a, p (f a) = p a)
    (hid : ∀ a, p a = false → f a = a) : (l.map f).ahead rank p = l.ahead rank p := by
  unfold ahead
  have hcomp : (fun a => !p a) ∘ f = fun a => !p a := funext fun a => congrArg not (hp a)
  rw [lineup_map hf, List.takeWhile_map, hcomp]
  refine (List.map_congr_left fun a ha => ?_).trans (List.map_id _)
  exact hid a (by simpa using List.mem_takeWhile_imp ha)

/-! ## The selected row -/

/-- The lineup up to a row, and the row, when it is the only one with `p`. -/
theorem lineup_eq_ahead {a : α} (ha : a ∈ l) (hpa : p a = true)
    (honly : ∀ b ∈ l, p b = true → b = a) :
    ∃ rest, l.lineup rank = l.ahead rank p ++ a :: rest := by
  have happend := List.takeWhile_append_dropWhile (p := fun a => !p a) (l := l.lineup rank)
  have hmem : a ∈ l.lineup rank := (List.mem_insertionSort _).mpr ha
  cases hdrop : (l.lineup rank).dropWhile fun a => !p a with
  | nil =>
    rw [hdrop, List.append_nil] at happend
    rw [← happend] at hmem
    have := List.mem_takeWhile_imp hmem
    simp [hpa] at this
  | cons b rest =>
    have hb : p b = true := by
      have hhead := List.head_dropWhile_not (fun a => !p a) (l := l.lineup rank)
        (by rw [hdrop]; simp)
      simpa [hdrop] using hhead
    have hbl : b ∈ l := (List.mem_insertionSort _).mp
      ((List.dropWhile_suffix _).mem (hdrop ▸ List.mem_cons_self))
    rw [hdrop, honly b hbl hb] at happend
    exact ⟨rest, happend.symm⟩

/-- **When a row meets the condition, the selection is another one exactly when one ahead of it
does.** -/
theorem find?_lineup_of_mem {a b : α} (ha : a ∈ l) (hpa : p a = true)
    (honly : ∀ b ∈ l, p b = true → b = a) (hqa : q a = true)
    (hb : (l.lineup rank).find? q = some b) : p b = false ↔ ∃ c ∈ l.ahead rank p, q c = true := by
  obtain ⟨rest, hrest⟩ : ∃ rest, l.lineup rank = l.ahead rank p ++ a :: rest :=
    lineup_eq_ahead ha hpa honly
  rw [hrest, List.find?_append] at hb
  cases hfind : (l.ahead rank p).find? q with
  | none =>
    rw [hfind, Option.none_or, List.find?_cons_of_pos hqa] at hb
    obtain rfl := Option.some.inj hb
    refine ⟨fun h => ?_, ?_⟩
    · rw [hpa] at h
      cases h
    · rintro ⟨c, hc, hqc⟩
      exact absurd hqc (List.find?_eq_none.mp hfind c hc)
  | some c =>
    rw [hfind, Option.some_or] at hb
    obtain rfl := Option.some.inj hb
    have hmem := List.mem_of_find?_eq_some hfind
    refine ⟨fun _ => ⟨c, hmem, List.find?_some hfind⟩, fun _ => ?_⟩
    simpa using List.mem_takeWhile_imp hmem

/-- Nothing ahead of the selected row meets the condition. -/
theorem not_of_mem_ahead {a b : α} (ha : (l.lineup rank).find? q = some a) (hpa : p a = true)
    (honly : ∀ b ∈ l, p b = true → b = a) (hb : b ∈ l.ahead rank p) : q b = false := by
  have hmem : a ∈ l := (List.mem_insertionSort _).mp (List.mem_of_find?_eq_some ha)
  by_contra hqb
  have hsome : ∃ c ∈ l.ahead rank p, q c = true := ⟨b, hb, by simpa using hqb⟩
  have := (find?_lineup_of_mem hmem hpa honly (List.find?_some ha) ha).mpr hsome
  rw [hpa] at this
  cases this

end List
