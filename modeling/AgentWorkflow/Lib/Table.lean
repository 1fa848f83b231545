import Mathlib.Data.List.Nodup
import Mathlib.Data.List.Perm.Subperm
import Mathlib.Tactic.Common

/-!
# Keyed tables

A `Table key` holds rows with pairwise distinct keys, in insertion order: a table of a relational
store with a primary key. Distinctness is a field, so no operation can build a table in which a
lookup is ambiguous.

* `Table.find?` — the row with a key.
* `Table.insert` — refuses a key that is present.
* `Table.update`, `Table.mapRows` — rewrite the row with a key, or every row, by a function that
  keeps keys.

**Every table is read through `find?`**: `find?_insert`, `find?_update` and `mem_iff_find?` say
what each operation does to it, and the models built on tables use nothing else.
-/

universe u v

/-- Rows with pairwise distinct keys, in insertion order. -/
structure Table {κ : Type u} {ρ : Type v} (key : ρ → κ) where
  /-- The rows, first inserted first. -/
  rows : List ρ
  /-- The primary key constraint. -/
  nodup : (rows.map key).Nodup

namespace Table

variable {κ : Type u} {ρ : Type v} {key : ρ → κ} [DecidableEq κ]

/-- The table without rows. -/
def empty : Table key := ⟨[], List.nodup_nil⟩

/-- The row with key `k`. -/
def find? (t : Table key) (k : κ) : Option ρ :=
  t.rows.find? fun r => decide (key r = k)

theorem key_of_find? {t : Table key} {k : κ} {r : ρ} (h : t.find? k = some r) : key r = k := by
  have hk := List.find?_some h
  simpa using hk

/-- The rows are exactly what the keys find. -/
theorem mem_iff_find? {t : Table key} {r : ρ} : r ∈ t.rows ↔ t.find? (key r) = some r := by
  refine ⟨fun h => ?_, fun h => List.mem_of_find?_eq_some h⟩
  obtain ⟨rows, hn⟩ := t
  simp only [find?] at h ⊢
  induction rows with
  | nil => cases h
  | cons q rows ih =>
    rw [List.map_cons, List.nodup_cons] at hn
    rcases List.mem_cons.mp h with rfl | h'
    · simp
    · have hne : key q ≠ key r := fun hq => hn.1 (hq ▸ List.mem_map_of_mem h')
      rw [List.find?_cons_of_neg (by simpa using hne)]
      exact ih hn.2 h'

@[simp] theorem find?_empty (k : κ) : (empty : Table key).find? k = none := rfl

/-! ## Insertion -/

/-- Append a row whose key is not present. -/
def insert (t : Table key) (r : ρ) : Option (Table key) :=
  if h : key r ∈ t.rows.map key then none
  else some ⟨t.rows ++ [r], by
    rw [List.map_append, List.nodup_append]
    refine ⟨t.nodup, by simp, ?_⟩
    rintro a ha b hb rfl
    rw [List.map_singleton, List.mem_singleton] at hb
    exact h (hb ▸ ha)⟩

theorem insert_rows {t t' : Table key} {r : ρ} (h : t.insert r = some t') :
    t'.rows = t.rows ++ [r] := by
  unfold insert at h
  split at h
  · cases h
  · cases h
    rfl

/-- A row is inserted only under a new key. -/
theorem find?_of_insert {t t' : Table key} {r : ρ} (h : t.insert r = some t') :
    t.find? (key r) = none := by
  unfold insert at h
  split at h
  · cases h
  · rename_i hk
    refine List.find?_eq_none.mpr fun q hq hqk => hk ?_
    rw [← of_decide_eq_true hqk]
    exact List.mem_map_of_mem hq

/-- A key that is present is refused. -/
theorem insert_of_find? {t : Table key} {r q : ρ} (h : t.find? (key r) = some q) :
    t.insert r = none := by
  unfold insert
  rw [dif_pos]
  rw [← key_of_find? h]
  exact List.mem_map_of_mem (List.mem_of_find?_eq_some h)

/-- A key that is not present is accepted. -/
theorem exists_insert_of_find? {t : Table key} {r : ρ} (h : t.find? (key r) = none) :
    ∃ t', t.insert r = some t' := by
  have hk : key r ∉ t.rows.map key := by
    intro hmem
    obtain ⟨q, hq, hqr⟩ := List.mem_map.mp hmem
    have := mem_iff_find?.mp hq
    rw [hqr, h] at this
    cases this
  unfold insert
  rw [dif_neg hk]
  exact ⟨_, rfl⟩

/-- After an insertion the new key finds the new row and every other key what it found before. -/
theorem find?_insert {t t' : Table key} {r : ρ} (h : t.insert r = some t') (k : κ) :
    t'.find? k = if k = key r then some r else t.find? k := by
  have hnone := find?_of_insert h
  unfold find? at hnone ⊢
  rw [insert_rows h, List.find?_append]
  by_cases hk : k = key r
  · subst hk
    rw [hnone]
    simp
  · rw [if_neg hk]
    have : List.find? (fun q => decide (key q = k)) [r] = none := by
      simp [Ne.symm hk]
    rw [this, Option.or_none]

/-! ## Update -/

/-- Rewrite the row with key `k` by `f`, which keeps keys. -/
def update (t : Table key) (k : κ) (f : ρ → ρ) (hf : ∀ r, key (f r) = key r) : Table key where
  rows := t.rows.map fun r => if key r = k then f r else r
  nodup := by
    have : (t.rows.map fun r => if key r = k then f r else r).map key = t.rows.map key := by
      rw [List.map_map]
      refine List.map_congr_left fun r _ => ?_
      by_cases h : key r = k <;> simp [h, hf]
    rw [this]
    exact t.nodup

/-- An update is seen under its own key only. -/
theorem find?_update (t : Table key) (k : κ) (f : ρ → ρ) (hf : ∀ r, key (f r) = key r) (j : κ) :
    (t.update k f hf).find? j = if j = k then (t.find? j).map f else t.find? j := by
  obtain ⟨rows, hn⟩ := t
  simp only [find?, update]
  induction rows with
  | nil => simp
  | cons q rows ih =>
    rw [List.map_cons, List.nodup_cons] at hn
    have hkey : key (if key q = k then f q else q) = key q := by
      by_cases h : key q = k <;> simp [h, hf]
    by_cases hj : key q = j
    · rw [List.map_cons, List.find?_cons_of_pos (by simpa [hkey] using hj),
        List.find?_cons_of_pos (by simpa using hj)]
      subst hj
      by_cases h : key q = k <;> simp [h]
    · rw [List.map_cons, List.find?_cons_of_neg (by simpa [hkey] using hj),
        List.find?_cons_of_neg (by simpa using hj)]
      exact ih hn.2

/-- An update finds rows under the keys it found them under before. -/
theorem isSome_find?_update (t : Table key) (k : κ) (f : ρ → ρ) (hf : ∀ r, key (f r) = key r)
    (j : κ) : ((t.update k f hf).find? j).isSome = (t.find? j).isSome := by
  rw [find?_update]
  split
  · exact Option.isSome_map
  · rfl

theorem find?_update_self (t : Table key) (k : κ) (f : ρ → ρ) (hf : ∀ r, key (f r) = key r) :
    (t.update k f hf).find? k = (t.find? k).map f := by
  rw [find?_update, if_pos rfl]

/-- An update depends on what it does to the row of its key. -/
theorem update_congr (t : Table key) {k : κ} {f g : ρ → ρ} (hf : ∀ r, key (f r) = key r)
    (hg : ∀ r, key (g r) = key r) (h : ∀ r, t.find? k = some r → f r = g r) :
    t.update k f hf = t.update k g hg := by
  have hrows : (t.update k f hf).rows = (t.update k g hg).rows := by
    refine List.map_congr_left fun r hr => ?_
    by_cases hk : key r = k
    · rw [if_pos hk, if_pos hk]
      exact h r (hk ▸ mem_iff_find?.mp hr)
    · rw [if_neg hk, if_neg hk]
  cases hF : t.update k f hf
  cases hG : t.update k g hg
  rw [hF, hG] at hrows
  cases hrows
  rfl

/-! ## Counting -/

/-- As many rows as there are keys, among rows with these keys: every key has one. -/
theorem length_le_filter_iff (t : Table key) (p : ρ → Bool) {ks : List κ} (hks : ks.Nodup) :
    ks.length ≤ (t.rows.filter fun r => ks.contains (key r) && p r).length ↔
      ∀ k ∈ ks, ∃ r, t.find? k = some r ∧ p r = true := by
  obtain ⟨found, hfound⟩ : ∃ found, found =
      (t.rows.filter fun r => ks.contains (key r) && p r).map key := ⟨_, rfl⟩
  have hmem : ∀ k, k ∈ found ↔ k ∈ ks ∧ ∃ r, t.find? k = some r ∧ p r = true := by
    intro k
    rw [hfound, List.mem_map]
    constructor
    · rintro ⟨r, hr, rfl⟩
      obtain ⟨hrow, hin⟩ := List.mem_filter.mp hr
      rw [Bool.and_eq_true, List.contains_iff_mem] at hin
      exact ⟨hin.1, r, mem_iff_find?.mp hrow, hin.2⟩
    · rintro ⟨hk, r, hr, hp⟩
      obtain rfl := key_of_find? hr
      refine ⟨r, List.mem_filter.mpr ⟨mem_iff_find?.mpr hr, ?_⟩, rfl⟩
      rw [Bool.and_eq_true, List.contains_iff_mem]
      exact ⟨hk, hp⟩
  have hnodup : found.Nodup := by
    rw [hfound]
    exact (List.filter_sublist.map key).nodup t.nodup
  have hsub : found.Subperm ks := List.subperm_of_subset hnodup fun k hk => ((hmem k).mp hk).1
  have hlength : found.length = (t.rows.filter fun r => ks.contains (key r) && p r).length := by
    rw [hfound, List.length_map]
  rw [← hlength]
  constructor
  · intro h k hk
    exact ((hmem k).mp ((hsub.perm_of_length_le h).mem_iff.mpr hk)).2
  · intro h
    exact (List.subperm_of_subset hks fun k hk => (hmem k).mpr ⟨hk, h k hk⟩).length_le

/-! ## Rewriting every row -/

/-- Rewrite every row by `f`, which keeps keys. -/
def mapRows (t : Table key) (f : ρ → ρ) (hf : ∀ r, key (f r) = key r) : Table key where
  rows := t.rows.map f
  nodup := by
    have : (t.rows.map f).map key = t.rows.map key := by
      rw [List.map_map]
      exact List.map_congr_left fun r _ => hf r
    rw [this]
    exact t.nodup

end Table
