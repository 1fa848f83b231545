import AgentWorkflow.Cli.YamlInsertion
import AgentWorkflow.Cli.YamlRoundTrip
import AgentWorkflow.Core.SchemasV1

/-!
# Blank lines and comments

What a text is parsed as when a blank line or a comment is put between two of its lines.

* `Outline.Every` — a property of all blocks; `Steady` — the line above opens no block, and no item
  below stands in a block that shows its number.
* `value_of_steady` — a steady outline has the same value with the new line.
* `Value.weight`, `weight_value` — a weight of values, read off the outline of a `Regular` text:
  every block is a list, or an object of distinct names. It tells a lost block, and a shown number.
* **`parse_insert`** — in a steady place the new line changes nothing; in a regular text it changes
  nothing only there. **`budget_lost`** — a work order whose budget a blank line drops.
-/

namespace AgentWorkflow

namespace YamlSimple

namespace Outline

/-! ## Blocks -/

/-- The line numbers of the items of a block. -/
def itemIdxs : Outline → List ℕ
  | .nil => []
  | .item idx _ rest => idx :: rest.itemIdxs
  | .pair _ _ rest => rest.itemIdxs
  | .nested _ _ _ _ rest => rest.itemIdxs

/-- The names of the fields of a block. -/
def names : Outline → List String
  | .nil => []
  | .item _ _ rest => rest.names
  | .pair key _ rest => key :: rest.names
  | .nested _ key _ _ rest => key :: rest.names

/-- A property of the blocks nested in a block, with whether they begin with an item. -/
def Nested (P : Bool → Outline → Prop) : Outline → Prop
  | .nil => True
  | .item _ _ rest => rest.Nested P
  | .pair _ _ rest => rest.Nested P
  | .nested _ _ list body rest => P list body ∧ body.Nested P ∧ rest.Nested P

instance decidableNested (P : Bool → Outline → Prop) [∀ list b, Decidable (P list b)] :
    (es : Outline) → Decidable (es.Nested P)
  | .nil => inferInstanceAs (Decidable True)
  | .item _ _ rest => decidableNested P rest
  | .pair _ _ rest => decidableNested P rest
  | .nested _ _ list body rest =>
    have := decidableNested P body
    have := decidableNested P rest
    inferInstanceAs (Decidable (P list body ∧ body.Nested P ∧ rest.Nested P))

/-- A property of all blocks of a text. -/
def Every (P : Bool → Outline → Prop) (es : Outline) : Prop := P false es ∧ es.Nested P

instance (P : Bool → Outline → Prop) [∀ list b, Decidable (P list b)] (es : Outline) :
    Decidable (es.Every P) := inferInstanceAs (Decidable (P false es ∧ es.Nested P))

variable {P P' : Bool → Outline → Prop} {es : Outline} {i : ℕ} {f : ℕ → ℕ}

theorem Nested.and (h : es.Nested P) (h' : es.Nested P') :
    es.Nested fun list b => P list b ∧ P' list b := by
  induction es with
  | nil => trivial
  | item idx raw rest ih => exact ih h h'
  | pair key raw rest ih => exact ih h h'
  | nested idx key list body rest ihbody ih =>
    exact ⟨⟨h.1, h'.1⟩, ihbody h.2.1 h'.2.1, ih h.2.2 h'.2.2⟩

theorem Nested.relabel (hP : ∀ list b, P list b → P' list (b.relabel f)) (h : es.Nested P) :
    (es.relabel f).Nested P' := by
  induction es with
  | nil => trivial
  | item idx raw rest ih => exact ih h
  | pair key raw rest ih => exact ih h
  | nested idx key list body rest ihbody ih => exact ⟨hP _ _ h.1, ihbody h.2.1, ih h.2.2⟩

theorem Nested.dropAt (hP : ∀ list b, P list b → P' list (b.dropAt i)) (h : es.Nested P) :
    (es.dropAt i).Nested P' := by
  induction es with
  | nil => trivial
  | item idx raw rest ih => exact ih h
  | pair key raw rest ih => exact ih h
  | nested idx key list body rest ihbody ih =>
    rw [Outline.dropAt]
    split
    · exact ih h.2.2
    · exact ⟨hP _ _ h.1, ihbody h.2.1, ih h.2.2⟩

@[simp] theorem itemIdxs_relabel : (es.relabel f).itemIdxs = es.itemIdxs.map f := by
  induction es with
  | nil => rfl
  | item idx raw rest ih => exact congrArg (f idx :: ·) ih
  | pair key raw rest ih => exact ih
  | nested idx key list body rest _ ih => exact ih

@[simp] theorem names_relabel : (es.relabel f).names = es.names := by
  induction es with
  | nil => rfl
  | item idx raw rest ih => exact ih
  | pair key raw rest ih => exact congrArg (key :: ·) ih
  | nested idx key list body rest _ ih => exact congrArg (key :: ·) ih

@[simp] theorem itemIdxs_dropAt : (es.dropAt i).itemIdxs = es.itemIdxs := by
  induction es with
  | nil => rfl
  | item idx raw rest ih => exact congrArg (idx :: ·) ih
  | pair key raw rest ih => exact ih
  | nested idx key list body rest _ ih =>
    rw [Outline.dropAt]
    split <;> exact ih

theorem names_dropAt : (es.dropAt i).names.Sublist es.names := by
  induction es with
  | nil => exact .slnil
  | item idx raw rest ih => exact ih
  | pair key raw rest ih => exact ih.cons_cons _
  | nested idx key list body rest _ ih =>
    rw [Outline.dropAt]
    split
    · exact ih.cons _
    · exact ih.cons_cons _

/-- The line that opens a block is not moved by the one below it. -/
theorem opens_relabel_shift : (es.relabel (shift i)).Opens i ↔ es.Opens i := by
  have hidx : ∀ idx, shift i idx = i ↔ idx = i := fun idx => by
    unfold shift
    split <;> omega
  induction es with
  | nil => exact Iff.rfl
  | item idx raw rest ih => exact ih
  | pair key raw rest ih => exact ih
  | nested idx key list body rest ihbody ih =>
    exact or_congr (hidx idx) (or_congr ihbody ih)

/-- Items come in the order of their lines. -/
def Ascending (_ : Bool) (b : Outline) : Prop := b.itemIdxs.Pairwise (· < ·)

theorem ascending_of_reads {base : ℕ} {rest out : List (Line × ℕ)} (h : Reads base rest es out)
    (hrest : (rest.map Prod.snd).Pairwise (· < ·)) :
    es.itemIdxs.Sublist (rest.map Prod.snd) ∧ es.Nested Ascending := by
  induction h with
  | done => exact ⟨.slnil, trivial⟩
  | leave => exact ⟨List.nil_sublist _, trivial⟩
  | skip _ _ ih =>
    obtain ⟨hsub, hnested⟩ := ih hrest.of_cons
    exact ⟨hsub.cons _, hnested⟩
  | deeper _ _ _ ih =>
    obtain ⟨hsub, hnested⟩ := ih hrest.of_cons
    exact ⟨hsub.cons _, hnested⟩
  | item _ _ _ _ ih =>
    obtain ⟨hsub, hnested⟩ := ih hrest.of_cons
    exact ⟨hsub.cons_cons _, hnested⟩
  | other _ _ _ _ ih =>
    obtain ⟨hsub, hnested⟩ := ih hrest.of_cons
    exact ⟨hsub.cons _, hnested⟩
  | pair _ _ _ _ _ ih =>
    obtain ⟨hsub, hnested⟩ := ih hrest.of_cons
    exact ⟨hsub.cons _, hnested⟩
  | without _ _ _ _ _ ih =>
    obtain ⟨hsub, hnested⟩ := ih hrest.of_cons
    exact ⟨hsub.cons _, hnested⟩
  | nested _ _ _ _ _ hbody _ ihbody ih =>
    have hmid := (hbody.suffix.map Prod.snd).sublist
    obtain ⟨hsubBody, hnestedBody⟩ := ihbody hrest.of_cons
    obtain ⟨hsub, hnested⟩ := ih (hrest.of_cons.sublist hmid)
    exact ⟨(hsub.trans hmid).cons _, hrest.of_cons.sublist hsubBody, hnestedBody, hnested⟩

/-- **The blocks of a text are ascending.** -/
theorem every_ascending (lines : List Line) : (outline lines).Every Ascending := by
  have hlines : (lines.zipIdx.map Prod.snd).Pairwise (· < ·) := by
    rw [List.zipIdx_map_snd]
    exact List.pairwise_lt_range'
  obtain ⟨hsub, hnested⟩ := ascending_of_reads (outline_eq_iff.mp rfl) hlines
  exact ⟨hlines.sublist hsub, hnested⟩

/-! ## Fields -/

section entries

variable {ν : Type} (N : NumberText ν)

/-- The fields of a block whose keys are distinct. -/
def entries : Outline → List (String × Value ν)
  | .nil => []
  | .item idx raw rest => (Nat.repr idx, parseScalar N raw) :: rest.entries
  | .pair key raw rest => (key, parseScalar N raw) :: rest.entries
  | .nested _ key list body rest =>
    (key, (body.assign N .empty).nestedValue N list) :: rest.entries

variable {N} {b : Outline} {o : Obj ν}

/-- **Distinct keys are assigned one after the other.** -/
theorem assign_eq (hnodup : ((b.entries N).map Prod.fst).Nodup)
    (hproto : "__proto__" ∉ (b.entries N).map Prod.fst)
    (hnew : ∀ k ∈ (b.entries N).map Prod.fst, k ∉ o.fields.map Prod.fst) :
    b.assign N o = ⟨o.proto, o.fields ++ b.entries N⟩ := by
  -- one field, and the rest of the block after it
  have hstep : ∀ {k : String} {v : Value ν} {rest : Outline} {o : Obj ν},
      (∀ {o : Obj ν}, ((rest.entries N).map Prod.fst).Nodup →
        "__proto__" ∉ (rest.entries N).map Prod.fst →
        (∀ k ∈ (rest.entries N).map Prod.fst, k ∉ o.fields.map Prod.fst) →
        rest.assign N o = ⟨o.proto, o.fields ++ rest.entries N⟩) →
      (k :: (rest.entries N).map Prod.fst).Nodup →
      "__proto__" ∉ k :: (rest.entries N).map Prod.fst →
      (∀ k' ∈ k :: (rest.entries N).map Prod.fst, k' ∉ o.fields.map Prod.fst) →
      rest.assign N (o.set k v) = ⟨o.proto, o.fields ++ (k, v) :: rest.entries N⟩ := by
    intro k v rest o ih hnodup hproto hnew
    obtain ⟨hk, hnodup⟩ := List.nodup_cons.mp hnodup
    rw [List.mem_cons, not_or] at hproto
    rw [set_of_notMem (Ne.symm hproto.1) (hnew k List.mem_cons_self),
      ih hnodup hproto.2 (new_after hk hnew), List.append_assoc, List.singleton_append]
  induction b generalizing o with
  | nil => simp [assign, entries]
  | item idx raw rest ih => exact hstep ih hnodup hproto hnew
  | pair key raw rest ih => exact hstep ih hnodup hproto hnew
  | nested idx key list body rest _ ih => exact hstep ih hnodup hproto hnew

theorem mem_keys {k : String} : k ∈ (b.entries N).map Prod.fst ↔
    k ∈ b.itemIdxs.map Nat.repr ∨ k ∈ b.names := by
  induction b with
  | nil => simp [entries, itemIdxs, names]
  | item idx raw rest ih => simp only [entries, itemIdxs, names, List.map_cons, List.mem_cons, ih,
      or_assoc]
  | pair key raw rest ih => simp only [entries, itemIdxs, names, List.map_cons, List.mem_cons, ih,
      or_left_comm]
  | nested idx key list body rest _ ih => simp only [entries, itemIdxs, names, List.map_cons,
      List.mem_cons, ih, or_left_comm]

/-- A block that is a list, or an object of distinct names, perhaps with items. -/
structure RegularBlock (list : Bool) (b : Outline) : Prop where
  items : list = true → b.names = []
  nodup : b.names.Nodup
  /-- No name is a number, or sets the prototype. -/
  names : ∀ k ∈ b.names, allDigits k.toList = false ∧ k ≠ "__proto__"

theorem regularBlock_of_items {list : Bool} (h : b.names = []) : RegularBlock list b := by
  refine ⟨fun _ => h, ?_, ?_⟩ <;> rw [h]
  · exact List.nodup_nil
  · exact fun k hk => absurd hk List.not_mem_nil

/-- A number is not the name of a field. -/
theorem repr_notMem_names {n : ℕ} (h : ∀ k ∈ b.names, allDigits k.toList = false) :
    Nat.repr n ∉ b.names := fun hmem => by
  have hdigits := h _ hmem
  rw [allDigits_repr] at hdigits
  cases hdigits

theorem nodup_keys (hnodup : b.names.Nodup) (hnames : ∀ k ∈ b.names, allDigits k.toList = false)
    (hasc : b.itemIdxs.Pairwise (· < ·)) : ((b.entries N).map Prod.fst).Nodup := by
  have hfield : ∀ {key : String} {rest : Outline}, allDigits key.toList = false →
      key ∉ rest.names → key ∉ (rest.entries N).map Prod.fst := by
    intro key rest hkey hrest hmem
    rcases mem_keys.mp hmem with hmem | hmem
    · obtain ⟨n, -, rfl⟩ := List.mem_map.mp hmem
      rw [allDigits_repr] at hkey
      cases hkey
    · exact hrest hmem
  induction b with
  | nil => exact List.nodup_nil
  | item idx raw rest ih =>
    obtain ⟨hidx, hasc⟩ := List.pairwise_cons.mp hasc
    refine List.nodup_cons.mpr ⟨fun hmem => ?_, ih hnodup hnames hasc⟩
    rcases mem_keys.mp hmem with hmem | hmem
    · obtain ⟨n, hn, heq⟩ := List.mem_map.mp hmem
      exact absurd (repr_injective heq) (hidx n hn).ne'
    · exact repr_notMem_names hnames hmem
  | pair key raw rest ih =>
    obtain ⟨hkey, hnodup⟩ := List.nodup_cons.mp hnodup
    obtain ⟨hdigits, hnames⟩ := List.forall_mem_cons.mp hnames
    exact List.nodup_cons.mpr ⟨hfield hdigits hkey, ih hnodup hnames hasc⟩
  | nested idx key list body rest _ ih =>
    obtain ⟨hkey, hnodup⟩ := List.nodup_cons.mp hnodup
    obtain ⟨hdigits, hnames⟩ := List.forall_mem_cons.mp hnames
    exact List.nodup_cons.mpr ⟨hfield hdigits hkey, ih hnodup hnames hasc⟩

/-- **What a regular block fills.** -/
theorem assign_empty {list : Bool} (h : RegularBlock list b) (hasc : Ascending list b) :
    b.assign N .empty = ⟨none, b.entries N⟩ := by
  refine assign_eq (nodup_keys h.nodup (fun k hk => (h.names k hk).1) hasc) ?_
    fun _ _ => List.not_mem_nil
  rw [mem_keys, not_or, List.mem_map]
  refine ⟨?_, fun hmem => (h.names _ hmem).2 rfl⟩
  rintro ⟨n, -, hn⟩
  exact repr_ne_proto n hn

theorem keys_of_items (h : b.names = []) :
    (b.entries N).map Prod.fst = b.itemIdxs.map Nat.repr := by
  induction b with
  | nil => rfl
  | item idx raw rest ih => exact congrArg (Nat.repr idx :: ·) (ih h)
  | pair key raw rest => cases h
  | nested idx key list body rest => cases h

/-- **A list is the array of its items.** -/
theorem finish_items {list : Bool} (h : b.names = []) (hasc : Ascending list b)
    (hne : b.itemIdxs ≠ []) :
    (b.assign N .empty).finish N = .arr ((b.entries N).map Prod.snd) := by
  rw [assign_empty (regularBlock_of_items h) hasc]
  exact finish_of_ascending N hne hasc (keys_of_items h)

/-- Without items and fields there is nothing. -/
theorem eq_nil (h : b.names = []) (hne : b.itemIdxs = []) : b = .nil := by
  cases b with
  | nil => rfl
  | item => cases hne
  | pair => cases h
  | nested => cases h

end entries

/-! ## Other line numbers -/

/-- A line opens no block, and every block shows no number of a line below it: it is a list, or its
items stand above. -/
def Steady (i : ℕ) (es : Outline) : Prop :=
  ¬ es.Opens i ∧ es.Every fun _ b => b.names = [] ∨ ∀ idx ∈ b.itemIdxs, idx ≤ i

instance (i : ℕ) (es : Outline) : Decidable (es.Steady i) := inferInstanceAs (Decidable (_ ∧ _))

section relabel

variable {ν : Type} {N : NumberText ν} {b : Outline} {list : Bool}

theorem values_relabel (h : b.names = []) (f : ℕ → ℕ) :
    ((b.relabel f).entries N).map Prod.snd = (b.entries N).map Prod.snd := by
  induction b with
  | nil => rfl
  | item idx raw rest ih => exact congrArg (parseScalar N raw :: ·) (ih h)
  | pair key raw rest => cases h
  | nested idx key list body rest => cases h

/-- A list has the same value under other line numbers. -/
theorem finish_relabel_items {f : ℕ → ℕ} (hf : StrictMono f) (h : b.names = [])
    (hasc : Ascending list b) :
    ((b.relabel f).assign N .empty).finish N = (b.assign N .empty).finish N := by
  by_cases hne : b.itemIdxs = []
  · rw [eq_nil h hne]
    rfl
  · have hasc' : Ascending list (b.relabel f) := by
      unfold Ascending
      rw [itemIdxs_relabel]
      exact hasc.map f fun _ _ hlt => hf hlt
    rw [finish_items h hasc hne, finish_items (by rw [names_relabel, h]) hasc'
      (by simpa using hne), values_relabel h]

/-- **A steady block has the same value under other line numbers.** -/
theorem assign_shift
    (hnested : b.Nested fun list b => (b.names = [] ∨ ∀ idx ∈ b.itemIdxs, idx ≤ i) ∧
      Ascending list b) (hidxs : ∀ idx ∈ b.itemIdxs, idx ≤ i) (o : Obj ν) :
    (b.relabel (shift i)).assign N o = b.assign N o := by
  induction b generalizing o with
  | nil => rfl
  | item idx raw rest ih =>
    obtain ⟨hidx, hidxs⟩ := List.forall_mem_cons.mp hidxs
    have hsame : shift i idx = idx := if_pos hidx
    rw [relabel, assign, assign, hsame]
    exact ih hnested hidxs _
  | pair key raw rest ih => exact ih hnested hidxs _
  | nested idx key list body rest ihbody ih =>
    obtain ⟨⟨hbody, hasc⟩, hnestedBody, hnested⟩ := hnested
    have hfinish : ((body.relabel (shift i)).assign N .empty).finish N =
        (body.assign N .empty).finish N := by
      rcases hbody with hitems | hbody
      · exact finish_relabel_items (strictMono_shift i) hitems hasc
      · rw [ihbody hnestedBody hbody]
    rw [relabel, assign, assign, Obj.nestedValue, Obj.nestedValue, hfinish]
    exact ih hnested hidxs _

/-- **A steady outline has the same value with one more line.** -/
theorem value_of_steady {es : Outline} (hsteady : es.Steady i) (hasc : es.Every Ascending) :
    (((es.relabel (shift i)).dropAt i).assign N .empty).finish N =
      (es.assign N .empty).finish N := by
  obtain ⟨hopens, hblock, hnested⟩ := hsteady
  have hdrop : (es.relabel (shift i)).dropAt i = es.relabel (shift i) :=
    dropAt_eq_self fun h => hopens (opens_relabel_shift.mp h)
  rw [hdrop]
  rcases hblock with hitems | hidxs
  · exact finish_relabel_items (strictMono_shift i) hitems hasc.1
  · rw [assign_shift (hnested.and hasc.2) hidxs]

end relabel

/-! ## Regular texts -/

/-- Every block is a list, or an object of distinct names. -/
def Regular (es : Outline) : Prop := es.Every RegularBlock

section regular

variable {b : Outline} {list : Bool}

theorem RegularBlock.relabel (f : ℕ → ℕ) (h : RegularBlock list b) :
    RegularBlock list (b.relabel f) :=
  ⟨by simpa using h.items, by simpa using h.nodup, by simpa using h.names⟩

theorem RegularBlock.dropAt (i : ℕ) (h : RegularBlock list b) : RegularBlock list (b.dropAt i) where
  items hlist := by
    have hsub : (b.dropAt i).names.Sublist b.names := names_dropAt
    rw [h.items hlist] at hsub
    exact List.sublist_nil.mp hsub
  nodup := names_dropAt.nodup h.nodup
  names k hk := h.names k (names_dropAt.mem hk)

theorem Regular.inserted {es : Outline} (h : es.Regular) (i : ℕ) :
    ((es.relabel (shift i)).dropAt i).Regular :=
  ⟨(h.1.relabel _).dropAt i,
    (h.2.relabel fun _ _ hb => RegularBlock.relabel _ hb).dropAt fun _ _ hb => hb.dropAt i⟩

theorem ascending_inserted {es : Outline} (h : es.Every Ascending) (i : ℕ) :
    ((es.relabel (shift i)).dropAt i).Every Ascending := by
  have hrelabel : ∀ list b, Ascending list b → Ascending list (b.relabel (shift i)) :=
    fun list b hb => by
      unfold Ascending
      rw [itemIdxs_relabel]
      exact List.Pairwise.map _ (fun _ _ hlt => strictMono_shift i hlt) hb
  have hdrop : ∀ list b, Ascending list b → Ascending list (b.dropAt i) := fun list b hb => by
    unfold Ascending
    rw [itemIdxs_dropAt]
    exact hb
  exact ⟨hdrop _ _ (hrelabel _ _ h.1), (h.2.relabel hrelabel).dropAt hdrop⟩

end regular

end Outline

/-! ## Weights -/

mutual

/-- The weight of a value: one for each value, and what the keys weigh. -/
def Value.weight {ν : Type} (κ : String → ℕ) : Value ν → ℕ
  | .arr items => 1 + weightItems κ items
  | .obj _ fields => 1 + weightFields κ fields
  | _ => 1

def weightItems {ν : Type} (κ : String → ℕ) : List (Value ν) → ℕ
  | [] => 0
  | v :: vs => v.weight κ + weightItems κ vs

def weightFields {ν : Type} (κ : String → ℕ) : List (String × Value ν) → ℕ
  | [] => 0
  | (k, v) :: fields => κ k + v.weight κ + weightFields κ fields

end

namespace Outline

/-- The weight of what a block fills, as an object. A list weighs its items. -/
def weight (κ : String → ℕ) : Outline → ℕ
  | .nil => 0
  | .item idx _ rest => κ (Nat.repr idx) + 1 + rest.weight κ
  | .pair key _ rest => κ key + 1 + rest.weight κ
  | .nested _ key _ body rest =>
    κ key + (1 + if body.names = [] then body.itemIdxs.length else body.weight κ) + rest.weight κ

/-- The weight of a block. -/
def blockWeight (κ : String → ℕ) (b : Outline) : ℕ :=
  if b.names = [] then b.itemIdxs.length else b.weight κ

section weight

variable {ν : Type} {N : NumberText ν} {κ : String → ℕ} {b : Outline} {list : Bool}

theorem weight_parseScalar (raw : Line) : (parseScalar N raw).weight κ = 1 := by
  unfold parseScalar
  simp only
  split_ifs <;> rw [Value.weight] <;> simp

theorem weightItems_items (h : b.names = []) :
    weightItems κ ((b.entries N).map Prod.snd) = b.itemIdxs.length := by
  induction b with
  | nil => rfl
  | item idx raw rest ih =>
    have hcons : weightItems κ (((Outline.item idx raw rest).entries N).map Prod.snd) =
        (parseScalar N raw).weight κ + weightItems κ ((rest.entries N).map Prod.snd) := by
      rw [entries, List.map_cons, weightItems]
    rw [hcons, weight_parseScalar, ih h, itemIdxs, List.length_cons, Nat.add_comm]
  | pair key raw rest => cases h
  | nested idx key list body rest => cases h

/-- A block with a name is an object. -/
theorem finish_of_names (h : RegularBlock list b) (hasc : Ascending list b) (hne : b.names ≠ []) :
    (b.assign N .empty).finish N = .obj none (b.entries N) := by
  obtain ⟨k, hk⟩ := List.exists_mem_of_ne_nil _ hne
  rw [assign_empty h hasc]
  refine if_neg fun hall => ?_
  obtain ⟨f, hf, hkey⟩ := List.mem_map.mp (mem_keys (N := N).mpr (Or.inr hk))
  have hdigits := List.all_eq_true.mp hall.2 f hf
  rw [hkey, (h.names k hk).1] at hdigits
  cases hdigits

/-- The weight of a block whose fields weigh as they should. -/
theorem weight_nestedValue (h : RegularBlock list b) (hasc : Ascending list b)
    (hfields : weightFields κ (b.entries N) = b.weight κ) :
    ((b.assign N .empty).nestedValue N list).weight κ = 1 + b.blockWeight κ := by
  unfold Obj.nestedValue blockWeight
  by_cases hitems : b.names = []
  · rw [if_pos hitems]
    by_cases hne : b.itemIdxs = []
    · rw [eq_nil hitems hne]
      split <;> rfl
    · rw [finish_items hitems hasc hne, ← weightItems_items (N := N) hitems]
      split <;> exact Value.weight.eq_def ..
  · have hlist : list ≠ true := fun hlist => hitems (h.items hlist)
    rw [if_neg hitems, if_neg hlist, finish_of_names h hasc hitems, Value.weight, hfields]

/-- **The weight of regular fields is that of the outline.** -/
theorem weightFields_entries
    (h : b.Nested fun list b => RegularBlock list b ∧ Ascending list b) :
    weightFields κ (b.entries N) = b.weight κ := by
  induction b with
  | nil => rfl
  | item idx raw rest ih => rw [entries, weightFields, weight_parseScalar, ih h, weight]
  | pair key raw rest ih => rw [entries, weightFields, weight_parseScalar, ih h, weight]
  | nested idx key list body rest ihbody ih =>
    obtain ⟨⟨hbody, hasc⟩, hnestedBody, hnested⟩ := h
    rw [entries, weightFields, weight_nestedValue hbody hasc (ihbody hnestedBody), ih hnested,
      weight, blockWeight]

/-- **The weight of what a regular text is parsed as.** -/
theorem weight_value {es : Outline} (h : es.Regular) (hasc : es.Every Ascending) :
    ((es.assign N .empty).finish N).weight κ = 1 + es.blockWeight κ :=
  @weight_nestedValue _ _ _ _ false h.1 hasc.1 (weightFields_entries (h.2.and hasc.2))

/-! ## What the weight tells -/

/-- Without weights for keys, a block weighs what it has. -/
theorem blockWeight_zero : b.blockWeight (fun _ => 0) = b.weight fun _ => 0 := by
  unfold blockWeight
  split
  next hitems =>
    induction b with
    | nil => rfl
    | item idx raw rest ih =>
      rw [itemIdxs, List.length_cons, ih hitems, weight]
      omega
    | pair key raw rest => cases hitems
    | nested idx key list body rest => cases hitems
  next => rfl

theorem weight_relabel_zero (f : ℕ → ℕ) :
    (b.relabel f).weight (fun _ => 0) = b.weight fun _ => 0 := by
  induction b with
  | nil => rfl
  | item idx raw rest ih => rw [relabel, weight, weight, ih]
  | pair key raw rest ih => rw [relabel, weight, weight, ih]
  | nested idx key list body rest ihbody ih =>
    rw [relabel, weight, weight, ih, ihbody, names_relabel, itemIdxs_relabel, List.length_map]

/-- **A lost block is missing in the weight.** -/
theorem weight_dropAt_lt (h : b.Opens i) :
    (b.dropAt i).weight (fun _ => 0) < b.weight fun _ => 0 := by
  have hle : ∀ b : Outline, ¬ b.Opens i →
      (b.dropAt i).weight (fun _ => 0) = b.weight fun _ => 0 := fun b hb => by
    rw [dropAt_eq_self hb]
  induction b with
  | nil => exact h.elim
  | item idx raw rest ih =>
    have hrest := ih h
    rw [dropAt, weight, weight]
    omega
  | pair key raw rest ih =>
    have hrest := ih h
    rw [dropAt, weight, weight]
    omega
  | nested idx key list body rest ihbody ih =>
    have hbody : (body.dropAt i).weight (fun _ => 0) ≤ body.weight fun _ => 0 := by
      by_cases hopens : body.Opens i
      · exact (ihbody hopens).le
      · exact (hle body hopens).le
    have hrest : (rest.dropAt i).weight (fun _ => 0) ≤ rest.weight fun _ => 0 := by
      by_cases hopens : rest.Opens i
      · exact (ih hopens).le
      · exact (hle rest hopens).le
    have hnested : ∀ idx body rest, (Outline.nested idx key list body rest).weight (fun _ => 0) =
        1 + body.weight (fun _ => 0) + rest.weight fun _ => 0 := fun idx body rest => by
      have hblock := blockWeight_zero (b := body)
      rw [blockWeight] at hblock
      rw [weight, hblock, Nat.zero_add]
    rw [dropAt]
    split
    · rw [hnested]
      omega
    next hidx =>
      rw [hnested, hnested]
      rcases h with h | h | h
      · exact absurd h hidx
      · have hlt := ihbody h
        omega
      · have hlt := ih h
        omega

/-- The number of a line as a weight. -/
def lineWeight (k : String) : ℕ := Nat.ofDigitChars 10 k.toList 0

theorem weight_relabel_le :
    b.weight lineWeight ≤ (b.relabel (shift i)).weight lineWeight := by
  induction b with
  | nil => exact le_rfl
  | item idx raw rest ih =>
    have hidx : idx ≤ shift i idx := (strictMono_shift i).le_apply
    rw [relabel, weight, weight, lineWeight, lineWeight, ofDigitChars_repr, ofDigitChars_repr]
    omega
  | pair key raw rest ih =>
    rw [relabel, weight, weight]
    omega
  | nested idx key list body rest ihbody ih =>
    rw [relabel, weight, weight, names_relabel, itemIdxs_relabel, List.length_map]
    split <;> omega

/-- Nothing is nested in a list. -/
theorem nested_of_items {P : Bool → Outline → Prop} (h : b.names = []) : b.Nested P := by
  induction b with
  | nil => trivial
  | item idx raw rest ih => exact ih h
  | pair key raw rest => cases h
  | nested idx key list body rest => cases h

/-- **A number that is shown is seen in the weight.** -/
theorem weight_relabel_lt
    (h : ¬ (b.Nested (fun _ b => b.names = [] ∨ ∀ idx ∈ b.itemIdxs, idx ≤ i) ∧
      ∀ idx ∈ b.itemIdxs, idx ≤ i)) :
    b.weight lineWeight < (b.relabel (shift i)).weight lineWeight := by
  induction b with
  | nil => exact absurd ⟨trivial, nofun⟩ h
  | item idx raw rest ih =>
    have hle := weight_relabel_le (b := rest) (i := i)
    rw [relabel, weight, weight, lineWeight, lineWeight, ofDigitChars_repr, ofDigitChars_repr]
    by_cases hidx : idx ≤ i
    · have hlt := ih fun hrest => h ⟨hrest.1, List.forall_mem_cons.mpr ⟨hidx, hrest.2⟩⟩
      have hsame : shift i idx = idx := if_pos hidx
      omega
    · have hmoved : shift i idx = idx + 1 := if_neg hidx
      omega
  | pair key raw rest ih =>
    have hlt := ih h
    rw [relabel, weight, weight]
    omega
  | nested idx key list body rest ihbody ih =>
    have hle := weight_relabel_le (b := rest) (i := i)
    have hleBody := weight_relabel_le (b := body) (i := i)
    rw [relabel, weight, weight, names_relabel, itemIdxs_relabel, List.length_map]
    by_cases hrest : rest.Nested (fun _ b => b.names = [] ∨ ∀ idx ∈ b.itemIdxs, idx ≤ i) ∧
        ∀ idx ∈ rest.itemIdxs, idx ≤ i
    · -- the block nested here shows a number
      have hbody : ¬ ((body.names = [] ∨ ∀ idx ∈ body.itemIdxs, idx ≤ i) ∧
          body.Nested fun _ b => b.names = [] ∨ ∀ idx ∈ b.itemIdxs, idx ≤ i) := fun hbody =>
        h ⟨⟨hbody.1, hbody.2, hrest.1⟩, hrest.2⟩
      have hnames : body.names ≠ [] := fun hitems =>
        hbody ⟨Or.inl hitems, nested_of_items hitems⟩
      have hlt := ihbody fun hsteady => hbody ⟨Or.inr hsteady.2, hsteady.1⟩
      rw [if_neg hnames, if_neg hnames]
      omega
    · have hlt := ih hrest
      split <;> omega

/-- **In a regular text, a line in an unsteady place changes the value.** -/
theorem value_of_not_steady {es : Outline} (hregular : es.Regular) (hasc : es.Every Ascending)
    (hsteady : ¬ es.Steady i) :
    (((es.relabel (shift i)).dropAt i).assign N .empty).finish N ≠
      (es.assign N .empty).finish N := by
  intro heq
  have hweight : ∀ κ : String → ℕ,
      ((es.relabel (shift i)).dropAt i).blockWeight κ = es.blockWeight κ := fun κ => by
    have hvalues := congrArg (Value.weight κ) heq
    rw [weight_value (hregular.inserted i) (ascending_inserted hasc i),
      weight_value hregular hasc] at hvalues
    exact Nat.add_left_cancel hvalues
  by_cases hopens : es.Opens i
  · have hzero := hweight fun _ => 0
    have hlt := weight_dropAt_lt (opens_relabel_shift.mpr hopens)
    rw [blockWeight_zero, blockWeight_zero] at hzero
    rw [weight_relabel_zero] at hlt
    exact hlt.ne hzero
  · have hline := hweight lineWeight
    have hblock : ¬ es.Every fun _ b => b.names = [] ∨ ∀ idx ∈ b.itemIdxs, idx ≤ i := fun h =>
      hsteady ⟨hopens, h⟩
    have hnames : es.names ≠ [] := fun hitems =>
      hblock ⟨Or.inl hitems, nested_of_items hitems⟩
    have hlt := weight_relabel_lt fun h => hblock ⟨Or.inr h.2, h.1⟩
    rw [dropAt_eq_self (mt opens_relabel_shift.mp hopens), blockWeight, blockWeight,
      names_relabel, if_neg hnames, if_neg hnames] at hline
    exact hlt.ne' hline

end weight

end Outline

/-! ## The claim -/

/-- **A blank line or a comment between two lines.** Below a line that opens no block, and with no
items further down whose numbers are shown, it changes nothing; in a text of lists and of objects of
distinct names it changes nothing only there. -/
theorem parse_insert {ν : Type} (N : NumberText ν) (text text' : String)
    (before after : List Line) (line inserted : Line)
    (htext : splitLines text.toList = before ++ line :: after)
    (htext' : splitLines text'.toList = before ++ line :: inserted :: after)
    (hskip : skipped inserted = true) :
    ((outline (before ++ line :: after)).Steady before.length →
      parseSimpleYaml N text' = parseSimpleYaml N text) ∧
    ((outline (before ++ line :: after)).Regular →
      (parseSimpleYaml N text' = parseSimpleYaml N text ↔
        (outline (before ++ line :: after)).Steady before.length)) := by
  have hasc := Outline.every_ascending (before ++ line :: after)
  rw [parse_eq, parse_eq, htext, htext', outline_inserted hskip]
  have henough : (outline (before ++ line :: after)).Steady before.length → _ :=
    fun hsteady => Outline.value_of_steady (N := N) hsteady hasc
  refine ⟨henough, fun hregular => ⟨fun heq => ?_, henough⟩⟩
  by_contra hsteady
  exact Outline.value_of_not_steady hregular hasc hsteady heq

namespace Sample

mutual

/-- A value as the schemas read it. -/
def toJson : Value ℤ → Json
  | .null => .null
  | .bool b => .bool b
  | .num n => .num n
  | .str s => .str s
  | .arr items => .arr (itemsToJson items)
  | .obj _ fields => .obj (fieldsToJson fields)

/-- The items of an array. -/
def itemsToJson : List (Value ℤ) → List Json
  | [] => []
  | v :: items => toJson v :: itemsToJson items

/-- The fields of an object. -/
def fieldsToJson : List (String × Value ℤ) → List (String × Json)
  | [] => []
  | (k, v) :: fields => (k, toJson v) :: fieldsToJson fields

end

/-- A text with the lines. -/
def ofLines (lines : List Line) : String := String.ofList (lines.flatMap (· ++ ['\n']))

theorem splitLines_ofLines {lines : List Line}
    (h : (lines.all fun l => !l.contains '\n' && l.getLast? != some '\r') = true) :
    splitLines (ofLines lines).toList = lines ++ [[]] := by
  rw [ofLines, String.toList_ofList]
  refine splitLines_flatMap fun l hl => ?_
  obtain ⟨hnewline, hlast⟩ := Bool.and_eq_true_iff.mp (List.all_eq_true.mp h l hl)
  refine ⟨by simpa using hnewline, ?_⟩
  rintro c hc rfl
  rw [hc] at hlast
  cases hlast

/-- The lines of a work order above its budget. -/
def aboveBudget : List Line :=
  ["schema_version: workflow/v1".toList, "task_id: T-1".toList, "title: Parser".toList,
    "type: code_change".toList, "goal: Green tests".toList, "acceptance_criteria:".toList,
    " - tests".toList, "repo:".toList, " path: /repo".toList, "agent:".toList,
    " required_capabilities:".toList, "  - ts".toList, " implementer_pool:".toList,
    "  - alice".toList]

/-- A budget of two runs. -/
def budget : List Line := ["budget:".toList, " max_runs: 2".toList]

/-- The budget with a blank line below its first. -/
def spacedBudget : List Line := ["budget:".toList, [], " max_runs: 2".toList]

theorem splitLines_order : splitLines (ofLines (aboveBudget ++ budget)).toList =
    aboveBudget ++ budget ++ [[]] := splitLines_ofLines (by decide +kernel)

theorem splitLines_spacedOrder : splitLines (ofLines (aboveBudget ++ spacedBudget)).toList =
    aboveBudget ++ spacedBudget ++ [[]] := splitLines_ofLines (by decide +kernel)

/-- The runs that a text, read as a work order, allows. -/
def maxRuns (text : String) : Option ℕ :=
  (parseWorkOrderV1 (toJson (parseSimpleYaml integers text))).map (·.budget.maxRuns)

theorem maxRuns_order : maxRuns (ofLines (aboveBudget ++ budget)) = some 2 := by
  rw [maxRuns, parse_eq, splitLines_order]
  decide +kernel

theorem maxRuns_spacedOrder : maxRuns (ofLines (aboveBudget ++ spacedBudget)) = some 4 := by
  rw [maxRuns, parse_eq, splitLines_spacedOrder]
  decide +kernel

/-- The work order with a comment below its title. -/
def commentedOrder : List Line :=
  aboveBudget.take 3 ++ "# the parser".toList :: (aboveBudget.drop 3 ++ budget)

end Sample

theorem parse_insert_commented :
    parseSimpleYaml Sample.integers (Sample.ofLines Sample.commentedOrder) =
      parseSimpleYaml Sample.integers (Sample.ofLines (Sample.aboveBudget ++ Sample.budget)) :=
  (parse_insert Sample.integers (Sample.ofLines (Sample.aboveBudget ++ Sample.budget))
    (Sample.ofLines Sample.commentedOrder) (Sample.aboveBudget.take 2)
    (Sample.aboveBudget.drop 3 ++ Sample.budget ++ [[]]) "title: Parser".toList
    "# the parser".toList (Sample.splitLines_order.trans (by decide +kernel))
    ((Sample.splitLines_ofLines (by decide +kernel)).trans (by decide +kernel))
    (by decide)).1 (by decide +kernel)

/-- **A blank line drops a budget.** Both texts are accepted; the second has the default budget. -/
theorem budget_lost :
    splitLines (Sample.ofLines (Sample.aboveBudget ++ Sample.budget)).toList =
      Sample.aboveBudget ++ ["budget:".toList, " max_runs: 2".toList] ++ [[]] ∧
    splitLines (Sample.ofLines (Sample.aboveBudget ++ Sample.spacedBudget)).toList =
      Sample.aboveBudget ++ ["budget:".toList, [], " max_runs: 2".toList] ++ [[]] ∧
    skipped [] = true ∧
    Sample.maxRuns (Sample.ofLines (Sample.aboveBudget ++ Sample.budget)) = some 2 ∧
    Sample.maxRuns (Sample.ofLines (Sample.aboveBudget ++ Sample.spacedBudget)) =
      some BudgetSettings.default.maxRuns ∧
    parseSimpleYaml Sample.integers (Sample.ofLines (Sample.aboveBudget ++ Sample.spacedBudget)) ≠
      parseSimpleYaml Sample.integers (Sample.ofLines (Sample.aboveBudget ++ Sample.budget)) := by
  refine ⟨Sample.splitLines_order, Sample.splitLines_spacedOrder, by decide,
    Sample.maxRuns_order, Sample.maxRuns_spacedOrder, fun heq => ?_⟩
  have hruns : Sample.maxRuns (Sample.ofLines (Sample.aboveBudget ++ Sample.spacedBudget)) =
      Sample.maxRuns (Sample.ofLines (Sample.aboveBudget ++ Sample.budget)) := by
    rw [Sample.maxRuns, heq, Sample.maxRuns]
  rw [Sample.maxRuns_order, Sample.maxRuns_spacedOrder] at hruns
  exact absurd hruns (by decide)

end YamlSimple

end AgentWorkflow
