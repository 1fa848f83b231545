import AgentWorkflow.Cli.YamlOutline

/-!
# Reading with one more line

A blank line or a comment is put below a line of a text. The reader skips such lines, but the
look-ahead after `key:` does not.

* `Outline.relabel`, `Outline.dropAt` — other line numbers; the blocks that a line opens left out.
* `Reads.passes` — a block that is not looked for is passed over, line by line.
* `Reads.inserted` — what a block reads with one more line.
* **`outline_inserted`** — the outline of the text: later lines have other numbers, and **the block
  that the line before the new one opens is lost**.
-/

namespace AgentWorkflow

namespace YamlSimple

namespace Outline

/-! ## Outlines with one more line -/

/-- The outline with its line numbers mapped. -/
def relabel (f : ℕ → ℕ) : Outline → Outline
  | .nil => .nil
  | .item idx raw rest => .item (f idx) raw (rest.relabel f)
  | .pair key raw rest => .pair key raw (rest.relabel f)
  | .nested idx key list body rest =>
    .nested (f idx) key list (body.relabel f) (rest.relabel f)

/-- The outline without the blocks that a line opens. -/
def dropAt (i : ℕ) : Outline → Outline
  | .nil => .nil
  | .item idx raw rest => .item idx raw (rest.dropAt i)
  | .pair key raw rest => .pair key raw (rest.dropAt i)
  | .nested idx key list body rest =>
    if idx = i then rest.dropAt i else .nested idx key list (body.dropAt i) (rest.dropAt i)

/-- A line opens a block. -/
def Opens (i : ℕ) : Outline → Prop
  | .nil => False
  | .item _ _ rest => rest.Opens i
  | .pair _ _ rest => rest.Opens i
  | .nested idx _ _ body rest => idx = i ∨ body.Opens i ∨ rest.Opens i

instance decidableOpens (i : ℕ) : (es : Outline) → Decidable (es.Opens i)
  | .nil => inferInstanceAs (Decidable False)
  | .item _ _ rest => decidableOpens i rest
  | .pair _ _ rest => decidableOpens i rest
  | .nested idx _ _ body rest =>
    have := decidableOpens i body
    have := decidableOpens i rest
    inferInstanceAs (Decidable (idx = i ∨ body.Opens i ∨ rest.Opens i))

variable {i : ℕ} {es : Outline}

theorem dropAt_eq_self (h : ¬ es.Opens i) : es.dropAt i = es := by
  induction es with
  | nil => rfl
  | item idx raw rest ih => rw [dropAt, ih h]
  | pair key raw rest ih => rw [dropAt, ih h]
  | nested idx key list body rest ihbody ih =>
    rw [Opens, not_or, not_or] at h
    rw [dropAt, if_neg h.1, ihbody h.2.1, ih h.2.2]

end Outline

/-! ## Reading with one more line -/

/-- A line is put below the one with a number. -/
inductive Inserted (i : ℕ) (x : Line × ℕ) : List (Line × ℕ) → List (Line × ℕ) → Prop
  | here {line : Line} {rest : List (Line × ℕ)} :
      Inserted i x ((line, i) :: rest) ((line, i) :: x :: rest)
  | there {y : Line × ℕ} {rest rest' : List (Line × ℕ)} (hrest : Inserted i x rest rest') :
      Inserted i x (y :: rest) (y :: rest')

namespace Inserted

variable {i : ℕ} {x y : Line × ℕ} {rest rest' : List (Line × ℕ)}

theorem head?_eq (h : Inserted i x rest rest') : rest'.head? = rest.head? := by
  cases h <;> rfl

theorem exists_cons (h : Inserted i x (y :: rest) rest') : ∃ rest'', rest' = y :: rest'' := by
  cases h <;> exact ⟨_, rfl⟩

theorem append (h : Inserted i x rest rest') (before : List (Line × ℕ)) :
    Inserted i x (before ++ rest) (before ++ rest') := by
  induction before with
  | nil => exact h
  | cons y before ih => exact .there ih

theorem mem (h : Inserted i x rest rest') : i ∈ rest.map Prod.snd := by
  induction h with
  | here => exact List.mem_cons_self
  | there _ ih => exact List.mem_cons_of_mem _ ih

end Inserted

namespace Reads

variable {base i : ℕ} {x : Line × ℕ} {rest rest' out : List (Line × ℕ)} {es : Outline}

/-- The lines that open blocks are among those that are read. -/
theorem mem_of_opens (h : Reads base rest es out) (hopens : es.Opens i) :
    i ∈ rest.map Prod.snd := by
  induction h with
  | done => exact hopens.elim
  | leave => exact hopens.elim
  | skip _ _ ih => exact List.mem_cons_of_mem _ (ih hopens)
  | deeper _ _ _ ih => exact List.mem_cons_of_mem _ (ih hopens)
  | item _ _ _ _ ih => exact List.mem_cons_of_mem _ (ih hopens)
  | other _ _ _ _ ih => exact List.mem_cons_of_mem _ (ih hopens)
  | pair _ _ _ _ _ ih => exact List.mem_cons_of_mem _ (ih hopens)
  | without _ _ _ _ _ ih => exact List.mem_cons_of_mem _ (ih hopens)
  | nested _ _ _ _ _ hbody _ ihbody ih =>
    rcases hopens with rfl | hopens | hopens
    · exact List.mem_cons_self
    · exact List.mem_cons_of_mem _ (ihbody hopens)
    · exact List.mem_cons_of_mem _ ((hbody.suffix.map _).mem (ih hopens))

/-- **The lines of a block nested deeper are passed over.** -/
theorem passes {deep : ℕ} {body : Outline} {mid : List (Line × ℕ)} (hbody : Reads deep rest body mid)
    (hdeep : base < deep) (hrest : Reads base mid es out) : Reads base rest es out := by
  induction hbody generalizing es out with
  | done => exact hrest
  | skip hskip _ ih => exact .skip hskip (ih hdeep hrest)
  | leave => exact hrest
  | deeper hskip hindent _ ih => exact .deeper hskip (hdeep.trans hindent) (ih hdeep hrest)
  | item hskip hindent _ _ ih =>
    exact .deeper hskip (hdeep.trans_eq hindent.symm) (ih hdeep hrest)
  | other hskip hindent _ _ ih =>
    exact .deeper hskip (hdeep.trans_eq hindent.symm) (ih hdeep hrest)
  | pair hskip hindent _ _ _ ih =>
    exact .deeper hskip (hdeep.trans_eq hindent.symm) (ih hdeep hrest)
  | without hskip hindent _ _ _ ih =>
    exact .deeper hskip (hdeep.trans_eq hindent.symm) (ih hdeep hrest)
  | nested hskip hindent _ _ hdeeper _ _ ihbody ih =>
    exact .deeper hskip (hdeep.trans_eq hindent.symm)
      (ihbody (hdeep.trans hdeeper) (ih hdeep hrest))

/-- Mapped line numbers are read as mapped. -/
theorem relabel (f : ℕ → ℕ) (h : Reads base rest es out) :
    Reads base (rest.map (Prod.map id f)) (es.relabel f) (out.map (Prod.map id f)) := by
  induction h with
  | done => exact .done
  | skip hskip _ ih => exact .skip hskip ih
  | leave hskip hindent => exact .leave hskip hindent
  | deeper hskip hindent _ ih => exact .deeper hskip hindent ih
  | item hskip hindent hcontent _ ih => exact .item hskip hindent hcontent ih
  | other hskip hindent hcontent _ ih => exact .other hskip hindent hcontent ih
  | pair hskip hindent hcontent hraw _ ih => exact .pair hskip hindent hcontent hraw ih
  | @without _ _ _ rest _ _ _ hskip hindent hcontent hnext _ ih =>
    refine .without hskip hindent hcontent (fun next hhead => ?_) ih
    cases rest with
    | nil => cases hhead
    | cons y rest =>
      obtain rfl : Prod.map id f y = next := Option.some.inj hhead
      exact hnext y rfl
  | nested hskip hindent hcontent hnext hdeeper _ _ ihbody ih =>
    exact .nested hskip hindent hcontent hnext hdeeper ihbody ih

/-- A line that opens nothing here, below the one with the number: the rest is read as before. -/
theorem inserted_here (h : Reads base rest es out) (hx : skipped x.1 = true)
    (hi : i ∉ rest.map Prod.snd) :
    Reads base (x :: rest) (es.dropAt i) out ∧ i ∉ out.map Prod.snd := by
  have hopens : ¬ es.Opens i := fun hopens => hi (h.mem_of_opens hopens)
  rw [Outline.dropAt_eq_self hopens]
  exact ⟨.skip hx h, fun hmem => hi ((h.suffix.map _).mem hmem)⟩

/-- What is read with one more line: the line is among those read, or else among those left. -/
def ReadsInserted (base i : ℕ) (x : Line × ℕ) (rest' : List (Line × ℕ)) (es : Outline)
    (out : List (Line × ℕ)) : Prop :=
  ∃ out', (out' = out ∧ i ∉ out.map Prod.snd ∨ Inserted i x out out') ∧
    Reads base rest' (es.dropAt i) out'

/-- A line that is read by itself, whatever follows. -/
theorem inserted_cons {y : Line × ℕ} (g : Outline → Outline)
    (hg : ∀ es, (g es).dropAt i = g (es.dropAt i))
    (hstep : ∀ {rest es out}, Reads base rest es out → Reads base (y :: rest) (g es) out)
    (hrest : Reads base rest es out)
    (ih : ∀ {rest'}, Inserted i x rest rest' → (rest.map Prod.snd).Nodup →
      ReadsInserted base i x rest' es out)
    (hinserted : Inserted i x (y :: rest) rest') (hx : skipped x.1 = true)
    (hnodup : ((y :: rest).map Prod.snd).Nodup) : ReadsInserted base i x rest' (g es) out := by
  obtain ⟨hi, hnodup⟩ := List.nodup_cons.mp hnodup
  unfold ReadsInserted
  rw [hg]
  cases hinserted with
  | here =>
    obtain ⟨hreads, hout⟩ := hrest.inserted_here hx hi
    exact ⟨_, Or.inl ⟨rfl, hout⟩, hstep hreads⟩
  | there hinserted =>
    obtain ⟨out', hout', hreads⟩ := ih hinserted hnodup
    exact ⟨out', hout', hstep hreads⟩

/-- **With one more line, the block that the line before it opens is lost**, and nothing else. -/
theorem inserted (h : Reads base rest es out) (hinserted : Inserted i x rest rest')
    (hx : skipped x.1 = true) (hnodup : (rest.map Prod.snd).Nodup) :
    ReadsInserted base i x rest' es out := by
  induction h generalizing rest' with
  | done => cases hinserted
  | skip hskip hrest ih =>
    exact inserted_cons id (fun _ => rfl) (.skip hskip) hrest ih hinserted hx hnodup
  | leave hskip hindent =>
    cases hinserted with
    | here => exact ⟨_, Or.inr .here, .leave hskip hindent⟩
    | there hinserted => exact ⟨_, Or.inr (.there hinserted), .leave hskip hindent⟩
  | deeper hskip hindent hrest ih =>
    exact inserted_cons id (fun _ => rfl) (.deeper hskip hindent) hrest ih hinserted hx hnodup
  | item hskip hindent hcontent hrest ih =>
    exact inserted_cons (.item _ _) (fun _ => rfl) (.item hskip hindent hcontent) hrest ih
      hinserted hx hnodup
  | other hskip hindent hcontent hrest ih =>
    exact inserted_cons id (fun _ => rfl) (.other hskip hindent hcontent) hrest ih hinserted hx
      hnodup
  | pair hskip hindent hcontent hraw hrest ih =>
    exact inserted_cons (.pair _ _) (fun _ => rfl) (.pair hskip hindent hcontent hraw) hrest ih
      hinserted hx hnodup
  | @without _ _ _ _ _ _ _ hskip hindent hcontent hnext hrest ih =>
    obtain ⟨hi, hnodup⟩ := List.nodup_cons.mp hnodup
    cases hinserted with
    | here =>
      obtain ⟨hreads, hout⟩ := hrest.inserted_here hx hi
      refine ⟨_, Or.inl ⟨rfl, hout⟩, .without hskip hindent hcontent ?_ hreads⟩
      rintro _ ⟨⟩
      exact Or.inl hx
    | there hinserted =>
      obtain ⟨out', hout', hreads⟩ := ih hinserted hnodup
      refine ⟨out', hout', .without hskip hindent hcontent (fun next hhead => ?_) hreads⟩
      exact hnext next (hinserted.head?_eq ▸ hhead)
  | @nested base line nextLine idx nextIdx rest mid out body es key hskip hindent hcontent hnext
      hdeeper hbody hrest ihbody ih =>
    obtain ⟨hi, hnodup⟩ := List.nodup_cons.mp hnodup
    cases hinserted with
    | here =>
      -- the block is not found: its field is not assigned, and its lines are passed over
      obtain ⟨hreads, hout⟩ := (hbody.passes hdeeper hrest).inserted_here hx hi
      unfold ReadsInserted
      rw [Outline.dropAt, if_pos rfl]
      refine ⟨_, Or.inl ⟨rfl, hout⟩, .without hskip hindent hcontent ?_ hreads⟩
      rintro _ ⟨⟩
      exact Or.inl hx
    | there hinserted =>
      obtain ⟨mid', hmid', hreads⟩ := ihbody hinserted hnodup
      obtain ⟨rest', rfl⟩ := hinserted.exists_cons
      have hne : idx ≠ i := fun heq => hi (heq ▸ hinserted.mem)
      unfold ReadsInserted
      rw [Outline.dropAt, if_neg hne]
      rcases hmid' with ⟨rfl, hmid⟩ | hmid'
      · have hopens : ¬ es.Opens i := fun hopens => hmid (hrest.mem_of_opens hopens)
        rw [Outline.dropAt_eq_self hopens]
        exact ⟨out, Or.inl ⟨rfl, fun hmem => hmid ((hrest.suffix.map _).mem hmem)⟩,
          .nested hskip hindent hcontent hnext hdeeper hreads hrest⟩
      · obtain ⟨out', hout', hreads'⟩ := ih hmid' ((hbody.suffix.map _).sublist.nodup hnodup)
        exact ⟨out', hout', .nested hskip hindent hcontent hnext hdeeper hreads hreads'⟩

end Reads

/-! ## Texts with one more line -/

/-- The number of a line, once another has been put below the line `i`. -/
def shift (i j : ℕ) : ℕ := if j ≤ i then j else j + 1

theorem strictMono_shift (i : ℕ) : StrictMono (shift i) := by
  intro j k h
  unfold shift
  split <;> split <;> omega

/-- The lines with their numbers. -/
theorem inserted_zipIdx {before after : List Line} {line inserted : Line} :
    Inserted before.length (inserted, before.length + 1)
      (((before ++ line :: after).zipIdx).map (Prod.map id (shift before.length)))
      (before ++ line :: inserted :: after).zipIdx := by
  have hbefore : (before.zipIdx).map (Prod.map id (shift before.length)) = before.zipIdx := by
    refine (List.map_congr_left fun y hy => ?_).trans (List.map_id _)
    have hlt : y.2 ≤ before.length := (List.snd_lt_of_mem_zipIdx hy).le
    rw [Prod.map, shift, if_pos hlt]
    rfl
  have hafter : (after.zipIdx (before.length + 1)).map (Prod.map id (shift before.length)) =
      after.zipIdx (before.length + 1 + 1) := by
    rw [List.zipIdx_succ (i := before.length + 1)]
    refine List.map_congr_left fun y hy => ?_
    have hlt : ¬ y.2 ≤ before.length := by
      have hle := List.le_snd_of_mem_zipIdx hy
      omega
    rw [Prod.map, shift, if_neg hlt]
    rfl
  have hline : shift before.length before.length = before.length := if_pos le_rfl
  rw [List.zipIdx_append, List.zipIdx_append, List.map_append, hbefore, List.zipIdx_cons,
    List.zipIdx_cons, List.zipIdx_cons, List.map_cons, Nat.zero_add, hafter, Prod.map, hline]
  exact Inserted.here.append _

/-- **The outline with one more line**: the later lines have other numbers, and a block that the
line before it opens is lost. -/
theorem outline_inserted {before after : List Line} {line inserted : Line}
    (hskip : skipped inserted = true) :
    outline (before ++ line :: inserted :: after) =
      ((outline (before ++ line :: after)).relabel (shift before.length)).dropAt before.length := by
  have hreads := (outline_eq_iff.mp (rfl : outline (before ++ line :: after) = _)).relabel
    (shift before.length)
  have hnodup : ((((before ++ line :: after).zipIdx).map
      (Prod.map id (shift before.length))).map Prod.snd).Nodup := by
    have hinjective : Function.Injective (shift before.length) :=
      (strictMono_shift before.length).injective
    rw [List.map_map]
    have hsnd : Prod.snd ∘ Prod.map id (shift before.length) =
        shift before.length ∘ (Prod.snd : Line × ℕ → ℕ) := rfl
    rw [hsnd, ← List.map_map, List.zipIdx_map_snd]
    exact List.Nodup.map hinjective List.nodup_range'
  obtain ⟨out', hout', hinserted⟩ := hreads.inserted inserted_zipIdx hskip hnodup
  rcases hout' with ⟨rfl, -⟩ | hout'
  · exact outline_eq_iff.mpr hinserted
  · cases hout'

end YamlSimple

end AgentWorkflow
