import AgentWorkflow.Cli.YamlSimple

/-!
# The outline of a text

What a block of the reader reads, before anything is assigned: its items, fields and nested blocks,
with the indices of the lines of the items and of the fields that open a block.

* `Outline` — the outline; `Outline.assign` — the object it fills.
* `Reads` — **the control of the reader as rules**: which lines a block takes and where it ends.
* `loop_eq` — the reader assigns the outline of what it reads.
* **`parse_eq`** — so a text is parsed by its outline, which the rules determine (`Reads.unique`).
-/

namespace AgentWorkflow

namespace YamlSimple

/-! ## Outlines -/

/-- What is read in a block, line after line. -/
inductive Outline
  | nil
  | item (idx : ℕ) (raw : Line) (rest : Outline)
  | pair (key : String) (raw : Line) (rest : Outline)
  /-- A field whose value is the block that follows; `list` when that begins with an item. -/
  | nested (idx : ℕ) (key : String) (list : Bool) (body rest : Outline)
  deriving DecidableEq

section assign

variable {ν : Type} (N : NumberText ν)

/-- The value of a nested block that has been filled. -/
def Obj.nestedValue (list : Bool) (o : Obj ν) : Value ν :=
  if list = true then .arr ((o.finish N).toItems N) else o.finish N

/-- The object a block fills. -/
def Outline.assign : Obj ν → Outline → Obj ν
  | result, .nil => result
  | result, .item idx raw rest =>
    rest.assign (result.set (Nat.repr idx) (parseScalar N raw))
  | result, .pair key raw rest => rest.assign (result.set key (parseScalar N raw))
  | result, .nested _ key list body rest =>
    rest.assign (result.set key ((body.assign .empty).nestedValue N list))

end assign

/-! ## Reading -/

/-- What a block reads, and the lines it leaves. -/
def readBlock : ℕ → ℕ → List (Line × ℕ) → Outline × List (Line × ℕ)
  | 0, _, rest => (.nil, rest)
  | _ + 1, _, [] => (.nil, [])
  | turns + 1, baseIndent, (line, idx) :: rest =>
    if skipped line = true then readBlock turns baseIndent rest
    else if indent line < baseIndent then (.nil, (line, idx) :: rest)
    else if baseIndent < indent line then readBlock turns baseIndent rest
    else
      match content (trim line) with
      | .item raw =>
        let read := readBlock turns baseIndent rest
        (.item idx raw read.1, read.2)
      | .other => readBlock turns baseIndent rest
      | .field key raw =>
        if raw ≠ [] then
          let read := readBlock turns baseIndent rest
          (.pair key raw read.1, read.2)
        else
          match rest with
          | [] => (.nil, [])
          | (nextLine, nextIdx) :: rest =>
            if skipped nextLine = true ∨ indent nextLine ≤ indent line then
              readBlock turns baseIndent ((nextLine, nextIdx) :: rest)
            else
              let body := readBlock turns (indent nextLine) ((nextLine, nextIdx) :: rest)
              let read := readBlock turns baseIndent body.2
              (.nested idx key (isItem (trim nextLine)) body.1 read.1, read.2)

/-- The outline of the lines of a text. -/
def outline (lines : List Line) : Outline := (readBlock lines.length 0 lines.zipIdx).1

/-- **The reader assigns what it reads.** -/
theorem loop_eq {ν : Type} (N : NumberText ν) (turns baseIndent : ℕ) (result : Obj ν)
    (rest : List (Line × ℕ)) :
    loop N turns baseIndent result rest =
      ((readBlock turns baseIndent rest).1.assign N result, (readBlock turns baseIndent rest).2) := by
  -- the outline has the recursion of the loop, one case for each branch
  fun_induction readBlock turns baseIndent rest generalizing result with
  | case1 => rfl
  | case2 => rfl
  | case3 _ _ _ _ _ hskip ih => rw [loop, if_pos hskip, ih]
  | case4 _ _ _ _ _ hskip hleave => rw [loop, if_neg hskip, if_pos hleave]; rfl
  | case5 _ _ _ _ _ hskip hleave hdeep ih =>
    rw [loop, if_neg hskip, if_neg hleave, if_pos hdeep, ih]
  | case6 _ _ _ _ _ hskip hleave hdeep raw hcontent read ih =>
    rw [loop, if_neg hskip, if_neg hleave, if_neg hdeep]
    simp only [hcontent, ih]
    rfl
  | case7 _ _ _ _ _ hskip hleave hdeep hcontent ih =>
    rw [loop, if_neg hskip, if_neg hleave, if_neg hdeep]
    simp only [hcontent, ih]
  | case8 _ _ _ _ _ hskip hleave hdeep key raw hcontent hraw read ih =>
    rw [loop, if_neg hskip, if_neg hleave, if_neg hdeep]
    simp only [hcontent, if_pos hraw, ih]
    rfl
  | case9 _ _ _ _ hskip hleave hdeep key raw hcontent hraw =>
    rw [loop, if_neg hskip, if_neg hleave, if_neg hdeep]
    simp only [hcontent, if_neg hraw]
    rfl
  | case10 _ _ _ _ hskip hleave hdeep key raw hcontent hraw _ _ _ hnext ih =>
    rw [loop, if_neg hskip, if_neg hleave, if_neg hdeep]
    simp only [hcontent, if_neg hraw, if_pos hnext, ih]
  | case11 _ _ _ _ hskip hleave hdeep key raw hcontent hraw _ _ _ hnext body read ihbody ih =>
    rw [loop, if_neg hskip, if_neg hleave, if_neg hdeep]
    simp only [hcontent, if_neg hraw, if_neg hnext, ihbody]
    exact ih _

/-- **A text is parsed by its outline.** -/
theorem parse_eq {ν : Type} (N : NumberText ν) (text : String) :
    parseSimpleYaml N text =
      ((outline (splitLines text.toList)).assign N .empty).finish N := by
  unfold parseSimpleYaml outline
  simp only [loop_eq]

/-! ## The rules -/

/-- A block at an indentation reads an outline, and leaves some lines. -/
inductive Reads : ℕ → List (Line × ℕ) → Outline → List (Line × ℕ) → Prop
  | done {base : ℕ} : Reads base [] .nil []
  | skip {base : ℕ} {line : Line} {idx : ℕ} {rest out : List (Line × ℕ)} {es : Outline}
      (hskip : skipped line = true) (hrest : Reads base rest es out) :
      Reads base ((line, idx) :: rest) es out
  | leave {base : ℕ} {line : Line} {idx : ℕ} {rest : List (Line × ℕ)}
      (hskip : skipped line = false) (hindent : indent line < base) :
      Reads base ((line, idx) :: rest) .nil ((line, idx) :: rest)
  | deeper {base : ℕ} {line : Line} {idx : ℕ} {rest out : List (Line × ℕ)} {es : Outline}
      (hskip : skipped line = false) (hindent : base < indent line)
      (hrest : Reads base rest es out) : Reads base ((line, idx) :: rest) es out
  | item {base : ℕ} {line : Line} {idx : ℕ} {rest out : List (Line × ℕ)} {es : Outline}
      {raw : Line} (hskip : skipped line = false) (hindent : indent line = base)
      (hcontent : content (trim line) = .item raw) (hrest : Reads base rest es out) :
      Reads base ((line, idx) :: rest) (.item idx raw es) out
  | other {base : ℕ} {line : Line} {idx : ℕ} {rest out : List (Line × ℕ)} {es : Outline}
      (hskip : skipped line = false) (hindent : indent line = base)
      (hcontent : content (trim line) = .other) (hrest : Reads base rest es out) :
      Reads base ((line, idx) :: rest) es out
  | pair {base : ℕ} {line : Line} {idx : ℕ} {rest out : List (Line × ℕ)} {es : Outline}
      {key : String} {raw : Line} (hskip : skipped line = false) (hindent : indent line = base)
      (hcontent : content (trim line) = .field key raw) (hraw : raw ≠ [])
      (hrest : Reads base rest es out) : Reads base ((line, idx) :: rest) (.pair key raw es) out
  /-- Nothing nested follows at once: the field is not assigned. -/
  | without {base : ℕ} {line : Line} {idx : ℕ} {rest out : List (Line × ℕ)} {es : Outline}
      {key : String} (hskip : skipped line = false) (hindent : indent line = base)
      (hcontent : content (trim line) = .field key [])
      (hnext : ∀ next ∈ rest.head?, skipped next.1 = true ∨ indent next.1 ≤ base)
      (hrest : Reads base rest es out) : Reads base ((line, idx) :: rest) es out
  | nested {base : ℕ} {line nextLine : Line} {idx nextIdx : ℕ} {rest mid out : List (Line × ℕ)}
      {body es : Outline} {key : String} (hskip : skipped line = false)
      (hindent : indent line = base) (hcontent : content (trim line) = .field key [])
      (hnext : skipped nextLine = false) (hdeeper : base < indent nextLine)
      (hbody : Reads (indent nextLine) ((nextLine, nextIdx) :: rest) body mid)
      (hrest : Reads base mid es out) :
      Reads base ((line, idx) :: (nextLine, nextIdx) :: rest)
        (.nested idx key (isItem (trim nextLine)) body es) out

namespace Reads

variable {base : ℕ} {rest out out' : List (Line × ℕ)} {es es' : Outline}

/-- What is left are the last lines. -/
theorem suffix (h : Reads base rest es out) : out <:+ rest := by
  induction h with
  | done => exact List.suffix_refl _
  | leave => exact List.suffix_refl _
  | skip _ _ ih => exact ih.trans (List.suffix_cons _ _)
  | deeper _ _ _ ih => exact ih.trans (List.suffix_cons _ _)
  | item _ _ _ _ ih => exact ih.trans (List.suffix_cons _ _)
  | other _ _ _ _ ih => exact ih.trans (List.suffix_cons _ _)
  | pair _ _ _ _ _ ih => exact ih.trans (List.suffix_cons _ _)
  | without _ _ _ _ _ ih => exact ih.trans (List.suffix_cons _ _)
  | nested _ _ _ _ _ _ _ ihbody ih => exact (ih.trans ihbody).trans (List.suffix_cons _ _)

/-- **The reader follows the rules**, given a turn for each line. -/
theorem readBlock_eq (h : Reads base rest es out) {turns : ℕ} (hturns : rest.length ≤ turns) :
    readBlock turns base rest = (es, out) := by
  induction h generalizing turns with
  | done => cases turns <;> rfl
  | skip hskip _ ih =>
    obtain ⟨turns, rfl⟩ := Nat.exists_eq_add_of_lt hturns
    rw [readBlock, if_pos hskip]
    exact ih (by omega)
  | leave hskip hindent =>
    obtain ⟨turns, rfl⟩ := Nat.exists_eq_add_of_lt hturns
    rw [readBlock, if_neg (by simp [hskip]), if_pos hindent]
  | deeper hskip hindent _ ih =>
    obtain ⟨turns, rfl⟩ := Nat.exists_eq_add_of_lt hturns
    rw [readBlock, if_neg (by simp [hskip]), if_neg hindent.not_gt, if_pos hindent]
    exact ih (by omega)
  | item hskip hindent hcontent _ ih =>
    obtain ⟨turns, rfl⟩ := Nat.exists_eq_add_of_lt hturns
    rw [readBlock, if_neg (by simp [hskip]), if_neg hindent.not_lt, if_neg hindent.not_gt]
    simp only [hcontent]
    rw [ih (by omega)]
  | other hskip hindent hcontent _ ih =>
    obtain ⟨turns, rfl⟩ := Nat.exists_eq_add_of_lt hturns
    rw [readBlock, if_neg (by simp [hskip]), if_neg hindent.not_lt, if_neg hindent.not_gt]
    simp only [hcontent]
    exact ih (by omega)
  | pair hskip hindent hcontent hraw _ ih =>
    obtain ⟨turns, rfl⟩ := Nat.exists_eq_add_of_lt hturns
    rw [readBlock, if_neg (by simp [hskip]), if_neg hindent.not_lt, if_neg hindent.not_gt]
    simp only [hcontent, if_pos hraw]
    rw [ih (by omega)]
  | @without base line idx rest out es key hskip hindent hcontent hnext hrest ih =>
    obtain ⟨turns, rfl⟩ := Nat.exists_eq_add_of_lt hturns
    rw [readBlock, if_neg (by simp [hskip]), if_neg hindent.not_lt, if_neg hindent.not_gt]
    simp only [hcontent, ne_eq, not_true_eq_false, if_false]
    cases rest with
    | nil =>
      cases hrest
      rfl
    | cons next rest =>
      simp only [hindent, if_pos (hnext next rfl)]
      exact ih (by omega)
  | @nested base line nextLine _ _ _ _ _ _ _ _ hskip hindent hcontent hnext hdeeper hbody _
      ihbody ih =>
    obtain ⟨turns, rfl⟩ := Nat.exists_eq_add_of_lt hturns
    have hmid := hbody.suffix.length_le
    have hopens : ¬ (skipped nextLine = true ∨ indent nextLine ≤ indent line) :=
      not_or.mpr ⟨by simp [hnext], hindent ▸ hdeeper.not_ge⟩
    rw [readBlock, if_neg (by simp [hskip]), if_neg hindent.not_lt, if_neg hindent.not_gt]
    simp only [hcontent, ne_eq, not_true_eq_false, if_false, if_neg hopens]
    rw [ihbody (by omega), ih (by omega)]

end Reads

/-- Every block reads something. -/
theorem exists_reads (base : ℕ) (rest : List (Line × ℕ)) : ∃ es out, Reads base rest es out := by
  -- a nested block leaves fewer lines than it was given
  induction hn : rest.length using Nat.strong_induction_on generalizing base rest with
  | _ n ih =>
    cases rest with
    | nil => exact ⟨_, _, .done⟩
    | cons first rest =>
      obtain ⟨line, idx⟩ := first
      have hlt : rest.length < n := by simp only [List.length_cons] at hn; omega
      obtain ⟨es, out, hrest⟩ := ih _ hlt base rest rfl
      cases hskip : skipped line with
      | true => exact ⟨_, _, .skip hskip hrest⟩
      | false =>
        rcases lt_trichotomy (indent line) base with hleave | hindent | hdeep
        · exact ⟨_, _, .leave hskip hleave⟩
        · cases hcontent : content (trim line) with
          | item raw => exact ⟨_, _, .item hskip hindent hcontent hrest⟩
          | other => exact ⟨_, _, .other hskip hindent hcontent hrest⟩
          | field key raw =>
            by_cases hraw : raw = []
            · subst hraw
              by_cases hnext : ∀ next ∈ rest.head?, skipped next.1 = true ∨ indent next.1 ≤ base
              · exact ⟨_, _, .without hskip hindent hcontent hnext hrest⟩
              · cases rest with
                | nil => simp at hnext
                | cons next rest =>
                  obtain ⟨nextLine, nextIdx⟩ := next
                  simp only [List.head?_cons, Option.mem_some_iff, forall_eq', not_or,
                    Bool.not_eq_true, not_le] at hnext
                  obtain ⟨body, mid, hbody⟩ := ih _ hlt (indent nextLine) _ rfl
                  obtain ⟨es', out', hmid⟩ := ih mid.length
                    (hbody.suffix.length_le.trans_lt hlt) base mid rfl
                  exact ⟨_, _, .nested hskip hindent hcontent hnext.1 hnext.2 hbody hmid⟩
            · exact ⟨_, _, .pair hskip hindent hcontent hraw hrest⟩
        · exact ⟨_, _, .deeper hskip hdeep hrest⟩

/-- A text is read to its end: nothing is less indented than its block. -/
theorem Reads.out_eq_nil {rest out : List (Line × ℕ)} {es : Outline} (h : Reads 0 rest es out) :
    out = [] := by
  generalize hbase : 0 = base at h
  induction h with
  | done => rfl
  | leave _ hindent => omega
  | skip _ _ ih => exact ih hbase
  | deeper _ _ _ ih => exact ih hbase
  | item _ _ _ _ ih => exact ih hbase
  | other _ _ _ _ ih => exact ih hbase
  | pair _ _ _ _ _ ih => exact ih hbase
  | without _ _ _ _ _ ih => exact ih hbase
  | nested _ _ _ _ _ _ _ _ ih => exact ih hbase

/-- **The outline of a text is what its lines are read as.** -/
theorem outline_eq_iff {lines : List Line} {es : Outline} :
    outline lines = es ↔ Reads 0 lines.zipIdx es [] := by
  have hturns : lines.zipIdx.length ≤ lines.length := List.length_zipIdx.le
  refine ⟨?_, fun h => ?_⟩
  · rintro rfl
    obtain ⟨es, out, h⟩ := exists_reads 0 lines.zipIdx
    obtain rfl := h.out_eq_nil
    rw [outline, h.readBlock_eq hturns]
    exact h
  · rw [outline, h.readBlock_eq hturns]

end YamlSimple

end AgentWorkflow
