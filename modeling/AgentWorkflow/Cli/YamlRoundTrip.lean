import AgentWorkflow.Cli.YamlOutline

/-!
# Rendered trees are read back

The block style in which the tests of the agent registry write profiles: one field a line, two
spaces for each level, strings in double quotes and otherwise as they are.

* `Tree` — an object of scalars, arrays of scalars and such objects; `toSimpleYaml` — its text.
* `Tree.Renderable` — the keys are distinct identifiers, nothing nested is empty, strings have no
  line break, numbers are written in decimals.
* `lines_toSimpleYaml`, `reads_lines` — the lines of the text, and what a block reads of them.
* **`parse_toSimpleYaml`** — the reader gives back the tree.
-/

namespace AgentWorkflow

namespace YamlSimple

/-! ## Trees -/

/-- A scalar of a tree. -/
inductive Scalar (ν : Type)
  | null
  | bool (b : Bool)
  | num (n : ν)
  | str (s : String)
  deriving DecidableEq

/-- The fields of an object, in their order. -/
inductive Tree (ν : Type)
  | nil
  | scalar (key : String) (value : Scalar ν) (rest : Tree ν)
  | array (key : String) (items : List (Scalar ν)) (rest : Tree ν)
  | object (key : String) (fields rest : Tree ν)

variable {ν : Type} (N : NumberText ν)

def Scalar.toValue : Scalar ν → Value ν
  | .null => .null
  | .bool b => .bool b
  | .num n => .num n
  | .str s => .str s

/-- The fields as values. -/
def Tree.fields : Tree ν → List (String × Value ν)
  | .nil => []
  | .scalar key value rest => (key, value.toValue) :: rest.fields
  | .array key items rest => (key, .arr (items.map Scalar.toValue)) :: rest.fields
  | .object key fields rest => (key, .obj none fields.fields) :: rest.fields

/-- The object. -/
def Tree.toValue (tree : Tree ν) : Value ν := .obj none tree.fields

/-- `String(value)`, in quotes when it is a string. -/
def Scalar.render : Scalar ν → String
  | .null => "null"
  | .bool b => if b = true then "true" else "false"
  | .num n => N.toText n
  | .str s => "\"" ++ s ++ "\""

/-- `" ".repeat(indent)`. -/
def spaces (n : ℕ) : String := String.ofList (List.replicate n ' ')

/-- The lines of an array. -/
def renderItems (n : ℕ) : List (Scalar ν) → String
  | [] => ""
  | item :: items => spaces n ++ "  - " ++ item.render N ++ "\n" ++ renderItems n items

/-- Source: `agent-registry.test.ts` `toSimpleYaml`. -/
def toSimpleYaml : Tree ν → ℕ → String
  | .nil, _ => ""
  | .scalar key value rest, n =>
    spaces n ++ key ++ ": " ++ value.render N ++ "\n" ++ toSimpleYaml rest n
  | .array key items rest, n =>
    spaces n ++ key ++ ":\n" ++ renderItems N n items ++ toSimpleYaml rest n
  | .object key fields rest, n =>
    spaces n ++ key ++ ":\n" ++ toSimpleYaml fields (n + 2) ++ toSimpleYaml rest n

/-! ## Trees that can be rendered -/

/-- `[A-Za-z0-9_-]`. -/
def isKeyChar (c : Char) : Bool := c.isAlphanum || c == '_' || c == '-'

/-- A key is an identifier, `[A-Za-z_][A-Za-z0-9_-]*`, other than `__proto__`. -/
structure IsKey (key : String) : Prop where
  head : ∃ c ∈ key.toList.head?, c.isAlpha = true ∨ c = '_'
  chars : ∀ c ∈ key.toList, isKeyChar c = true
  not_proto : key ≠ "__proto__"

/-- A scalar without a line break; a number that is written in decimals. -/
def Scalar.Plain : Scalar ν → Prop
  | .str s => '\n' ∉ s.toList
  | .num n => isDecimal (N.toText n).toList = true
  | _ => True

instance : (value : Scalar ν) → Decidable (value.Plain N)
  | .null => isTrue trivial
  | .bool _ => isTrue trivial
  | .num n => inferInstanceAs (Decidable (isDecimal (N.toText n).toList = true))
  | .str s => inferInstanceAs (Decidable ('\n' ∉ s.toList))

/-- Distinct identifiers as keys, nothing nested that is empty, and plain scalars. -/
def Tree.Renderable : Tree ν → Prop
  | .nil => True
  | .scalar key value rest =>
    IsKey key ∧ key ∉ rest.fields.map Prod.fst ∧ value.Plain N ∧ rest.Renderable
  | .array key items rest =>
    IsKey key ∧ key ∉ rest.fields.map Prod.fst ∧ items ≠ [] ∧ (∀ item ∈ items, item.Plain N) ∧
      rest.Renderable
  | .object key fields rest =>
    IsKey key ∧ key ∉ rest.fields.map Prod.fst ∧ fields ≠ .nil ∧ fields.Renderable ∧
      rest.Renderable

/-! ## Lines -/

/-- A text that `trim` leaves as it is, and that is neither empty nor a comment. -/
structure Solid (l : Line) : Prop where
  ne_nil : l ≠ []
  head : ∀ c ∈ l.head?, isTrimmed c = false ∧ c ≠ '#'
  last : ∀ c ∈ l.getLast?, isTrimmed c = false

theorem solid_of_all {l : Line} (h : (!l.isEmpty &&
    l.head?.all (fun c => !isTrimmed c && c != '#') && l.getLast?.all fun c => !isTrimmed c) =
      true) : Solid l := by
  rw [Bool.and_eq_true, Bool.and_eq_true, Option.all_eq_true, Option.all_eq_true] at h
  obtain ⟨⟨hne, hhead⟩, hlast⟩ := h
  exact ⟨by simpa using hne, fun c hc => by simpa using hhead c hc,
    fun c hc => by simpa using hlast c hc⟩

/-- The line of a text at an indentation. -/
def pad (n : ℕ) (l : Line) : Line := List.replicate n ' ' ++ l

section lines

variable {l : Line} {n : ℕ}

theorem isTrimmed_space : isTrimmed ' ' = true := by decide

theorem dropWhile_pad (h : Solid l) : (pad n l).dropWhile isTrimmed = l := by
  obtain ⟨c, cs, rfl⟩ := List.exists_cons_of_ne_nil h.ne_nil
  have hc := (h.head c rfl).1
  induction n with
  | zero => exact List.dropWhile_cons_of_neg (by simp [hc])
  | succ n ih => exact (List.dropWhile_cons_of_pos isTrimmed_space).trans ih

theorem trim_pad (h : Solid l) : trim (pad n l) = l := by
  rw [trim, dropWhile_pad h, List.rdropWhile_eq_self_iff]
  intro hne
  simpa using h.last _ (List.getLast?_eq_some_getLast hne)

theorem trim_solid (h : Solid l) : trim l = l := trim_pad (n := 0) h

theorem indent_pad (h : Solid l) : indent (pad n l) = n := by
  obtain ⟨c, cs, rfl⟩ := List.exists_cons_of_ne_nil h.ne_nil
  have hc := (h.head c rfl).1
  unfold indent
  induction n with
  | zero => exact congrArg _ (List.takeWhile_cons_of_neg (by simp [hc]))
  | succ n ih =>
    have hcons : (pad (n + 1) (c :: cs)).takeWhile isTrimmed =
        ' ' :: (pad n (c :: cs)).takeWhile isTrimmed := List.takeWhile_cons_of_pos isTrimmed_space
    rw [hcons, List.length_cons, ih]

theorem skipped_pad (h : Solid l) : skipped (pad n l) = false := by
  obtain ⟨c, cs, rfl⟩ := List.exists_cons_of_ne_nil h.ne_nil
  have hc := (h.head c rfl).2
  rw [skipped, trim_pad h]
  simpa using hc

end lines

/-! ## Scalars -/

section scalars

variable {N} {l : Line}

theorem allDigits_iff : allDigits l = true ↔ l ≠ [] ∧ ∀ c ∈ l, c.isDigit = true := by
  rw [allDigits, Bool.and_eq_true, List.all_eq_true, Bool.not_eq_true', List.isEmpty_eq_false_iff]

theorem last_of_allDigits (h : allDigits l = true) : ∃ c ∈ l.getLast?, c.isDigit = true := by
  obtain ⟨hne, hdigits⟩ := allDigits_iff.mp h
  exact ⟨_, List.getLast?_eq_some_getLast hne, hdigits _ (List.getLast_mem hne)⟩

theorem last_of_suffix {l' : Line} (h : l' <:+ l) (hlast : ∃ c ∈ l'.getLast?, c.isDigit = true) :
    ∃ c ∈ l.getLast?, c.isDigit = true := by
  obtain ⟨t, rfl⟩ := h
  obtain ⟨c, hc, hdigit⟩ := hlast
  refine ⟨c, ?_, hdigit⟩
  rw [Option.mem_def] at hc ⊢
  rw [List.getLast?_append, hc, Option.some_or]

/-- What a decimal begins with. -/
theorem head_of_isDecimal (h : isDecimal l = true) :
    ∃ c cs, l = c :: cs ∧ (c = '-' ∨ c.isDigit = true) := by
  obtain ⟨hint, -⟩ := Bool.and_eq_true_iff.mp h
  by_cases hsign : l.head? = some '-'
  · obtain ⟨cs, rfl⟩ := List.head?_eq_some_iff.mp hsign
    exact ⟨'-', cs, rfl, Or.inl rfl⟩
  · rw [if_neg hsign] at hint
    obtain ⟨hne, -⟩ := allDigits_iff.mp hint
    cases l with
    | nil => exact absurd rfl hne
    | cons c cs =>
      refine ⟨c, cs, rfl, Or.inr ?_⟩
      by_contra hc
      exact hne (List.takeWhile_cons_of_neg hc)

/-- What a decimal ends with. -/
theorem last_of_isDecimal (h : isDecimal l = true) : ∃ c ∈ l.getLast?, c.isDigit = true := by
  obtain ⟨hint, hfraction⟩ := Bool.and_eq_true_iff.mp h
  have hunsigned : (if l.head? = some '-' then l.drop 1 else l) <:+ l := by
    split
    · exact List.drop_suffix 1 l
    · exact List.suffix_refl l
  refine last_of_suffix hunsigned ?_
  generalize (if l.head? = some '-' then l.drop 1 else l) = unsigned at hint hfraction
  rcases Bool.or_eq_true_iff.mp hfraction with hnone | hsome
  · -- no fraction: the digits are all there is
    have hall : unsigned.takeWhile Char.isDigit = unsigned := by
      have happend := List.takeWhile_append_dropWhile (p := Char.isDigit) (l := unsigned)
      rwa [List.isEmpty_iff.mp hnone, List.append_nil] at happend
    rw [← hall]
    exact last_of_allDigits hint
  · obtain ⟨-, hdigits⟩ := Bool.and_eq_true_iff.mp hsome
    refine last_of_suffix ?_ (last_of_allDigits hdigits)
    exact (List.drop_suffix 1 _).trans (List.dropWhile_suffix _)

theorem isKeyChar_of_isDigit {c : Char} (h : c.isDigit = true) : isKeyChar c = true := by
  rw [isKeyChar, Char.isAlphanum, h, Bool.or_true]
  rfl

theorem mem_of_isDecimal (h : isDecimal l = true) {c : Char} (hc : c ∈ l) :
    isKeyChar c = true ∨ c = '.' := by
  obtain ⟨hint, hfraction⟩ := Bool.and_eq_true_iff.mp h
  have hunsigned : c = '-' ∨ c ∈ if l.head? = some '-' then l.drop 1 else l := by
    split
    next hsign =>
      obtain ⟨cs, rfl⟩ := List.head?_eq_some_iff.mp hsign
      exact List.mem_cons.mp hc
    next => exact Or.inr hc
  rcases hunsigned with rfl | hmem
  · exact Or.inl (by decide)
  · generalize (if l.head? = some '-' then l.drop 1 else l) = unsigned at hint hfraction hmem
    rw [← List.takeWhile_append_dropWhile (p := Char.isDigit) (l := unsigned),
      List.mem_append] at hmem
    rcases hmem with hmem | hmem
    · exact Or.inl (isKeyChar_of_isDigit ((allDigits_iff.mp hint).2 c hmem))
    · rcases Bool.or_eq_true_iff.mp hfraction with hnone | hsome
      · rw [List.isEmpty_iff.mp hnone] at hmem
        cases hmem
      · obtain ⟨hpoint, hdigits⟩ := Bool.and_eq_true_iff.mp hsome
        obtain ⟨cs, hcs⟩ := List.head?_eq_some_iff.mp (by simpa using hpoint)
        rw [hcs] at hmem hdigits
        rcases List.mem_cons.mp hmem with rfl | hmem
        · exact Or.inr rfl
        · exact Or.inl (isKeyChar_of_isDigit ((allDigits_iff.mp hdigits).2 c hmem))

/-- The characters of keys and numbers are neither blank nor separators. -/
theorem of_isKeyChar {c : Char} (h : isKeyChar c = true) :
    isTrimmed c = false ∧ c ≠ ':' ∧ c ≠ '#' ∧ c ≠ '\n' := by
  have hnone : (['\t', '\n', '\x0b', '\x0c', '\r', ' ', '\u00a0', '\u1680', '\u2000',
      '\u2001', '\u2002', '\u2003', '\u2004', '\u2005', '\u2006', '\u2007', '\u2008', '\u2009',
      '\u200a', '\u2028', '\u2029', '\u202f', '\u205f', '\u3000', '\ufeff'].all fun c => !isKeyChar c) = true :=
    by decide
  refine ⟨?_, ?_, ?_, ?_⟩
  · by_contra hc
    rw [Bool.not_eq_false, isTrimmed, decide_eq_true_eq] at hc
    rw [(Bool.not_eq_true' _).mp (List.all_eq_true.mp hnone c hc)] at h
    cases h
  all_goals
    rintro rfl
    cases h

theorem toList_render_null : ((Scalar.null : Scalar ν).render N).toList = ['n', 'u', 'l', 'l'] := by
  rw [Scalar.render]
  decide

theorem toList_render_bool (b : Bool) : ((Scalar.bool b : Scalar ν).render N).toList =
    if b = true then ['t', 'r', 'u', 'e'] else ['f', 'a', 'l', 's', 'e'] := by
  rw [Scalar.render]
  cases b <;> decide

theorem toList_render_str (s : String) :
    ((Scalar.str s : Scalar ν).render N).toList = '"' :: (s.toList ++ ['"']) := by
  simp [Scalar.render]

theorem solid_render {value : Scalar ν} (h : value.Plain N) : Solid (value.render N).toList := by
  cases value with
  | null =>
    rw [toList_render_null]
    exact solid_of_all (by decide)
  | bool b =>
    rw [toList_render_bool]
    cases b <;> exact solid_of_all (by decide)
  | num n =>
    obtain ⟨c, cs, hcs, hhead⟩ := head_of_isDecimal h
    obtain ⟨d, hd, hlast⟩ := last_of_isDecimal h
    have hrender : ((Scalar.num n).render N).toList = c :: cs := hcs
    rw [hcs] at hd
    rw [hrender]
    refine ⟨List.cons_ne_nil c cs, ?_, ?_⟩
    · rintro _ ⟨⟩
      have hkey : isKeyChar c = true := by
        rcases hhead with rfl | hdigit
        · decide
        · exact isKeyChar_of_isDigit hdigit
      exact ⟨(of_isKeyChar hkey).1, (of_isKeyChar hkey).2.2.1⟩
    · intro d' hd'
      obtain rfl : d = d' := Option.some.inj (hd.symm.trans hd')
      exact (of_isKeyChar (isKeyChar_of_isDigit hlast)).1
  | str s =>
    rw [toList_render_str]
    refine ⟨List.cons_ne_nil _ _, ?_, ?_⟩
    · rintro _ ⟨⟩
      decide
    · intro c hc
      rw [← List.cons_append, List.getLast?_concat] at hc
      cases hc
      decide

/-- **A rendered scalar is read back**, whatever a string contains. -/
theorem parseScalar_render {value : Scalar ν} (h : value.Plain N) :
    parseScalar N (value.render N).toList = value.toValue := by
  have htrim := trim_solid (solid_render h)
  unfold parseScalar
  simp only [htrim]
  cases value with
  | null => simp [toList_render_null, quotedBy, Scalar.toValue]
  | bool b => cases b <;> simp [toList_render_bool, quotedBy, Scalar.toValue]
  | num n =>
    have hdecimal : isDecimal (N.toText n).toList = true := h
    obtain ⟨c, cs, hcs, hhead⟩ := head_of_isDecimal hdecimal
    -- neither a quote nor the first letter of a literal
    have hc : c ∉ ['"', '\'', 't', 'f', 'n', '~'] := by
      intro hmem
      have hnone : (['"', '\'', 't', 'f', 'n', '~'].all fun c => c != '-' && !c.isDigit) = true :=
        by decide
      obtain ⟨hsign, hdigit⟩ := Bool.and_eq_true_iff.mp (List.all_eq_true.mp hnone c hmem)
      rw [bne_iff_ne] at hsign
      rw [Bool.not_eq_true'] at hdigit
      rcases hhead with rfl | hdigit'
      · exact hsign rfl
      · rw [hdigit] at hdigit'
        cases hdigit'
    have hvalue : N.ofText (String.ofList (c :: cs)) = n := by
      rw [← hcs, String.ofList_toList]
      exact N.ofText_toText n h
    have hrender : ((Scalar.num n).render N).toList = c :: cs := hcs
    rw [hcs] at hdecimal
    simp only [List.mem_cons, not_or] at hc
    simp [hrender, quotedBy, hc, hdecimal, hvalue, Scalar.toValue, -String.ofList_cons]
  | str s =>
    have hquoted : quotedBy '"' ('"' :: (s.toList ++ ['"'])) = true := by
      rw [quotedBy, ← List.cons_append, List.getLast?_concat]
      simp
    simp only [toList_render_str, hquoted, Bool.true_or, if_true, List.drop_succ_cons,
      List.drop_zero, List.dropLast_concat, String.ofList_toList]
    rfl

theorem newline_not_mem_render {value : Scalar ν} (h : value.Plain N) :
    '\n' ∉ (value.render N).toList := by
  cases value with
  | null =>
    rw [toList_render_null]
    decide
  | bool b =>
    rw [toList_render_bool]
    cases b <;> decide
  | num n =>
    intro hmem
    rcases mem_of_isDecimal h hmem with hkey | hpoint
    · exact (of_isKeyChar hkey).2.2.2 rfl
    · exact absurd hpoint (by decide)
  | str s =>
    have hs : '\n' ∉ s.toList := h
    rw [toList_render_str]
    simp [hs]

end scalars

/-! ## Contents -/

section contents

variable {N} {key : String} {text : Line}

theorem solid_key (h : IsKey key) : Solid key.toList := by
  obtain ⟨c, hc, -⟩ := h.head
  obtain ⟨cs, hcs⟩ := List.head?_eq_some_iff.mp hc
  refine ⟨by rw [hcs]; exact List.cons_ne_nil c cs, fun d hd => ?_, fun d hd => ?_⟩
  · have hkey := of_isKeyChar (h.chars d (List.mem_of_mem_head? hd))
    exact ⟨hkey.1, hkey.2.2.1⟩
  · exact (of_isKeyChar (h.chars d (List.mem_of_mem_getLast? hd))).1

theorem newline_not_mem_key (h : IsKey key) : '\n' ∉ key.toList := fun hmem =>
  (of_isKeyChar (h.chars _ hmem)).2.2.2 rfl

theorem isItem_key (h : IsKey key) (after : Line) : isItem (key.toList ++ after) = false := by
  obtain ⟨c, hc, hhead⟩ := h.head
  obtain ⟨cs, hcs⟩ := List.head?_eq_some_iff.mp hc
  have hdash : c ≠ '-' := by
    rintro rfl
    revert hhead
    decide
  rw [hcs]
  simp [isItem, List.isPrefixOf, hdash.symm]

theorem not_alpha_digit {c : Char} (halpha : c.isAlpha = true) (hdigit : c.isDigit = true) :
    False := by
  have hle : c.val.toNat ≤ 57 :=
    UInt32.le_iff_toNat_le.mp (of_decide_eq_true (Bool.and_eq_true_iff.mp hdigit).2)
  have hge : 65 ≤ c.val.toNat := by
    rcases Bool.or_eq_true_iff.mp halpha with hupper | hlower
    · exact UInt32.le_iff_toNat_le.mp (of_decide_eq_true hupper).1
    · have hlow : 97 ≤ c.val.toNat :=
        UInt32.le_iff_toNat_le.mp (of_decide_eq_true (Bool.and_eq_true_iff.mp hlower).1)
      omega
  omega

/-- An identifier is not a number. -/
theorem not_allDigits_key (h : IsKey key) : allDigits key.toList = false := by
  obtain ⟨c, hc, hhead⟩ := h.head
  obtain ⟨cs, hcs⟩ := List.head?_eq_some_iff.mp hc
  have hdigit : c.isDigit = false := by
    rcases hhead with halpha | rfl
    · by_contra hc'
      rw [Bool.not_eq_false] at hc'
      exact not_alpha_digit halpha hc'
    · decide
  rw [hcs]
  simp [allDigits, hdigit]

/-- A field of an identifier. -/
theorem content_field (h : IsKey key) (after : Line) :
    content (key.toList ++ ':' :: after) = .field key (trim after) := by
  have hchars : ∀ d ∈ key.toList, decide (d ≠ ':') = true := fun d hd =>
    decide_eq_true (of_isKeyChar (h.chars d hd)).2.1
  unfold content
  rw [if_neg (by simp [isItem_key h]), if_neg (by simp), List.takeWhile_append_of_pos hchars,
    List.dropWhile_append_of_pos hchars]
  simp [trim_solid (solid_key h)]

theorem content_item (h : Solid text) : content ('-' :: ' ' :: text) = .item text := by
  have hitem : isItem ('-' :: ' ' :: text) = true := by simp [isItem]
  unfold content
  rw [if_pos hitem]
  exact congrArg _ (trim_solid h)

theorem solid_field (h : IsKey key) {after : Line}
    (hafter : ∀ c ∈ (':' :: after).getLast?, isTrimmed c = false) :
    Solid (key.toList ++ ':' :: after) := by
  have hkey := solid_key h
  refine ⟨by simp, fun c hc => hkey.head c ?_, fun c hc => hafter c ?_⟩
  · rwa [List.head?_append_of_ne_nil _ hkey.ne_nil] at hc
  · rwa [List.getLast?_append_of_ne_nil _ (by simp)] at hc

theorem solid_field_text (h : IsKey key) (htext : Solid text) :
    Solid (key.toList ++ ':' :: ' ' :: text) := by
  refine solid_field h fun c hc => htext.last c ?_
  obtain ⟨d, ds, rfl⟩ := List.exists_cons_of_ne_nil htext.ne_nil
  exact hc

theorem solid_open (h : IsKey key) : Solid (key.toList ++ [':']) :=
  solid_field h (by rintro _ ⟨⟩; decide)

theorem solid_item (h : Solid text) : Solid ('-' :: ' ' :: text) := by
  refine ⟨List.cons_ne_nil _ _, by rintro _ ⟨⟩; decide, fun c hc => h.last c ?_⟩
  obtain ⟨d, ds, rfl⟩ := List.exists_cons_of_ne_nil h.ne_nil
  exact hc

end contents

/-! ## The lines of a tree -/

/-- The lines of an array. -/
def itemLines (n : ℕ) (items : List (Scalar ν)) : List Line :=
  items.map fun item => pad (n + 2) ('-' :: ' ' :: (item.render N).toList)

/-- The lines of a tree. -/
def Tree.lines : Tree ν → ℕ → List Line
  | .nil, _ => []
  | .scalar key value rest, n =>
    pad n (key.toList ++ ':' :: ' ' :: (value.render N).toList) :: rest.lines n
  | .array key items rest, n =>
    pad n (key.toList ++ [':']) :: (itemLines N n items ++ rest.lines n)
  | .object key fields rest, n =>
    pad n (key.toList ++ [':']) :: (fields.lines (n + 2) ++ rest.lines n)

section lines

variable {N}

theorem toList_renderItems (n : ℕ) (items : List (Scalar ν)) :
    (renderItems N n items).toList = (itemLines N n items).flatMap (· ++ ['\n']) := by
  induction items with
  | nil => rfl
  | cons item items ih =>
    have hpad : List.replicate (n + 2) ' ' = List.replicate n ' ' ++ [' ', ' '] :=
      List.replicate_add n 2 ' '
    simp [renderItems, itemLines, ih, spaces, pad, hpad]

theorem toList_toSimpleYaml (tree : Tree ν) (n : ℕ) :
    (toSimpleYaml N tree n).toList = (tree.lines N n).flatMap (· ++ ['\n']) := by
  induction tree generalizing n with
  | nil => rfl
  | scalar key value rest ih => simp [toSimpleYaml, Tree.lines, ih, spaces, pad]
  | array key items rest ih =>
    simp [toSimpleYaml, Tree.lines, ih, spaces, pad, toList_renderItems]
  | object key fields rest ihfields ih =>
    simp [toSimpleYaml, Tree.lines, ih, ihfields, spaces, pad]

/-- A line that a line feed ends as it is: it contains none, and no carriage return is before. -/
structure Ended (l : Line) : Prop where
  newline : '\n' ∉ l
  last : ∀ c ∈ l.getLast?, c ≠ '\r'

theorem ended_pad {l : Line} (h : Solid l) (hnewline : '\n' ∉ l) (n : ℕ) : Ended (pad n l) := by
  refine ⟨by simp [pad, hnewline], fun c hc => ?_⟩
  rw [pad, List.getLast?_append_of_ne_nil _ h.ne_nil] at hc
  rintro rfl
  have htrimmed := h.last _ hc
  revert htrimmed
  decide

theorem splitLines_append {l : Line} (h : Ended l) (cs : List Char) :
    splitLines (l ++ '\n' :: cs) = l :: splitLines cs := by
  induction l with
  | nil => exact if_pos rfl
  | cons c l ih =>
    have hnewline : c ≠ '\n' := fun hc => h.newline (hc ▸ List.mem_cons_self)
    have hl : Ended l := by
      refine ⟨fun hmem => h.newline (List.mem_cons_of_mem c hmem), fun d hd => h.last d ?_⟩
      rw [Option.mem_def] at hd ⊢
      rw [List.getLast?_cons, hd]
      rfl
    have hreturn : ¬ (c = '\r' ∧ (l ++ '\n' :: cs).head? = some '\n') := by
      rintro ⟨rfl, hhead⟩
      cases l with
      | nil => exact h.last '\r' rfl rfl
      | cons d l =>
        obtain rfl : d = '\n' := Option.some.inj hhead
        exact h.newline (by simp)
    rw [List.cons_append, splitLines, if_neg hnewline, if_neg hreturn, ih hl]

theorem splitLines_flatMap {ls : List Line} (h : ∀ l ∈ ls, Ended l) :
    splitLines (ls.flatMap (· ++ ['\n'])) = ls ++ [[]] := by
  induction ls with
  | nil => rfl
  | cons l ls ih =>
    rw [List.flatMap_cons, List.append_assoc, List.singleton_append,
      splitLines_append (h l List.mem_cons_self),
      ih fun l' hl' => h l' (List.mem_cons_of_mem l hl'), List.cons_append]

theorem ended_open {key : String} (h : IsKey key) (n : ℕ) :
    Ended (pad n (key.toList ++ [':'])) :=
  ended_pad (solid_open h) (by simp [newline_not_mem_key h]) n

theorem ended_lines {tree : Tree ν} (h : tree.Renderable N) (n : ℕ) :
    ∀ l ∈ tree.lines N n, Ended l := by
  induction tree generalizing n with
  | nil => simp [Tree.lines]
  | scalar key value rest ih =>
    obtain ⟨hkey, -, hvalue, hrest⟩ := h
    refine List.forall_mem_cons.mpr ⟨?_, ih hrest n⟩
    refine ended_pad (solid_field_text hkey (solid_render hvalue)) ?_ n
    simp [newline_not_mem_key hkey, newline_not_mem_render hvalue]
  | array key items rest ih =>
    obtain ⟨hkey, -, -, hitems, hrest⟩ := h
    refine List.forall_mem_cons.mpr
      ⟨ended_open hkey n, List.forall_mem_append.mpr ⟨?_, ih hrest n⟩⟩
    intro l hl
    obtain ⟨item, hitem, rfl⟩ := List.mem_map.mp hl
    refine ended_pad (solid_item (solid_render (hitems item hitem))) ?_ _
    simp [newline_not_mem_render (hitems item hitem)]
  | object key fields rest ihfields ih =>
    obtain ⟨hkey, -, -, hfields, hrest⟩ := h
    exact List.forall_mem_cons.mpr
      ⟨ended_open hkey n, List.forall_mem_append.mpr ⟨ihfields hfields _, ih hrest n⟩⟩

/-- **The lines of a rendered tree.** -/
theorem splitLines_toSimpleYaml {tree : Tree ν} (h : tree.Renderable N) (n : ℕ) :
    splitLines (toSimpleYaml N tree n).toList = tree.lines N n ++ [[]] := by
  rw [toList_toSimpleYaml, splitLines_flatMap (ended_lines h n)]

end lines

/-! ## Reading -/

section reading

variable {N} {tail out : List (Line × ℕ)} {es : Outline}

/-- The lines after a block do not belong to anything nested in it. -/
def Returns (n : ℕ) (tail : List (Line × ℕ)) : Prop :=
  ∀ x ∈ tail.head?, skipped x.1 = false ∧ indent x.1 ≤ n

theorem Returns.leave {n n' : ℕ} (h : Returns n tail) (hn : n < n') :
    Reads n' tail .nil tail := by
  cases tail with
  | nil => exact .done
  | cons x tail =>
    obtain ⟨hskip, hindent⟩ := h x rfl
    exact .leave hskip (hindent.trans_lt hn)

/-- The first line of a tree is a field. -/
theorem exists_first {tree : Tree ν} (h : tree.Renderable N) (hne : tree ≠ .nil) (n : ℕ) :
    ∃ l ls, tree.lines N n = pad n l :: ls ∧ Solid l ∧ isItem l = false := by
  cases tree with
  | nil => exact absurd rfl hne
  | scalar key value rest =>
    exact ⟨_, _, rfl, solid_field_text h.1 (solid_render h.2.2.1), isItem_key h.1 _⟩
  | array key items rest => exact ⟨_, _, rfl, solid_open h.1, isItem_key h.1 _⟩
  | object key fields rest => exact ⟨_, _, rfl, solid_open h.1, isItem_key h.1 _⟩

theorem returns_lines {n : ℕ} {tree : Tree ν} (h : tree.Renderable N) (idx : ℕ)
    (htail : Returns n tail) : Returns n ((tree.lines N n).zipIdx idx ++ tail) := by
  by_cases hne : tree = .nil
  · subst hne
    exact htail
  · obtain ⟨l, ls, hlines, hl, -⟩ := exists_first h hne n
    rw [hlines]
    rintro _ ⟨⟩
    exact ⟨skipped_pad hl, (indent_pad hl).le⟩

/-- The field that opens a block. -/
theorem reads_open {key : String} (hkey : IsKey key) {n n' idx : ℕ} {l : Line} (hl : Solid l)
    (hn : n < n') {idx' : ℕ} {rest mid : List (Line × ℕ)} {body : Outline}
    (hbody : Reads n' ((pad n' l, idx') :: rest) body mid) (hrest : Reads n mid es out) :
    Reads n ((pad n (key.toList ++ [':']), idx) :: (pad n' l, idx') :: rest)
      (.nested idx key (isItem l) body es) out := by
  have hopen := solid_open hkey
  have hcontent : content (trim (pad n (key.toList ++ [':']))) = .field key [] := by
    rw [trim_pad hopen]
    exact content_field hkey []
  have hbody' : Reads (indent (pad n' l)) ((pad n' l, idx') :: rest) body mid := by
    rwa [indent_pad hl]
  have hnested : Reads n ((pad n (key.toList ++ [':']), idx) :: (pad n' l, idx') :: rest)
      (.nested idx key (isItem (trim (pad n' l))) body es) out :=
    .nested (skipped_pad hopen) (indent_pad hopen) hcontent (skipped_pad hl)
      (hn.trans_eq (indent_pad hl).symm) hbody' hrest
  rwa [trim_pad hl] at hnested

/-- **The items of an array are read one after the other.** -/
theorem reads_items {n : ℕ} {items : List (Scalar ν)} (hitems : ∀ item ∈ items, item.Plain N)
    (idx : ℕ) (htail : Returns n tail) :
    ∃ body, Reads (n + 2) ((itemLines N n items).zipIdx idx ++ tail) body tail ∧
      ∀ o : Obj ν, (∀ m, idx ≤ m → Nat.repr m ∉ o.fields.map Prod.fst) →
        body.assign N o =
          ⟨o.proto, o.fields ++ (items.zipIdx idx).map fun p => (Nat.repr p.2, p.1.toValue)⟩ := by
  induction items generalizing idx with
  | nil => exact ⟨.nil, htail.leave (by omega), fun o _ => by simp [Outline.assign]⟩
  | cons item items ih =>
    obtain ⟨hitem, hitems⟩ := List.forall_mem_cons.mp hitems
    obtain ⟨body, hbody, hassign⟩ := ih hitems (idx + 1)
    have hsolid := solid_item (solid_render hitem)
    refine ⟨.item idx (item.render N).toList body, ?_, fun o ho => ?_⟩
    · refine .item (skipped_pad hsolid) (indent_pad hsolid) ?_ hbody
      rw [trim_pad hsolid]
      exact content_item (solid_render hitem)
    · rw [Outline.assign, parseScalar_render hitem,
        set_of_notMem (repr_ne_proto idx) (ho idx le_rfl), hassign]
      · simp
      · intro m hm hmem
        rw [List.map_append, List.mem_append] at hmem
        rcases hmem with hmem | hmem
        · exact ho m (by omega) hmem
        · have heq : m = idx := repr_injective (by simpa using hmem)
          omega

/-- What an array fills is its items. -/
theorem nestedValue_items {items : List (Scalar ν)} (hne : items ≠ []) (idx : ℕ) :
    (⟨none, (items.zipIdx idx).map fun p => (Nat.repr p.2, p.1.toValue)⟩ : Obj ν).nestedValue N
      true = .arr (items.map Scalar.toValue) := by
  have hkeys : ((items.zipIdx idx).map fun p =>
      (Nat.repr p.2, (p.1.toValue : Value ν))).map Prod.fst =
        (List.range' idx items.length).map Nat.repr := by
    rw [List.map_map, ← List.zipIdx_map_snd idx items, List.map_map]
    rfl
  have hvalues : ((items.zipIdx idx).map fun p =>
      (Nat.repr p.2, (p.1.toValue : Value ν))).map Prod.snd = items.map Scalar.toValue := by
    rw [List.map_map]
    conv_rhs => rw [← List.zipIdx_map_fst idx items, List.map_map]
    rfl
  have hrange : List.range' idx items.length ≠ [] := by simpa using hne
  unfold Obj.nestedValue
  rw [if_pos rfl, finish_of_ascending N hrange List.pairwise_lt_range' hkeys, hvalues]
  rfl

/-- What a tree fills is its object. -/
theorem finish_fields {tree : Tree ν} (h : tree.Renderable N) :
    (⟨none, tree.fields⟩ : Obj ν).finish N = tree.toValue := by
  have hnot : ∀ {key : String} {v : Value ν} {fields}, IsKey key →
      ¬ ((key, v) :: fields ≠ [] ∧
        ((key, v) :: fields).all (fun f => allDigits f.1.toList) = true) := by
    rintro key v fields hkey ⟨-, hall⟩
    rw [List.all_cons, not_allDigits_key hkey] at hall
    cases hall
  unfold Obj.finish
  cases tree with
  | nil => rfl
  | scalar key value rest => exact if_neg (hnot h.1)
  | array key items rest => exact if_neg (hnot h.1)
  | object key fields rest => exact if_neg (hnot h.1)

/-- **A tree is read field after field**, and then what follows it. -/
theorem reads_tree {tree : Tree ν} (h : tree.Renderable N) (n idx : ℕ) (htail : Returns n tail)
    (hreads : Reads n tail es out) :
    ∃ es', Reads n ((tree.lines N n).zipIdx idx ++ tail) es' out ∧
      ∀ o : Obj ν, (∀ k ∈ tree.fields.map Prod.fst, k ∉ o.fields.map Prod.fst) →
        es'.assign N o = es.assign N ⟨o.proto, o.fields ++ tree.fields⟩ := by
  induction tree generalizing n idx tail es out with
  | nil => exact ⟨es, hreads, fun o _ => by simp [Tree.fields]⟩
  | scalar key value rest ih =>
    obtain ⟨hkey, hdistinct, hvalue, hrest⟩ := h
    obtain ⟨es', hes', hassign⟩ := ih hrest n (idx + 1) htail hreads
    have hsolid := solid_field_text hkey (solid_render hvalue)
    refine ⟨.pair key (value.render N).toList es', ?_, fun o ho => ?_⟩
    · refine .pair (skipped_pad hsolid) (indent_pad hsolid) ?_ (solid_render hvalue).ne_nil hes'
      rw [trim_pad hsolid, content_field hkey]
      exact congrArg _ (trim_pad (n := 1) (solid_render hvalue))
    · rw [Outline.assign, parseScalar_render hvalue,
        set_of_notMem hkey.not_proto (ho key List.mem_cons_self), hassign _ (new_after hdistinct ho),
        List.append_assoc]
      rfl
  | array key items rest ih =>
    obtain ⟨hkey, hdistinct, hne, hitems, hrest⟩ := h
    obtain ⟨es', hes', hassign⟩ := ih hrest n (idx + 1 + items.length) htail hreads
    obtain ⟨body, hbody, hfill⟩ := reads_items hitems (idx + 1)
      (returns_lines hrest (idx + 1 + items.length) htail)
    refine ⟨.nested idx key true body es', ?_, fun o ho => ?_⟩
    · obtain ⟨item, items, rfl⟩ := List.exists_cons_of_ne_nil hne
      have hsolid := solid_item (solid_render (hitems item List.mem_cons_self))
      have hlength : (itemLines N n (item :: items)).length = (item :: items).length :=
        List.length_map _
      rw [Tree.lines, List.zipIdx_cons, List.zipIdx_append, List.cons_append, List.append_assoc,
        hlength]
      exact reads_open hkey hsolid (by omega) hbody hes'
    · have hvalue : (body.assign N .empty).nestedValue N true =
          .arr (items.map Scalar.toValue) := by
        rw [hfill .empty fun m _ => List.not_mem_nil]
        exact nestedValue_items hne (idx + 1)
      rw [Outline.assign, hvalue, set_of_notMem hkey.not_proto (ho key List.mem_cons_self),
        hassign _ (new_after hdistinct ho), List.append_assoc]
      rfl
  | object key fields rest ihfields ih =>
    obtain ⟨hkey, hdistinct, hne, hfields, hrest⟩ := h
    obtain ⟨l, ls, hlines, hl, hitem⟩ := exists_first hfields hne (n + 2)
    have hlength : (fields.lines N (n + 2)).length = ls.length + 1 := by
      rw [hlines, List.length_cons]
    obtain ⟨es', hes', hassign⟩ := ih hrest n (idx + 1 + (ls.length + 1)) htail hreads
    have hreturns := returns_lines hrest (idx + 1 + (ls.length + 1)) htail
    have hdeeper : Returns (n + 2) ((rest.lines N n).zipIdx (idx + 1 + (ls.length + 1)) ++ tail) :=
      fun x hx => ⟨(hreturns x hx).1, (hreturns x hx).2.trans (by omega)⟩
    obtain ⟨body, hbody, hfill⟩ := ihfields hfields (n + 2) (idx + 1) hdeeper
      (hreturns.leave (by omega))
    refine ⟨.nested idx key false body es', ?_, fun o ho => ?_⟩
    · rw [Tree.lines, List.zipIdx_cons, List.zipIdx_append, List.cons_append, List.append_assoc,
        hlength]
      rw [hlines] at hbody ⊢
      have hopen := @reads_open _ _ _ hkey _ _ idx _ hl (by omega : n < n + 2) _ _ _ _ hbody hes'
      rwa [hitem] at hopen
    · have hvalue : (body.assign N .empty).nestedValue N false = fields.toValue := by
        rw [hfill .empty fun k _ => List.not_mem_nil]
        exact finish_fields hfields
      rw [Outline.assign, hvalue, set_of_notMem hkey.not_proto (ho key List.mem_cons_self),
        hassign _ (new_after hdistinct ho), List.append_assoc]
      rfl

/-- A blank line at the end changes nothing. -/
theorem Reads.append_skipped {base : ℕ} {rest : List (Line × ℕ)} {x : Line × ℕ}
    (h : Reads base rest es out) (hx : skipped x.1 = true) :
    Reads base (rest ++ [x]) es (if out = [] then [] else out ++ [x]) := by
  induction h with
  | done => exact .skip hx .done
  | skip hskip _ ih => exact .skip hskip ih
  | leave hskip hindent => exact .leave hskip hindent
  | deeper hskip hindent _ ih => exact .deeper hskip hindent ih
  | item hskip hindent hcontent _ ih => exact .item hskip hindent hcontent ih
  | other hskip hindent hcontent _ ih => exact .other hskip hindent hcontent ih
  | pair hskip hindent hcontent hraw _ ih => exact .pair hskip hindent hcontent hraw ih
  | @without base _ _ rest _ _ _ hskip hindent hcontent hnext _ ih =>
    refine .without hskip hindent hcontent (fun next hhead => ?_) ih
    have happend : (rest ++ [x]).head? = some next := hhead
    rw [List.head?_append, Option.or_eq_some_iff] at happend
    rcases happend with hhead | ⟨-, hhead⟩
    · exact hnext next hhead
    · obtain rfl : x = next := Option.some.inj hhead
      exact Or.inl hx
  | @nested base _ _ _ _ _ mid out _ _ _ hskip hindent hcontent hnext hdeeper _ hrest ihbody ih =>
    refine .nested hskip hindent hcontent hnext hdeeper ihbody ?_
    split
    next hmid =>
      -- the nested block has taken the line
      subst hmid
      obtain rfl : out = [] := List.suffix_nil.mp hrest.suffix
      exact hrest
    next => exact ih

end reading

/-- **A rendered tree is read back**: its fields in their order, the strings with everything they
contain. -/
theorem parse_toSimpleYaml (tree : Tree ν) (h : tree.Renderable N) :
    parseSimpleYaml N (toSimpleYaml N tree 0) = tree.toValue := by
  have hend : Returns 0 ([] : List (Line × ℕ)) := nofun
  obtain ⟨es, hreads, hassign⟩ := reads_tree h 0 0 hend .done
  have hblank : skipped [] = true := by decide
  have hall := hreads.append_skipped (x := ([], 0 + (tree.lines N 0).length)) hblank
  rw [if_pos rfl, List.append_nil] at hall
  have houtline : outline (splitLines (toSimpleYaml N tree 0).toList) = es := by
    rw [outline_eq_iff, splitLines_toSimpleYaml h, List.zipIdx_append]
    exact hall
  rw [parse_eq, houtline, hassign .empty fun k _ => List.not_mem_nil]
  exact finish_fields h

namespace Sample

/-- Strings with quotes, separators and comment signs, beside numbers and literals. -/
def tree : Tree ℤ :=
  .scalar "title" (.str "say: \"hi\" # - x") (.array "kinds" [.str "- a", .num (-3), .null]
    (.object "limits" (.scalar "timeout_seconds" (.num 60) (.scalar "strict" (.bool true) .nil))
      .nil))

theorem isKey {key : String} (h : (key.toList.head?.any (fun c => c.isAlpha || c == '_') &&
    key.toList.all isKeyChar && key != "__proto__") = true) : IsKey key := by
  rw [Bool.and_eq_true, Bool.and_eq_true, Option.any_eq_true, List.all_eq_true, bne_iff_ne] at h
  obtain ⟨⟨⟨c, hc, hhead⟩, hchars⟩, hproto⟩ := h
  exact ⟨⟨c, hc, by simpa using hhead⟩, hchars, hproto⟩

theorem tree_renderable : tree.Renderable integers := by
  refine ⟨isKey (by decide), by decide, by decide, isKey (by decide), by decide, by decide, ?_,
    isKey (by decide), by decide, nofun, ⟨isKey (by decide), by decide, ?_, isKey (by decide),
      by decide, trivial, trivial⟩, trivial⟩
  · simp only [List.forall_mem_cons]
    exact ⟨by decide, by decide, trivial, nofun⟩
  · decide

end Sample

theorem parse_toSimpleYaml_sample :
    parseSimpleYaml Sample.integers (toSimpleYaml Sample.integers Sample.tree 0) =
      Sample.tree.toValue :=
  parse_toSimpleYaml Sample.integers Sample.tree Sample.tree_renderable

end YamlSimple

end AgentWorkflow
