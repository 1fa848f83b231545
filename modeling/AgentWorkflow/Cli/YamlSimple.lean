import AgentWorkflow.Storage.QueueStore
import Mathlib.Data.List.DropRight

/-!
# The YAML reader

`parseSimpleYaml` of `cli/yaml-simple.ts`: work orders and agent profiles written in a small part of
YAML.

* `splitLines`, `trim`, `indent`, `skipped` — what the reader looks at in a text and in a line.
* `Value` — what it returns; numbers are those of the platform, known by their texts
  (`NumberText`).
* `parseScalar` — a scalar is quoted, a literal, a number, or itself.
* **`loop`** — a block: the lines at its indentation are items or fields, deeper lines are passed
  over, and a field without a value looks at the next line for a nested block.
* `finish_of_ascending` — a block of items is the array of their values.

An item is kept under the number of its line. **A block with nothing but such keys is an array.**
-/

namespace AgentWorkflow

namespace YamlSimple

/-! ## Lines -/

/-- A line, without what ends it. -/
abbrev Line := List Char

/-- `text.split(/\r?\n/)`. -/
def splitLines : List Char → List Line
  | [] => [[]]
  | c :: cs =>
    if c = '\n' then [] :: splitLines cs
    else if c = '\r' ∧ cs.head? = some '\n' then splitLines cs
    else
      match splitLines cs with
      | [] => [[c]]
      | l :: ls => (c :: l) :: ls

/-- `line.trim()`. -/
def trim (l : Line) : Line := (l.dropWhile isTrimmed).rdropWhile isTrimmed

/-- `line.search(/\S/)`, where there is something to find. -/
def indent (l : Line) : ℕ := (l.takeWhile isTrimmed).length

/-- A blank line, or a comment. -/
def skipped (l : Line) : Bool := (trim l).isEmpty || (trim l).head? == some '#'

/-- `trimmed.startsWith("- ")`. -/
def isItem (trimmed : Line) : Bool := ['-', ' '].isPrefixOf trimmed

/-- What a line says. -/
inductive Content
  | item (raw : Line)
  /-- Neither an item nor a field: it is passed over. -/
  | other
  /-- A field; its value may follow in the next lines. -/
  | field (key : String) (raw : Line)
  deriving DecidableEq

/-- The content of a trimmed line. -/
def content (trimmed : Line) : Content :=
  if isItem trimmed = true then .item (trim (trimmed.drop 2))
  else if ':' ∉ trimmed then .other
  else .field (String.ofList (trim (trimmed.takeWhile (· ≠ ':'))))
    (trim ((trimmed.dropWhile (· ≠ ':')).drop 1))

/-! ## Values -/

/-- What the reader returns. An object has its own fields, first assigned first, and a prototype:
`none` is that of every object, `some null` is no prototype. -/
inductive Value (ν : Type)
  | null
  | bool (b : Bool)
  | num (n : ν)
  | str (s : String)
  | arr (items : List (Value ν))
  | obj (proto : Option (Value ν)) (fields : List (String × Value ν))

/-- Some digits and nothing else. -/
def allDigits (l : Line) : Bool := !l.isEmpty && l.all Char.isDigit

/-- `/^-?\d+(\.\d+)?$/`. -/
def isDecimal (l : Line) : Bool :=
  let unsigned := if l.head? = some '-' then l.drop 1 else l
  let fraction := unsigned.dropWhile Char.isDigit
  allDigits (unsigned.takeWhile Char.isDigit) &&
    (fraction.isEmpty || fraction.head? == some '.' && allDigits (fraction.drop 1))

/-- The numbers of the platform, as far as their texts go; `-0` is `0`. -/
structure NumberText (ν : Type) where
  /-- `Number(text)`. -/
  ofText : String → ν
  /-- `String(n)`. -/
  toText : ν → String
  /-- `a - b > 0`. -/
  exceeds : ν → ν → Bool
  /-- A number that is written in decimals is the one its text denotes. -/
  ofText_toText : ∀ n, isDecimal (toText n).toList = true → ofText (toText n) = n
  /-- Rounding keeps the order. -/
  exceeds_repr : ∀ m n : ℕ, m ≤ n → exceeds (ofText (Nat.repr m)) (ofText (Nat.repr n)) = false

variable {ν : Type} (N : NumberText ν)

/-- Whether a line begins and ends with the quote; one character may be both. -/
def quotedBy (q : Char) (l : Line) : Bool := l.head? == some q && l.getLast? == some q

/-- Source: `yaml-simple.ts` `parseScalar`. -/
def parseScalar (raw : Line) : Value ν :=
  let s := trim raw
  if quotedBy '"' s || quotedBy '\'' s then .str (String.ofList (s.drop 1).dropLast)
  else if s = ['t', 'r', 'u', 'e'] then .bool true
  else if s = ['f', 'a', 'l', 's', 'e'] then .bool false
  else if s = ['n', 'u', 'l', 'l'] ∨ s = ['~'] then .null
  else if isDecimal s = true then .num (N.ofText (String.ofList s))
  else .str (String.ofList s)

/-- The object that a block fills. -/
structure Obj (ν : Type) where
  proto : Option (Value ν)
  fields : List (String × Value ν)

namespace Obj

/-- `{}`. -/
def empty : Obj ν := ⟨none, []⟩

/-- Whether a prototype still has the accessor `__proto__`. -/
def hasAccessor : Option (Value ν) → Bool
  | none => true
  | some (.arr _) => true
  | some (.obj proto _) => hasAccessor proto
  | some _ => false

/-- An own field, assigned in place or at the end. -/
def setOwn (k : String) (v : Value ν) : List (String × Value ν) → List (String × Value ν)
  | [] => [(k, v)]
  | (k', v') :: fields => if k' = k then (k, v) :: fields else (k', v') :: setOwn k v fields

/-- `result[key] = value`. The key `__proto__` sets the prototype, to an object or to none. -/
def set (o : Obj ν) (k : String) (v : Value ν) : Obj ν :=
  if k = "__proto__" ∧ hasAccessor o.proto = true then
    match v with
    | .null => { o with proto := some .null }
    | .arr items => { o with proto := some (.arr items) }
    | .obj proto fields => { o with proto := some (.obj proto fields) }
    | _ => o
  else { o with fields := setOwn k v o.fields }

/-- The number a key stands for where an object's own keys are listed by number. -/
def arrayIndex? (k : String) : Option ℕ :=
  let n := Nat.ofDigitChars 10 k.toList 0
  if Nat.repr n = k ∧ n < 2 ^ 32 - 1 then some n else none

/-- `Object.keys(obj)`: the array indices in their order, then the others as they were assigned. -/
def keys (o : Obj ν) : List String :=
  let own := o.fields.map Prod.fst
  (own.filter fun k => (arrayIndex? k).isSome).insertionSort
      (fun k k' => (arrayIndex? k).getD 0 ≤ (arrayIndex? k').getD 0) ++
    own.filter fun k => (arrayIndex? k).isNone

/-- The values by number of their key: `keys.sort((a, b) => Number(a) - Number(b))`. -/
def sortedValues (o : Obj ν) : List (Value ν) :=
  (o.keys.insertionSort fun k k' => N.exceeds (N.ofText k) (N.ofText k') = false).filterMap
    fun k => List.lookup k o.fields

/-- What a block returns: an array when all keys are numeric. -/
def finish (o : Obj ν) : Value ν :=
  if o.fields ≠ [] ∧ o.fields.all (fun f => allDigits f.1.toList) = true then
    .arr (o.sortedValues N)
  else .obj o.proto o.fields

end Obj

/-- The items of a block whose first line is one: those of an array, or the values of an object. -/
def Value.toItems : Value ν → List (Value ν)
  | .arr items => items
  | .obj proto fields => (Obj.mk proto fields).sortedValues N
  | _ => []

/-! ## Blocks -/

/-- The loop of `parseBlock` over the lines that are left, each with its index. Every turn takes a
line, so there are no more turns than lines. Source: `yaml-simple.ts` `parseBlock`. -/
def loop : ℕ → ℕ → Obj ν → List (Line × ℕ) → Obj ν × List (Line × ℕ)
  | 0, _, result, rest => (result, rest)
  | _ + 1, _, result, [] => (result, [])
  | turns + 1, baseIndent, result, (line, idx) :: rest =>
    if skipped line = true then loop turns baseIndent result rest
    else if indent line < baseIndent then (result, (line, idx) :: rest)
    else if baseIndent < indent line then loop turns baseIndent result rest
    else
      match content (trim line) with
      | .item raw => loop turns baseIndent (result.set (Nat.repr idx) (parseScalar N raw)) rest
      | .other => loop turns baseIndent result rest
      | .field key raw =>
        if raw ≠ [] then loop turns baseIndent (result.set key (parseScalar N raw)) rest
        else
          match rest with
          | [] => (result, [])
          | (nextLine, nextIdx) :: rest =>
            -- Only the very next line is looked at.
            if skipped nextLine = true ∨ indent nextLine ≤ indent line then
              loop turns baseIndent result ((nextLine, nextIdx) :: rest)
            else
              let nested := loop turns (indent nextLine) .empty ((nextLine, nextIdx) :: rest)
              let value := nested.1.finish N
              loop turns baseIndent
                (result.set key
                  (if isItem (trim nextLine) = true then .arr (value.toItems N) else value))
                nested.2

/-- Source: `yaml-simple.ts` `parseSimpleYaml`. -/
def parseSimpleYaml (text : String) : Value ν :=
  let lines := splitLines text.toList
  (loop N lines.length 0 .empty lines.zipIdx).1.finish N

/-! ## Blocks of items -/

section arrays
variable {ν : Type} {o : Obj ν} {ns : List ℕ}

theorem ofDigitChars_repr (n : ℕ) : Nat.ofDigitChars 10 (Nat.repr n).toList 0 = n := by
  rw [Nat.toList_repr, Nat.ofDigitChars_ten_toDigits]

theorem repr_injective : Function.Injective Nat.repr := fun m n h => by
  rw [← ofDigitChars_repr m, h, ofDigitChars_repr]

theorem allDigits_repr (n : ℕ) : allDigits (Nat.repr n).toList = true := by
  have hne : Nat.toDigits 10 n ≠ [] := Nat.toDigits_ne_nil
  rw [Nat.toList_repr, allDigits, Bool.and_eq_true, List.all_eq_true]
  refine ⟨by simp [hne], fun c hc => ?_⟩
  exact Nat.isDigit_of_mem_toDigits (by decide) (by decide) hc

theorem arrayIndex?_repr (n : ℕ) :
    Obj.arrayIndex? (Nat.repr n) = if n < 2 ^ 32 - 1 then some n else none := by
  unfold Obj.arrayIndex?
  simp only [ofDigitChars_repr, true_and]

theorem isSome_arrayIndex?_repr (n : ℕ) :
    (Obj.arrayIndex? (Nat.repr n)).isSome = decide (n < 2 ^ 32 - 1) := by
  rw [arrayIndex?_repr]
  by_cases h : n < 2 ^ 32 - 1
  · rw [if_pos h, decide_eq_true h]
    rfl
  · rw [if_neg h, decide_eq_false h]
    rfl

/-- Below a bound first, in an ascending list. -/
theorem filter_append_filter_not {α : Type} {p : α → Bool} {l : List α}
    (h : l.Pairwise fun a b => p b = true → p a = true) :
    l.filter p ++ l.filter (fun a => !p a) = l := by
  induction l with
  | nil => rfl
  | cons a l ih =>
    obtain ⟨ha, hl⟩ := List.pairwise_cons.mp h
    cases hp : p a with
    | true => rw [List.filter_cons_of_pos hp, List.filter_cons_of_neg (by simp [hp]),
        List.cons_append, ih hl]
    | false =>
      have hnone : ∀ b ∈ l, p b = false := fun b hb => by
        by_contra hpb
        rw [ha b hb (by simpa using hpb)] at hp
        cases hp
      rw [List.filter_eq_nil_iff.mpr (by simpa [hp] using hnone), List.nil_append,
        List.filter_eq_self.mpr (by simpa [hp] using hnone)]

/-- **Line numbers are listed in their order.** -/
theorem keys_of_ascending (hns : ns.Pairwise (· < ·))
    (hkeys : o.fields.map Prod.fst = ns.map Nat.repr) : o.keys = ns.map Nat.repr := by
  have hsome : (fun k => (Obj.arrayIndex? k).isSome) ∘ Nat.repr =
      fun n => decide (n < 2 ^ 32 - 1) := funext isSome_arrayIndex?_repr
  have hnone : (fun k => (Obj.arrayIndex? k).isNone) ∘ Nat.repr =
      fun n => !decide (n < 2 ^ 32 - 1) := funext fun n => by
    rw [Function.comp_apply, ← Option.not_isSome, isSome_arrayIndex?_repr]
  have hsorted : ((ns.filter fun n => decide (n < 2 ^ 32 - 1)).map Nat.repr).Pairwise fun k k' =>
      (Obj.arrayIndex? k).getD 0 ≤ (Obj.arrayIndex? k').getD 0 := by
    refine List.pairwise_map.mpr ((List.Pairwise.filter _ hns).imp_of_mem ?_)
    intro m n hm hn hlt
    rw [arrayIndex?_repr, arrayIndex?_repr, if_pos (by simpa using (List.mem_filter.mp hm).2),
      if_pos (by simpa using (List.mem_filter.mp hn).2)]
    exact hlt.le
  unfold Obj.keys
  simp only [hkeys, List.filter_map, hsome, hnone]
  rw [hsorted.insertionSort_eq, ← List.map_append, filter_append_filter_not]
  refine hns.imp fun hlt hn => ?_
  simp only [decide_eq_true_eq] at hn ⊢
  omega

/-- The values of distinct keys. -/
theorem filterMap_lookup {fields : List (String × Value ν)} (h : (fields.map Prod.fst).Nodup) :
    (fields.map Prod.fst).filterMap (fun k => List.lookup k fields) = fields.map Prod.snd := by
  rw [List.filterMap_map]
  have hlookup : ∀ f ∈ fields, List.lookup f.1 fields = some f.2 := by
    induction fields with
    | nil => simp
    | cons f fields ih =>
      obtain ⟨hf, hfields⟩ := List.nodup_cons.mp h
      intro g hg
      rw [List.lookup_cons]
      rcases List.mem_cons.mp hg with rfl | hg
      · simp
      · have hne : (g.1 == f.1) = false := by
          rw [beq_eq_false_iff_ne]
          intro heq
          exact hf (heq ▸ List.mem_map_of_mem hg)
        rw [hne]
        exact ih hfields g hg
  have hsome : ∀ f ∈ fields, ((fun k => List.lookup k fields) ∘ Prod.fst) f =
      (some ∘ Prod.snd) f := hlookup
  rw [List.filterMap_congr hsome, List.filterMap_eq_map]

/-- **A block of items is an array.** -/
theorem sortedValues_of_ascending (N : NumberText ν)
    (hns : ns.Pairwise (· < ·)) (hkeys : o.fields.map Prod.fst = ns.map Nat.repr) :
    o.sortedValues N = o.fields.map Prod.snd := by
  have hsorted : (ns.map Nat.repr).Pairwise fun k k' =>
      N.exceeds (N.ofText k) (N.ofText k') = false :=
    List.pairwise_map.mpr (hns.imp fun hlt => N.exceeds_repr _ _ hlt.le)
  have hnodup : (o.fields.map Prod.fst).Nodup := by
    rw [hkeys]
    exact List.Nodup.map repr_injective (hns.imp Nat.ne_of_lt)
  unfold Obj.sortedValues
  rw [keys_of_ascending hns hkeys, hsorted.insertionSort_eq, ← hkeys, filterMap_lookup hnodup]

theorem finish_of_ascending (N : NumberText ν) (hne : ns ≠ [])
    (hns : ns.Pairwise (· < ·)) (hkeys : o.fields.map Prod.fst = ns.map Nat.repr) :
    o.finish N = .arr (o.fields.map Prod.snd) := by
  have hfields : o.fields ≠ [] := by
    intro hnil
    rw [hnil, List.map_nil, eq_comm, List.map_eq_nil_iff] at hkeys
    exact hne hkeys
  have hdigits : o.fields.all (fun f => allDigits f.1.toList) = true := by
    rw [List.all_eq_true]
    intro f hf
    have hmem : f.1 ∈ ns.map Nat.repr := hkeys ▸ List.mem_map_of_mem hf
    obtain ⟨n, -, hn⟩ := List.mem_map.mp hmem
    rw [← hn]
    exact allDigits_repr n
  rw [Obj.finish, if_pos ⟨hfields, hdigits⟩, sortedValues_of_ascending N hns hkeys]

end arrays
/-! ## New keys -/

section assign

variable {ν : Type} {o : Obj ν} {k : String} {v : Value ν}

theorem setOwn_of_notMem {fields : List (String × Value ν)} (h : k ∉ fields.map Prod.fst) :
    Obj.setOwn k v fields = fields ++ [(k, v)] := by
  induction fields with
  | nil => rfl
  | cons f fields ih =>
    rw [List.map_cons, List.mem_cons, not_or] at h
    rw [Obj.setOwn, if_neg fun heq => h.1 heq.symm, ih h.2, List.cons_append]

/-- A new key comes last. -/
theorem set_of_notMem (hproto : k ≠ "__proto__") (h : k ∉ o.fields.map Prod.fst) :
    o.set k v = ⟨o.proto, o.fields ++ [(k, v)]⟩ := by
  unfold Obj.set
  rw [if_neg fun hk => hproto hk.1, setOwn_of_notMem h]

/-- After a new key, other new keys are still new. -/
theorem new_after {fields : List (String × Value ν)} {keys : List String} (hk : k ∉ keys)
    (hnew : ∀ k' ∈ k :: keys, k' ∉ fields.map Prod.fst) :
    ∀ k' ∈ keys, k' ∉ (fields ++ [(k, v)]).map Prod.fst := by
  intro k' hk' hmem
  rw [List.map_append, List.mem_append] at hmem
  rcases hmem with hmem | hmem
  · exact hnew k' (List.mem_cons_of_mem _ hk') hmem
  · obtain rfl : k' = k := by simpa using hmem
    exact hk hk'

theorem repr_ne_proto (n : ℕ) : Nat.repr n ≠ "__proto__" := by
  intro h
  have hdigits := allDigits_repr n
  rw [h] at hdigits
  revert hdigits
  decide

end assign

namespace Sample

/-- Integers as decimals. -/
def integerText (n : ℤ) : String :=
  if n < 0 then "-" ++ Nat.repr n.natAbs else Nat.repr n.natAbs

def integerOf (text : String) : ℤ :=
  if text.toList.head? = some '-' then -(Nat.ofDigitChars 10 (text.toList.drop 1) 0 : ℤ)
  else Nat.ofDigitChars 10 text.toList 0

theorem integerOf_repr (n : ℕ) : integerOf (Nat.repr n) = n := by
  have hhead : (Nat.repr n).toList.head? ≠ some '-' := fun h => by
    have hdigits := allDigits_repr n
    obtain ⟨cs, hcs⟩ := List.head?_eq_some_iff.mp h
    rw [hcs] at hdigits
    simp [allDigits] at hdigits
  rw [integerOf, if_neg hhead, ofDigitChars_repr]

theorem integerOf_integerText (n : ℤ) (_ : isDecimal (integerText n).toList = true) :
    integerOf (integerText n) = n := by
  unfold integerText
  split
  next hneg =>
    have htext : ("-" ++ Nat.repr n.natAbs).toList = '-' :: (Nat.repr n.natAbs).toList := by simp
    rw [integerOf, htext, List.head?_cons, if_pos rfl, List.drop_succ_cons, List.drop_zero,
      ofDigitChars_repr]
    omega
  next hpos =>
    rw [integerOf_repr]
    omega

theorem integers_ordered (m n : ℕ) (h : m ≤ n) :
    decide (integerOf (Nat.repr n) < integerOf (Nat.repr m)) = false := by
  rw [integerOf_repr, integerOf_repr, decide_eq_false_iff_not]
  omega

/-- A platform with no numbers but integers. -/
def integers : NumberText ℤ where
  ofText := integerOf
  toText := integerText
  exceeds a b := decide (b < a)
  ofText_toText := integerOf_integerText
  exceeds_repr := integers_ordered

end Sample

end YamlSimple

end AgentWorkflow
