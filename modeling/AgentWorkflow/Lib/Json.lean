import Mathlib.Algebra.Order.Field.Rat
import Mathlib.Tactic.Common

/-!
# JSON values and codecs with a proved round trip

* `Json` — a JSON value; an object is its list of fields, a field is read by its first occurrence.
* `Json.setField` — the fields of `{ ...fields, key: value }`: the value of a present key is
  replaced where it stands, a new key comes last. **`lookup_setField`**: no other key is touched.
* `Codec α` — a way to write an `α` as JSON and to check and read it back. The round trip is a
  field, so a codec without it cannot be built.
* `requiredField`, `optionalField`, `defaultField` — the three ways a schema reads a field, and
  `writeOptional` for a field that is left out when its value is undefined.
-/

/-- A JSON value. Numbers are exact. -/
inductive Json where
  | null
  | bool (b : Bool)
  | num (q : ℚ)
  | str (s : String)
  | arr (items : List Json)
  | obj (fields : List (String × Json))

namespace Json

/-- The fields of an object; no other value has fields. -/
def fields? : Json → Option (List (String × Json))
  | obj fields => some fields
  | _ => none

/-- The fields of `{ ...fields, key: value }`. -/
def setField : List (String × Json) → String → Json → List (String × Json)
  | [], k, v => [(k, v)]
  | (j, w) :: fields, k, v => if j = k then (k, v) :: fields else (j, w) :: setField fields k v

/-- A field update is seen under its own key only. -/
theorem lookup_setField (fields : List (String × Json)) (k j : String) (v : Json) :
    (setField fields k v).lookup j = if j = k then some v else fields.lookup j := by
  induction fields with
  | nil =>
    by_cases h : j = k
    · simp [setField, h]
    · simp [setField, h, List.lookup_cons, beq_false_of_ne h]
  | cons p fields ih =>
    obtain ⟨i, w⟩ := p
    by_cases hi : i = k
    · subst hi
      by_cases h : j = i
      · simp [setField, h]
      · simp [setField, h, List.lookup_cons, beq_false_of_ne h]
    · by_cases h : j = i
      · subst h
        simp [setField, hi]
      · simpa [setField, hi, List.lookup_cons, beq_false_of_ne h] using ih

@[simp] theorem lookup_setField_self (fields : List (String × Json)) (k : String) (v : Json) :
    (setField fields k v).lookup k = some v := by
  rw [lookup_setField, if_pos rfl]

theorem lookup_setField_of_ne (fields : List (String × Json)) {k j : String} (v : Json)
    (h : j ≠ k) : (setField fields k v).lookup j = fields.lookup j := by
  rw [lookup_setField, if_neg h]

end Json

/-! ## Codecs -/

/-- A reader and a writer of JSON that agree. -/
structure Codec (α : Type) where
  /-- The JSON written for a value. -/
  encode : α → Json
  /-- Check and read a JSON value. -/
  decode : Json → Option α
  /-- What was written is read back. -/
  decode_encode : ∀ a, decode (encode a) = some a

namespace Codec

attribute [simp] decode_encode

variable {α : Type}

/-- Any string. -/
def string : Codec String where
  encode := Json.str
  decode
    | .str s => some s
    | _ => none
  decode_encode _ := rfl

/-- Any boolean. -/
def boolean : Codec Bool where
  encode := Json.bool
  decode
    | .bool b => some b
    | _ => none
  decode_encode _ := rfl

/-- Any number. -/
def number : Codec ℚ where
  encode := Json.num
  decode
    | .num q => some q
    | _ => none
  decode_encode _ := rfl

/-- An integer that is not negative. -/
def natural : Codec ℕ where
  encode n := Json.num n
  decode
    | .num q => if q.den = 1 ∧ 0 ≤ q then some q.num.toNat else none
    | _ => none
  decode_encode n := by simp

/-- An array, item by item. -/
def array (c : Codec α) : Codec (List α) where
  encode as := Json.arr (as.map c.encode)
  decode
    | .arr items => items.mapM c.decode
    | _ => none
  decode_encode as := by
    show (as.map c.encode).mapM c.decode = some as
    induction as with
    | nil => rfl
    | cons a as ih => simp [ih]

/-- A string out of a list of literals, each with the value it stands for. -/
def literals [DecidableEq α] (text : α → String) (all : List α) (hall : ∀ a, a ∈ all)
    (hinj : Function.Injective text) : Codec α where
  encode a := Json.str (text a)
  decode
    | .str s => all.find? fun a => text a = s
    | _ => none
  decode_encode a := by
    show all.find? (fun b => decide (text b = text a)) = some a
    have hsome : (all.find? fun b => decide (text b = text a)).isSome :=
      List.find?_isSome.mpr ⟨a, hall a, by simp⟩
    obtain ⟨b, hb⟩ := Option.isSome_iff_exists.mp hsome
    have htext := List.find?_some hb
    rw [hb, hinj (of_decide_eq_true htext)]

/-- An object, given how its fields are written and read. -/
def object (write : α → List (String × Json)) (read : List (String × Json) → Option α)
    (h : ∀ a, read (write a) = some a) : Codec α where
  encode a := Json.obj (write a)
  decode j := j.fields?.bind read
  decode_encode a := by simp [Json.fields?, h]

end Codec

/-! ## Fields of an object -/

section fields

variable {α : Type}

/-- A value that may be undefined. -/
def readOptional (c : Codec α) : Option Json → Option (Option α)
  | none => some none
  | some j => (c.decode j).map some

/-- A value with a default. -/
def readDefault (c : Codec α) (d : α) : Option Json → Option α
  | none => some d
  | some j => c.decode j

/-- A field that must be there. -/
def requiredField (c : Codec α) (k : String) (fields : List (String × Json)) : Option α :=
  (fields.lookup k).bind c.decode

/-- A field that may be absent. -/
def optionalField (c : Codec α) (k : String) (fields : List (String × Json)) :
    Option (Option α) :=
  readOptional c (fields.lookup k)

/-- A field with a default. -/
def defaultField (c : Codec α) (k : String) (d : α) (fields : List (String × Json)) : Option α :=
  readDefault c d (fields.lookup k)

/-- A field left out when its value is undefined. -/
def writeOptional (c : Codec α) (k : String) : Option α → List (String × Json)
  | none => []
  | some a => [(k, c.encode a)]

@[simp] theorem readOptional_map_encode (c : Codec α) (a : Option α) :
    readOptional c (a.map c.encode) = some a := by
  cases a <;> simp [readOptional]

@[simp] theorem readDefault_encode (c : Codec α) (d a : α) :
    readDefault c d (some (c.encode a)) = some a := by
  simp [readDefault]

/-- An optional field is seen under its own key, when it is defined. -/
theorem lookup_writeOptional_append (c : Codec α) (k j : String) (a : Option α)
    (rest : List (String × Json)) :
    (writeOptional c k a ++ rest).lookup j =
      if j = k then (a.map c.encode).or (rest.lookup j) else rest.lookup j := by
  cases a with
  | none => simp [writeOptional]
  | some a =>
    by_cases h : j = k
    · simp [writeOptional, h]
    · simp [writeOptional, List.lookup_cons, h, beq_false_of_ne h]

theorem lookup_writeOptional (c : Codec α) (k j : String) (a : Option α) :
    (writeOptional c k a).lookup j = if j = k then a.map c.encode else none := by
  simpa using lookup_writeOptional_append c k j a []

/-- A field is seen under its own key. -/
theorem lookup_cons_eq (k j : String) (v : Json) (rest : List (String × Json)) :
    ((k, v) :: rest).lookup j = if j = k then some v else rest.lookup j := by
  by_cases h : j = k
  · simp [h]
  · simp [List.lookup_cons, h, beq_false_of_ne h]

end fields
