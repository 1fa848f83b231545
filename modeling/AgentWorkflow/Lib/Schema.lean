import AgentWorkflow.Lib.Json

/-!
# More codecs: refinements, records, values that may be null

* `Codec.checked` — a codec followed by a check. What is read carries the check, so an unchecked
  value cannot come out of it.
* `Codec.nullable` — a value or `null`; `Codec.record` — an object whose values have one type.
* `literalField` — a field with one allowed value.
-/

namespace Codec

variable {α : Type}

/-- A value or `null`, for values that are not themselves written as `null`. -/
def nullable (c : Codec α) (h : ∀ a, c.encode a ≠ Json.null) : Codec (Option α) where
  encode
    | none => Json.null
    | some a => c.encode a
  decode
    | .null => some none
    | j => (c.decode j).map some
  decode_encode a := by
    cases a with
    | none => rfl
    | some a =>
      have hread : ∀ j, j ≠ Json.null → c.decode j = some a →
          (match j with
            | .null => some none
            | j => (c.decode j).map some) = some (some a) := by
        intro j hj hdecode
        cases j with
        | null => exact absurd rfl hj
        | _ => simp only [hdecode, Option.map_some]
      exact hread _ (h a) (c.decode_encode a)

/-- An object whose values have one type: its fields, in their order. -/
def record (c : Codec α) : Codec (List (String × α)) where
  encode as := Json.obj (as.map fun p => (p.1, c.encode p.2))
  decode j := j.fields?.bind fun fields => fields.mapM fun p => (c.decode p.2).map (Prod.mk p.1)
  decode_encode as := by
    show (as.map fun p => (p.1, c.encode p.2)).mapM
      (fun p => (c.decode p.2).map (Prod.mk p.1)) = some as
    induction as with
    | nil => rfl
    | cons p as ih => simp [ih]

/-- A codec followed by a check. -/
def checked (c : Codec α) (P : α → Prop) [DecidablePred P] : Codec {a // P a} where
  encode a := c.encode a
  decode j := (c.decode j).bind fun a => if h : P a then some ⟨a, h⟩ else none
  decode_encode a := by simp [a.property]

/-- The check fails what it is meant to fail, and nothing else. -/
theorem checked_eq_some_iff {c : Codec α} {P : α → Prop} [DecidablePred P] {j : Json}
    {a : {a // P a}} : (c.checked P).decode j = some a ↔ c.decode j = some a.1 := by
  simp only [checked, Option.bind_eq_some_iff]
  constructor
  · rintro ⟨b, hb, h⟩
    by_cases hP : P b
    · rw [dif_pos hP, Option.some.injEq] at h
      rw [hb, ← h]
    · rw [dif_neg hP] at h
      cases h
  · intro h
    exact ⟨a.1, h, by rw [dif_pos a.2]⟩

end Codec

section literal

variable {α : Type} [DecidableEq α]

/-- A field with one allowed value. -/
def literalField (c : Codec α) (key : String) (value : α) (fields : List (String × Json)) :
    Option Unit :=
  (requiredField c key fields).bind fun a => guard (a = value)

theorem literalField_eq_some_iff {c : Codec α} {key : String} {value : α}
    {fields : List (String × Json)} :
    literalField c key value fields = some () ↔ requiredField c key fields = some value := by
  rw [literalField, Option.bind_eq_some_iff]
  constructor
  · rintro ⟨a, ha, hguard⟩
    by_cases h : a = value
    · rw [ha, h]
    · rw [guard, if_neg h] at hguard
      cases hguard
  · intro h
    exact ⟨value, h, if_pos rfl⟩

end literal
