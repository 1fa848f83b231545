import AgentWorkflow.Lib.Json

/-!
# JavaScript values and `JSON.stringify`

* `JsValue` — a value as a program may put it into an object, JSON or not.
* `JsValue.serialize` — what `JSON.stringify` writes of it: a field that is `undefined` is left out,
  an item that is `undefined` becomes `null`, and so does a number that is not finite.
* `JsValue.normalize` — `JSON.parse(JSON.stringify(value))`, where that is a value.
-/

/-- A JavaScript value. An object is its own enumerable fields, in their order. -/
inductive JsValue where
  | undefined
  | null
  | bool (b : Bool)
  | num (q : ℚ)
  /-- `NaN` or an infinity. -/
  | nonFinite
  | str (s : String)
  /-- A function or a symbol. -/
  | callable
  /-- A bigint, an object that contains itself, or one whose `toJSON` throws. -/
  | unserializable
  | arr (items : List JsValue)
  | obj (fields : List (String × JsValue))
  /-- An object with a `toJSON` that returns `result`. -/
  | converting (fields : List (String × JsValue)) (result : JsValue)

namespace JsValue

mutual

/-- `SerializeJSONProperty`; `toJSON` is called only on a value that is not the result of one. -/
def serializeFrom (convert : Bool) : JsValue → Except String (Option Json)
  | .undefined | .callable => .ok none
  | .null | .nonFinite => .ok (some .null)
  | .bool b => .ok (some (.bool b))
  | .num q => .ok (some (.num q))
  | .str s => .ok (some (.str s))
  | .unserializable => .error "TypeError"
  | .arr items => do
    let items ← serializeItems items
    .ok (some (.arr items))
  | .obj fields => do
    let fields ← serializeFields fields
    .ok (some (.obj fields))
  | .converting fields result =>
    if convert = true then serializeFrom false result
    else do
      let fields ← serializeFields fields
      .ok (some (.obj fields))

/-- The items of an array. -/
def serializeItems : List JsValue → Except String (List Json)
  | [] => .ok []
  | item :: items => do
    let json ← serializeFrom true item
    let rest ← serializeItems items
    .ok (json.getD .null :: rest)

/-- The fields of an object. -/
def serializeFields : List (String × JsValue) → Except String (List (String × Json))
  | [] => .ok []
  | (key, value) :: fields => do
    let json ← serializeFrom true value
    let rest ← serializeFields fields
    .ok (match json with
      | some json => (key, json) :: rest
      | none => rest)

end

/-- `JSON.stringify(value)`, as the value its text stands for; `none` is `undefined`. -/
def serialize (value : JsValue) : Except String (Option Json) := serializeFrom true value

/-- `JSON.parse(JSON.stringify(value))`. -/
def normalize (value : JsValue) : Option Json :=
  match value.serialize with
  | .ok json => json
  | .error _ => none

/-- The fields of an object. -/
def fields? : JsValue → Option (List (String × JsValue))
  | .obj fields | .converting fields _ => some fields
  | _ => none

theorem serialize_eq_iff {value : JsValue} {json : Json} :
    value.serialize = .ok (some json) ↔ value.normalize = some json := by
  unfold normalize
  cases value.serialize with
  | error e => simp
  | ok j => simp

/-- Fields that are `undefined` are left out. -/
example : (JsValue.obj [("a", .undefined), ("b", .arr [.callable, .nonFinite])]).normalize =
    some (.obj [("b", .arr [.null, .null])]) := rfl

end JsValue
