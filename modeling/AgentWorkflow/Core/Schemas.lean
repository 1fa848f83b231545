import AgentWorkflow.Lib.Schema
import AgentWorkflow.Core.SchemasV1

/-!
# Two versions of one schema

`core/schemas.ts`: work orders of the first version, and the choice between the two versions of a
schema by `schema_version`.

* `parseVersioned` — the choice, for any two codecs; `Tagged` — a codec accepts one version
  only. **`parseVersioned_spec`**: where both are tagged, choosing by the version is as good as trying
  both schemas, at most one of them accepts, and what was accepted is read back unchanged.
* `WorkOrderV0`, `ParsedWorkOrder`, `WorkOrderSchema.codec` — the first version, with its round trip.
* `parseWorkOrder` — either version.
-/

namespace AgentWorkflow

/-! ## Choosing the version -/

/-- Why a value is refused: by a schema, or because no schema has its version. -/
inductive SchemaError
  | zodError
  | unsupported (message : String)
  deriving DecidableEq, Repr

/-- Source: `schemas.ts` `getSchemaVersion`. -/
def getSchemaVersion (input : Json) : String :=
  match input.fields?.bind fun fields => fields.lookup "schema_version" with
  | some (.str v) => v
  | _ => "<missing>"

/-- The message for any other version. -/
def unsupportedVersion (version : String) : String :=
  "Unsupported schema_version: \"" ++ version ++
    "\". Only \"workflow/v0\" and \"workflow/v1\" are accepted in v1."

section versioned

variable {α β : Type}

/-- The body of `parseWorkOrder` and of `parseAgentProfile`, which differ in the schemas. -/
def parseVersioned (v0 : Codec α) (v1 : Codec β) (input : Json) : Except SchemaError (α ⊕ β) :=
  if getSchemaVersion input = "workflow/v0" then
    match v0.decode input with
    | some a => .ok (.inl a)
    | none => .error .zodError
  else if getSchemaVersion input = "workflow/v1" then
    match v1.decode input with
    | some b => .ok (.inr b)
    | none => .error .zodError
  else .error (.unsupported (unsupportedVersion (getSchemaVersion input)))

/-- A schema accepts one version only. -/
def Tagged (c : Codec α) (version : String) : Prop :=
  ∀ input a, c.decode input = some a → getSchemaVersion input = version

/-- The version of a value whose fields have it. -/
theorem getSchemaVersion_of_literalField {input : Json} {fields : List (String × Json)}
    {version : String} (hfields : input.fields? = some fields)
    (h : literalField Codec.string "schema_version" version fields = some ()) :
    getSchemaVersion input = version := by
  obtain ⟨j, hlookup, hj⟩ := Option.bind_eq_some_iff.mp (literalField_eq_some_iff.mp h)
  have hstr : j = .str version := by
    cases j with
    | str s =>
      obtain rfl := Option.some.inj hj
      rfl
    | _ => cases hj
  rw [getSchemaVersion, hfields, Option.bind_some, hlookup, hstr]

/-- An object schema that checks the version first is tagged with it. -/
theorem tagged_object {write : α → List (String × Json)}
    {read : List (String × Json) → Option α} {h : ∀ a, read (write a) = some a} {version : String}
    (hread : ∀ fields a, read fields = some a →
      literalField Codec.string "schema_version" version fields = some ()) :
    Tagged (Codec.object write read h) version := by
  intro input a hdecode
  obtain ⟨fields, hfields, ha⟩ := Option.bind_eq_some_iff.mp hdecode
  exact getSchemaVersion_of_literalField hfields (hread fields a ha)

/-- A check after it changes nothing about that. -/
theorem Tagged.checked {c : Codec α} {version : String} (h : Tagged c version)
    (P : α → Prop) [DecidablePred P] : Tagged (c.checked P) version :=
  fun input a ha => h input a.1 (Codec.checked_eq_some_iff.mp ha)

variable {v0 : Codec α} {v1 : Codec β} {input : Json}

theorem parseVersioned_eq_inl_iff (h0 : Tagged v0 "workflow/v0") {a : α} :
    parseVersioned v0 v1 input = .ok (.inl a) ↔ v0.decode input = some a := by
  unfold parseVersioned
  by_cases hv0 : getSchemaVersion input = "workflow/v0"
  · rw [if_pos hv0]
    cases v0.decode input <;> simp
  · have hnone : v0.decode input ≠ some a := fun ha => hv0 (h0 input a ha)
    rw [if_neg hv0]
    refine iff_of_false (fun h => ?_) hnone
    by_cases hv1 : getSchemaVersion input = "workflow/v1"
    · rw [if_pos hv1] at h
      cases hd : v1.decode input <;> simp [hd] at h
    · rw [if_neg hv1] at h
      cases h

theorem parseVersioned_eq_inr_iff (h1 : Tagged v1 "workflow/v1") {b : β} :
    parseVersioned v0 v1 input = .ok (.inr b) ↔ v1.decode input = some b := by
  unfold parseVersioned
  by_cases hv1 : getSchemaVersion input = "workflow/v1"
  · have hv0 : getSchemaVersion input ≠ "workflow/v0" := by
      rw [hv1]
      decide
    rw [if_neg hv0, if_pos hv1]
    cases v1.decode input <;> simp
  · have hnone : v1.decode input ≠ some b := fun hb => hv1 (h1 input b hb)
    refine iff_of_false (fun h => ?_) hnone
    rw [if_neg hv1] at h
    by_cases hv0 : getSchemaVersion input = "workflow/v0"
    · rw [if_pos hv0] at h
      cases hd : v0.decode input <;> simp [hd] at h
    · rw [if_neg hv0] at h
      cases h

/-- What is written for a value of either version. -/
def encodeVersioned (v0 : Codec α) (v1 : Codec β) : α ⊕ β → Json
  | .inl a => v0.encode a
  | .inr b => v1.encode b

/-- **Choosing by the version is trying both schemas**: each accepts what it accepts alone, never
both, a refusal is a refusal of both, and what was accepted is read back unchanged. -/
theorem parseVersioned_spec (h0 : Tagged v0 "workflow/v0") (h1 : Tagged v1 "workflow/v1") :
    (∀ a, parseVersioned v0 v1 input = .ok (.inl a) ↔ v0.decode input = some a) ∧
    (∀ b, parseVersioned v0 v1 input = .ok (.inr b) ↔ v1.decode input = some b) ∧
    (v0.decode input = none ∨ v1.decode input = none) ∧
    ∀ x, parseVersioned v0 v1 (encodeVersioned v0 v1 x) = .ok x := by
  refine ⟨fun a => parseVersioned_eq_inl_iff h0, fun b => parseVersioned_eq_inr_iff h1, ?_, ?_⟩
  · by_contra hboth
    obtain ⟨ha, hb⟩ := not_or.mp hboth
    obtain ⟨a, ha⟩ := Option.ne_none_iff_exists'.mp ha
    obtain ⟨b, hb⟩ := Option.ne_none_iff_exists'.mp hb
    have hversions : "workflow/v0" = "workflow/v1" := (h0 input a ha).symm.trans (h1 input b hb)
    exact absurd hversions (by decide)
  · rintro (a | b)
    · exact (parseVersioned_eq_inl_iff h0).mpr (v0.decode_encode a)
    · exact (parseVersioned_eq_inr_iff h1).mpr (v1.decode_encode b)

end versioned

/-! ## Work orders of the first version -/

/-- `budget` of the first version. -/
structure BudgetV0 where
  maxWallTimeMinutes : Option ℚ
  maxOutputBytes : Option ℕ
  deriving DecidableEq, Repr

/-- A work order of the first version, with the default applied. `agentId` is `agent.agent_id`.
Source: `schemas.ts` `WorkOrderSchema`. -/
structure WorkOrderV0 where
  taskId : String
  projectId : String
  title : String
  type : WorkOrderType
  goal : String
  acceptanceCriteria : List String
  repo : Repo
  constraints : Option Constraints
  verification : Option Verification
  agentId : String
  budget : Option BudgetV0
  deriving DecidableEq, Repr

/-- The checks of the schema. -/
structure WorkOrderV0.Valid (w : WorkOrderV0) : Prop where
  taskId : w.taskId ≠ ""
  projectId : w.projectId ≠ ""
  title : w.title ≠ ""
  goal : w.goal ≠ ""
  acceptanceCriteria : AllNonempty w.acceptanceCriteria
  repoPath : w.repo.path ≠ ""
  maxFilesToTouch : ∀ c ∈ w.constraints, OptionPositive c.maxFilesToTouch
  verification : ∀ v ∈ w.verification, AllNonempty v.commands ∧ OptionPositive v.timeoutSeconds
  agentId : w.agentId ≠ ""
  maxWallTimeMinutes : ∀ b ∈ w.budget, ∀ m ∈ b.maxWallTimeMinutes, 0 < m
  maxOutputBytes : ∀ b ∈ w.budget, OptionPositive b.maxOutputBytes

theorem WorkOrderV0.valid_iff (w : WorkOrderV0) :
    w.Valid ↔ (w.taskId ≠ "" ∧ w.projectId ≠ "" ∧ w.title ≠ "" ∧ w.goal ≠ "" ∧
      AllNonempty w.acceptanceCriteria ∧ w.repo.path ≠ "" ∧
      (∀ c ∈ w.constraints, OptionPositive c.maxFilesToTouch) ∧
      (∀ v ∈ w.verification, AllNonempty v.commands ∧ OptionPositive v.timeoutSeconds) ∧
      w.agentId ≠ "" ∧ (∀ b ∈ w.budget, ∀ m ∈ b.maxWallTimeMinutes, 0 < m) ∧
      ∀ b ∈ w.budget, OptionPositive b.maxOutputBytes) :=
  ⟨fun ⟨h1, h2, h3, h4, h5, h6, h7, h8, h9, h10, h11⟩ =>
    ⟨h1, h2, h3, h4, h5, h6, h7, h8, h9, h10, h11⟩,
  fun ⟨h1, h2, h3, h4, h5, h6, h7, h8, h9, h10, h11⟩ =>
    ⟨h1, h2, h3, h4, h5, h6, h7, h8, h9, h10, h11⟩⟩

instance WorkOrderV0.decidableValid : DecidablePred WorkOrderV0.Valid := fun w => decidable_of_iff' _ w.valid_iff

/-- A work order that passed the first schema. Source: `schemas.ts` `ParsedWorkOrder`. -/
abbrev ParsedWorkOrder := {w : WorkOrderV0 // w.Valid}

/-- `agent` of the first version. -/
def agentIdCodec : Codec String :=
  Codec.object (fun agentId => [("agent_id", Codec.string.encode agentId)])
    (requiredField Codec.string "agent_id") (fun agentId => by simp [requiredField])

/-- `budget` of the first version. -/
def BudgetV0.codec : Codec BudgetV0 :=
  Codec.object
    (fun b => writeOptional Codec.number "max_wall_time_minutes" b.maxWallTimeMinutes ++
      writeOptional Codec.natural "max_output_bytes" b.maxOutputBytes)
    (fun fields => do
      let maxWallTimeMinutes ← optionalField Codec.number "max_wall_time_minutes" fields
      let maxOutputBytes ← optionalField Codec.natural "max_output_bytes" fields
      pure { maxWallTimeMinutes, maxOutputBytes })
    (fun b => by
      simp [optionalField, lookup_writeOptional, lookup_writeOptional_append])

/-- Reading the fields of a work order; the checks come after. -/
def WorkOrderV0.read (fields : List (String × Json)) : Option WorkOrderV0 := do
  literalField Codec.string "schema_version" "workflow/v0" fields
  let taskId ← requiredField Codec.string "task_id" fields
  let projectId ← defaultField Codec.string "project_id" "default" fields
  let title ← requiredField Codec.string "title" fields
  let type ← requiredField WorkOrderType.codec "type" fields
  let goal ← requiredField Codec.string "goal" fields
  let acceptanceCriteria ← requiredField (Codec.array Codec.string) "acceptance_criteria" fields
  let repo ← requiredField Repo.codec "repo" fields
  let constraints ← optionalField Constraints.codec "constraints" fields
  let verification ← optionalField Verification.codec "verification" fields
  let agentId ← requiredField agentIdCodec "agent" fields
  let budget ← optionalField BudgetV0.codec "budget" fields
  pure { taskId, projectId, title, type, goal, acceptanceCriteria, repo, constraints,
         verification, agentId, budget }

/-- The fields `JSON.stringify` writes for a work order. -/
def WorkOrderV0.write (w : WorkOrderV0) : List (String × Json) :=
  ("schema_version", Codec.string.encode "workflow/v0") ::
  ("task_id", Codec.string.encode w.taskId) ::
  ("project_id", Codec.string.encode w.projectId) ::
  ("title", Codec.string.encode w.title) ::
  ("type", WorkOrderType.codec.encode w.type) ::
  ("goal", Codec.string.encode w.goal) ::
  ("acceptance_criteria", (Codec.array Codec.string).encode w.acceptanceCriteria) ::
  ("repo", Repo.codec.encode w.repo) ::
  (writeOptional Constraints.codec "constraints" w.constraints ++
  (writeOptional Verification.codec "verification" w.verification ++
  ("agent", agentIdCodec.encode w.agentId) :: writeOptional BudgetV0.codec "budget" w.budget))

/-- Reading a written work order gives it back. -/
theorem WorkOrderV0.read_write (w : WorkOrderV0) : WorkOrderV0.read w.write = some w := by
  simp [WorkOrderV0.read, WorkOrderV0.write, literalField, requiredField, optionalField,
    defaultField, lookup_cons_eq, lookup_writeOptional, lookup_writeOptional_append]

/-- Source: `schemas.ts` `WorkOrderSchema`. -/
def WorkOrderSchema : Codec ParsedWorkOrder :=
  (Codec.object WorkOrderV0.write WorkOrderV0.read WorkOrderV0.read_write).checked
    WorkOrderV0.Valid

/-- Source: `schemas-v1.ts` `WorkOrderV1Schema`. -/
def WorkOrderV1Schema : Codec ParsedWorkOrderV1 where
  encode w := w.toJson
  decode := parseWorkOrderV1
  decode_encode := parse_toJson

theorem WorkOrderSchema.tagged : Tagged WorkOrderSchema "workflow/v0" := by
  refine (tagged_object fun fields w h => ?_).checked _
  obtain ⟨u, hu, -⟩ := Option.bind_eq_some_iff.mp h
  exact hu

theorem WorkOrderV1Schema.tagged : Tagged WorkOrderV1Schema "workflow/v1" := by
  intro input w h
  obtain ⟨v, hv, -⟩ := Option.bind_eq_some_iff.mp h
  obtain ⟨fields, hfields, hread⟩ := Option.bind_eq_some_iff.mp hv
  obtain ⟨version, hversion, hrest⟩ := Option.bind_eq_some_iff.mp hread
  obtain ⟨u, hu, -⟩ := Option.bind_eq_some_iff.mp hrest
  refine getSchemaVersion_of_literalField hfields ?_
  rw [literalField, hversion]
  exact hu

/-- Source: `schemas.ts` `WorkOrder`. -/
abbrev WorkOrder := ParsedWorkOrder ⊕ ParsedWorkOrderV1

/-- Source: `schemas.ts` `parseWorkOrder`. -/
def parseWorkOrder (input : Json) : Except SchemaError WorkOrder :=
  parseVersioned WorkOrderSchema WorkOrderV1Schema input

end AgentWorkflow
