import AgentWorkflow.Core.Types

/-!
# Work orders

`WorkOrderV1Schema` of `core/schemas-v1.ts`: what a work order holds, what makes one valid, and how
it is written to and read from the `workorder_json` column.

* `WorkOrderV1` — the fields, with the schema's defaults already applied.
* `ParsedWorkOrderV1` — a work order with the schema's checks as a field, so that an invalid one
  cannot be built. The positive caps the budget relies on come from here.
* `parseWorkOrderV1` — types, defaults and checks, from JSON. An unknown key is ignored, as a Zod
  object strips it.
* **`parse_toJson`** — what `JSON.stringify` writes for a parsed work order parses back to it.
* **`parse_withExcludeAgentIds`** — replacing `agent.exclude_agent_ids` in the raw JSON, unknown
  fields included, changes nothing else of the parsed work order.
-/

namespace AgentWorkflow

/-! ## The fields -/

/-- The kind of work a task asks for. -/
inductive WorkOrderType
  | codeChange
  | docsUpdate
  | researchReport
  | uiReview
  | dataAnalysis
  deriving DecidableEq, Repr

/-- The literal of a work order type. -/
def WorkOrderType.text : WorkOrderType → String
  | .codeChange => "code_change"
  | .docsUpdate => "docs_update"
  | .researchReport => "research_report"
  | .uiReview => "ui_review"
  | .dataAnalysis => "data_analysis"

/-- The repository a task works on. -/
structure Repo where
  path : String
  baseRef : Option String
  deriving DecidableEq, Repr

/-- What an agent may touch. -/
structure Constraints where
  allowedPaths : Option (List String)
  forbiddenPaths : Option (List String)
  maxFilesToTouch : Option ℕ
  deriving DecidableEq, Repr

/-- The commands that verify an attempt. -/
structure Verification where
  commands : List String
  timeoutSeconds : Option ℕ
  deriving DecidableEq, Repr

/-- Which agents may work on a task. -/
structure AgentSelection where
  requiredCapabilities : List String
  implementerPool : List String
  reviewerPool : List String
  excludeAgentIds : List String
  deriving DecidableEq, Repr

/-- Whether and how often a task is reviewed. -/
structure ReviewSettings where
  enabled : Bool
  maxReviewRuns : ℕ
  deriving DecidableEq, Repr

/-- What a task may use. -/
structure BudgetSettings where
  maxWallTimeMinutes : ℚ
  maxTotalCostUnits : ℚ
  maxRuns : ℕ
  maxOutputBytes : Option ℕ
  deriving DecidableEq, Repr

/-- A work order with the defaults applied. Source: `schemas-v1.ts` `WorkOrderV1Schema`. -/
structure WorkOrderV1 where
  taskId : String
  projectId : String
  title : String
  type : WorkOrderType
  goal : String
  acceptanceCriteria : List String
  repo : Repo
  constraints : Option Constraints
  verification : Option Verification
  agent : AgentSelection
  review : ReviewSettings
  budget : BudgetSettings
  deriving DecidableEq, Repr

/-- Every string of a list has `min(1)`. -/
def AllNonempty (l : List String) : Prop := ∀ s ∈ l, s ≠ ""

instance (l : List String) : Decidable (AllNonempty l) :=
  inferInstanceAs (Decidable (∀ s ∈ l, s ≠ ""))

/-- An optional count has `positive()`. -/
def OptionPositive (n : Option ℕ) : Prop := ∀ k ∈ n, 0 < k

instance (n : Option ℕ) : Decidable (OptionPositive n) :=
  inferInstanceAs (Decidable (∀ k ∈ n, 0 < k))

/-- The checks of the schema, with its refinement `review_runs_fit`. -/
structure WorkOrderV1.Valid (w : WorkOrderV1) : Prop where
  taskId : w.taskId ≠ ""
  projectId : w.projectId ≠ ""
  title : w.title ≠ ""
  goal : w.goal ≠ ""
  acceptanceCriteria : AllNonempty w.acceptanceCriteria
  repoPath : w.repo.path ≠ ""
  maxFilesToTouch : ∀ c ∈ w.constraints, OptionPositive c.maxFilesToTouch
  verification : ∀ v ∈ w.verification, AllNonempty v.commands ∧ OptionPositive v.timeoutSeconds
  requiredCapabilities : AllNonempty w.agent.requiredCapabilities
  requiredCapabilities_min : w.agent.requiredCapabilities ≠ []
  maxWallTimeMinutes : 0 < w.budget.maxWallTimeMinutes
  maxTotalCostUnits : 0 < w.budget.maxTotalCostUnits
  maxRuns : 0 < w.budget.maxRuns
  maxOutputBytes : OptionPositive w.budget.maxOutputBytes
  review_runs_fit : w.review.enabled = true → w.review.maxReviewRuns + 1 ≤ w.budget.maxRuns

theorem WorkOrderV1.valid_iff (w : WorkOrderV1) :
    w.Valid ↔ (w.taskId ≠ "" ∧ w.projectId ≠ "" ∧ w.title ≠ "" ∧ w.goal ≠ "" ∧
      AllNonempty w.acceptanceCriteria ∧ w.repo.path ≠ "" ∧
      (∀ c ∈ w.constraints, OptionPositive c.maxFilesToTouch) ∧
      (∀ v ∈ w.verification, AllNonempty v.commands ∧ OptionPositive v.timeoutSeconds) ∧
      AllNonempty w.agent.requiredCapabilities ∧ w.agent.requiredCapabilities ≠ [] ∧
      0 < w.budget.maxWallTimeMinutes ∧ 0 < w.budget.maxTotalCostUnits ∧ 0 < w.budget.maxRuns ∧
      OptionPositive w.budget.maxOutputBytes ∧
      (w.review.enabled = true → w.review.maxReviewRuns + 1 ≤ w.budget.maxRuns)) :=
  ⟨fun ⟨h1, h2, h3, h4, h5, h6, h7, h8, h9, h10, h11, h12, h13, h14, h15⟩ =>
    ⟨h1, h2, h3, h4, h5, h6, h7, h8, h9, h10, h11, h12, h13, h14, h15⟩,
  fun ⟨h1, h2, h3, h4, h5, h6, h7, h8, h9, h10, h11, h12, h13, h14, h15⟩ =>
    ⟨h1, h2, h3, h4, h5, h6, h7, h8, h9, h10, h11, h12, h13, h14, h15⟩⟩

instance (w : WorkOrderV1) : Decidable w.Valid := decidable_of_iff' _ w.valid_iff

/-- A work order that passed the schema. Source: `schemas-v1.ts` `ParsedWorkOrderV1`. -/
structure ParsedWorkOrderV1 extends WorkOrderV1 where
  valid : toWorkOrderV1.Valid
  deriving DecidableEq

/-! ## Codecs of the parts -/

/-- `z.enum` of the work order types. -/
def WorkOrderType.codec : Codec WorkOrderType :=
  Codec.literals WorkOrderType.text
    [.codeChange, .docsUpdate, .researchReport, .uiReview, .dataAnalysis]
    (fun a => by cases a <;> simp)
    (fun a b h => by cases a <;> cases b <;> first | rfl | exact absurd h (by decide))

/-- `repo`. -/
def Repo.codec : Codec Repo :=
  Codec.object
    (fun r => ("path", Codec.string.encode r.path) ::
      writeOptional Codec.string "base_ref" r.baseRef)
    (fun fields => do
      let path ← requiredField Codec.string "path" fields
      let baseRef ← optionalField Codec.string "base_ref" fields
      pure { path, baseRef })
    (fun r => by
      simp [requiredField, optionalField, lookup_cons_eq, lookup_writeOptional])

/-- `constraints`. -/
def Constraints.codec : Codec Constraints :=
  Codec.object
    (fun c => writeOptional (Codec.array Codec.string) "allowed_paths" c.allowedPaths ++
      (writeOptional (Codec.array Codec.string) "forbidden_paths" c.forbiddenPaths ++
      writeOptional Codec.natural "max_files_to_touch" c.maxFilesToTouch))
    (fun fields => do
      let allowedPaths ← optionalField (Codec.array Codec.string) "allowed_paths" fields
      let forbiddenPaths ← optionalField (Codec.array Codec.string) "forbidden_paths" fields
      let maxFilesToTouch ← optionalField Codec.natural "max_files_to_touch" fields
      pure { allowedPaths, forbiddenPaths, maxFilesToTouch })
    (fun c => by
      simp [optionalField, lookup_writeOptional, lookup_writeOptional_append])

/-- `verification`. -/
def Verification.codec : Codec Verification :=
  Codec.object
    (fun v => ("commands", (Codec.array Codec.string).encode v.commands) ::
      writeOptional Codec.natural "timeout_seconds" v.timeoutSeconds)
    (fun fields => do
      let commands ← requiredField (Codec.array Codec.string) "commands" fields
      let timeoutSeconds ← optionalField Codec.natural "timeout_seconds" fields
      pure { commands, timeoutSeconds })
    (fun v => by
      simp [requiredField, optionalField, lookup_cons_eq, lookup_writeOptional])

/-- Reading `agent`, with its defaults. -/
def AgentSelection.read (fields : List (String × Json)) : Option AgentSelection := do
  let requiredCapabilities ←
    requiredField (Codec.array Codec.string) "required_capabilities" fields
  let implementerPool ← requiredField (Codec.array Codec.string) "implementer_pool" fields
  let reviewerPool ← defaultField (Codec.array Codec.string) "reviewer_pool" [] fields
  let excludeAgentIds ← defaultField (Codec.array Codec.string) "exclude_agent_ids" [] fields
  pure { requiredCapabilities, implementerPool, reviewerPool, excludeAgentIds }

/-- `agent`. -/
def AgentSelection.codec : Codec AgentSelection :=
  Codec.object
    (fun a => [("required_capabilities", (Codec.array Codec.string).encode a.requiredCapabilities),
      ("implementer_pool", (Codec.array Codec.string).encode a.implementerPool),
      ("reviewer_pool", (Codec.array Codec.string).encode a.reviewerPool),
      ("exclude_agent_ids", (Codec.array Codec.string).encode a.excludeAgentIds)])
    AgentSelection.read
    (fun a => by
      simp [AgentSelection.read, requiredField, defaultField, lookup_cons_eq])

/-- `review`. -/
def ReviewSettings.codec : Codec ReviewSettings :=
  Codec.object
    (fun r => [("enabled", Codec.boolean.encode r.enabled),
      ("max_review_runs", Codec.natural.encode r.maxReviewRuns)])
    (fun fields => do
      let enabled ← defaultField Codec.boolean "enabled" true fields
      let maxReviewRuns ← defaultField Codec.natural "max_review_runs" 1 fields
      pure { enabled, maxReviewRuns })
    (fun r => by
      simp [defaultField, lookup_cons_eq])

/-- `budget`. -/
def BudgetSettings.codec : Codec BudgetSettings :=
  Codec.object
    (fun b => ("max_wall_time_minutes", Codec.number.encode b.maxWallTimeMinutes) ::
      ("max_total_cost_units", Codec.number.encode b.maxTotalCostUnits) ::
      ("max_runs", Codec.natural.encode b.maxRuns) ::
      writeOptional Codec.natural "max_output_bytes" b.maxOutputBytes)
    (fun fields => do
      let maxWallTimeMinutes ← defaultField Codec.number "max_wall_time_minutes" 30 fields
      let maxTotalCostUnits ← defaultField Codec.number "max_total_cost_units" 10 fields
      let maxRuns ← defaultField Codec.natural "max_runs" 4 fields
      let maxOutputBytes ← optionalField Codec.natural "max_output_bytes" fields
      pure { maxWallTimeMinutes, maxTotalCostUnits, maxRuns, maxOutputBytes })
    (fun b => by
      simp [optionalField, defaultField, lookup_cons_eq, lookup_writeOptional])

/-! ## The work order as JSON -/

/-- The default of `review`. -/
def ReviewSettings.default : ReviewSettings := { enabled := true, maxReviewRuns := 1 }

/-- The default of `budget`. -/
def BudgetSettings.default : BudgetSettings where
  maxWallTimeMinutes := 30
  maxTotalCostUnits := 10
  maxRuns := 4
  maxOutputBytes := none

/-- Reading the fields of a work order, with types and defaults; the checks come after. -/
def WorkOrderV1.read (fields : List (String × Json)) : Option WorkOrderV1 := do
  let schemaVersion ← requiredField Codec.string "schema_version" fields
  guard (schemaVersion = "workflow/v1")
  let taskId ← requiredField Codec.string "task_id" fields
  let projectId ← defaultField Codec.string "project_id" "default" fields
  let title ← requiredField Codec.string "title" fields
  let type ← requiredField WorkOrderType.codec "type" fields
  let goal ← requiredField Codec.string "goal" fields
  let acceptanceCriteria ← requiredField (Codec.array Codec.string) "acceptance_criteria" fields
  let repo ← requiredField Repo.codec "repo" fields
  let constraints ← optionalField Constraints.codec "constraints" fields
  let verification ← optionalField Verification.codec "verification" fields
  let agent ← requiredField AgentSelection.codec "agent" fields
  let review ← defaultField ReviewSettings.codec "review" ReviewSettings.default fields
  let budget ← defaultField BudgetSettings.codec "budget" BudgetSettings.default fields
  pure { taskId, projectId, title, type, goal, acceptanceCriteria, repo, constraints,
         verification, agent, review, budget }

/-- The fields `JSON.stringify` writes for a work order. -/
def WorkOrderV1.write (w : WorkOrderV1) : List (String × Json) :=
  ("schema_version", Codec.string.encode "workflow/v1") ::
  ("task_id", Codec.string.encode w.taskId) ::
  ("project_id", Codec.string.encode w.projectId) ::
  ("title", Codec.string.encode w.title) ::
  ("type", WorkOrderType.codec.encode w.type) ::
  ("goal", Codec.string.encode w.goal) ::
  ("acceptance_criteria", (Codec.array Codec.string).encode w.acceptanceCriteria) ::
  ("repo", Repo.codec.encode w.repo) ::
  (writeOptional Constraints.codec "constraints" w.constraints ++
  (writeOptional Verification.codec "verification" w.verification ++
  [("agent", AgentSelection.codec.encode w.agent),
   ("review", ReviewSettings.codec.encode w.review),
   ("budget", BudgetSettings.codec.encode w.budget)]))

/-- Reading a written work order gives it back. -/
theorem WorkOrderV1.read_write (w : WorkOrderV1) : WorkOrderV1.read w.write = some w := by
  simp [WorkOrderV1.read, WorkOrderV1.write, requiredField, optionalField, defaultField,
    lookup_cons_eq, lookup_writeOptional_append]

/-- `JSON.stringify` of a work order, as a JSON value. -/
def WorkOrderV1.toJson (w : WorkOrderV1) : Json := Json.obj w.write

/-- Check a JSON value and read it as a work order; `none` is a `ZodError`.
Source: `schemas-v1.ts` `parseWorkOrderV1`. -/
def parseWorkOrderV1 (input : Json) : Option ParsedWorkOrderV1 := do
  let w ← input.fields?.bind WorkOrderV1.read
  if h : w.Valid then pure ⟨w, h⟩ else none

/-- **The round trip through the `workorder_json` column.** -/
theorem parse_toJson (w : ParsedWorkOrderV1) : parseWorkOrderV1 w.toJson = some w := by
  obtain ⟨w, h⟩ := w
  simp [parseWorkOrderV1, WorkOrderV1.toJson, Json.fields?, WorkOrderV1.read_write, h]

/-! ## Replacing the exclude list in the raw JSON -/

/-- The work order with another exclude list. The schema does not check the list, so the result is
valid with the work order. -/
def ParsedWorkOrderV1.withExcludeAgentIds (w : ParsedWorkOrderV1) (ids : List String) :
    ParsedWorkOrderV1 where
  toWorkOrderV1 := { w.toWorkOrderV1 with agent := { w.agent with excludeAgentIds := ids } }
  valid := by
    obtain ⟨w, h⟩ := w
    exact { h with }

@[simp] theorem withExcludeAgentIds_excludeAgentIds (w : ParsedWorkOrderV1) (ids : List String) :
    (w.withExcludeAgentIds ids).agent.excludeAgentIds = ids := rfl

/-- `{ ...rawRecord, agent: { ...rawAgent, exclude_agent_ids: ids } }`.
Source: `queue-store.ts` `addWorkOrderExcludeAgentIds`. -/
def rawWithExcludeAgentIds (raw : Json) (ids : List String) : Json :=
  let rawRecord := raw.fields?.getD []
  let rawAgent := ((rawRecord.lookup "agent").bind Json.fields?).getD []
  Json.obj (Json.setField rawRecord "agent"
    (Json.obj (Json.setField rawAgent "exclude_agent_ids"
      ((Codec.array Codec.string).encode ids))))

/-- Reading `agent` after its exclude list was replaced. -/
theorem AgentSelection.read_setField {fields : List (String × Json)} {a : AgentSelection}
    (h : AgentSelection.read fields = some a) (ids : List String) :
    AgentSelection.read (Json.setField fields "exclude_agent_ids"
      ((Codec.array Codec.string).encode ids)) = some { a with excludeAgentIds := ids } := by
  simp only [AgentSelection.read, requiredField, defaultField, Option.bind_eq_bind,
    Option.bind_eq_some_iff, Option.pure_def] at h
  obtain ⟨caps, ⟨jc, hjc, hcaps⟩, pool, ⟨jp, hjp, hpool⟩, rpool, hrpool, ex, -, ha⟩ := h
  cases ha
  simp [AgentSelection.read, requiredField, defaultField, Json.lookup_setField, hjc, hcaps, hjp,
    hpool, hrpool]

/-- Reading a work order after its `agent` was replaced. -/
theorem WorkOrderV1.read_setField {fields : List (String × Json)} {w : WorkOrderV1} {v : Json}
    {a : AgentSelection} (h : WorkOrderV1.read fields = some w)
    (hv : AgentSelection.codec.decode v = some a) :
    WorkOrderV1.read (Json.setField fields "agent" v) = some { w with agent := a } := by
  simp only [WorkOrderV1.read, requiredField, optionalField, defaultField, Option.bind_eq_bind,
    Option.bind_eq_some_iff, Option.pure_def] at h
  obtain ⟨sv, ⟨j₁, h₁, h₁'⟩, u, hu, taskId, ⟨j₂, h₂, h₂'⟩, projectId, h₃, title, ⟨j₄, h₄, h₄'⟩,
    type, ⟨j₅, h₅, h₅'⟩, goal, ⟨j₆, h₆, h₆'⟩, criteria, ⟨j₇, h₇, h₇'⟩, repo, ⟨j₈, h₈, h₈'⟩,
    constraints, h₉, verification, h₁₀, agent, -, review, h₁₁, budget, h₁₂, hw⟩ := h
  cases hw
  simp [WorkOrderV1.read, requiredField, optionalField, defaultField, Json.lookup_setField,
    h₁, h₁', hu, h₂, h₂', h₃, h₄, h₄', h₅, h₅', h₆, h₆', h₇, h₇', h₈, h₈', h₉, h₁₀, h₁₁, h₁₂, hv]

/-- The `agent` object of a readable work order is readable. -/
theorem WorkOrderV1.agent_of_read {fields : List (String × Json)} {w : WorkOrderV1}
    (h : WorkOrderV1.read fields = some w) :
    ∃ v agentFields, fields.lookup "agent" = some v ∧ v.fields? = some agentFields ∧
      AgentSelection.read agentFields = some w.agent := by
  simp only [WorkOrderV1.read, requiredField, Option.bind_eq_bind, Option.bind_eq_some_iff,
    Option.pure_def] at h
  obtain ⟨sv, -, u, -, taskId, -, projectId, -, title, -, type, -, goal, -, criteria, -, repo, -,
    constraints, -, verification, -, agent, ⟨v, hv, hagent⟩, review, -, budget, -, hw⟩ := h
  cases hw
  simp only [AgentSelection.codec, Codec.object, Option.bind_eq_some_iff] at hagent
  obtain ⟨agentFields, hfields, hread⟩ := hagent
  exact ⟨v, agentFields, hv, hfields, hread⟩

/-- **Replacing the exclude list in the raw JSON replaces it in the work order, and nothing
else.** -/
theorem parse_withExcludeAgentIds {raw : Json} {w : ParsedWorkOrderV1}
    (h : parseWorkOrderV1 raw = some w) (ids : List String) :
    parseWorkOrderV1 (rawWithExcludeAgentIds raw ids) = some (w.withExcludeAgentIds ids) := by
  simp only [parseWorkOrderV1, Option.bind_eq_bind, Option.bind_eq_some_iff] at h
  obtain ⟨w', ⟨fields, hfields, hread⟩, hvalid⟩ := h
  split at hvalid
  · cases hvalid
    obtain ⟨v, agentFields, hv, hvf, hagent⟩ := WorkOrderV1.agent_of_read hread
    have hagent' := AgentSelection.read_setField hagent ids
    have hread' : WorkOrderV1.read (Json.setField fields "agent"
        (Json.obj (Json.setField agentFields "exclude_agent_ids"
          ((Codec.array Codec.string).encode ids)))) =
        some { w' with agent := { w'.agent with excludeAgentIds := ids } } :=
      WorkOrderV1.read_setField hread hagent'
    have hraw : rawWithExcludeAgentIds raw ids = Json.obj (Json.setField fields "agent"
        (Json.obj (Json.setField agentFields "exclude_agent_ids"
          ((Codec.array Codec.string).encode ids)))) := by
      simp [rawWithExcludeAgentIds, hfields, hv, hvf]
    rw [hraw]
    simp only [parseWorkOrderV1, Json.fields?, Option.bind_some, hread', Option.bind_eq_bind]
    exact dif_pos (ParsedWorkOrderV1.withExcludeAgentIds ⟨w', ‹_›⟩ ids).valid
  · cases hvalid

end AgentWorkflow
