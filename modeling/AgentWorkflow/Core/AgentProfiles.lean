import AgentWorkflow.Core.Schemas

/-!
# Agent profiles

The profile schemas of both versions, `AgentProfileSchema` of `core/schemas.ts` and
`AgentProfileV1Schema` of `core/schemas-v1.ts`: what an agent's profile says about its process, its
capabilities, its cost and its failures.

* `AgentProfileV0`, `ProfileV1` — the fields, defaults applied; `Valid` — the checks and refinements
  of each schema. A parsed profile carries them.
* `AgentProfileSchema`, `AgentProfileV1Schema` — types, defaults and checks from JSON, with the round
  trip; `parseAgentProfile` — either version.
* **`parse_versions`** — of work orders and of profiles alike: the choice by `schema_version` accepts
  what one of the two schemas accepts, and reads back what it has accepted.
* `ProfileV1.toAgentProfileV1` — the fields the registry, the scheduler and the orchestrator read,
  with the facts they rely on.
-/

namespace AgentWorkflow

/-! ## The fields -/

/-- `command`. -/
structure ProfileCommand where
  executable : String
  args : List String
  cwd : Option String
  deriving DecidableEq, Repr

/-- `environment`. -/
structure ProfileEnvironment where
  set : Option (List (String × String))
  unset : Option (List String)
  deriving DecidableEq, Repr

/-- `limits`. -/
structure ProfileLimits where
  timeoutSeconds : Option ℕ
  maxStdoutBytes : Option ℕ
  maxStderrBytes : Option ℕ
  deriving DecidableEq, Repr

/-- A profile of the first version; its capabilities are two literals.
Source: `schemas.ts` `AgentProfileSchema`. -/
structure AgentProfileV0 where
  agentId : String
  command : ProfileCommand
  environment : Option ProfileEnvironment
  limits : Option ProfileLimits
  deriving DecidableEq, Repr

/-- What an agent's cost is counted in. -/
inductive BillingUnit
  | token
  | call
  | wallTime
  | localCompute
  | unknown
  deriving DecidableEq, Repr

/-- The literal of a billing unit. -/
def BillingUnit.text : BillingUnit → String
  | .token => "token"
  | .call => "call"
  | .wallTime => "wall_time"
  | .localCompute => "local_compute"
  | .unknown => "unknown"

/-- `cost_profile`, before its check. -/
structure ProfileCost where
  billingUnit : BillingUnit
  estimatedCostPerRunUnits : ℚ
  deriving DecidableEq, Repr

/-- `quota`; `resetAt` is absent, `null` or a text. -/
structure ProfileQuota where
  softLimitRatio : ℚ
  hardLimitRatio : ℚ
  resetAt : Option (Option String)
  deriving DecidableEq, Repr

/-- `reliability`. -/
structure ProfileReliability where
  initialSuccessRate : ℚ
  initialAvgLatencyMs : ℚ
  deriving DecidableEq, Repr

/-- A profile of the second version, with the defaults applied.
Source: `schemas-v1.ts` `AgentProfileV1Schema`. -/
structure ProfileV1 where
  agentId : String
  command : ProfileCommand
  environment : Option ProfileEnvironment
  kinds : List String
  roles : List Role
  costProfile : Option ProfileCost
  failureClassification : Option FailureClassification
  quota : ProfileQuota
  reliability : ProfileReliability
  limits : Option ProfileLimits
  deriving DecidableEq, Repr

/-! ## The checks -/

/-- The positive counts of `limits`. -/
def ProfileLimits.Valid (l : ProfileLimits) : Prop :=
  OptionPositive l.timeoutSeconds ∧ OptionPositive l.maxStdoutBytes ∧
    OptionPositive l.maxStderrBytes

instance ProfileLimits.decidableValid (l : ProfileLimits) : Decidable l.Valid :=
  inferInstanceAs (Decidable (_ ∧ _ ∧ _))

/-- The checks of the first version. Source: `schemas.ts` `AgentProfileSchema`. -/
def AgentProfileV0.Valid (p : AgentProfileV0) : Prop :=
  p.agentId ≠ "" ∧ p.command.executable ≠ "" ∧ ∀ l ∈ p.limits, l.Valid

instance AgentProfileV0.decidableValid (p : AgentProfileV0) : Decidable p.Valid :=
  inferInstanceAs (Decidable (_ ∧ _ ∧ _))

/-- Patterns that are regular expressions. Source: `schemas-v1.ts` `ProviderFailurePatternSchema`,
of an optional array. -/
def PatternsValid (isRegExp : String → Bool) (patterns : Option (List String)) : Prop :=
  ∀ l ∈ patterns, ∀ pattern ∈ l, pattern ≠ "" ∧ isRegExp pattern = true

instance decidablePatterns (isRegExp : String → Bool) (patterns : Option (List String)) :
    Decidable (PatternsValid isRegExp patterns) :=
  inferInstanceAs (Decidable (∀ l ∈ patterns, ∀ pattern ∈ l, pattern ≠ "" ∧ isRegExp pattern = true))

/-- All three lists of patterns. -/
def ClassificationValid (isRegExp : String → Bool) (c : FailureClassification) : Prop :=
  PatternsValid isRegExp c.providerRateLimitedStderr ∧
    PatternsValid isRegExp c.providerQuotaExhaustedStderr ∧
    PatternsValid isRegExp c.providerAuthFailedStderr

instance FailureClassification.decidableValid (isRegExp : String → Bool)
    (c : FailureClassification) : Decidable (ClassificationValid isRegExp c) :=
  inferInstanceAs (Decidable (_ ∧ _ ∧ _))

/-- The checks of the second version, its two refinements last. `isRegExp` is whether
`new RegExp(pattern)` returns. -/
structure ProfileV1.Valid (isRegExp : String → Bool) (p : ProfileV1) : Prop where
  agentId : p.agentId ≠ ""
  executable : p.command.executable ≠ ""
  kinds : AllNonempty p.kinds
  kinds_min : p.kinds ≠ []
  roles_min : p.roles ≠ []
  costProfile : ∀ c ∈ p.costProfile, 0 ≤ c.estimatedCostPerRunUnits
  failureClassification : ∀ c ∈ p.failureClassification, ClassificationValid isRegExp c
  successRate_min : 0 ≤ p.reliability.initialSuccessRate
  successRate_max : p.reliability.initialSuccessRate ≤ 1
  latency : 0 < p.reliability.initialAvgLatencyMs
  limits : ∀ l ∈ p.limits, l.Valid
  soft_lt_hard : p.quota.softLimitRatio < p.quota.hardLimitRatio
  hard_le_one : p.quota.hardLimitRatio ≤ 1

theorem ProfileV1.valid_iff (isRegExp : String → Bool) (p : ProfileV1) :
    p.Valid isRegExp ↔ (p.agentId ≠ "" ∧ p.command.executable ≠ "" ∧ AllNonempty p.kinds ∧
      p.kinds ≠ [] ∧ p.roles ≠ [] ∧ (∀ c ∈ p.costProfile, 0 ≤ c.estimatedCostPerRunUnits) ∧
      (∀ c ∈ p.failureClassification, ClassificationValid isRegExp c) ∧
      0 ≤ p.reliability.initialSuccessRate ∧ p.reliability.initialSuccessRate ≤ 1 ∧
      0 < p.reliability.initialAvgLatencyMs ∧ (∀ l ∈ p.limits, l.Valid) ∧
      p.quota.softLimitRatio < p.quota.hardLimitRatio ∧ p.quota.hardLimitRatio ≤ 1) :=
  ⟨fun ⟨h1, h2, h3, h4, h5, h6, h7, h8, h9, h10, h11, h12, h13⟩ =>
    ⟨h1, h2, h3, h4, h5, h6, h7, h8, h9, h10, h11, h12, h13⟩,
  fun ⟨h1, h2, h3, h4, h5, h6, h7, h8, h9, h10, h11, h12, h13⟩ =>
    ⟨h1, h2, h3, h4, h5, h6, h7, h8, h9, h10, h11, h12, h13⟩⟩

instance ProfileV1.decidableValid (isRegExp : String → Bool) :
    DecidablePred (ProfileV1.Valid isRegExp) :=
  fun p => decidable_of_iff' _ (p.valid_iff isRegExp)

/-- A profile that passed the first schema. Source: `schemas.ts` `ParsedAgentProfile`. -/
abbrev ParsedAgentProfile := {p : AgentProfileV0 // p.Valid}

/-- A profile that passed the second schema. Source: `schemas-v1.ts` `ParsedAgentProfileV1`. -/
abbrev ParsedAgentProfileV1 (isRegExp : String → Bool) := {p : ProfileV1 // p.Valid isRegExp}

/-! ## Codecs of the parts -/

/-- `z.enum` of the roles. -/
def Role.codec : Codec Role :=
  Codec.literals Role.text [.implementer, .reviewer] (fun a => by cases a <;> simp)
    (fun a b h => by cases a <;> cases b <;> first | rfl | exact absurd h (by decide))

/-- `z.enum` of the billing units. -/
def BillingUnit.codec : Codec BillingUnit :=
  Codec.literals BillingUnit.text [.token, .call, .wallTime, .localCompute, .unknown]
    (fun a => by cases a <;> simp)
    (fun a b h => by cases a <;> cases b <;> first | rfl | exact absurd h (by decide))

/-- `command`. -/
def ProfileCommand.codec : Codec ProfileCommand :=
  Codec.object
    (fun c => ("executable", Codec.string.encode c.executable) ::
      ("args", (Codec.array Codec.string).encode c.args) ::
      writeOptional Codec.string "cwd" c.cwd)
    (fun fields => do
      let executable ← requiredField Codec.string "executable" fields
      let args ← requiredField (Codec.array Codec.string) "args" fields
      let cwd ← optionalField Codec.string "cwd" fields
      pure { executable, args, cwd })
    (fun c => by
      simp [requiredField, optionalField, lookup_cons_eq, lookup_writeOptional])

/-- `environment`. -/
def ProfileEnvironment.codec : Codec ProfileEnvironment :=
  Codec.object
    (fun e => writeOptional (Codec.record Codec.string) "set" e.set ++
      writeOptional (Codec.array Codec.string) "unset" e.unset)
    (fun fields => do
      let set ← optionalField (Codec.record Codec.string) "set" fields
      let unset ← optionalField (Codec.array Codec.string) "unset" fields
      pure { set, unset })
    (fun e => by
      simp [optionalField, lookup_writeOptional, lookup_writeOptional_append])

/-- `limits`. -/
def ProfileLimits.codec : Codec ProfileLimits :=
  Codec.object
    (fun l => writeOptional Codec.natural "timeout_seconds" l.timeoutSeconds ++
      (writeOptional Codec.natural "max_stdout_bytes" l.maxStdoutBytes ++
      writeOptional Codec.natural "max_stderr_bytes" l.maxStderrBytes))
    (fun fields => do
      let timeoutSeconds ← optionalField Codec.natural "timeout_seconds" fields
      let maxStdoutBytes ← optionalField Codec.natural "max_stdout_bytes" fields
      let maxStderrBytes ← optionalField Codec.natural "max_stderr_bytes" fields
      pure { timeoutSeconds, maxStdoutBytes, maxStderrBytes })
    (fun l => by
      simp [optionalField, lookup_writeOptional, lookup_writeOptional_append])

/-- The two literals of `capabilities`. -/
def readSupervision (fields : List (String × Json)) : Option Unit := do
  literalField Codec.boolean "outer_supervised" true fields
  literalField Codec.boolean "inner_tool_control" false fields

/-- `capabilities` of the first version. -/
def capabilitiesV0 : Codec Unit :=
  Codec.object
    (fun _ => [("outer_supervised", Codec.boolean.encode true),
      ("inner_tool_control", Codec.boolean.encode false)])
    readSupervision
    (fun _ => by
      simp [readSupervision, literalField, requiredField, lookup_cons_eq])

/-- `capabilities` of the second version. -/
def capabilitiesV1 : Codec (List String × List Role) :=
  Codec.object
    (fun c => [("outer_supervised", Codec.boolean.encode true),
      ("inner_tool_control", Codec.boolean.encode false),
      ("kinds", (Codec.array Codec.string).encode c.1),
      ("roles", (Codec.array Role.codec).encode c.2)])
    (fun fields => do
      readSupervision fields
      let kinds ← requiredField (Codec.array Codec.string) "kinds" fields
      let roles ← requiredField (Codec.array Role.codec) "roles" fields
      pure (kinds, roles))
    (fun c => by
      simp [readSupervision, literalField, requiredField, lookup_cons_eq])

/-- `cost_profile`. -/
def ProfileCost.codec : Codec ProfileCost :=
  Codec.object
    (fun c => [("billing_unit", BillingUnit.codec.encode c.billingUnit),
      ("estimated_cost_per_run_units", Codec.number.encode c.estimatedCostPerRunUnits)])
    (fun fields => do
      let billingUnit ← requiredField BillingUnit.codec "billing_unit" fields
      let estimatedCostPerRunUnits ←
        requiredField Codec.number "estimated_cost_per_run_units" fields
      pure { billingUnit, estimatedCostPerRunUnits })
    (fun c => by
      simp [requiredField, lookup_cons_eq])

/-- `failure_classification`. -/
def FailureClassification.codec : Codec FailureClassification :=
  Codec.object
    (fun c =>
      writeOptional (Codec.array Codec.string) "provider_rate_limited_stderr"
        c.providerRateLimitedStderr ++
      (writeOptional (Codec.array Codec.string) "provider_quota_exhausted_stderr"
        c.providerQuotaExhaustedStderr ++
      writeOptional (Codec.array Codec.string) "provider_auth_failed_stderr"
        c.providerAuthFailedStderr))
    (fun fields => do
      let providerRateLimitedStderr ←
        optionalField (Codec.array Codec.string) "provider_rate_limited_stderr" fields
      let providerQuotaExhaustedStderr ←
        optionalField (Codec.array Codec.string) "provider_quota_exhausted_stderr" fields
      let providerAuthFailedStderr ←
        optionalField (Codec.array Codec.string) "provider_auth_failed_stderr" fields
      pure { providerRateLimitedStderr, providerQuotaExhaustedStderr, providerAuthFailedStderr })
    (fun c => by
      simp [optionalField, lookup_writeOptional, lookup_writeOptional_append])

/-- A text or `null`. -/
def nullableString : Codec (Option String) :=
  Codec.nullable Codec.string fun _ h => by cases h

/-- `quota`, with its defaults. -/
def ProfileQuota.codec : Codec ProfileQuota :=
  Codec.object
    (fun q => ("soft_limit_ratio", Codec.number.encode q.softLimitRatio) ::
      ("hard_limit_ratio", Codec.number.encode q.hardLimitRatio) ::
      writeOptional nullableString "reset_at" q.resetAt)
    (fun fields => do
      let softLimitRatio ← defaultField Codec.number "soft_limit_ratio" (85 / 100) fields
      let hardLimitRatio ← defaultField Codec.number "hard_limit_ratio" (98 / 100) fields
      let resetAt ← optionalField nullableString "reset_at" fields
      pure { softLimitRatio, hardLimitRatio, resetAt })
    (fun q => by
      simp [optionalField, defaultField, lookup_cons_eq, lookup_writeOptional])

/-- The default of `quota`. -/
def ProfileQuota.default : ProfileQuota := ⟨85 / 100, 98 / 100, none⟩

/-- `reliability`, with its defaults. -/
def ProfileReliability.codec : Codec ProfileReliability :=
  Codec.object
    (fun r => [("initial_success_rate", Codec.number.encode r.initialSuccessRate),
      ("initial_avg_latency_ms", Codec.number.encode r.initialAvgLatencyMs)])
    (fun fields => do
      let initialSuccessRate ← defaultField Codec.number "initial_success_rate" (8 / 10) fields
      let initialAvgLatencyMs ← defaultField Codec.number "initial_avg_latency_ms" 60000 fields
      pure { initialSuccessRate, initialAvgLatencyMs })
    (fun r => by
      simp [defaultField, lookup_cons_eq])

/-- The default of `reliability`. -/
def ProfileReliability.default : ProfileReliability := ⟨8 / 10, 60000⟩

/-! ## The two schemas -/

/-- `AgentProfileSchema`, before its checks. -/
def AgentProfileV0.codec : Codec AgentProfileV0 :=
  Codec.object
    (fun p => ("schema_version", Codec.string.encode "workflow/v0") ::
      ("agent_id", Codec.string.encode p.agentId) ::
      ("integration_mode", Codec.string.encode "official_cli") ::
      ("command", ProfileCommand.codec.encode p.command) ::
      (writeOptional ProfileEnvironment.codec "environment" p.environment ++
      ("capabilities", capabilitiesV0.encode ()) ::
      writeOptional ProfileLimits.codec "limits" p.limits))
    (fun fields => do
      literalField Codec.string "schema_version" "workflow/v0" fields
      let agentId ← requiredField Codec.string "agent_id" fields
      literalField Codec.string "integration_mode" "official_cli" fields
      let command ← requiredField ProfileCommand.codec "command" fields
      let environment ← optionalField ProfileEnvironment.codec "environment" fields
      requiredField capabilitiesV0 "capabilities" fields
      let limits ← optionalField ProfileLimits.codec "limits" fields
      pure { agentId, command, environment, limits })
    (fun p => by
      simp [literalField, requiredField, optionalField, lookup_cons_eq, lookup_writeOptional,
        lookup_writeOptional_append])

/-- `AgentProfileV1Schema`, before its checks. -/
def ProfileV1.codec : Codec ProfileV1 :=
  Codec.object
    (fun p => ("schema_version", Codec.string.encode "workflow/v1") ::
      ("agent_id", Codec.string.encode p.agentId) ::
      ("integration_mode", Codec.string.encode "official_cli") ::
      ("command", ProfileCommand.codec.encode p.command) ::
      (writeOptional ProfileEnvironment.codec "environment" p.environment ++
      ("capabilities", capabilitiesV1.encode (p.kinds, p.roles)) ::
      (writeOptional ProfileCost.codec "cost_profile" p.costProfile ++
      (writeOptional FailureClassification.codec "failure_classification"
        p.failureClassification ++
      ("quota", ProfileQuota.codec.encode p.quota) ::
      ("reliability", ProfileReliability.codec.encode p.reliability) ::
      writeOptional ProfileLimits.codec "limits" p.limits))))
    (fun fields => do
      literalField Codec.string "schema_version" "workflow/v1" fields
      let agentId ← requiredField Codec.string "agent_id" fields
      literalField Codec.string "integration_mode" "official_cli" fields
      let command ← requiredField ProfileCommand.codec "command" fields
      let environment ← optionalField ProfileEnvironment.codec "environment" fields
      let (kinds, roles) ← requiredField capabilitiesV1 "capabilities" fields
      let costProfile ← optionalField ProfileCost.codec "cost_profile" fields
      let failureClassification ←
        optionalField FailureClassification.codec "failure_classification" fields
      let quota ← defaultField ProfileQuota.codec "quota" ProfileQuota.default fields
      let reliability ←
        defaultField ProfileReliability.codec "reliability" ProfileReliability.default fields
      let limits ← optionalField ProfileLimits.codec "limits" fields
      pure { agentId, command, environment, kinds, roles, costProfile, failureClassification,
             quota, reliability, limits })
    (fun p => by
      simp [literalField, requiredField, optionalField, defaultField, lookup_cons_eq,
        lookup_writeOptional, lookup_writeOptional_append])

/-- Source: `schemas.ts` `AgentProfileSchema`. -/
def AgentProfileSchema : Codec ParsedAgentProfile := AgentProfileV0.codec.checked AgentProfileV0.Valid

/-- Source: `schemas-v1.ts` `AgentProfileV1Schema`. -/
def AgentProfileV1Schema (isRegExp : String → Bool) : Codec (ParsedAgentProfileV1 isRegExp) :=
  ProfileV1.codec.checked (ProfileV1.Valid isRegExp)

theorem AgentProfileSchema.tagged : Tagged AgentProfileSchema "workflow/v0" := by
  refine (tagged_object fun fields p h => ?_).checked _
  obtain ⟨u, hu, -⟩ := Option.bind_eq_some_iff.mp h
  exact hu

theorem AgentProfileV1Schema.tagged (isRegExp : String → Bool) :
    Tagged (AgentProfileV1Schema isRegExp) "workflow/v1" := by
  refine (tagged_object fun fields p h => ?_).checked _
  obtain ⟨u, hu, -⟩ := Option.bind_eq_some_iff.mp h
  exact hu

/-- Source: `schemas-v1.ts` `parseAgentProfileV1`; `none` is a `ZodError`. -/
def parseAgentProfileV1 (isRegExp : String → Bool) (input : Json) :
    Option (ParsedAgentProfileV1 isRegExp) :=
  (AgentProfileV1Schema isRegExp).decode input

/-- Source: `schemas.ts` `AgentProfile`. -/
abbrev AgentProfile (isRegExp : String → Bool) :=
  ParsedAgentProfile ⊕ ParsedAgentProfileV1 isRegExp

/-- Source: `schemas.ts` `parseAgentProfile`. -/
def parseAgentProfile (isRegExp : String → Bool) (input : Json) :
    Except SchemaError (AgentProfile isRegExp) :=
  parseVersioned AgentProfileSchema (AgentProfileV1Schema isRegExp) input

/-- A cost that passed its check. -/
def ProfileCost.toCostProfile (c : ProfileCost) (h : 0 ≤ c.estimatedCostPerRunUnits) :
    CostProfile := ⟨c.estimatedCostPerRunUnits, h⟩

/-- The fields the registry, the scheduler and the orchestrator read. -/
def ProfileV1.toAgentProfileV1 {isRegExp : String → Bool} (p : ProfileV1) (h : p.Valid isRegExp) :
    AgentProfileV1 where
  agentId := p.agentId
  agentId_min := h.agentId
  kinds := p.kinds
  roles := p.roles
  costProfile := p.costProfile.pmap ProfileCost.toCostProfile h.costProfile
  failureClassification := p.failureClassification
  initialSuccessRate := p.reliability.initialSuccessRate
  initialAvgLatencyMs := p.reliability.initialAvgLatencyMs
  timeoutSeconds := p.limits.bind ProfileLimits.timeoutSeconds

end AgentWorkflow
