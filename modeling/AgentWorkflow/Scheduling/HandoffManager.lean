import AgentWorkflow.Storage.BackendStores
import AgentWorkflow.Storage.QueueStore

/-!
# The handoff manager

`DefaultHandoffManager` of `scheduling/handoff-manager.ts`, as far as the queue uses it: building a
handoff packet, storing it, and reading a stored one.

* `build` — the exclude list is the work order's, deduplicated, and the failed attempt's agent
  (`mem_excludes_build`); the texts are those of the templates.
* `persist`, `HandoffPacket.codec` — the packet as JSON and back. `JSON.stringify` and `JSON.parse`
  are the parameter `JsonText`.
-/

namespace AgentWorkflow

open Fallible

/-- The text of a JSON value and back. -/
structure JsonText where
  /-- `JSON.stringify(value, null, 2)`. -/
  stringify : Json → String
  /-- `JSON.parse`; `none` is a `SyntaxError`. -/
  parse : String → Option Json

/-! ## The packet as JSON -/

/-- `z.enum` of the handoff reasons. -/
def HandoffReason.codec : Codec HandoffReason :=
  Codec.literals HandoffReason.text
    [.verificationFailed, .reviewChangesRequested, .diffApplyFailed, .reviewRejected,
      .agentTimedOut, .agentNonzeroExit, .quotaExhausted, .schedulerRefusal]
    (fun a => by cases a <;> simp)
    (fun a b h => by cases a <;> cases b <;> first | rfl | exact absurd h (by decide))

/-- The fields of `HandoffPacketSchema`, with their types; the `min(1)` checks are
`HandoffPacket.check`. Instants are written as numbers. -/
def HandoffPacket.codec : Codec HandoffPacket :=
  Codec.object
    (fun p => ("schema_version", Codec.string.encode "agent-workflow/1") ::
      ("task_id", Codec.string.encode p.taskId) ::
      ("from_run_id", Codec.string.encode p.fromRunId) ::
      ("from_agent_id", Codec.string.encode p.fromAgentId) ::
      ("reason", HandoffReason.codec.encode p.reason) ::
      ("summary", Codec.string.encode p.summary) ::
      ("remaining_work", Codec.string.encode p.remainingWork) ::
      ("exclude_agent_ids", (Codec.array Codec.string).encode p.excludeAgentIds) ::
      ("created_at", Codec.natural.encode p.createdAt) ::
      (writeOptional Codec.string "diff_artifact_uri" p.diffArtifactUri ++
      (writeOptional Codec.string "verification_output_uri" p.verificationOutputUri ++
      writeOptional Codec.string "review_verdict_uri" p.reviewVerdictUri)))
    (fun fields => do
      let schemaVersion ← requiredField Codec.string "schema_version" fields
      guard (schemaVersion = "agent-workflow/1")
      let taskId ← requiredField Codec.string "task_id" fields
      let fromRunId ← requiredField Codec.string "from_run_id" fields
      let fromAgentId ← requiredField Codec.string "from_agent_id" fields
      let reason ← requiredField HandoffReason.codec "reason" fields
      let summary ← requiredField Codec.string "summary" fields
      let diffArtifactUri ← optionalField Codec.string "diff_artifact_uri" fields
      let verificationOutputUri ← optionalField Codec.string "verification_output_uri" fields
      let reviewVerdictUri ← optionalField Codec.string "review_verdict_uri" fields
      let remainingWork ← requiredField Codec.string "remaining_work" fields
      let excludeAgentIds ← requiredField (Codec.array Codec.string) "exclude_agent_ids" fields
      let createdAt ← requiredField Codec.natural "created_at" fields
      pure { taskId, fromRunId, fromAgentId, reason, summary, diffArtifactUri,
             verificationOutputUri, reviewVerdictUri, remainingWork, excludeAgentIds, createdAt })
    (fun p => by
      simp [requiredField, optionalField, lookup_cons_eq, lookup_writeOptional,
        lookup_writeOptional_append])

/-- The `min(1)` checks of `HandoffPacketSchema`. -/
def HandoffPacket.check (p : HandoffPacket) : Bool :=
  p.taskId ≠ "" ∧ p.fromRunId ≠ "" ∧ p.fromAgentId ≠ "" ∧ p.summary ≠ "" ∧ p.remainingWork ≠ ""

/-- Source: `schemas-v1.ts` `HandoffPacketSchema.parse`, of a packet. -/
def parseHandoffPacket (p : HandoffPacket) : Except Err HandoffPacket :=
  if p.check = true then pure p else throw (.error "ZodError")

/-- `HandoffPacketSchema.parse(JSON.parse(raw))`. -/
def parseHandoffPacketText (json : JsonText) (raw : String) : Except Err HandoffPacket :=
  match json.parse raw with
  | none => throw (.error "SyntaxError")
  | some value =>
    match HandoffPacket.codec.decode value with
    | none => throw (.error "ZodError")
    | some p => parseHandoffPacket p

namespace HandoffManager

/-! ## Building a packet -/

/-- The line of an optional URI: only when it is given and not empty. -/
def uriLine (label : String) : Option String → List String
  | some uri => if uri = "" then [] else [label ++ uri]
  | none => []

/-- Source: `handoff-manager.ts` `buildSummary`. -/
def buildSummary (packet : HandoffPacket) : String :=
  String.intercalate "\n"
    (["Previous attempt by agent \"" ++ packet.fromAgentId ++ "\" (run " ++ packet.fromRunId ++
        ") was not successful.",
      "Reason: " ++ packet.reason.text ++ "."] ++
      uriLine "Diff artifact available at: " packet.diffArtifactUri ++
      uriLine "Verification output available at: " packet.verificationOutputUri ++
      uriLine "Review verdict available at: " packet.reviewVerdictUri ++
      [if packet.excludeAgentIds = [] then "No agents excluded for next attempt."
       else "Excluded agents for next attempt: " ++
        String.intercalate ", " packet.excludeAgentIds])

/-- Source: `handoff-manager.ts` `buildRemainingWork`. -/
def buildRemainingWork (workOrderGoal : String) (reason : HandoffReason) (fromRunId : String) :
    String :=
  String.intercalate "\n" [workOrderGoal, "",
    "[Previous attempt (run " ++ fromRunId ++ ") ended with: " ++ reason.text ++ "]"]

/-- The arguments of `build`. -/
structure BuildArgs where
  taskId : String
  fromRunId : String
  fromAgentId : String
  workOrderGoal : String
  reason : HandoffReason
  diffArtifactUri : Option String
  verificationOutputUri : Option String
  reviewVerdictUri : Option String
  priorExcludes : List String

/-- The prior excludes, each once, and the agent the task comes from. -/
def excludes (priorExcludes : List String) (fromAgentId : String) : List String :=
  let prior := dedupeFirstSeen priorExcludes
  if fromAgentId ∈ prior then prior else prior ++ [fromAgentId]

/-- The packet of given arguments, before validation. -/
def packetOf (args : BuildArgs) (createdAt : ℕ) : HandoffPacket :=
  let raw : HandoffPacket :=
    { taskId := args.taskId
      fromRunId := args.fromRunId
      fromAgentId := args.fromAgentId
      reason := args.reason
      summary := ""
      diffArtifactUri := args.diffArtifactUri
      verificationOutputUri := args.verificationOutputUri
      reviewVerdictUri := args.reviewVerdictUri
      remainingWork := ""
      excludeAgentIds := excludes args.priorExcludes args.fromAgentId
      createdAt }
  { raw with
    summary := buildSummary raw
    remainingWork := buildRemainingWork args.workOrderGoal args.reason args.fromRunId }

/-- Source: `handoff-manager.ts` `build`. -/
def build (args : BuildArgs) : BackendM HandoffPacket := do
  let createdAt ← dateNow
  ofExcept (parseHandoffPacket (packetOf args createdAt))

/-- Source: `handoff-manager.ts` `persist`. -/
def persist (store : ArtifactStore) (json : JsonText) (projectId : String)
    (packet : HandoffPacket) : BackendM ArtifactRef :=
  onFiles (store.saveText
    { projectId
      taskId := packet.taskId
      runId := packet.fromRunId
      kind := .handoffPacket
      filename := "handoff_packet.json"
      content := json.stringify (HandoffPacket.codec.encode packet) ++ "\n"
      summary := some ("Handoff packet for " ++ packet.fromRunId) })

/-- The exclude list of a packet: what was excluded before, and the agent it comes from. -/
@[simp] theorem mem_excludes {priorExcludes : List String} {fromAgentId x : String} :
    x ∈ excludes priorExcludes fromAgentId ↔ x ∈ priorExcludes ∨ x = fromAgentId := by
  unfold excludes
  by_cases h : fromAgentId ∈ dedupeFirstSeen priorExcludes
  · simp only [h, if_true]
    constructor
    · intro hx
      exact Or.inl (mem_dedupeFirstSeen.mp hx)
    · rintro (hx | rfl)
      · exact mem_dedupeFirstSeen.mpr hx
      · exact h
  · simp only [h, if_false, List.mem_append, mem_dedupeFirstSeen, List.mem_singleton]

/-- A built packet is the one of its arguments. -/
theorem build_spec (args : BuildArgs) (env : Env) (b : Backend) :
    Ensures (build args) env b (fun p _ => ∃ createdAt, p = packetOf args createdAt)
      (fun _ _ => True) := by
  simp only [build, parseHandoffPacket, ensures_bind, ensures_dateNow]
  split
  · exact ⟨_, rfl⟩
  · exact trivial

end HandoffManager

end AgentWorkflow
