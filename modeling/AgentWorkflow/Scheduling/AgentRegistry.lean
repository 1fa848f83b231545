import AgentWorkflow.Storage.BackendStores

/-!
# The agent registry

`SqliteAgentRegistry` of `scheduling/agent-registry.ts`, after it was loaded: a worker's own
entries, and the quota health its reads take from the map the workers share.

* `list`, `get` — the entries as callers see them, after `syncQuotaHealth`.
* `recordOutcome` — a metric row, the agent's rolling metrics, and the quota health a provider
  failure leaves.
-/

namespace AgentWorkflow

open Fallible

namespace AgentRegistry

/-- The constructor's arguments. -/
structure Options where
  rollingWindowSize : ℕ := 50
  /-- Whether an event log was given. -/
  hasEventLog : Bool := true
  projectId : String := "default"

/-- Source: `agent-registry.ts` `syncQuotaHealth`. -/
def syncQuotaHealth (shared : List (String × QuotaHealth)) (entry : InternalEntry) :
    InternalEntry :=
  match shared.lookup entry.agentId with
  | some quotaHealth => { entry with quotaHealth }
  | none => entry

@[simp] theorem agentId_syncQuotaHealth (shared : List (String × QuotaHealth))
    (entry : InternalEntry) : (syncQuotaHealth shared entry).agentId = entry.agentId := by
  unfold syncQuotaHealth
  split <;> rfl

@[simp] theorem profile_syncQuotaHealth (shared : List (String × QuotaHealth))
    (entry : InternalEntry) : (syncQuotaHealth shared entry).profile = entry.profile := by
  unfold syncQuotaHealth
  split <;> rfl

/-- The copy of a synced entry that callers get. Source: `agent-registry.ts` `toExternal`. -/
def toExternal (entry : InternalEntry) : AgentRegistryEntry :=
  { profile := entry.profile, loadedFrom := entry.loadedFrom,
    rollingMetrics := entry.rollingMetrics, quotaHealth := entry.quotaHealth }

/-- Source: `agent-registry.ts` `list`. -/
def list : BackendM (List AgentRegistryEntry) := do
  let b ← MonadState.get
  let registry := b.registry.mapRows (syncQuotaHealth b.sharedQuotaHealth)
    (agentId_syncQuotaHealth b.sharedQuotaHealth)
  set { b with registry }
  pure (registry.rows.map toExternal)

/-- Source: `agent-registry.ts` `get`. -/
def get (agentId : String) : BackendM (Option AgentRegistryEntry) := do
  let b ← MonadState.get
  let registry := b.registry.update agentId (syncQuotaHealth b.sharedQuotaHealth)
    (agentId_syncQuotaHealth b.sharedQuotaHealth)
  set { b with registry }
  pure ((registry.find? agentId).map toExternal)

/-- An agent is found under its own id. -/
theorem get_spec {agentId : String} (env : Env) (b : Backend) :
    Ensures (get agentId) env b
      (fun found _ => ∀ entry, found = some entry → entry.profile.agentId = agentId)
      (fun _ _ => False) := by
  simp only [get, ensures_bind, ensures_get, ensures_set, ensures_pure]
  intro entry h
  obtain ⟨e, he, rfl⟩ := Option.map_eq_some_iff.mp h
  have hkey : e.agentId = agentId := Table.key_of_find? he
  exact hkey

/-- The rolling metrics of an agent without observed runs. -/
def initialMetrics (profile : AgentProfileV1) (lastUpdatedAt : ℕ) : RollingMetrics where
  successRate := profile.initialSuccessRate
  avgLatencyMs := profile.initialAvgLatencyMs
  avgActualCostUnits := 0
  runsObserved := 0
  lastUpdatedAt := lastUpdatedAt

/-- The rolling metrics over what the metrics store shows. -/
def metricsOf (profile : AgentProfileV1) (stored : MetricsStore.Rolling) (lastUpdatedAt : ℕ) :
    RollingMetrics :=
  if 0 < stored.runsObserved then
    { successRate := stored.successRate, avgLatencyMs := stored.avgLatencyMs,
      avgActualCostUnits := stored.avgActualCostUnits, runsObserved := stored.runsObserved,
      lastUpdatedAt }
  else initialMetrics profile lastUpdatedAt

/-- Source: `agent-registry.ts` `refreshEntryMetrics`. -/
def refreshEntryMetrics (options : Options) (agentId : String) : BackendM Unit := do
  let stored ← MetricsStore.rollingFor agentId options.rollingWindowSize
  let lastUpdatedAt ← dateNow
  modify fun b =>
    { b with
      registry := b.registry.update agentId
        (fun e => { e with rollingMetrics := metricsOf e.profile stored lastUpdatedAt })
        fun _ => rfl }

/-- Source: `agent-registry.ts` `setQuotaHealth`. -/
def setQuotaHealth (agentId : String) (quotaHealth : QuotaHealth) : BackendM Unit :=
  modify fun b =>
    { b with
      registry := b.registry.update agentId (fun e => { e with quotaHealth }) fun _ => rfl
      sharedQuotaHealth := (agentId, quotaHealth) :: b.sharedQuotaHealth }

/-- Source: `agent-registry.ts` `emitAgentQuotaEvent`. -/
def emitAgentQuotaEvent (options : Options) (eventType : EventType) (agentId : String)
    (reason : RunFailedReason) (runId : String) : BackendM Unit :=
  if options.hasEventLog = true then do
    let id ← uuid8
    let createdAt ← dateNow
    EventLog.append
      { eventId := "E-" ++ id, eventType, projectId := options.projectId, taskId := none,
        runId := some runId, agentId := some agentId, skipOnReplay := true,
        payload := [("scope", .str "agent"), ("agent_id", .str agentId),
          ("reason", .str reason.text)],
        createdAt }
  else pure ()

/-- The quota health an agent shows after syncing. -/
def syncedQuotaHealth (agentId : String) : BackendM (Option QuotaHealth) := do
  let found ← get agentId
  pure (found.map AgentRegistryEntry.quotaHealth)

/-- Source: `agent-registry.ts` `applyProviderFailure`. -/
def applyProviderFailure (options : Options) (agentId : String) (reason : RunFailedReason)
    (runId : String) : BackendM Unit :=
  match reason with
  | .providerRateLimited => do
    let health ← syncedQuotaHealth agentId
    if health ≠ some .healthy then pure ()
    else do
      setQuotaHealth agentId .low
      emitAgentQuotaEvent options .quotaLow agentId reason runId
  | .providerQuotaExhausted | .providerAuthFailed => do
    let health ← syncedQuotaHealth agentId
    if health = some .exhausted then pure ()
    else do
      setQuotaHealth agentId .exhausted
      emitAgentQuotaEvent options .quotaExhausted agentId reason runId
  | _ => pure ()

/-- Source: `agent-registry.ts` `recordOutcome`, with the run id every caller gives. -/
def recordOutcome (options : Options) (agentId runId : String) (success : Bool)
    (wallTimeMs : ℚ) (actualCostUnits : Option ℚ) (failureReason : Option RunFailedReason) :
    BackendM Unit := do
  let b ← MonadState.get
  match b.registry.find? agentId with
  | none => throw (.error ("Agent not found in registry: " ++ agentId))
  | some _ => do
    MetricsStore.recordRunOutcome agentId runId success wallTimeMs actualCostUnits
    refreshEntryMetrics options agentId
    match failureReason with
    | some reason =>
      if success = true then pure () else applyProviderFailure options agentId reason runId
    | none => pure ()

end AgentRegistry

end AgentWorkflow
