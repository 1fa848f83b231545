import AgentWorkflow.Scheduling.Scheduler

/-!
# Quota health, in a registry and in the shared map

One call of a registry: what it does to the quota health its agents have in the map the registries
share, and what it appends.

* `AgentRegistry.loadFile`, `candidatesFor`, `refreshQuotaHealth` — the rest of the registry.
* `Synced` — an agent the map does not know is healthy in the registry. So **what a call reports is
  what the map says** (`list_reports`, `get_reports`, `candidatesFor_reports`).
* `HealthStep`, **`RegistryCall.run_spec`** — everything one call does to the map and the log: at
  most one agent's health rises, and at most one event says so.
* **`decide_not_exhausted`** — the scheduler picks no agent that is exhausted in the map.
-/

namespace AgentWorkflow

open Fallible

/-! ## The rest of the registry -/

namespace AgentRegistry

/-- The entry of a profile. -/
def loadedEntry (shared : List (String × QuotaHealth)) (filePath : String)
    (profile : AgentProfileV1) (stored : MetricsStore.Rolling) (lastUpdatedAt : ℕ) :
    InternalEntry where
  profile := profile
  loadedFrom := filePath
  rollingMetrics := metricsOf profile stored lastUpdatedAt
  quotaHealth := (shared.lookup profile.agentId).getD .healthy

/-- Source: `agent-registry.ts` `loadFile`, from the parsed profile on. -/
def loadFile (options : Options) (filePath : String) (profile : AgentProfileV1) :
    BackendM Unit := do
  let b ← MonadState.get
  match b.registry.find? profile.agentId with
  | some existing =>
    throw (.error ("Duplicate agent_id \"" ++ profile.agentId ++ "\" found in:\n  - " ++
      existing.loadedFrom ++ "\n  - " ++ filePath))
  | none => do
    let stored ← MetricsStore.rollingFor profile.agentId options.rollingWindowSize
    let lastUpdatedAt ← dateNow
    modify fun b =>
      { b with
        registry := (b.registry.insert
          (loadedEntry b.sharedQuotaHealth filePath profile stored lastUpdatedAt)).getD b.registry }

/-- Every entry, synced. -/
def syncAll (shared : List (String × QuotaHealth)) (registry : Table InternalEntry.agentId) :
    Table InternalEntry.agentId :=
  registry.mapRows (syncQuotaHealth shared) (agentId_syncQuotaHealth shared)

/-- Source: `agent-registry.ts` `refreshQuotaHealth`. -/
def refreshQuotaHealth : BackendM Unit :=
  modify fun b => { b with registry := syncAll b.sharedQuotaHealth b.registry }

/-- An entry `candidatesFor` returns. -/
def candidate (requiredCapabilities : List String) (role : Role) (excludeAgentIds : List String)
    (e : InternalEntry) : Bool :=
  e.quotaHealth ≠ .exhausted && e.agentId ∉ excludeAgentIds && role ∈ e.profile.roles &&
    requiredCapabilities.all fun cap => cap ∈ e.profile.kinds

/-- Source: `agent-registry.ts` `candidatesFor`. -/
def candidatesFor (coll : Collation) (requiredCapabilities : List String) (role : Role)
    (excludeAgentIds : List String) : BackendM (List AgentRegistryEntry) := do
  refreshQuotaHealth
  let b ← MonadState.get
  let results := (b.registry.rows.filter
    (candidate requiredCapabilities role excludeAgentIds)).insertionSort
      fun e e' => coll.le e.agentId e'.agentId = true
  pure (results.map toExternal)

end AgentRegistry

/-! ## Health -/

/-- The order of the healths. -/
def QuotaHealth.rank : QuotaHealth → ℕ
  | .healthy => 0
  | .low => 1
  | .exhausted => 2

/-- The event that announces a health. -/
def QuotaHealth.eventType : QuotaHealth → EventType
  | .exhausted => .quotaExhausted
  | .healthy | .low => .quotaLow

/-- The health of an agent in the shared map. -/
def healthOf (shared : List (String × QuotaHealth)) (agentId : String) : QuotaHealth :=
  (shared.lookup agentId).getD .healthy

theorem healthOf_cons (shared : List (String × QuotaHealth)) (a : String) (h : QuotaHealth)
    (k : String) : healthOf ((a, h) :: shared) k = if k = a then h else healthOf shared k := by
  unfold healthOf
  by_cases hk : k = a
  · simp [hk]
  · rw [List.lookup_cons, beq_false_of_ne hk, if_neg hk]

/-- What the registries share, and one registry. -/
structure HealthView where
  shared : List (String × QuotaHealth)
  events : List EventEnvelope
  registry : Table InternalEntry.agentId

/-- The part of the backend a registry sees. -/
def Backend.healthView (b : Backend) : HealthView := ⟨b.sharedQuotaHealth, b.events, b.registry⟩

/-- The agents the map does not know are healthy. -/
def Synced (shared : List (String × QuotaHealth)) (registry : Table InternalEntry.agentId) :
    Prop :=
  ∀ e ∈ registry.rows, shared.lookup e.agentId = none → e.quotaHealth = .healthy

section synced

variable {shared : List (String × QuotaHealth)} {registry registry' : Table InternalEntry.agentId}
  {e : InternalEntry}

/-- **After syncing an agent has the health of the map.** -/
theorem Synced.quotaHealth_sync (h : Synced shared registry) (he : e ∈ registry.rows) :
    (AgentRegistry.syncQuotaHealth shared e).quotaHealth = healthOf shared e.agentId := by
  unfold AgentRegistry.syncQuotaHealth healthOf
  cases hlookup : shared.lookup e.agentId with
  | none => exact h e he hlookup
  | some health => rfl

/-- A registry whose rows change in nothing that matters is synced still. -/
theorem Synced.of_rows (h : Synced shared registry)
    (hrows : ∀ e' ∈ registry'.rows, shared.lookup e'.agentId = none →
      ∃ e ∈ registry.rows, e.agentId = e'.agentId ∧ e.quotaHealth = e'.quotaHealth) :
    Synced shared registry' := by
  intro e' he' hlookup
  obtain ⟨e, he, hid, hhealth⟩ := hrows e' he' hlookup
  rw [← hhealth]
  exact h e he (by rw [hid]; exact hlookup)

/-- A key once in the map stays there. -/
theorem Synced.cons {a : String} {health : QuotaHealth} (h : Synced shared registry) :
    Synced ((a, health) :: shared) registry := by
  intro e he hlookup
  refine h e he ?_
  rw [List.lookup_cons] at hlookup
  split at hlookup
  · cases hlookup
  · exact hlookup

theorem Synced.syncRow (hlookup :
    shared.lookup (AgentRegistry.syncQuotaHealth shared e).agentId = none) :
    AgentRegistry.syncQuotaHealth shared e = e := by
  rw [AgentRegistry.agentId_syncQuotaHealth] at hlookup
  unfold AgentRegistry.syncQuotaHealth
  rw [hlookup]

theorem Synced.syncAll (h : Synced shared registry) :
    Synced shared (AgentRegistry.syncAll shared registry) := by
  refine h.of_rows fun e' he' hlookup => ?_
  obtain ⟨e, he, rfl⟩ := List.mem_map.mp he'
  rw [Synced.syncRow hlookup]
  exact ⟨e, he, rfl, rfl⟩

/-- A rewriting of one row that keeps the health of an agent the map does not know. -/
theorem Synced.update {k : String} {f : InternalEntry → InternalEntry} (h : Synced shared registry)
    (hf : ∀ e, (f e).agentId = e.agentId)
    (hhealth : ∀ e, shared.lookup e.agentId = none → (f e).quotaHealth = e.quotaHealth) :
    Synced shared (registry.update k f hf) := by
  refine h.of_rows fun e' he' hlookup => ?_
  obtain ⟨e, he, rfl⟩ := List.mem_map.mp he'
  by_cases hk : e.agentId = k
  · rw [if_pos hk] at hlookup ⊢
    rw [hf] at hlookup ⊢
    exact ⟨e, he, rfl, (hhealth e hlookup).symm⟩
  · rw [if_neg hk]
    exact ⟨e, he, rfl, rfl⟩

end synced

/-! ## Reports -/

namespace AgentRegistry

variable {env : Env} {b : Backend}

/-- The entries say of each agent what the map says. -/
def Reported (shared : List (String × QuotaHealth)) (entries : List AgentRegistryEntry) : Prop :=
  ∀ entry ∈ entries, entry.quotaHealth = healthOf shared entry.profile.agentId

theorem reported_sync (h : Synced b.sharedQuotaHealth b.registry) {e : InternalEntry}
    (he : e ∈ b.registry.rows) :
    (toExternal (syncQuotaHealth b.sharedQuotaHealth e)).quotaHealth =
      healthOf b.sharedQuotaHealth
        (toExternal (syncQuotaHealth b.sharedQuotaHealth e)).profile.agentId := by
  refine (h.quotaHealth_sync he).trans ?_
  unfold toExternal
  rw [profile_syncQuotaHealth]
  rfl

theorem list_reports (h : Synced b.sharedQuotaHealth b.registry) :
    Ensures list env b (fun entries _ => Reported b.sharedQuotaHealth entries)
      fun _ _ => False := by
  simp only [list, ensures_bind, ensures_get, ensures_set, ensures_pure]
  intro entry hentry
  obtain ⟨e', he', rfl⟩ := List.mem_map.mp hentry
  obtain ⟨e, he, rfl⟩ := List.mem_map.mp he'
  exact reported_sync h he

theorem get_reports (h : Synced b.sharedQuotaHealth b.registry) {agentId : String} :
    Ensures (get agentId) env b
      (fun found _ => Reported b.sharedQuotaHealth found.toList ∧
        (found.isSome = true ↔ (b.registry.find? agentId).isSome = true))
      fun _ _ => False := by
  simp only [get, ensures_bind, ensures_get, ensures_set, ensures_pure, Table.find?_update_self,
    Option.map_map]
  cases hfind : b.registry.find? agentId with
  | none => exact ⟨by simp [Reported], by simp⟩
  | some e =>
    refine ⟨fun entry hentry => ?_, by simp⟩
    obtain rfl : entry = _ := by simpa using hentry
    exact reported_sync h (List.mem_of_find?_eq_some hfind)

theorem candidatesFor_reports (h : Synced b.sharedQuotaHealth b.registry) {coll : Collation}
    {requiredCapabilities : List String} {role : Role} {excludeAgentIds : List String} :
    Ensures (candidatesFor coll requiredCapabilities role excludeAgentIds) env b
      (fun entries _ => Reported b.sharedQuotaHealth entries ∧
        ∀ entry ∈ entries, entry.quotaHealth ≠ .exhausted)
      fun _ _ => False := by
  simp only [candidatesFor, refreshQuotaHealth, ensures_bind, ensures_modify, ensures_get,
    ensures_pure]
  have hall : ∀ entry ∈ (((syncAll b.sharedQuotaHealth b.registry).rows.filter
      (candidate requiredCapabilities role excludeAgentIds)).insertionSort fun e e' =>
      coll.le e.agentId e'.agentId = true).map toExternal,
      entry.quotaHealth = healthOf b.sharedQuotaHealth entry.profile.agentId ∧
        entry.quotaHealth ≠ .exhausted := by
    intro entry hentry
    obtain ⟨e', he', rfl⟩ := List.mem_map.mp hentry
    rw [List.mem_insertionSort, List.mem_filter] at he'
    obtain ⟨hmem, hcandidate⟩ := he'
    obtain ⟨e, he, rfl⟩ := List.mem_map.mp hmem
    refine ⟨reported_sync h he, ?_⟩
    simp only [candidate, Bool.and_eq_true, decide_eq_true_eq] at hcandidate
    exact hcandidate.1.1.1
  exact ⟨fun entry hentry => (hall entry hentry).1, fun entry hentry => (hall entry hentry).2⟩

end AgentRegistry

/-! ## One call -/

/-- The event of a health of an agent. -/
structure AgentQuota (a : String) (h : QuotaHealth) (e : EventEnvelope) : Prop where
  eventType : e.eventType = h.eventType
  taskId : e.taskId = none
  agentId : e.agentId = some a

/-- Everything a call does to the map and the log: one agent's health rises, with an event or
without one, or neither changes. -/
inductive HealthStep (shared : List (String × QuotaHealth)) (events : List EventEnvelope) :
    HealthView → Prop
  | quiet {registry : Table InternalEntry.agentId} (hsynced : Synced shared registry) :
    HealthStep shared events ⟨shared, events, registry⟩
  | raised {a : String} {h : QuotaHealth} {registry : Table InternalEntry.agentId}
    (hlt : (healthOf shared a).rank < h.rank) (hsynced : Synced ((a, h) :: shared) registry) :
    HealthStep shared events ⟨(a, h) :: shared, events, registry⟩
  | announced {a : String} {h : QuotaHealth} {e : EventEnvelope}
    {registry : Table InternalEntry.agentId} (hlt : (healthOf shared a).rank < h.rank)
    (he : AgentQuota a h e) (hsynced : Synced ((a, h) :: shared) registry) :
    HealthStep shared events ⟨(a, h) :: shared, events ++ [e], registry⟩

/-- The specification of a program by what a registry sees. -/
abbrev OnHealth {α : Type} (m : BackendM α) (env : Env) (v : HealthView)
    (Q : α → HealthView → Prop) (E : Err → HealthView → Prop) : Prop :=
  EnsuresVia Backend.healthView m env v Q E

namespace AgentRegistry

section specs

variable {env : Env} {v : HealthView} {a runId : String} {options : Options}
  {E : Err → HealthView → Prop}

theorem onHealth_storageCall {k : StorageCall} {Q : Unit → HealthView → Prop} (hQ : Q () v)
    (hE : ∀ e, E e v) : OnHealth (storageCall k) env v Q E := by
  rintro b rfl
  exact ensures_storageCall_iff.mpr ⟨fun _ => hE _, fun _ => hQ⟩

theorem onHealth_dateNow {Q : ℕ → HealthView → Prop} (hQ : ∀ n, Q n v) :
    OnHealth dateNow env v Q E := by
  rintro b rfl
  exact hQ _

theorem onHealth_uuid8 {Q : String → HealthView → Prop} (hQ : ∀ id, Q id v) :
    OnHealth uuid8 env v Q E := by
  rintro b rfl
  exact hQ _

theorem onHealth_recordRunOutcome {success : Bool} {wallTimeMs : ℚ} {cost : Option ℚ}
    {Q : Unit → HealthView → Prop} (hQ : Q () v) (hE : ∀ e, E e v) :
    OnHealth (MetricsStore.recordRunOutcome a runId success wallTimeMs cost) env v Q E := by
  refine .bind (onHealth_dateNow fun createdAt => .bind (onHealth_storageCall ?_ hE))
  rintro b rfl
  exact hQ

theorem onHealth_rollingFor {windowSize : ℕ} {Q : MetricsStore.Rolling → HealthView → Prop}
    (hQ : ∀ stored, Q stored v) (hE : ∀ e, E e v) :
    OnHealth (MetricsStore.rollingFor a windowSize) env v Q E := by
  refine .bind (onHealth_storageCall ?_ hE)
  rintro b rfl
  exact hQ _

/-- Refreshed metrics leave the healths and the agents. -/
theorem onHealth_refreshEntryMetrics {Q : Unit → HealthView → Prop}
    (hsynced : Synced v.shared v.registry)
    (hQ : ∀ registry, Synced v.shared registry →
      (∀ k, (registry.find? k).isSome = (v.registry.find? k).isSome) →
      Q () ⟨v.shared, v.events, registry⟩)
    (hE : ∀ e, E e v) : OnHealth (refreshEntryMetrics options a) env v Q E := by
  refine .bind (onHealth_rollingFor (fun stored => .bind (onHealth_dateNow fun now => ?_)) hE)
  rintro b rfl
  have hkeep := hsynced.update (k := a)
    (f := fun e : InternalEntry => { e with rollingMetrics := metricsOf e.profile stored now })
    (fun _ => rfl) fun _ _ => rfl
  exact hQ _ hkeep (Table.isSome_find?_update b.registry a
    (fun e => { e with rollingMetrics := metricsOf e.profile stored now }) fun _ => rfl)

/-- Syncing reads the map. -/
theorem onHealth_syncedQuotaHealth {Q : Option QuotaHealth → HealthView → Prop}
    (hsynced : Synced v.shared v.registry) (ha : (v.registry.find? a).isSome = true)
    (hQ : ∀ registry, Synced v.shared registry →
      Q (some (healthOf v.shared a)) ⟨v.shared, v.events, registry⟩) :
    OnHealth (syncedQuotaHealth a) env v Q E := by
  rintro b rfl
  obtain ⟨e, he⟩ := Option.isSome_iff_exists.mp ha
  have hkey : e.agentId = a := Table.key_of_find? he
  have he' : b.registry.find? a = some e := he
  simp only [syncedQuotaHealth, get, ensures_bind, ensures_get, ensures_set, ensures_pure,
    Table.find?_update_self, he', Option.map_some]
  have hhealth : (toExternal (syncQuotaHealth b.sharedQuotaHealth e)).quotaHealth =
      healthOf b.sharedQuotaHealth a := by
    rw [← hkey]
    exact hsynced.quotaHealth_sync (List.mem_of_find?_eq_some he)
  rw [hhealth]
  refine hQ _ (hsynced.update (agentId_syncQuotaHealth _) fun e' hlookup => ?_)
  rw [Synced.syncRow (by rw [agentId_syncQuotaHealth]; exact hlookup)]

/-- The entry of the agent gets the health the map gets. -/
theorem synced_set {shared : List (String × QuotaHealth)} {h : QuotaHealth}
    {registry : Table InternalEntry.agentId} (hsynced : Synced shared registry) :
    Synced ((a, h) :: shared)
      (registry.update a (fun e => { e with quotaHealth := h }) fun _ => rfl) := by
  intro e' he' hlookup
  obtain ⟨e, he, rfl⟩ := List.mem_map.mp he'
  by_cases hk : e.agentId = a
  · rw [if_pos hk] at hlookup
    simp [InternalEntry.agentId, ← hk] at hlookup
  · rw [if_neg hk] at hlookup ⊢
    rw [List.lookup_cons, beq_false_of_ne hk] at hlookup
    exact hsynced e he hlookup

/-- A risen health, with its event or without. -/
theorem onHealth_raise {h : QuotaHealth} {eventType : EventType} {reason : RunFailedReason}
    (htype : eventType = h.eventType) (hsynced : Synced v.shared v.registry)
    (hlt : (healthOf v.shared a).rank < h.rank) :
    OnHealth (do
        setQuotaHealth a h
        emitAgentQuotaEvent options eventType a reason runId) env v
      (fun _ v' => HealthStep v.shared v.events v') fun _ v' => HealthStep v.shared v.events v' := by
  rintro b rfl
  have hset : Synced ((a, h) :: b.sharedQuotaHealth)
      (b.registry.update a (fun e => { e with quotaHealth := h }) fun _ => rfl) :=
    synced_set hsynced
  simp only [setQuotaHealth, emitAgentQuotaEvent, ensures_bind, ensures_modify, ensures_ite,
    ensures_uuid8, ensures_dateNow, EventLog.ensures_append_iff, ensures_pure]
  refine ⟨fun _ => ⟨fun _ => .raised hlt hset, fun _ => ?_⟩, fun _ => .raised hlt hset⟩
  exact .announced hlt ⟨htype, rfl, rfl⟩ hset

/-- A provider failure raises the health of its agent, or leaves everything. -/
theorem onHealth_applyProviderFailure {reason : RunFailedReason}
    (hsynced : Synced v.shared v.registry) (ha : (v.registry.find? a).isSome = true) :
    OnHealth (applyProviderFailure options a reason runId) env v
      (fun _ v' => HealthStep v.shared v.events v') fun _ v' => HealthStep v.shared v.events v' := by
  have hrefused : OnHealth (do
      let health ← syncedQuotaHealth a
      if health = some .exhausted then pure ()
      else do
        setQuotaHealth a .exhausted
        emitAgentQuotaEvent options .quotaExhausted a reason runId) env v
      (fun _ v' => HealthStep v.shared v.events v')
      fun _ v' => HealthStep v.shared v.events v' := by
    refine .bind (onHealth_syncedQuotaHealth hsynced ha fun registry hregistry => ?_)
    refine .ite (fun _ => .pure (.quiet hregistry)) fun hne => ?_
    refine onHealth_raise rfl hregistry ?_
    show (healthOf v.shared a).rank < 2
    cases hhealth : healthOf v.shared a with
    | healthy => decide
    | low => decide
    | exhausted => exact absurd (congrArg some hhealth) hne
  unfold applyProviderFailure
  split
  · refine .bind (onHealth_syncedQuotaHealth hsynced ha fun registry hregistry => ?_)
    refine .ite (fun _ => .pure (.quiet hregistry)) fun hne => ?_
    refine onHealth_raise rfl hregistry ?_
    obtain hhealth := Option.some.inj (not_not.mp hne)
    show (healthOf v.shared a).rank < 1
    rw [hhealth]
    decide
  · exact hrefused
  · exact hrefused
  · exact .pure (.quiet hsynced)

theorem onHealth_recordOutcome {success : Bool} {wallTimeMs : ℚ} {cost : Option ℚ}
    {failureReason : Option RunFailedReason} (hsynced : Synced v.shared v.registry) :
    OnHealth (recordOutcome options a runId success wallTimeMs cost failureReason) env v
      (fun _ v' => HealthStep v.shared v.events v') fun _ v' => HealthStep v.shared v.events v' := by
  rintro b rfl
  unfold recordOutcome
  refine ensures_bind.mpr (ensures_get.mpr ?_)
  split
  next => exact .quiet hsynced
  next e he =>
    have ha : (b.registry.find? a).isSome = true := Option.isSome_iff_exists.mpr ⟨e, he⟩
    refine (?_ : OnHealth _ env b.healthView
      (fun _ v' => HealthStep b.sharedQuotaHealth b.events v')
      fun _ v' => HealthStep b.sharedQuotaHealth b.events v') b rfl
    refine .bind (onHealth_recordRunOutcome ?_ fun _ => .quiet hsynced)
    refine .bind (onHealth_refreshEntryMetrics hsynced (fun registry hregistry hkeys => ?_)
      fun _ => .quiet hsynced)
    split
    · refine .ite (fun _ => .pure (.quiet hregistry)) fun _ => ?_
      exact onHealth_applyProviderFailure hregistry ((hkeys a).trans ha)
    · exact .pure (.quiet hregistry)

theorem onHealth_loadFile {filePath : String} {profile : AgentProfileV1}
    (hsynced : Synced v.shared v.registry) :
    OnHealth (loadFile options filePath profile) env v
      (fun _ v' => HealthStep v.shared v.events v') fun _ v' => HealthStep v.shared v.events v' := by
  rintro b rfl
  unfold loadFile
  refine ensures_bind.mpr (ensures_get.mpr ?_)
  split
  next => exact .quiet hsynced
  next =>
    refine (?_ : OnHealth _ env b.healthView
      (fun _ v' => HealthStep b.sharedQuotaHealth b.events v')
      fun _ v' => HealthStep b.sharedQuotaHealth b.events v') b rfl
    refine .bind (onHealth_rollingFor (fun stored => .bind (onHealth_dateNow fun now => ?_))
      fun _ => .quiet hsynced)
    intro b' hb'
    have hshared : b'.sharedQuotaHealth = b.sharedQuotaHealth := congrArg HealthView.shared hb'
    have hevents : b'.events = b.events := congrArg HealthView.events hb'
    have hregistry : b'.registry = b.registry := congrArg HealthView.registry hb'
    show HealthStep b.sharedQuotaHealth b.events ⟨b'.sharedQuotaHealth, b'.events,
      (b'.registry.insert (loadedEntry b'.sharedQuotaHealth filePath profile stored now)).getD
        b'.registry⟩
    rw [hshared, hevents, hregistry]
    refine .quiet fun e he hlookup => ?_
    cases hinsert : b.registry.insert
        (loadedEntry b.sharedQuotaHealth filePath profile stored now) with
    | none =>
      rw [hinsert] at he
      exact hsynced e he hlookup
    | some registry =>
      rw [hinsert] at he
      rcases List.mem_append.mp (Table.insert_rows hinsert ▸ he) with he | he
      · exact hsynced e he hlookup
      · obtain rfl := List.mem_singleton.mp he
        have hnew : b.sharedQuotaHealth.lookup profile.agentId = none := hlookup
        show (b.sharedQuotaHealth.lookup profile.agentId).getD .healthy = .healthy
        rw [hnew]
        rfl

/-- Listing syncs every entry. -/
theorem onHealth_list {Q : List AgentRegistryEntry → HealthView → Prop}
    (hsynced : Synced v.shared v.registry)
    (hQ : ∀ entries registry, Reported v.shared entries → Synced v.shared registry →
      Q entries ⟨v.shared, v.events, registry⟩) : OnHealth list env v Q E := by
  rintro b rfl
  have hreported : Ensures list env b (fun entries _ => Reported b.sharedQuotaHealth entries)
      fun _ _ => False := list_reports hsynced
  simp only [list, ensures_bind, ensures_get, ensures_set, ensures_pure] at hreported ⊢
  exact hQ _ _ hreported hsynced.syncAll

theorem onHealth_get {Q : Option AgentRegistryEntry → HealthView → Prop}
    (hsynced : Synced v.shared v.registry)
    (hQ : ∀ found registry, Synced v.shared registry → Q found ⟨v.shared, v.events, registry⟩) :
    OnHealth (get a) env v Q E := by
  rintro b rfl
  simp only [get, ensures_bind, ensures_get, ensures_set, ensures_pure]
  refine hQ _ _ (hsynced.update (agentId_syncQuotaHealth _) fun e hlookup => ?_)
  rw [Synced.syncRow (by rw [agentId_syncQuotaHealth]; exact hlookup)]

theorem onHealth_refreshQuotaHealth {Q : Unit → HealthView → Prop}
    (hsynced : Synced v.shared v.registry)
    (hQ : ∀ registry, Synced v.shared registry → Q () ⟨v.shared, v.events, registry⟩) :
    OnHealth refreshQuotaHealth env v Q E := by
  rintro b rfl
  exact hQ _ hsynced.syncAll

theorem onHealth_candidatesFor {coll : Collation} {requiredCapabilities : List String}
    {role : Role} {excludeAgentIds : List String} {Q : List AgentRegistryEntry → HealthView → Prop}
    (hsynced : Synced v.shared v.registry)
    (hQ : ∀ entries registry, Synced v.shared registry →
      Q entries ⟨v.shared, v.events, registry⟩) :
    OnHealth (candidatesFor coll requiredCapabilities role excludeAgentIds) env v Q E := by
  refine .bind (onHealth_refreshQuotaHealth hsynced fun registry hregistry => ?_)
  intro b hb
  refine ensures_bind.mpr (ensures_get.mpr ?_)
  show Q _ b.healthView
  rw [hb]
  exact hQ _ registry hregistry

end specs

end AgentRegistry

/-! ## Decisions -/

namespace Scheduler

variable {env : Env} {v : HealthView} {coll : Collation} {workOrder : ParsedWorkOrderV1}
  {role : Role} {excludeAgentIds : List String} {budget : BudgetState} {implementer : Option String}

/-- An agent without quota has a reason to be excluded. -/
theorem excluded_of_exhausted {caps : List String} {excludes : List String}
    {pool : Option (List String)} {reason : String} {entry : AgentRegistryEntry}
    (h : entry.quotaHealth = .exhausted) :
    (analyzeCandidate caps role excludes pool reason entry).excluded = true := by
  simp only [CandidateAnalysis.excluded, analyzeCandidate, h, decide_true, if_true]
  repeat' split
  all_goals rfl

/-- An eligible agent was listed, and its quota was not exhausted. -/
theorem eligible_spec {entries : List AgentRegistryEntry} {caps : List String}
    {excludes : List String} {pool : Option (List String)} {reason : String}
    {a : CandidateAnalysis} (h : a ∈ analyzeCandidates coll entries caps role excludes pool reason)
    (he : a.excluded = false) : a.entry ∈ entries ∧ a.entry.quotaHealth ≠ .exhausted := by
  obtain ⟨entry, hentry, rfl⟩ := mem_analyzeCandidates.mp h
  refine ⟨hentry, fun hexhausted => ?_⟩
  have hquota : entry.quotaHealth = .exhausted := hexhausted
  rw [excluded_of_exhausted hquota] at he
  cases he

/-- **No agent is picked that is exhausted in the map.** -/
theorem decide_not_exhausted (hsynced : Synced v.shared v.registry) :
    OnHealth (decide coll workOrder role excludeAgentIds budget implementer) env v
      (fun d v' => (∀ id, d.pickedAgentId = some id → healthOf v.shared id ≠ .exhausted) ∧
        HealthStep v.shared v.events v')
      fun _ v' => HealthStep v.shared v.events v' := by
  unfold decide
  refine .bind (AgentRegistry.onHealth_list hsynced fun entries registry hreported hregistry => ?_)
  have hquiet : HealthStep v.shared v.events ⟨v.shared, v.events, registry⟩ := .quiet hregistry
  dsimp only
  split
  next =>
    refine .bind (AgentRegistry.onHealth_uuid8 fun id => .bind (AgentRegistry.onHealth_dateNow
      fun now => .pure ⟨?_, hquiet⟩))
    rintro id ⟨⟩
  next =>
    split
    next => exact .throw hquiet
    next best hbest =>
      obtain ⟨a, ha, heligible, rfl⟩ := eligible_of_best hbest
      obtain ⟨hentry, hhealth⟩ := eligible_spec ha heligible
      refine .bind (AgentRegistry.onHealth_uuid8 fun id => .bind (AgentRegistry.onHealth_dateNow
        fun now => .pure ⟨?_, hquiet⟩))
      rintro picked ⟨⟩
      show healthOf v.shared a.entry.profile.agentId ≠ .exhausted
      rw [← hreported a.entry hentry]
      exact hhealth

end Scheduler

/-! ## Calls -/

/-- A call of a registry, or of a scheduler over it. -/
inductive RegistryCall
  | loadFile (filePath : String) (profile : AgentProfileV1)
  | list
  | get (agentId : String)
  | candidatesFor (coll : Collation) (requiredCapabilities : List String) (role : Role)
      (excludeAgentIds : List String)
  | refreshQuotaHealth
  | recordOutcome (agentId runId : String) (success : Bool) (wallTimeMs : ℚ)
      (actualCostUnits : Option ℚ) (failureReason : Option RunFailedReason)
  | decide (coll : Collation) (workOrder : ParsedWorkOrderV1) (role : Role)
      (excludeAgentIds : List String) (budget : BudgetState) (implementer : Option String)

/-- The call, without what it returns. -/
def RegistryCall.run (options : AgentRegistry.Options) : RegistryCall → BackendM Unit
  | .loadFile filePath profile => AgentRegistry.loadFile options filePath profile
  | .list => do
    let _ ← AgentRegistry.list
  | .get agentId => do
    let _ ← AgentRegistry.get agentId
  | .candidatesFor coll requiredCapabilities role excludeAgentIds => do
    let _ ← AgentRegistry.candidatesFor coll requiredCapabilities role excludeAgentIds
  | .refreshQuotaHealth => AgentRegistry.refreshQuotaHealth
  | .recordOutcome agentId runId success wallTimeMs actualCostUnits failureReason =>
    AgentRegistry.recordOutcome options agentId runId success wallTimeMs actualCostUnits
      failureReason
  | .decide coll workOrder role excludeAgentIds budget implementer => do
    let _ ← Scheduler.decide coll workOrder role excludeAgentIds budget implementer

/-- **What a call does to the map and the log**, also when it throws. -/
theorem RegistryCall.run_spec {env : Env} {v : HealthView} {options : AgentRegistry.Options}
    {call : RegistryCall} (hsynced : Synced v.shared v.registry) :
    OnHealth (call.run options) env v (fun _ v' => HealthStep v.shared v.events v')
      fun _ v' => HealthStep v.shared v.events v' := by
  cases call with
  | loadFile => exact AgentRegistry.onHealth_loadFile hsynced
  | list =>
    exact .bind (AgentRegistry.onHealth_list hsynced fun _ _ _ hregistry => .pure (.quiet hregistry))
  | get =>
    exact .bind (AgentRegistry.onHealth_get hsynced fun _ _ hregistry => .pure (.quiet hregistry))
  | candidatesFor =>
    exact .bind (AgentRegistry.onHealth_candidatesFor hsynced fun _ _ hregistry =>
      .pure (.quiet hregistry))
  | refreshQuotaHealth =>
    exact AgentRegistry.onHealth_refreshQuotaHealth hsynced fun _ hregistry => .quiet hregistry
  | recordOutcome => exact AgentRegistry.onHealth_recordOutcome hsynced
  | decide =>
    exact .bind ((Scheduler.decide_not_exhausted hsynced).mono (fun _ _ h => .pure h.2)
      fun _ _ h => h)

end AgentWorkflow
