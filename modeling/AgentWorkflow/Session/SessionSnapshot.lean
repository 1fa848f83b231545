import AgentWorkflow.Queue.Provenance

/-!
# What is read back of a task

The two readers that ask for rows by project: `SqliteSessionSnapshotReader` of
`session/session-snapshot.ts`, and `listByRun` of `storage/event-log.ts`.

* `SessionSnapshotReader.get` — the row of the task, its runs, and the artifacts of each run. **The
  runs and the artifacts are selected by the project of the row.**
* `EventLog.listByRun` — the events of a run, by project.
* `mem_artifactsByRunId`, `mem_listByRun` — what a reader sees.
-/

namespace AgentWorkflow

/-! ## The read model -/

/-- Source: `session-snapshot.ts` `SessionSnapshotArtifactReadModel`. -/
structure SessionSnapshotArtifactReadModel where
  kind : ArtifactKind
  uri : String
  path : String
  checksum : Option String
  summary : Option String
  createdAt : ℕ
  deriving DecidableEq, Repr

/-- Source: `session-snapshot.ts` `SessionSnapshotRunReadModel`. -/
structure SessionSnapshotRunReadModel where
  runId : String
  role : Option Role
  agentId : String
  status : RunStatus
  parentRunId : Option String
  handoffPacketUri : Option String
  workspacePath : Option String
  baseCommit : Option String
  branchName : Option String
  runManifestRef : Option String
  startedAt : Option ℕ
  endedAt : Option ℕ
  artifacts : List SessionSnapshotArtifactReadModel
  deriving DecidableEq, Repr

/-- Source: `session-snapshot.ts` `SessionSnapshotTaskReadModel`. -/
structure SessionSnapshotTaskReadModel where
  status : TaskStatus
  attempts : ℕ
  repoPath : String
  baseRef : Option String
  reviewContext : Option ReviewContextRecord
  handoffPacketUri : Option String
  createdAt : ℕ
  updatedAt : ℕ
  deriving DecidableEq, Repr

/-- Source: `session-snapshot.ts` `SessionSnapshotReadModel`. -/
structure SessionSnapshotReadModel where
  projectId : String
  taskId : String
  task : SessionSnapshotTaskReadModel
  runs : List SessionSnapshotRunReadModel
  generatedAt : ℕ
  deriving DecidableEq, Repr

namespace SessionSnapshotReader

/-- Source: `session-snapshot.ts` `nonEmptyString`. -/
def nonEmptyString (value : Option String) : Option String := value.filter fun s => !blank s

/-- `ReviewContextRecordSchema.parse`: no text is empty. -/
def parseReviewContextRecordSchema (record : ReviewContextRecord) :
    Except Err ReviewContextRecord :=
  if record.implementerRunId = "" ∨ record.implementerAgentId = "" ∨ record.diffArtifactUri = "" ∨
      record.finalReportUri = some "" ∨ record.verificationOutputUri = some "" then
    .error (.error "ZodError")
  else .ok record

/-- Source: `session-snapshot.ts` `parseOptionalReviewContext`. -/
def parseOptionalReviewContext : Option ReviewContextRecord →
    Except Err (Option ReviewContextRecord)
  | none => .ok none
  | some record => some <$> parseReviewContextRecordSchema record

/-- The artifact of a row. -/
def toArtifactReadModel (a : ArtifactRow) : SessionSnapshotArtifactReadModel where
  kind := a.kind
  uri := a.uri
  path := a.path
  checksum := nonEmptyString (some a.checksum)
  summary := nonEmptyString a.summary
  createdAt := a.createdAt

/-- Source: `session-snapshot.ts` `toRunReadModel`. -/
def toRunReadModel (row : RunRecord) (artifacts : List SessionSnapshotArtifactReadModel) :
    SessionSnapshotRunReadModel where
  runId := row.id
  role := row.role
  agentId := row.agentId
  status := row.status
  parentRunId := nonEmptyString row.parentRunId
  handoffPacketUri := nonEmptyString row.handoffPacketUri
  workspacePath := nonEmptyString row.workspacePath
  baseCommit := nonEmptyString row.baseCommit
  branchName := nonEmptyString row.branchName
  runManifestRef := nonEmptyString row.runManifestRef
  startedAt := row.startedAt
  endedAt := row.endedAt
  artifacts := artifacts

/-- The runs of a task, in the order of their rows. Source: `session-snapshot.ts` `listRunsStmt`. -/
def listRuns (d : Tables) (projectId taskId : String) : List RunRecord :=
  d.agentRuns.rows.filter fun r => r.projectId = projectId ∧ r.taskId = taskId

/-- The artifacts of each run, as the map that is built of them.
Source: `session-snapshot.ts` `artifactsByRunId`. -/
def artifactsByRunId (d : Tables) (projectId taskId : String) (runIds : List String)
    (runId : String) : List SessionSnapshotArtifactReadModel :=
  let rows := d.files.artifacts.filter fun a =>
    a.projectId = projectId ∧ a.taskId = taskId ∧ a.runId ∈ runIds
  (rows.filter fun a => a.runId = runId).map toArtifactReadModel

/-- Source: `session-snapshot.ts` `get`, at the time `now`. -/
def get (d : Tables) (now : ℕ) (taskId : String) :
    Except Err (Option SessionSnapshotReadModel) :=
  match d.taskQueue.find? taskId with
  | none => .ok none
  | some taskRow =>
    match QueueStore.workOrderOf taskRow with
    | none => .error (.error "ZodError")
    | some workOrder => do
      let runRows := listRuns d taskRow.projectId taskRow.taskId
      let artifacts := artifactsByRunId d taskRow.projectId taskRow.taskId
        (runRows.map RunRecord.id)
      let reviewContext ← parseOptionalReviewContext taskRow.reviewContextJson
      pure (some
        { projectId := taskRow.projectId
          taskId := taskRow.taskId
          task :=
            { status := taskRow.status
              attempts := taskRow.attempts
              repoPath := workOrder.repo.path
              baseRef := workOrder.repo.baseRef
              reviewContext
              handoffPacketUri := nonEmptyString taskRow.handoffPacketUri
              createdAt := taskRow.enqueuedAt
              updatedAt := taskRow.updatedAt }
          runs := runRows.map fun row => toRunReadModel row (artifacts row.id)
          generatedAt := now })

section readers

variable {d : Tables} {projectId taskId : String} {now : ℕ} {a : ArtifactRow} {run : RunRecord}

theorem mem_listRuns : run ∈ listRuns d projectId taskId ↔
    d.agentRuns.find? run.id = some run ∧ run.projectId = projectId ∧ run.taskId = taskId := by
  rw [listRuns, List.mem_filter, Table.mem_iff_find?, decide_eq_true_eq]

/-- An artifact of a selected run is listed when the project and the task are those asked for. -/
theorem mem_artifactsByRunId {runIds : List String} (ha : a ∈ d.files.artifacts)
    (hproject : a.projectId = projectId) (htask : a.taskId = taskId) (hrun : a.runId ∈ runIds) :
    toArtifactReadModel a ∈ artifactsByRunId d projectId taskId runIds a.runId := by
  refine List.mem_map_of_mem (List.mem_filter.mpr ⟨List.mem_filter.mpr ⟨ha, ?_⟩, ?_⟩)
  · exact decide_eq_true ⟨hproject, htask, hrun⟩
  · exact decide_eq_true rfl

/-- The runs of a snapshot. -/
theorem get_spec {snapshot : SessionSnapshotReadModel}
    (h : get d now taskId = .ok (some snapshot)) : ∃ r, d.taskQueue.find? taskId = some r ∧
      snapshot.runs = (listRuns d r.projectId taskId).map fun run => toRunReadModel run
        (artifactsByRunId d r.projectId taskId ((listRuns d r.projectId taskId).map RunRecord.id)
          run.id) := by
  unfold get at h
  split at h
  · cases h
  next r hr =>
    have hkey : r.key = taskId := Table.key_of_find? hr
    have htask : r.taskId = taskId := hkey
    split at h
    · cases h
    · cases hcontext : parseOptionalReviewContext r.reviewContextJson with
      | error e =>
        rw [hcontext] at h
        cases h
      | ok context =>
        rw [hcontext] at h
        cases h
        exact ⟨r, hr, by rw [htask]⟩

end readers

end SessionSnapshotReader

/-! ## The events of a run -/

namespace EventLog

/-- Source: `event-log.ts` `listByRun`: `order by created_at asc, rowid asc`. -/
def listByRun (events : List EventEnvelope) (projectId runId : String) : List EventEnvelope :=
  (events.filter fun e => e.projectId = projectId ∧ e.runId = some runId).insertionSort
    fun a b => a.createdAt ≤ b.createdAt

theorem mem_listByRun {events : List EventEnvelope} {projectId runId : String}
    {e : EventEnvelope} : e ∈ listByRun events projectId runId ↔
      e ∈ events ∧ e.projectId = projectId ∧ e.runId = some runId := by
  rw [listByRun, List.mem_insertionSort, List.mem_filter, decide_eq_true_eq]

end EventLog

end AgentWorkflow
