import AgentWorkflow.Cli.WorkerServices
import AgentWorkflow.Session.SessionSnapshot

/-!
# The project of a row

The project id of every artifact, event and run that a batch writes. A run takes it from the entry,
and so do the events of a handler; a handoff packet and the quota events of a task are written under
the project of the services, which is that of the first work order.

* `Sourced` — the invariant: the project of each row, as one of the two.
* `ProjectsAgree` — every row of a task carries the project of its queue row, and the readers that
  ask by project see all of them.
* **`projects_agree_iff`** — it holds exactly when the task is of the first work order's project, or
  it has neither a handoff packet nor a quota event yet.
-/

namespace AgentWorkflow

open Fallible OrchestratorV1

namespace RunBatchV1

/-! ## Where a project id comes from -/

/-- The project of an event of a task under the project `own`: a quota event is written under the
project of the services. -/
def loggedProject (projectId own : String) (eventType : EventType) : String :=
  if eventType ∈ quotaTypes then projectId else own

/-- The project of everything that was written after `d₀`. -/
structure Sourced (projectId : String) (d₀ d : Tables) : Prop where
  events : ∃ es, d.events = d₀.events ++ es ∧ ∀ e ∈ es, ∀ t, e.taskId = some t →
    ∃ own, d.Under t own ∧ e.projectId = loggedProject projectId own e.eventType
  artifacts : ∃ rows, d.files.artifacts = d₀.files.artifacts ++ rows ∧ ∀ a ∈ rows,
    ∃ own, d.Under a.taskId own ∧ a.projectId = savedProject projectId own a.kind
  runs : ∀ id run, d.agentRuns.find? id = some run → d₀.agentRuns.find? id = none →
    d.Under run.taskId run.projectId

section frame

variable {external : ExternalServices} {artifactRepoPath projectId : String} {d₀ d d' : Tables}
  {W : ParsedWorkOrderV1 → Prop} {K : String → Prop}

theorem Sourced.refl : Sourced projectId d₀ d₀ where
  events := ⟨[], (List.append_nil _).symm, by simp⟩
  artifacts := ⟨[], (List.append_nil _).symm, by simp⟩
  runs id run hrun hnone := by
    rw [hnone] at hrun
    cases hrun

/-- Only the queue has changed, and the projects of its rows have not. -/
theorem Sourced.mono (h : Sourced projectId d₀ d) (hevents : d'.events = d.events)
    (hfiles : d'.files = d.files) (hruns : d'.agentRuns = d.agentRuns)
    (hunder : ∀ t own, d.Under t own → d'.Under t own) : Sourced projectId d₀ d' where
  events := by
    obtain ⟨es, hes, hsource⟩ := h.events
    refine ⟨es, hevents.trans hes, fun e he t ht => ?_⟩
    obtain ⟨own, hown, hproject⟩ := hsource e he t ht
    exact ⟨own, hunder t own hown, hproject⟩
  artifacts := by
    obtain ⟨rows, hrows, hsource⟩ := h.artifacts
    refine ⟨rows, by rw [hfiles, hrows], fun a ha => ?_⟩
    obtain ⟨own, hown, hproject⟩ := hsource a ha
    exact ⟨own, hunder _ own hown, hproject⟩
  runs id run hrun hnone := hunder _ _ (h.runs id run (hruns ▸ hrun) hnone)

/-- The project of an event that has a source. -/
theorem loggedProject_of_source {e : EventEnvelope}
    (he : EventSource (makeV1WorkerServices external artifactRepoPath projectId).handler
      (makeV1WorkerServices external artifactRepoPath projectId).run K d e) {t : String}
    (ht : e.taskId = some t) :
    ∃ own, d.Under t own ∧ e.projectId = loggedProject projectId own e.eventType := by
  have hown : ∀ {entry : TaskQueueEntry} {types : List EventType} {sound : Prop},
      d.Knows entry → e.Of types entry.projectId (some entry.taskId) sound →
      (∀ x ∈ types, x ∉ quotaTypes) →
      ∃ own, d.Under t own ∧ e.projectId = loggedProject projectId own e.eventType := by
    intro entry types sound hentry hof htypes
    have htask : entry.taskId = t := Option.some.inj (hof.taskId.symm.trans ht)
    refine ⟨entry.projectId, htask ▸ hentry, hof.projectId.trans ?_⟩
    exact (if_neg (htypes _ hof.eventType)).symm
  cases he with
  | enqueued hentry hof => exact hown hentry hof (by decide)
  | @handler entry hentry hof =>
    rcases hof with hof | hof | hof
    · exact hown hentry hof (by decide)
    · have htask : entry.taskId = t := Option.some.inj (hof.taskId.symm.trans ht)
      exact ⟨entry.projectId, htask ▸ hentry, hof.projectId.trans (if_pos hof.eventType).symm⟩
    · rw [hof.taskId] at ht
      cases ht
  | @exit entry status role hentry hstatus hof =>
    refine hown hentry hof.of fun x hx => ?_
    rw [List.mem_singleton.mp hx]
    simp only [exitStatuses, List.mem_cons, List.not_mem_nil, or_false] at hstatus
    rcases hstatus with rfl | rfl | rfl | rfl <;> decide
  | run hentry hagent hof => exact hown hentry hof.of (by decide)

/-- A write of a run's row keeps where it belongs. -/
theorem under_of_runWrite {args : RunTaskArgs} {runs : Table RunRecord.id}
    (hentry : d.Knows args.entry) (hrun : RunWrite args d.agentRuns runs) {id : String}
    {run : RunRecord} (hfind : runs.find? id = some run) :
    d.Under run.taskId run.projectId ∨ ∃ old, d.agentRuns.find? id = some old ∧
      run.taskId = old.taskId ∧ run.projectId = old.projectId := by
  cases hrun with
  | create hinsert =>
    rw [Table.find?_insert hinsert] at hfind
    split at hfind
    · cases hfind
      exact .inl hentry
    · exact .inr ⟨run, hfind, rfl, rfl⟩
  | update hparent hpacket =>
    rw [Table.find?_update] at hfind
    split at hfind
    · obtain ⟨old, hold, rfl⟩ := Option.map_eq_some_iff.mp hfind
      exact .inr ⟨old, hold, rfl, rfl⟩
    · exact .inr ⟨run, hfind, rfl, rfl⟩

/-- **Every write has its project from the entry or from the services.** -/
theorem sourced_frame :
    TablesFrame (makeV1WorkerServices external artifactRepoPath projectId).handler
      (makeV1WorkerServices external artifactRepoPath projectId).run K W
      (Sourced projectId d₀) where
  insert d workOrder nextRole ts q _ hq hd :=
    hd.mono rfl rfl rfl fun _ _ hunder => hunder.insert hq
  row d t f hf hfixed hd := hd.mono rfl rfl rfl fun _ _ hunder => hunder.update hf hfixed
  event d e he hd := by
    obtain ⟨es, hes, hsource⟩ := hd.events
    refine ⟨⟨es ++ [e], ?_, fun x hx => ?_⟩, hd.artifacts, hd.runs⟩
    · show d.events ++ [e] = _
      rw [hes, List.append_assoc]
    · rcases List.mem_append.mp hx with hx | hx
      · exact hsource x hx
      · rw [List.mem_singleton.mp hx]
        exact fun t ht => loggedProject_of_source he ht
  call d α m hm hd env := by
    have hkeep : ∀ f, Saved projectId d d.files.artifacts f.artifacts →
        Sourced projectId d₀ { d with files := f } := by
      intro f hsaved
      refine ⟨hd.events, ?_, hd.runs⟩
      obtain ⟨rows, hrows, hsource⟩ := hd.artifacts
      rcases hsaved with hsame | ⟨a, entry, hadded, hentry, htask, hproject⟩
      · exact ⟨rows, hsame.trans hrows, hsource⟩
      · refine ⟨rows ++ [a], ?_, fun x hx => ?_⟩
        · show f.artifacts = _
          rw [hadded, hrows, List.append_assoc]
        · rcases List.mem_append.mp hx with hx | hx
          · exact hsource x hx
          · rw [List.mem_singleton.mp hx]
            exact ⟨entry.projectId, htask ▸ hentry, hproject⟩
    exact (saved_of_callSource hm d.files rfl).mono (fun _ f hf => hkeep f hf)
      fun _ f hf => hkeep f hf
  run d args runs hentry hrun hd := by
    refine ⟨hd.events, hd.artifacts, fun id run hfind hnone => ?_⟩
    rcases under_of_runWrite hentry hrun hfind with hunder | ⟨old, hold, htask, hproject⟩
    · exact hunder
    · rw [htask, hproject]
      exact hd.runs id old hold hnone

end frame

/-! ## Rows of a task -/

/-- Every row written for the task carries the project of its queue row, and the readers that ask by
project see all of them. -/
structure ProjectsAgree (s₀ s : System) (t : String) (r : TaskRow) : Prop where
  artifacts : ∀ a ∈ s₀.writtenArtifacts s, a.taskId = t → a.projectId = r.projectId
  events : ∀ e ∈ s₀.writtenEvents s, e.taskId = some t → e.projectId = r.projectId
  /-- A snapshot lists every artifact that was saved for a run of the task. -/
  snapshot : ∀ now snapshot, SessionSnapshotReader.get s.world.tables now t = .ok (some snapshot) →
    ∀ a ∈ s₀.writtenArtifacts s, a.taskId = t →
    ∀ run, s.world.backend.agentRuns.find? a.runId = some run → run.taskId = t →
    s₀.world.backend.agentRuns.find? a.runId = none →
    ∃ shown ∈ snapshot.runs, shown.runId = a.runId ∧
      SessionSnapshotReader.toArtifactReadModel a ∈ shown.artifacts
  /-- A query by project and run finds every event of the task. -/
  log : ∀ e ∈ s₀.writtenEvents s, e.taskId = some t → ∀ runId, e.runId = some runId →
    e ∈ EventLog.listByRun s.world.backend.events r.projectId runId

/-- The task has neither a handoff packet nor a quota event. -/
structure Undisturbed (s₀ s : System) (t : String) : Prop where
  packets : ∀ a ∈ s₀.writtenArtifacts s, a.taskId = t → a.kind ≠ .handoffPacket
  quota : ∀ e ∈ s₀.writtenEvents s, e.taskId = some t → e.eventType ∉ quotaTypes

section agreement

variable {external : ExternalServices} {firstWorkOrder : ParsedWorkOrderV1}
  {rest : List ParsedWorkOrderV1} {s₀ s : System} {env : Env} {ls : List Label} {t : String}
  {r : TaskRow}

/-- What a batch has written, and its inputs. -/
theorem sourced_of_batch (hrun : BatchRun external firstWorkOrder rest s₀ env ls s) :
    Sourced firstWorkOrder.projectId s₀.world.tables s.world.tables ∧
      HasInputs (firstWorkOrder :: rest) s.world.tables :=
  (kept_of_batch (K := fun _ => True) (W := fun _ => True) sourced_frame (fun _ _ => trivial)
    .refl (fun _ _ _ => trivial) hrun).tables

/-- A task is under one project. -/
theorem project_of_under {own : String} (h : s.world.tables.Under t own)
    (hr : s.world.core.row t = some r) : own = r.projectId := by
  obtain ⟨r', hr', rfl⟩ := h
  rw [Option.some.inj (hr'.symm.trans hr)]

/-- The written rows of a task, by their projects. -/
theorem written_projects (h : Sourced firstWorkOrder.projectId s₀.world.tables s.world.tables)
    (hr : s.world.core.row t = some r) :
    (∀ a ∈ s₀.writtenArtifacts s, a.taskId = t →
      a.projectId = savedProject firstWorkOrder.projectId r.projectId a.kind) ∧
    ∀ e ∈ s₀.writtenEvents s, e.taskId = some t →
      e.projectId = loggedProject firstWorkOrder.projectId r.projectId e.eventType := by
  obtain ⟨es, hes, hevents⟩ := h.events
  obtain ⟨rows, hrows, hartifacts⟩ := h.artifacts
  have hes' : s₀.writtenEvents s = es := by
    show s.world.tables.events.drop s₀.world.tables.events.length = es
    rw [hes, List.drop_left]
  have hrows' : s₀.writtenArtifacts s = rows := by
    show s.world.tables.files.artifacts.drop s₀.world.tables.files.artifacts.length = rows
    rw [hrows, List.drop_left]
  rw [hes', hrows']
  refine ⟨fun a ha ht => ?_, fun e he ht => ?_⟩
  · obtain ⟨own, hown, hproject⟩ := hartifacts a ha
    rw [ht] at hown
    rw [hproject, project_of_under hown hr]
  · obtain ⟨own, hown, hproject⟩ := hevents e he t ht
    rw [hproject, project_of_under hown hr]

/-- Where the rows carry the project, the readers see them. -/
theorem agree_of_projects (h : Sourced firstWorkOrder.projectId s₀.world.tables s.world.tables)
    (hr : s.world.core.row t = some r)
    (hartifacts : ∀ a ∈ s₀.writtenArtifacts s, a.taskId = t → a.projectId = r.projectId)
    (hevents : ∀ e ∈ s₀.writtenEvents s, e.taskId = some t → e.projectId = r.projectId) :
    ProjectsAgree s₀ s t r where
  artifacts := hartifacts
  events := hevents
  snapshot now snapshot hget a ha ht run hfind htask hnew := by
    obtain ⟨r', hr', hruns⟩ := SessionSnapshotReader.get_spec hget
    obtain rfl : r = r' := Option.some.inj (hr.symm.trans hr')
    have hid : run.id = a.runId := Table.key_of_find? hfind
    have hunder := h.runs a.runId run hfind hnew
    rw [htask] at hunder
    have hlisted : run ∈ SessionSnapshotReader.listRuns s.world.tables r.projectId t :=
      SessionSnapshotReader.mem_listRuns.mpr ⟨hid.symm ▸ hfind, project_of_under hunder hr, htask⟩
    rw [hruns]
    refine ⟨_, List.mem_map_of_mem hlisted, hid, ?_⟩
    show SessionSnapshotReader.toArtifactReadModel a ∈ SessionSnapshotReader.artifactsByRunId _ _ _
      _ run.id
    rw [hid]
    refine SessionSnapshotReader.mem_artifactsByRunId (List.mem_of_mem_drop ha)
      (hartifacts a ha ht) ht ?_
    rw [← hid]
    exact List.mem_map_of_mem hlisted
  log e he ht runId hrun :=
    EventLog.mem_listByRun.mpr ⟨List.mem_of_mem_drop he, hevents e he ht, hrun⟩

/-- **The inputs keep their projects, and the rows of a task carry its project exactly when** it is
the first work order's, or the task has neither a handoff packet nor a quota event. -/
theorem projects_agree_iff (hrun : BatchRun external firstWorkOrder rest s₀ env ls s) :
    HasInputs (firstWorkOrder :: rest) s.world.tables ∧
    ∀ t r, s.world.core.row t = some r →
      (ProjectsAgree s₀ s t r ↔
        r.projectId = firstWorkOrder.projectId ∨ Undisturbed s₀ s t) := by
  obtain ⟨hsourced, hinputs⟩ := sourced_of_batch hrun
  refine ⟨hinputs, fun t r hr => ?_⟩
  obtain ⟨hartifacts, hevents⟩ := written_projects hsourced hr
  constructor
  · intro hagree
    by_contra hnot
    rw [not_or] at hnot
    obtain ⟨hother, hdisturbed⟩ := hnot
    refine hdisturbed ⟨fun a ha ht hkind => hother ?_, fun e he ht htype => hother ?_⟩
    · rw [← hagree.artifacts a ha ht, hartifacts a ha ht]
      exact if_pos hkind
    · rw [← hagree.events e he ht, hevents e he ht]
      exact if_pos htype
  · rintro (hsame | hquiet)
    · refine agree_of_projects hsourced hr (fun a ha ht => ?_) fun e he ht => ?_
      · rw [hartifacts a ha ht, savedProject, ← hsame, ite_self]
      · rw [hevents e he ht, loggedProject, ← hsame, ite_self]
    · refine agree_of_projects hsourced hr (fun a ha ht => ?_) fun e he ht => ?_
      · rw [hartifacts a ha ht]
        exact if_neg (hquiet.packets a ha ht)
      · rw [hevents e he ht]
        exact if_neg (hquiet.quota e he ht)

end agreement

/-- A handoff packet of the task, under another project than its row. -/
def strayPacket (s₀ s : System) (t : String) : Bool :=
  (s.world.core.row t).any fun r => (s₀.writtenArtifacts s).any fun a =>
    decide (a.taskId = t ∧ a.kind = .handoffPacket ∧ a.projectId ≠ r.projectId)

theorem not_projectsAgree {s₀ s : System} {t : String} (h : strayPacket s₀ s t = true) :
    ∃ r, s.world.core.row t = some r ∧ ¬ ProjectsAgree s₀ s t r := by
  obtain ⟨r, hr, hp⟩ := (Option.any_eq_true _ _).mp h
  obtain ⟨a, ha, hp⟩ := List.any_eq_true.mp hp
  obtain ⟨ht, -, hproject⟩ := of_decide_eq_true hp
  exact ⟨r, hr, fun hagree => hproject (hagree.artifacts a ha ht)⟩

/-- A task of another project than the first work order's hands off: **its packet is saved under the
first project**. -/
theorem packet_under_first_project : ∃ s r,
    BatchRun Sample.external Sample.workOrder [Sample.otherProject] Sample.system Sample.env
      (Sample.secondFails (workerServices Sample.external Sample.workOrder)) s ∧
    s.world.core.row "T-2" = some r ∧ ¬ ProjectsAgree Sample.system s "T-2" r := by
  have h : (batch Sample.external Sample.workOrder [Sample.otherProject] Sample.system Sample.env
      (Sample.secondFails (workerServices Sample.external Sample.workOrder))).any
      (fun s => strayPacket Sample.system s "T-2") = true := by
    decide +kernel
  obtain ⟨s, hs, hp⟩ := (Option.any_eq_true _ _).mp h
  obtain ⟨r, hr, hnot⟩ := not_projectsAgree hp
  exact ⟨s, r, batchRun_of_batch (fun _ => rfl) (Sample.secondFails_uses _) hs, hr, hnot⟩

/-- There the rows of the first task agree. -/
theorem projects_agree_iff_first : ∃ s r,
    BatchRun Sample.external Sample.workOrder [Sample.otherProject] Sample.system Sample.env
      (Sample.secondFails (workerServices Sample.external Sample.workOrder)) s ∧
    s.world.core.row "T-1" = some r ∧ ProjectsAgree Sample.system s "T-1" r := by
  have h : (batch Sample.external Sample.workOrder [Sample.otherProject] Sample.system Sample.env
      (Sample.secondFails (workerServices Sample.external Sample.workOrder))).any
      (fun s => (s.world.core.row "T-1").any fun r => decide (r.projectId = "default")) = true := by
    decide +kernel
  obtain ⟨s, hs, hp⟩ := (Option.any_eq_true _ _).mp h
  obtain ⟨r, hr, hproject⟩ := (Option.any_eq_true _ _).mp hp
  have hrun := batchRun_of_batch (fun _ => rfl) (Sample.secondFails_uses _) hs
  refine ⟨s, r, hrun, hr, ?_⟩
  exact ((projects_agree_iff hrun).2 "T-1" r hr).mpr (Or.inl (of_decide_eq_true hproject))

end RunBatchV1

end AgentWorkflow
