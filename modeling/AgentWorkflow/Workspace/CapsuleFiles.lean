import AgentWorkflow.Core.OrchestratorV1
import AgentWorkflow.Lib.FileScript
import AgentWorkflow.Storage.ArtifactStore

/-!
# The files in a workspace's `.agent-workflow`

What an agent is given and what is read of it: `FileTaskCapsuleWriter` of
`workspace/task-capsule-writer.ts`, `FileReviewBriefWriter` of `workspace/review-brief-writer.ts`,
`attachToBrief` of `scheduling/handoff-manager.ts` and `parseReviewVerdict` of
`adapters/review-verdict-parser.ts`.

* `FileTaskCapsuleWriter.write` — the work order, the manifest and the prompt, with **an empty
  report**.
* `FileReviewBriefWriter.write` — the brief, after **the verdict of an earlier reviewer was
  removed**.
* `HandoffManager.attachToBrief` — the packet, and a paragraph before the prompt.
* `parseReviewVerdict` — a verdict, or the one that stands for a reviewer who left none.
* **`via_writeCapsule`**, **`via_attachToBrief`**, **`via_writeBrief`** — when each succeeds, and
  what is read afterwards.
-/

namespace AgentWorkflow

open Fallible Posix

/-! ## Statements on files -/

/-- The directory of a workspace that agents read and write. -/
def capsuleDir (ws : Path) : Path := ws ++ [".agent-workflow"]

/-- The check of `fs.statSync` both writers begin with. -/
def statWorkspace (ws : Path) : ServiceM Unit := do
  let files ← get
  if files.disk.isDir ws = true then pure ()
  else if (files.disk.read ws).isSome = true then
    throw (.error ("Workspace path is not a directory: " ++ ws.text))
  else throw (.error ("Workspace path does not exist: " ++ ws.text))

/-- `fs.existsSync`: a directory or a file. -/
def existsAt (p : Path) : ServiceM Bool := do
  let files ← get
  pure (files.disk.isDir p || (files.disk.read p).isSome)

/-- `fs.writeFileSync`, for each name in a directory. -/
def writeFiles (dir : Path) : List (String × String) → ServiceM Unit
  | [] => pure ()
  | (filename, content) :: texts => do
    onDisk (Disk.writeFile · (dir ++ [filename]) content)
    writeFiles dir texts

/-- Lines of text, each ended. -/
def textLines (lines : List String) : String := String.intercalate "\n" lines ++ "\n"

/-- `text.endsWith("\n") ? text : text + "\n"`. -/
def endLine (text : String) : String :=
  if text.toList.getLast? = some '\n' then text else text ++ "\n"

/-- `criteria.map((c, i) => ...)`: numbered from 1. -/
def numbered (criteria : List String) : List String :=
  criteria.mapIdx fun i c => toString (i + 1) ++ ". " ++ c

/-- The lines on the task both writers give an agent. -/
def taskLines (wo : WorkOrderV1) : List String :=
  ["- **Task ID**: " ++ wo.taskId, "- **Project ID**: " ++ wo.projectId,
    "- **Title**: " ++ wo.title, "- **Type**: " ++ wo.type.text, "- **Goal**: " ++ wo.goal, "",
    "## Acceptance Criteria"] ++ numbered wo.acceptanceCriteria ++
  ["", "## Repository", "- **Path**: " ++ wo.repo.path,
    "- **Base Ref**: " ++ wo.repo.baseRef.getD "None"]

/-- The line of a list that is given and not empty. -/
def listLine (label : String) : Option (List String) → List String
  | none | some [] => []
  | some l => [label ++ String.intercalate ", " l]

/-- The line of a count that is given. -/
def countLine (label : String) : Option ℕ → List String
  | none => []
  | some n => [label ++ toString n]

/-- The constraints a reviewer is told. -/
def constraintLines (c : Constraints) : List String :=
  listLine "- **Allowed Paths**: " c.allowedPaths ++
    listLine "- **Forbidden Paths**: " c.forbiddenPaths ++
    countLine "- **Max Files to Touch**: " c.maxFilesToTouch

/-! ## The task capsule -/

namespace FileTaskCapsuleWriter

/-- Source: `task-capsule-writer.ts` `writeWorkOrderMd`. -/
def workOrderMd (wo : WorkOrderV1) : String :=
  let constraint {α : Type} (field : Constraints → Option α) : Option α := wo.constraints.bind field
  textLines (["# Work Order", ""] ++ taskLines wo ++
    ["", "## Constraints",
      "- **Allowed Paths**: " ++
        ((constraint Constraints.allowedPaths).map (String.intercalate ", ")).getD "None",
      "- **Forbidden Paths**: " ++
        ((constraint Constraints.forbiddenPaths).map (String.intercalate ", ")).getD "None",
      "- **Max Files to Touch**: " ++
        ((constraint Constraints.maxFilesToTouch).map toString).getD "None",
      "", "## Verification",
      "- **Commands**: " ++
        (wo.verification.map fun v => String.intercalate ", " v.commands).getD "None",
      "- **Timeout Seconds**: " ++
        ((wo.verification.bind Verification.timeoutSeconds).map toString).getD "None",
      "", "## Expected Output",
      "- Write the final report to `.agent-workflow/final_report.md`"])

/-- A value, or `null`. -/
def orNull {α : Type} (encode : α → Json) (a : Option α) : Json := (a.map encode).getD .null

/-- Source: `task-capsule-writer.ts` `writeConstraintsJson`. -/
def constraintsJson (wo : WorkOrderV1) (rm : RunManifestV1) : Json :=
  let strings (l : Option (List String)) : Json := (Codec.array Codec.string).encode (l.getD [])
  .obj [("schema_version", .str "agent-workflow/1"), ("task_id", .str wo.taskId),
    ("run_id", .str rm.runId),
    ("allowed_paths", strings (wo.constraints.bind Constraints.allowedPaths)),
    ("forbidden_paths", strings (wo.constraints.bind Constraints.forbiddenPaths)),
    ("max_files_to_touch",
      orNull Codec.natural.encode (wo.constraints.bind Constraints.maxFilesToTouch)),
    ("verification_commands", strings (wo.verification.map Verification.commands)),
    ("budget", .obj [("max_wall_time_minutes", .num wo.budget.maxWallTimeMinutes),
      ("max_output_bytes", orNull Codec.natural.encode wo.budget.maxOutputBytes)])]

/-- The `min(1)` checks of `RunManifestV1Schema`. -/
def manifestCheck (rm : RunManifestV1) : Bool :=
  [rm.runId, rm.taskId, rm.projectId, rm.agentId, rm.workspaceUri, rm.baseCommit, rm.branch,
    rm.workOrderHash, rm.adapterVersion].all fun s => s ≠ ""

/-- Source: `schemas-v1.ts` `RunManifestV1Schema.parse`, of a manifest. -/
def parseManifest (rm : RunManifestV1) : Except Err Unit :=
  if manifestCheck rm = true then .ok () else .error (.error "ZodError")

/-- Source: `task-capsule-writer.ts` `writePromptMd`. -/
def promptMd : String :=
  textLines ["# Agent Instructions", "",
    "1. Read `.agent-workflow/work_order.md` to understand the task.",
    "2. Respect allowed and forbidden paths defined in the work order.",
    "3. Write the final report to `.agent-workflow/final_report.md`.",
    "4. Do not commit any changes to the repository.",
    "5. Do not modify `.agent-workflow/run_manifest.json`.",
    "6. Keep changes focused on the work order goal."]

/-- The files before the manifest is checked. -/
def firstTexts (platform : Platform) (wo : WorkOrderV1) (rm : RunManifestV1) :
    List (String × String) :=
  [("work_order.md", workOrderMd wo),
    ("constraints.json", platform.json.stringify (constraintsJson wo rm) ++ "\n")]

/-- The files after it. -/
def lastTexts (platform : Platform) (rm : RunManifestV1) : List (String × String) :=
  [("run_manifest.json", platform.json.stringify (OrchestratorV1.manifestJson rm) ++ "\n"),
    ("progress.jsonl", ""), ("final_report.md", ""), ("prompt.md", promptMd)]

/-- What a write returns. -/
def result (dir : Path) : TaskCapsuleWriteResult where
  capsulePath := dir.text
  workOrderPath := Path.text (dir ++ ["work_order.md"])
  runManifestPath := Path.text (dir ++ ["run_manifest.json"])
  promptPath := Path.text (dir ++ ["prompt.md"])

/-- Source: `task-capsule-writer.ts` `write`, of a work order of the second version. -/
def write (platform : Platform) (cwd : Path) (args : WriteCapsule) :
    ServiceM TaskCapsuleWriteResult := do
  let ws := resolve cwd args.workspacePath
  let dir := capsuleDir ws
  statWorkspace ws
  onDisk (Disk.mkdirp · dir)
  onDisk (Disk.mkdirp · (dir ++ ["artifacts"]))
  writeFiles dir (firstTexts platform args.workOrder.toWorkOrderV1 args.runManifest)
  checked (parseManifest args.runManifest)
  writeFiles dir (lastTexts platform args.runManifest)
  pure (result dir)

end FileTaskCapsuleWriter

/-! ## The handoff in a prompt -/

namespace HandoffManager

/-- Source: `handoff-manager.ts` `buildTakeoverParagraph`. -/
def buildTakeoverParagraph (packet : HandoffPacket) : String :=
  let quoted (label : String) : Option String → List String
    | some uri => if uri = "" then [] else ["- " ++ label ++ ": `" ++ uri ++ "`"]
    | none => []
  let artifacts := quoted "Diff artifact" packet.diffArtifactUri ++
    quoted "Verification output" packet.verificationOutputUri ++
    quoted "Review verdict" packet.reviewVerdictUri
  String.intercalate "\n"
    (["## Handoff — Taking Over a Previous Attempt", "",
      "You are taking over from a previous attempt by agent `" ++ packet.fromAgentId ++
        "` (run `" ++ packet.fromRunId ++ "`), which ended with reason: **" ++
        packet.reason.text ++ "**.", "",
      "### Handoff Summary", "", packet.summary, ""] ++
    artifacts ++ (if artifacts = [] then [] else [""]) ++
    ["Read the artifacts above before proposing changes. " ++
        "The handoff packet is available at `.agent-workflow/handoff_packet.json`.",
      "", "---", ""])

/-- The text of the packet's file. -/
def packetText (json : JsonText) (packet : HandoffPacket) : String :=
  json.stringify (HandoffPacket.codec.encode packet) ++ "\n"

/-- Source: `handoff-manager.ts` `attachToBrief`. -/
def attachToBrief (json : JsonText) (cwd : Path) (workspacePath : String) (packet : HandoffPacket) :
    ServiceM Unit := do
  let dir := capsuleDir (resolve cwd workspacePath)
  let found ← existsAt (dir ++ ["prompt.md"])
  if found = true then do
    onDisk (Disk.mkdirp · dir)
    onDisk (Disk.writeFile · (dir ++ ["handoff_packet.json"]) (packetText json packet))
    let existingContent ← readFile (dir ++ ["prompt.md"])
    onDisk (Disk.writeFile · (dir ++ ["prompt.md"])
      (buildTakeoverParagraph packet ++ existingContent))
  else throw (.error (".agent-workflow/prompt.md not found at " ++
    Path.text (dir ++ ["prompt.md"]) ++
    ". Cannot attach handoff context without an existing prompt."))

end HandoffManager

/-! ## The brief of a reviewer -/

namespace FileReviewBriefWriter

/-- Source: `review-brief-writer.ts` `removeReservedFile`. -/
def removeReservedFile (dir : Path) (filename : String) : ServiceM Unit := do
  let filePath := dir ++ [filename]
  let found ← existsAt filePath
  if found = false then pure ()
  else do
    let files ← get
    if files.disk.isDir filePath = true then
      throw (.error ("Reserved reviewer output path is a directory, not a file: " ++ filePath.text))
    else set { files with disk := files.disk.removeFile filePath }

/-- Source: `review-brief-writer.ts` `writeWorkOrderMd`. -/
def workOrderMd (wo : WorkOrderV1) : String :=
  let constrained (c : Constraints) : Bool :=
    c.allowedPaths.isSome || c.forbiddenPaths.isSome || c.maxFilesToTouch.isSome
  textLines (["# Work Order", ""] ++ taskLines wo ++
    match wo.constraints with
    | none => []
    | some c => if constrained c = true then ["", "## Constraints"] ++ constraintLines c else [])

/-- The schema of a verdict, as a reviewer is told it. -/
def verdictLines : List String :=
  ["```json", "\x7b", "  \"schema_version\": \"agent-workflow/1\",",
    "  \"verdict\": \"approved\" | \"changes_requested\" | \"rejected\",",
    "  \"summary\": \"<one paragraph explaining your verdict>\",", "  \"comments\": [", "    \x7b",
    "      \"path\": \"<file path, optional>\",", "      \"line\": <line number, optional>,",
    "      \"severity\": \"must_fix\" | \"should_fix\" | \"nit\",",
    "      \"comment\": \"<your comment>\"", "    \x7d", "  ]", "\x7d", "```"]

/-- Source: `review-brief-writer.ts` `writeReviewBriefMd`. -/
def reviewBriefMd (wo : WorkOrderV1) (diffText : String) (priorFinalReportText : Option String) :
    String :=
  textLines (["# Review Brief", "", "## Task"] ++ taskLines wo ++
    (wo.constraints.map constraintLines).getD [] ++
    ["", "## Diff Under Review", "", "```diff", diffText, "```"] ++
    (match priorFinalReportText with
    | none => []
    | some text => ["", "## Prior Final Report", "", text]) ++
    ["", "## Reviewer Instructions", "",
      "You are reviewing an implementer agent's changes. " ++
        "Your job is to assess whether the diff meets the acceptance criteria " ++
        "and is safe to apply.",
      "", "### Required Output", "",
      "You MUST write a JSON file at `.agent-workflow/review_verdict.json` " ++
        "with exactly these fields:",
      ""] ++ verdictLines ++
    ["", "### Rules", "", "- Do NOT modify any repository files.",
      "- Do NOT run tests (v1 reviewer does not run verification).",
      "- Write ONLY `.agent-workflow/review_verdict.json`.",
      "- The `comments` array may be empty even for `changes_requested` — " ++
        "use `summary` to explain what needs to change."])

/-- Source: `review-brief-writer.ts` `writeReviewerPromptMd`. -/
def reviewerPromptMd : String :=
  textLines ["# Reviewer Agent Instructions", "",
    "1. Read `.agent-workflow/review_brief.md` to understand the task " ++
      "and see the diff under review.",
    "2. Assess whether the implementer's changes meet the acceptance criteria.",
    "3. Write your verdict to `.agent-workflow/review_verdict.json` " ++
      "using the schema described in the review brief.",
    "4. Do NOT modify any repository files.",
    "5. Do NOT run tests or verification commands.",
    "6. Do NOT write any files other than `.agent-workflow/review_verdict.json`."]

/-- The files of a brief. -/
def texts (args : WriteBrief) : List (String × String) :=
  let wo := args.workOrder.toWorkOrderV1
  [("work_order.md", workOrderMd wo),
    ("review_brief.md", reviewBriefMd wo args.diffText args.priorFinalReportText),
    ("reviewer_prompt.md", reviewerPromptMd),
    ("diff_under_review.patch", endLine args.diffText)] ++
  match args.priorFinalReportText with
  | none => []
  | some text => [("prior_final_report.md", endLine text)]

/-- What a write returns. -/
def result (dir : Path) : ReviewBriefWriteResult where
  reviewBriefPath := Path.text (dir ++ ["review_brief.md"])
  reviewerPromptPath := Path.text (dir ++ ["reviewer_prompt.md"])
  diffUnderReviewPath := Path.text (dir ++ ["diff_under_review.patch"])

/-- The reserved report is removed when no other is given. -/
def removeStaleReport (dir : Path) (priorFinalReportText : Option String) : ServiceM Unit :=
  if priorFinalReportText = none then removeReservedFile dir "prior_final_report.md" else pure ()

/-- Source: `review-brief-writer.ts` `write`. -/
def write (cwd : Path) (args : WriteBrief) : ServiceM ReviewBriefWriteResult := do
  let ws := resolve cwd args.workspacePath
  let dir := capsuleDir ws
  statWorkspace ws
  onDisk (Disk.mkdirp · dir)
  removeReservedFile dir "review_verdict.json"
  removeStaleReport dir args.priorFinalReportText
  writeFiles dir (texts args)
  pure (result dir)

end FileReviewBriefWriter

/-! ## The verdict of a reviewer -/

/-- `z.enum` of the verdicts. -/
def Verdict.codec : Codec Verdict :=
  Codec.literals Verdict.text [.approved, .changesRequested, .rejected]
    (fun a => by cases a <;> simp)
    (fun a b h => by cases a <;> cases b <;> first | rfl | exact absurd h (by decide))

/-- `z.enum` of the severities. -/
def Severity.codec : Codec Severity :=
  Codec.literals Severity.text [.mustFix, .shouldFix, .nit]
    (fun a => by cases a <;> simp)
    (fun a b h => by cases a <;> cases b <;> first | rfl | exact absurd h (by decide))

/-- Reading a comment. A line that is no natural number is accepted and not kept. -/
def ReviewComment.read (value : Json) : Option ReviewComment := do
  let fields ← value.fields?
  let path ← optionalField Codec.string "path" fields
  let line ← optionalField Codec.number "line" fields
  let severity ← requiredField Severity.codec "severity" fields
  let comment ← requiredField Codec.string "comment" fields
  guard (comment ≠ "")
  pure { path, line := line.bind fun q => Codec.natural.decode (.num q), severity, comment }

/-- Source: `schemas-v1.ts` `ReviewVerdictSchema`. -/
def ReviewVerdict.read (value : Json) : Option ReviewVerdict := do
  let fields ← value.fields?
  let schemaVersion ← requiredField Codec.string "schema_version" fields
  guard (schemaVersion = "agent-workflow/1")
  let verdict ← requiredField Verdict.codec "verdict" fields
  let summary ← requiredField Codec.string "summary" fields
  guard (summary ≠ "")
  let comments ← fields.lookup "comments"
  match comments with
  | .arr items => do
    let comments ← items.mapM ReviewComment.read
    pure { verdict, summary, comments }
  | _ => none

/-- Source: `schemas-v1.ts` `parseReviewVerdictFile`. -/
def parseReviewVerdictFile (json : JsonText) (text : String) : Except String ReviewVerdict :=
  match json.parse text with
  | none => .error "Failed to parse review verdict: file contains invalid JSON"
  | some value =>
    match ReviewVerdict.read value with
    | none => .error "ZodError"
    | some verdict => .ok verdict

/-- Source: `review-verdict-parser.ts` `SYNTHESIZED_VERDICT`. -/
def synthesizedVerdict : ReviewVerdict :=
  ⟨.changesRequested, "Reviewer did not produce a verdict file.", []⟩

/-- Where a reviewer leaves its verdict. -/
def verdictPath (ws : Path) : Path := capsuleDir ws ++ ["review_verdict.json"]

/-- Source: `review-verdict-parser.ts` `parseReviewVerdict`. -/
def parseReviewVerdict (json : JsonText) (cwd : Path) (workspacePath : String) :
    ServiceM ReviewVerdictParseResult := do
  let files ← get
  let p := verdictPath (resolve cwd workspacePath)
  match files.disk.read p with
  | none =>
    if files.disk.isDir p = true then
      pure ⟨synthesizedVerdict, true, none, some ("Failed to read review verdict file: " ++
        "Error: EISDIR: illegal operation on a directory, read")⟩
    else pure ⟨synthesizedVerdict, true, none, none⟩
  | some rawText =>
    match parseReviewVerdictFile json rawText with
    | .ok verdict => pure ⟨verdict, false, none, none⟩
    | .error errorMessage => pure ⟨synthesizedVerdict, true, some rawText, some errorMessage⟩

/-! ## What is there afterwards -/

section specs

open LocalArtifactStore (via_onDisk via_checked via_readFile)

variable {env : Env} {d d₁ : Disk} {ws dir p : Path} {E : Err → Disk → Prop}

theorem via_statWorkspace {Q : Unit → Disk → Prop} (hQ : d.isDir ws = true → Q () d)
    (hE : d.isDir ws = false → ∀ e, E e d) :
    EnsuresVia Files.disk (statWorkspace ws) env d Q E := by
  rintro files rfl
  refine ensures_bind.mpr (ensures_get.mpr (ensures_ite.mpr ⟨hQ, fun hdir => ?_⟩))
  exact ensures_ite.mpr ⟨fun _ => hE (Bool.eq_false_iff.mpr hdir) _,
    fun _ => hE (Bool.eq_false_iff.mpr hdir) _⟩

theorem via_existsAt {Q : Bool → Disk → Prop} (hQ : Q (d.isDir p || (d.read p).isSome) d) :
    EnsuresVia Files.disk (existsAt p) env d Q E := by
  rintro files rfl
  exact hQ

/-- Files are all written, or not all. -/
theorem via_writeFiles {texts : List (String × String)} {Q : Unit → Disk → Prop}
    (hQ : ∀ d', d.writeAll (Disk.below dir texts) = some d' → Q () d')
    (hE : d.writeAll (Disk.below dir texts) = none → ∀ e d', E e d') :
    EnsuresVia Files.disk (writeFiles dir texts) env d Q E := by
  induction texts generalizing d with
  | nil => exact .pure (hQ d rfl)
  | cons f texts ih =>
    obtain ⟨filename, content⟩ := f
    simp only [Disk.below, List.map_cons, Disk.writeAll] at hQ hE
    refine .bind (via_onDisk (fun d₁ hwrite => ?_) fun hnone => ?_)
    · rw [hwrite] at hQ hE
      exact ih hQ hE
    · rw [hnone] at hE
      exact fun e => hE rfl e _

/-- In a directory, they are all written unless one of them is a directory. -/
theorem via_fill {texts : List (String × String)} {Q : Unit → Disk → Prop}
    (hdir : d.isDir dir = true) (hname : Disk.nameable dir = true)
    (hplain : ∀ f ∈ texts, '\x00' ∉ f.1.toList) (hnodup : (texts.map Prod.fst).Nodup)
    (hQ : (∀ f ∈ texts, d.isDir (dir ++ [f.1]) = false) →
      ∀ d', d.Filled d' dir texts → Q () d')
    (hE : ¬ (∀ f ∈ texts, d.isDir (dir ++ [f.1]) = false) → ∀ e d', E e d') :
    EnsuresVia Files.disk (writeFiles dir texts) env d Q E := by
  obtain ⟨hiff, hfilled⟩ := Disk.fill_spec hdir hname hplain hnodup
  refine via_writeFiles (fun d' h => hQ (hiff.mp (by rw [h]; rfl)) d' (hfilled d' h)) fun h => ?_
  exact hE fun hall => by
    have hsome := hiff.mpr hall
    rw [h] at hsome
    cases hsome

/-- A reserved name is gone afterwards, unless it is a directory. -/
theorem via_removeReservedFile {filename : String} {Q : Unit → Disk → Prop}
    (hQ : d.isDir (dir ++ [filename]) = false → ∀ d', d'.dirs = d.dirs →
      d'.read (dir ++ [filename]) = none →
      (∀ q, q ≠ dir ++ [filename] → d'.read q = d.read q) → Q () d')
    (hE : d.isDir (dir ++ [filename]) = true → ∀ e, E e d) :
    EnsuresVia Files.disk (FileReviewBriefWriter.removeReservedFile dir filename) env d Q E := by
  refine .bind (via_existsAt (.ite (fun hfound => ?_) fun _ => .bind ?_))
  · obtain ⟨hdir, hread⟩ := Bool.or_eq_false_iff.mp hfound
    exact .pure (hQ hdir d rfl (Option.isSome_eq_false_iff.mp hread |> Option.isNone_iff_eq_none.mp)
      fun _ _ => rfl)
  · rintro files rfl
    refine ensures_get.mpr ?_
    rintro files' hfiles
    refine ensures_ite.mpr ⟨fun hdir => ?_, fun hdir => ?_⟩
    · show E _ files'.disk
      rw [hfiles]
      exact hE hdir _
    · exact hQ (Bool.eq_false_iff.mpr hdir) _ rfl Disk.read_removeFile_self fun q hq =>
        Disk.read_removeFile_of_ne hq

namespace FileReviewBriefWriter

/-- The names a brief removes or writes. -/
def names : List String :=
  ["review_verdict.json", "prior_final_report.md", "work_order.md", "review_brief.md",
    "reviewer_prompt.md", "diff_under_review.patch"]

/-- A brief can be written. -/
structure Briefable (d : Disk) (ws : Path) : Prop where
  workspace : d.isDir ws = true
  made : (d.mkdirp (capsuleDir ws)).isSome = true
  files : ∀ name ∈ names, d.isDir (capsuleDir ws ++ [name]) = false

/-- What a brief leaves: no verdict, its own files, no report but the one it was given, and every
other file as it was. -/
structure Briefed (args : WriteBrief) (ws : Path) (d d' : Disk) : Prop where
  verdict : d'.read (verdictPath ws) = none
  reads : ∀ f ∈ texts args, d'.read (capsuleDir ws ++ [f.1]) = some f.2
  report : args.priorFinalReportText = none →
    d'.read (capsuleDir ws ++ ["prior_final_report.md"]) = none
  others : ∀ q, (∀ name ∈ names, q ≠ capsuleDir ws ++ [name]) → d'.read q = d.read q

/-- The names of a brief's files. -/
theorem names_texts (args : WriteBrief) : (texts args).map Prod.fst =
    ["work_order.md", "review_brief.md", "reviewer_prompt.md", "diff_under_review.patch"] ++
      if args.priorFinalReportText = none then [] else ["prior_final_report.md"] := by
  unfold texts
  cases args.priorFinalReportText <;> rfl

theorem plain_texts (args : WriteBrief) : ∀ f ∈ texts args, '\x00' ∉ f.1.toList := by
  refine (List.forall_mem_map (f := Prod.fst)
    (P := fun name : String => '\x00' ∉ name.toList)).mp ?_
  rw [names_texts]
  split <;> decide

theorem nodup_texts (args : WriteBrief) : ((texts args).map Prod.fst).Nodup := by
  rw [names_texts]
  split <;> decide

theorem texts_subset (args : WriteBrief) {f : String × String} (hf : f ∈ texts args) :
    f.1 ∈ names ∧ f.1 ≠ "review_verdict.json" ∧
      (args.priorFinalReportText = none → f.1 ≠ "prior_final_report.md") := by
  have hmem := List.mem_map_of_mem (f := Prod.fst) hf
  rw [names_texts] at hmem
  split at hmem
  next hnone =>
    rw [List.append_nil] at hmem
    revert hmem
    generalize f.1 = name
    simp only [List.mem_cons, List.not_mem_nil, or_false]
    rintro (rfl | rfl | rfl | rfl) <;> simp [names]
  next hsome =>
    revert hmem
    generalize f.1 = name
    simp only [List.mem_append, List.mem_cons, List.not_mem_nil, or_false]
    rintro ((rfl | rfl | rfl | rfl) | rfl) <;> simp [names, hsome]

/-- The part of a write after the reserved names: they are free, and the directory is there. -/
theorem via_texts {args : WriteBrief} (hws : d.isDir ws = true)
    (hmade : d.mkdirp (capsuleDir ws) = some d₁)
    (hverdict : d.isDir (verdictPath ws) = false) {d₂ : Disk} (hdirs : d₂.dirs = d₁.dirs)
    (hnoVerdict : d₂.read (verdictPath ws) = none)
    (hreport : args.priorFinalReportText = none →
      d.isDir (capsuleDir ws ++ ["prior_final_report.md"]) = false ∧
        d₂.read (capsuleDir ws ++ ["prior_final_report.md"]) = none)
    (hothers : ∀ q, (∀ name ∈ names, q ≠ capsuleDir ws ++ [name]) → d₂.read q = d.read q) :
    EnsuresVia Files.disk (do
        writeFiles (capsuleDir ws) (texts args)
        pure (result (capsuleDir ws))) env d₂
      (fun r d' => r = result (capsuleDir ws) ∧ Briefable d ws ∧ Briefed args ws d d')
      fun _ _ => ¬ Briefable d ws := by
  have hsame : ∀ name, d₂.isDir (capsuleDir ws ++ [name]) = d.isDir (capsuleDir ws ++ [name]) :=
    fun name => (Disk.isDir_congr hdirs).trans (Disk.isDir_mkdirp_below hmade)
  refine .bind (via_fill ?_ (Disk.nameable_of_mkdirp hmade) (plain_texts args) (nodup_texts args)
    (fun hfree d' hfilled => .pure ⟨rfl, ⟨hws, by rw [hmade]; rfl, ?_⟩, ?_, hfilled.reads,
      fun hnone => ?_, fun q hq => ?_⟩) fun hblocked _ _ hbrief => hblocked fun f hf => ?_)
  · exact (Disk.isDir_congr hdirs).trans (Disk.isDir_of_mkdirp hmade (List.prefix_refl _))
  · have hfree' : ∀ name ∈ (texts args).map Prod.fst, d.isDir (capsuleDir ws ++ [name]) = false :=
      List.forall_mem_map.mpr fun f hf => (hsame f.1).symm.trans (hfree f hf)
    rw [names_texts] at hfree'
    have hprior : d.isDir (capsuleDir ws ++ ["prior_final_report.md"]) = false := by
      by_cases hnone : args.priorFinalReportText = none
      · exact (hreport hnone).1
      · refine hfree' _ (List.mem_append_right _ ?_)
        rw [if_neg hnone]
        exact List.mem_singleton_self _
    refine List.forall_mem_cons.mpr
      ⟨hverdict, List.forall_mem_cons.mpr ⟨hprior, fun name hname => ?_⟩⟩
    exact hfree' name (List.mem_append_left _ hname)
  · have hkept := hfilled.others (verdictPath ws) fun f hf heq =>
      (texts_subset args hf).2.1 (Disk.below_inj.mp heq).symm
    exact hkept.trans hnoVerdict
  · have hkept := hfilled.others (capsuleDir ws ++ ["prior_final_report.md"]) fun f hf heq =>
      (texts_subset args hf).2.2 hnone (Disk.below_inj.mp heq).symm
    exact hkept.trans (hreport hnone).2
  · have hkept := hfilled.others q fun f hf => hq f.1 (texts_subset args hf).1
    exact hkept.trans (hothers q hq)
  · exact (hsame f.1).trans (hbrief.files f.1 (texts_subset args hf).1)

/-- **When a brief is written, and what it leaves.** -/
theorem via_writeBrief {cwd : Path} {args : WriteBrief}
    (hws : ws = resolve cwd args.workspacePath) :
    EnsuresVia Files.disk (write cwd args) env d
      (fun r d' => r = result (capsuleDir ws) ∧ Briefable d ws ∧ Briefed args ws d d')
      fun _ _ => ¬ Briefable d ws := by
  subst hws
  refine .bind (via_statWorkspace (fun hws => .bind ?_) fun hws _ hbrief => ?_)
  swap
  · rw [hbrief.workspace] at hws
    cases hws
  refine via_onDisk (fun d₁ hmade => .bind ?_) fun hnone _ hbrief => ?_
  swap
  · have hmade := hbrief.made
    rw [hnone] at hmade
    cases hmade
  have hbelow : ∀ {name}, d₁.isDir (capsuleDir (resolve cwd args.workspacePath) ++ [name]) =
      d.isDir (capsuleDir (resolve cwd args.workspacePath) ++ [name]) :=
    fun {name} => Disk.isDir_mkdirp_below hmade
  refine via_removeReservedFile (fun hverdict d₂ hdirs hgone hkept => .bind ?_)
    fun hverdict _ hbrief => ?_
  swap
  · rw [hbelow, hbrief.files _ (by decide)] at hverdict
    cases hverdict
  rw [hbelow] at hverdict
  have hkept' : ∀ q, (∀ name ∈ names, q ≠ capsuleDir _ ++ [name]) → d₂.read q = d.read q :=
    fun q hq => (hkept q (hq "review_verdict.json" (by decide))).trans (Disk.read_mkdirp hmade)
  unfold removeStaleReport
  refine .ite (fun hnone => ?_) fun hsome => .pure ?_
  · refine via_removeReservedFile (fun hprior d₃ hdirs' hgone' hkept'' => ?_)
      fun hprior _ hbrief => ?_
    · rw [Disk.isDir_congr hdirs, hbelow] at hprior
      refine via_texts hws hmade hverdict (hdirs'.trans hdirs) ?_ (fun _ => ⟨hprior, hgone'⟩)
        fun q hq => (hkept'' q (hq "prior_final_report.md" (by decide))).trans (hkept' q hq)
      have hne : verdictPath (resolve cwd args.workspacePath) ≠
          capsuleDir (resolve cwd args.workspacePath) ++ ["prior_final_report.md"] := fun heq =>
        absurd (Disk.below_inj.mp heq) (by decide)
      exact (hkept'' _ hne).trans hgone
    · rw [Disk.isDir_congr hdirs, hbelow, hbrief.files _ (by decide)] at hprior
      cases hprior
  · exact via_texts hws hmade hverdict hdirs hgone (fun hnone => absurd hnone hsome) hkept'

end FileReviewBriefWriter

namespace FileTaskCapsuleWriter

/-- The names a capsule writes. -/
def names : List String :=
  ["work_order.md", "constraints.json", "run_manifest.json", "progress.jsonl", "final_report.md",
    "prompt.md"]

/-- A capsule can be written. -/
structure Capsulable (d : Disk) (ws : Path) (rm : RunManifestV1) : Prop where
  workspace : d.isDir ws = true
  made : (d.mkdirp (capsuleDir ws)).isSome = true
  artifacts : d.read (capsuleDir ws ++ ["artifacts"]) = none
  files : ∀ name ∈ names, d.isDir (capsuleDir ws ++ [name]) = false
  manifest : manifestCheck rm = true

/-- What a capsule leaves: its files, and every other file as it was. -/
structure Capsuled (platform : Platform) (args : WriteCapsule) (ws : Path) (d d' : Disk) :
    Prop where
  first : ∀ f ∈ firstTexts platform args.workOrder.toWorkOrderV1 args.runManifest,
    d'.read (capsuleDir ws ++ [f.1]) = some f.2
  last : ∀ f ∈ lastTexts platform args.runManifest, d'.read (capsuleDir ws ++ [f.1]) = some f.2
  others : ∀ q, (∀ name ∈ names, q ≠ capsuleDir ws ++ [name]) → d'.read q = d.read q

variable {platform : Platform} {args : WriteCapsule}

theorem names_firstTexts {wo : WorkOrderV1} {rm : RunManifestV1} :
    (firstTexts platform wo rm).map Prod.fst = ["work_order.md", "constraints.json"] := rfl

theorem names_lastTexts {rm : RunManifestV1} : (lastTexts platform rm).map Prod.fst =
    ["run_manifest.json", "progress.jsonl", "final_report.md", "prompt.md"] := rfl

/-- What holds of the names holds of the files. -/
theorem forall_texts {texts : List (String × String)} {l : List String} {P : String → Prop}
    (h : texts.map Prod.fst = l) (hl : ∀ name ∈ l, P name) : ∀ f ∈ texts, P f.1 := by
  subst h
  exact List.forall_mem_map.mp hl

/-- The files of a capsule, once its directories are there. -/
theorem via_capsuleTexts (hws : d.isDir ws = true) (hmade : d.mkdirp (capsuleDir ws) = some d₁)
    {d₂ : Disk} (hartifacts : d₁.mkdirp (capsuleDir ws ++ ["artifacts"]) = some d₂) :
    EnsuresVia Files.disk (do
        writeFiles (capsuleDir ws)
          (firstTexts platform args.workOrder.toWorkOrderV1 args.runManifest)
        checked (parseManifest args.runManifest)
        writeFiles (capsuleDir ws) (lastTexts platform args.runManifest)
        pure (result (capsuleDir ws))) env d₂
      (fun r d' => r = result (capsuleDir ws) ∧ Capsulable d ws args.runManifest ∧
        Capsuled platform args ws d d')
      fun _ _ => ¬ Capsulable d ws args.runManifest := by
  have hname := Disk.nameable_of_mkdirp hmade
  have hdir : d₂.isDir (capsuleDir ws) = true :=
    Disk.isDir_of_mkdirp hartifacts (List.prefix_append _ _)
  have hsame : ∀ {name}, name ∈ names →
      d₂.isDir (capsuleDir ws ++ [name]) = d.isDir (capsuleDir ws ++ [name]) := by
    intro name hmem
    have hne : name ≠ "artifacts" := by
      rintro rfl
      revert hmem
      decide
    exact (Disk.isDir_mkdirp_beside hartifacts hne).trans (Disk.isDir_mkdirp_below hmade)
  have hfirstNames : ∀ name ∈ ["work_order.md", "constraints.json"], name ∈ names := by decide
  have hlastNames :
      ∀ name ∈ ["run_manifest.json", "progress.jsonl", "final_report.md", "prompt.md"],
        name ∈ names := by decide
  have hreadSame : ∀ q, d₂.read q = d.read q := fun q =>
    (Disk.read_mkdirp hartifacts).trans (Disk.read_mkdirp hmade)
  have hnoFile : d.read (capsuleDir ws ++ ["artifacts"]) = none := by
    have hclear := (Disk.mkdirp_isSome_iff.mp (by rw [hartifacts]; rfl)).2
      (capsuleDir ws ++ ["artifacts"]) ((List.mem_inits _ _).mpr (List.prefix_refl _))
    rwa [Disk.read_mkdirp hmade] at hclear
  refine .bind (via_fill hdir hname
    (forall_texts (P := fun name => '\x00' ∉ name.toList) names_firstTexts (by decide))
    (by rw [names_firstTexts]; decide)
    (fun hfirst d₃ hfilled => .bind
      (via_checked (fun _ hvalid => .bind ?_) fun _ hvalid hcapsule => ?_))
    fun hblocked _ _ hcapsule => hblocked ?_)
  · refine via_fill ((Disk.isDir_congr hfilled.dirs).trans hdir) hname
      (forall_texts (P := fun name => '\x00' ∉ name.toList) names_lastTexts (by decide))
      (by rw [names_lastTexts]; decide)
      (fun hlast d₄ hfilled' => .pure ⟨rfl, ⟨hws, by rw [hmade]; rfl, hnoFile, ?_, ?_⟩, ?_,
        hfilled'.reads, fun q hq => ?_⟩)
      fun hblocked _ _ hcapsule => hblocked ?_
    · intro name hmem
      have hcases : name ∈ ["work_order.md", "constraints.json"] ∨
          name ∈ ["run_manifest.json", "progress.jsonl", "final_report.md", "prompt.md"] :=
        List.mem_append.mp hmem
      rw [← hsame hmem]
      rcases hcases with hmem' | hmem'
      · rw [← names_firstTexts] at hmem'
        obtain ⟨f, hf, rfl⟩ := List.mem_map.mp hmem'
        exact hfirst f hf
      · rw [← names_lastTexts] at hmem'
        obtain ⟨f, hf, rfl⟩ := List.mem_map.mp hmem'
        exact (Disk.isDir_congr hfilled.dirs).symm.trans (hlast f hf)
    · by_contra hcheck
      rw [parseManifest, if_neg hcheck] at hvalid
      cases hvalid
    · intro f hf
      rw [hfilled'.others _ fun g hg heq => ?_]
      · exact hfilled.reads f hf
      · have hfst : f.1 = g.1 := Disk.below_inj.mp heq
        have hf' := List.mem_map_of_mem (f := Prod.fst) hf
        have hg' := List.mem_map_of_mem (f := Prod.fst) hg
        rw [names_firstTexts, hfst] at hf'
        rw [names_lastTexts] at hg'
        revert hf' hg'
        generalize g.1 = name
        simp only [List.mem_cons, List.not_mem_nil, or_false]
        rintro (rfl | rfl) <;> decide
    · rw [hfilled'.others q (forall_texts (P := fun name => q ≠ capsuleDir ws ++ [name])
        names_lastTexts fun name hmem => hq name (hlastNames name hmem)),
        hfilled.others q (forall_texts (P := fun name => q ≠ capsuleDir ws ++ [name])
        names_firstTexts fun name hmem => hq name (hfirstNames name hmem))]
      exact hreadSame q
    · refine forall_texts (P := fun name => d₃.isDir (capsuleDir ws ++ [name]) = false)
        names_lastTexts fun name hmem => ?_
      rw [Disk.isDir_congr hfilled.dirs, hsame (hlastNames name hmem)]
      exact hcapsule.files name (hlastNames name hmem)
  · rw [parseManifest, if_pos hcapsule.manifest] at hvalid
    cases hvalid
  · refine forall_texts (P := fun name => d₂.isDir (capsuleDir ws ++ [name]) = false)
      names_firstTexts fun name hmem => ?_
    rw [hsame (hfirstNames name hmem)]
    exact hcapsule.files name (hfirstNames name hmem)

/-- **When a capsule is written, and what it leaves.** -/
theorem via_writeCapsule {cwd : Path} (hws : ws = resolve cwd args.workspacePath) :
    EnsuresVia Files.disk (write platform cwd args) env d
      (fun r d' => r = result (capsuleDir ws) ∧ Capsulable d ws args.runManifest ∧
        Capsuled platform args ws d d')
      fun _ _ => ¬ Capsulable d ws args.runManifest := by
  subst hws
  refine .bind (via_statWorkspace (fun hws => .bind ?_) fun hws _ hcapsule => ?_)
  swap
  · rw [hcapsule.workspace] at hws
    cases hws
  refine via_onDisk (fun d₁ hmade => .bind ?_) fun hnone _ hcapsule => ?_
  swap
  · have hmade := hcapsule.made
    rw [hnone] at hmade
    cases hmade
  refine via_onDisk (fun d₂ hartifacts => via_capsuleTexts hws hmade hartifacts)
    fun hnone _ hcapsule => ?_
  have hsome : (d₁.mkdirp (capsuleDir (resolve cwd args.workspacePath) ++ ["artifacts"])).isSome =
      true := by
    refine Disk.mkdirp_isSome_iff.mpr ⟨?_, fun q hq => ?_⟩
    · rw [Disk.nameable, List.all_append, Bool.and_eq_true]
      exact ⟨Disk.nameable_of_mkdirp hmade, by decide⟩
    · rw [Disk.read_mkdirp hmade]
      rcases List.prefix_concat_iff.mp ((List.mem_inits _ _).mp hq) with rfl | hprefix
      · exact hcapsule.artifacts
      · exact (Disk.mkdirp_isSome_iff.mp hcapsule.made).2 q ((List.mem_inits _ _).mpr hprefix)
  rw [hnone] at hsome
  cases hsome

end FileTaskCapsuleWriter

/-- In a directory, a file is written unless it is one. -/
theorem via_writeBelow {c content : String} {Q : Unit → Disk → Prop} (hdir : d.isDir dir = true)
    (hname : Disk.nameable dir = true) (hc : '\x00' ∉ c.toList)
    (hQ : d.isDir (dir ++ [c]) = false → ∀ d', d'.dirs = d.dirs →
      d'.read (dir ++ [c]) = some content → (∀ q, q ≠ dir ++ [c] → d'.read q = d.read q) → Q () d')
    (hE : d.isDir (dir ++ [c]) = true → ∀ e, E e d) :
    EnsuresVia Files.disk (onDisk (Disk.writeFile · (dir ++ [c]) content)) env d Q E := by
  have hwritable := Disk.writable_below hdir hname hc
  refine via_onDisk (fun d' hwrite => ?_) fun hnone => hE ?_
  · have hsome : (d.writeFile (dir ++ [c]) content).isSome = true := by
      rw [hwrite]
      rfl
    exact hQ (hwritable.mp ((Disk.writeFile_isSome_iff content).mp hsome)) d'
      (Disk.dirs_writeFile hwrite) (Disk.read_writeFile hwrite) fun q hq =>
        Disk.read_writeFile_of_ne hwrite hq
  · by_contra hfree
    have hsome := (Disk.writeFile_isSome_iff content).mpr
      (hwritable.mpr (Bool.eq_false_iff.mpr hfree))
    rw [hnone] at hsome
    cases hsome

namespace HandoffManager

/-- A packet can be attached. -/
structure Attachable (d : Disk) (ws : Path) : Prop where
  made : (d.mkdirp (capsuleDir ws)).isSome = true
  packet : d.isDir (capsuleDir ws ++ ["handoff_packet.json"]) = false
  prompt : (d.read (capsuleDir ws ++ ["prompt.md"])).isSome = true
  prompt_file : d.isDir (capsuleDir ws ++ ["prompt.md"]) = false

/-- What an attached packet leaves: its file, the paragraph before the prompt, and every other file
as it was. -/
structure Attached (json : JsonText) (packet : HandoffPacket) (ws : Path) (d d' : Disk) : Prop where
  packet_read : d'.read (capsuleDir ws ++ ["handoff_packet.json"]) = some (packetText json packet)
  prompt : ∃ existingContent, d.read (capsuleDir ws ++ ["prompt.md"]) = some existingContent ∧
    d'.read (capsuleDir ws ++ ["prompt.md"]) =
      some (buildTakeoverParagraph packet ++ existingContent)
  others : ∀ q, q ≠ capsuleDir ws ++ ["handoff_packet.json"] → q ≠ capsuleDir ws ++ ["prompt.md"] →
    d'.read q = d.read q

/-- **When a packet is attached, and what it leaves.** -/
theorem via_attachToBrief {json : JsonText} {cwd : Path} {workspacePath : String}
    {packet : HandoffPacket} (hws : ws = resolve cwd workspacePath) :
    EnsuresVia Files.disk (attachToBrief json cwd workspacePath packet) env d
      (fun _ d' => Attachable d ws ∧ Attached json packet ws d d')
      fun _ _ => ¬ Attachable d ws := by
  subst hws
  refine .bind (via_existsAt (.ite (fun _ => .bind ?_) fun hmissing => .throw fun hattach => ?_))
  swap
  · exact hmissing (Bool.or_eq_true_iff.mpr (Or.inr hattach.prompt))
  refine via_onDisk (fun d₁ hmade => .bind ?_) fun hnone _ hattach => ?_
  swap
  · have hmade := hattach.made
    rw [hnone] at hmade
    cases hmade
  have hdir := Disk.isDir_of_mkdirp hmade (List.prefix_refl _)
  have hname := Disk.nameable_of_mkdirp hmade
  have hbelow : ∀ {c}, d₁.isDir (capsuleDir (resolve cwd workspacePath) ++ [c]) =
      d.isDir (capsuleDir (resolve cwd workspacePath) ++ [c]) := fun {c} =>
    Disk.isDir_mkdirp_below hmade
  have hne : capsuleDir (resolve cwd workspacePath) ++ ["prompt.md"] ≠
      capsuleDir (resolve cwd workspacePath) ++ ["handoff_packet.json"] := fun heq =>
    absurd (Disk.below_inj.mp heq) (by decide)
  refine via_writeBelow (c := "handoff_packet.json") hdir hname (by decide)
    (fun hpacket d₂ hdirs hread hkept => .bind ?_) fun hblocked _ hattach => ?_
  swap
  · rw [hbelow, hattach.packet] at hblocked
    cases hblocked
  have hsame : d₂.read (capsuleDir (resolve cwd workspacePath) ++ ["prompt.md"]) =
      d.read (capsuleDir (resolve cwd workspacePath) ++ ["prompt.md"]) :=
    (hkept _ hne).trans (Disk.read_mkdirp hmade)
  refine via_readFile (fun existingContent hcontent => ?_) fun hnone _ hattach => ?_
  swap
  · have hprompt := hattach.prompt
    rw [← hsame, hnone] at hprompt
    cases hprompt
  rw [hsame] at hcontent
  refine via_writeBelow (c := "prompt.md") ((Disk.isDir_congr hdirs).trans hdir) hname (by decide)
    (fun hprompt d₃ _ hread' hkept' => ⟨⟨by rw [hmade]; rfl, ?_, by rw [hcontent]; rfl, ?_⟩, ?_,
      ⟨existingContent, hcontent, hread'⟩, fun q hq hq' => ?_⟩) fun hblocked _ hattach => ?_
  · rwa [hbelow] at hpacket
  · rwa [Disk.isDir_congr hdirs, hbelow] at hprompt
  · rw [hkept' _ (Ne.symm hne)]
    exact hread
  · rw [hkept' q hq', hkept q hq]
    exact Disk.read_mkdirp hmade
  · rw [Disk.isDir_congr hdirs, hbelow, hattach.prompt_file] at hblocked
    cases hblocked

end HandoffManager

end specs

end AgentWorkflow
