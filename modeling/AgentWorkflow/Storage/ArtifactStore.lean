import AgentWorkflow.Lib.Run
import AgentWorkflow.Storage.BackendStores
import AgentWorkflow.Storage.QueueStore

/-!
# The local artifact store

`LocalArtifactStore` of `storage/artifact-store.ts`: texts and files under
`.agentflow/artifacts/<task>/<run>/<file>`, with a row and a URI each.

* `validatePathSegment`, `parseArtifactUri`, `artifactUri` — what the store takes, and its URIs.
* `parse_artifactUri_iff` — **a URI is read back exactly when its segments have none of `?`, `#` and
  a backslash**, which the validation lets through; `artifactUri_of_parse` — a URI that is accepted
  is the rendering of what it is parsed into.
* `localArtifactStore` — the store, as the interface its callers see.
* **`saved_readable_iff`** — which texts can be read back for as long as nobody saves to their name
  again.
-/

namespace AgentWorkflow

open Fallible Posix

/-! ## Segments -/

/-- Source: `artifact-store.ts` `validatePathSegment`. -/
def validatePathSegment (name value : String) : Except Err Unit :=
  if value = "" then .error (.error ("Invalid " ++ name ++ ": empty string"))
  else if blank value = true then .error (.error ("Invalid " ++ name ++ ": whitespace only"))
  else if includes value ".." = true then
    .error (.error ("Invalid " ++ name ++ " (path traversal): \"" ++ value ++ "\""))
  else if includes value "%" = true then
    .error (.error ("Invalid " ++ name ++ " (encoded path segment): \"" ++ value ++ "\""))
  else if isAbsolute value = true then
    .error (.error ("Invalid " ++ name ++ " (absolute path): \"" ++ value ++ "\""))
  else if value ≠ basename value then
    .error (.error ("Invalid " ++ name ++ " (contains path separator): \"" ++ value ++ "\""))
  else .ok ()

/-- What `validatePathSegment` lets through. -/
structure Segment (value : String) : Prop where
  not_blank : blank value = false
  no_traversal : includes value ".." = false
  not_encoded : includes value "%" = false
  no_separator : '/' ∉ value.toList

theorem ne_empty_of_not_blank {value : String} (h : blank value = false) : value ≠ "" := by
  rintro rfl
  cases h

theorem validatePathSegment_ok_iff {name value : String} :
    validatePathSegment name value = .ok () ↔ Segment value := by
  unfold validatePathSegment
  constructor
  · intro h
    split_ifs at h with h₁ h₂ h₃ h₄ h₅ h₆
    exact ⟨by simpa using h₂, by simpa using h₃, by simpa using h₄,
      basename_eq_self_iff.mp (not_not.mp h₆).symm⟩
  · rintro ⟨h₂, h₃, h₄, h₆⟩
    rw [if_neg (ne_empty_of_not_blank h₂), if_neg (by simp [h₂]), if_neg (by simp [h₃]),
      if_neg (by simp [h₄]), if_neg (by simp [isAbsolute_of_notMem h₆]),
      if_neg (not_not.mpr (basename_eq_self_iff.mpr h₆).symm)]

/-! ## URIs -/

/-- Where a URI leads. -/
structure ArtifactName where
  taskId : String
  runId : String
  filename : String
  deriving DecidableEq, Repr

/-- Every segment of a name meets `P`. -/
def ArtifactName.All (P : String → Prop) (n : ArtifactName) : Prop :=
  P n.taskId ∧ P n.runId ∧ P n.filename

/-- Source: `artifact-store.ts` `artifactUri`. -/
def artifactUri (n : ArtifactName) : String :=
  "artifact://" ++ (n.taskId ++ "/" ++ n.runId ++ "/" ++ n.filename)

/-- The three validations of a name. -/
def validateName (n : ArtifactName) : Except Err Unit := do
  validatePathSegment "taskId" n.taskId
  validatePathSegment "runId" n.runId
  validatePathSegment "filename" n.filename

/-- The part of a URI after its scheme. -/
def afterScheme (uri : String) : String :=
  String.ofList (uri.toList.drop "artifact://".toList.length)

/-- Source: `artifact-store.ts` `parseArtifactUri`. -/
def parseArtifactUri (uri : String) : Except Err ArtifactName :=
  if "artifact://".toList.isPrefixOf uri.toList = false then
    .error (.error ("Invalid artifact URI: " ++ uri))
  else if includes (afterScheme uri) "?" = true ∨ includes (afterScheme uri) "#" = true ∨
      includes (afterScheme uri) "\\" = true then
    .error (.error ("Invalid artifact URI: " ++ uri))
  else
    match split (afterScheme uri) '/' with
    | [taskId, runId, filename] => do
      validateName ⟨taskId, runId, filename⟩
      pure ⟨taskId, runId, filename⟩
    | _ => .error (.error ("Invalid artifact URI: " ++ uri))

/-- The text has no character a URI is refused for. -/
def UriPlain (value : String) : Prop :=
  '?' ∉ value.toList ∧ '#' ∉ value.toList ∧ '\\' ∉ value.toList

instance (value : String) : Decidable (UriPlain value) :=
  inferInstanceAs (Decidable (_ ∧ _ ∧ _))

section uris

variable {n n' : ArtifactName} {uri : String}

theorem validateName_ok_iff : validateName n = .ok () ↔ n.All Segment := by
  have hbind : ∀ x y : Except Err Unit, (x >>= fun _ => y) = .ok () ↔ x = .ok () ∧ y = .ok () := by
    intro x y
    cases x <;> simp [Bind.bind, Except.bind]
  simp only [validateName, hbind, validatePathSegment_ok_iff, ArtifactName.All]

/-- The part after the scheme is plain exactly when the URI is not refused for its characters. -/
theorem uriPlain_iff {value : String} : UriPlain value ↔
    ¬ (includes value "?" = true ∨ includes value "#" = true ∨ includes value "\\" = true) := by
  have h : ∀ c : Char, includes value (String.ofList [c]) = true ↔ c ∈ value.toList := fun c =>
    includes_singleton
  rw [show "?" = String.ofList ['?'] from rfl, show "#" = String.ofList ['#'] from rfl,
    show "\\" = String.ofList ['\\'] from rfl, h, h, h]
  simp only [UriPlain, not_or]

theorem afterScheme_artifactUri :
    afterScheme (artifactUri n) = n.taskId ++ "/" ++ n.runId ++ "/" ++ n.filename := by
  rw [afterScheme, artifactUri, String.toList_append, List.drop_left, String.ofList_toList]

/-- The path of a URI is plain when its segments are. -/
theorem uriPlain_path_iff :
    UriPlain (n.taskId ++ "/" ++ n.runId ++ "/" ++ n.filename) ↔ n.All UriPlain := by
  have hslash : "/".toList = ['/'] := rfl
  have h₁ : '?' ≠ '/' := by decide
  have h₂ : '#' ≠ '/' := by decide
  have h₃ : '\\' ≠ '/' := by decide
  simp only [UriPlain, ArtifactName.All, String.toList_append, List.mem_append, hslash,
    List.mem_singleton, not_or]
  tauto

/-- **A URI is read back exactly when its segments are plain.** -/
theorem parse_artifactUri_iff (hn : n.All Segment) :
    parseArtifactUri (artifactUri n) = .ok n ↔ n.All UriPlain := by
  have hinit : ("artifact://".toList.isPrefixOf (artifactUri n).toList) = true := by
    rw [List.isPrefixOf_iff_prefix, artifactUri, String.toList_append]
    exact List.prefix_append _ _
  unfold parseArtifactUri
  rw [if_neg (by rw [hinit]; simp), afterScheme_artifactUri, ← uriPlain_path_iff, uriPlain_iff]
  by_cases hplain : includes (n.taskId ++ "/" ++ n.runId ++ "/" ++ n.filename) "?" = true ∨
      includes (n.taskId ++ "/" ++ n.runId ++ "/" ++ n.filename) "#" = true ∨
      includes (n.taskId ++ "/" ++ n.runId ++ "/" ++ n.filename) "\\" = true
  · rw [if_pos hplain]
    refine ⟨fun h => ?_, fun h => absurd hplain h⟩
    cases h
  · have hsplit : split (n.taskId ++ "/" ++ n.runId ++ "/" ++ n.filename) '/' =
        [n.taskId, n.runId, n.filename] :=
      split_three hn.1.no_separator hn.2.1.no_separator hn.2.2.no_separator
    rw [if_neg hplain, hsplit]
    refine ⟨fun _ => hplain, fun _ => ?_⟩
    show (validateName n >>= fun _ => pure n) = .ok n
    rw [validateName_ok_iff.mpr hn]
    rfl

/-- What a URI is parsed into. -/
theorem parse_spec (h : parseArtifactUri uri = .ok n) :
    artifactUri n = uri ∧ n.All Segment ∧ n.All UriPlain := by
  unfold parseArtifactUri at h
  split at h
  · cases h
  next hinit =>
    split at h
    · cases h
    next hplain =>
      split at h
      next taskId runId filename hsplit =>
        cases hvalid : validateName ⟨taskId, runId, filename⟩ with
        | error e =>
          rw [hvalid] at h
          cases h
        | ok u =>
          rw [hvalid] at h
          cases h
          have hrest : afterScheme uri = taskId ++ "/" ++ runId ++ "/" ++ filename :=
            eq_of_split_three hsplit
          refine ⟨?_, validateName_ok_iff.mp hvalid, ?_⟩
          · obtain ⟨rest, hrest'⟩ :=
              List.isPrefixOf_iff_prefix.mp (Bool.eq_true_of_not_eq_false hinit)
            refine String.toList_injective ?_
            have hafter : afterScheme uri = String.ofList rest := by
              rw [afterScheme, ← hrest', List.drop_left]
            rw [artifactUri, ← hrest, hafter, String.toList_append]
            exact (congrArg _ String.toList_ofList).trans hrest'
          · exact uriPlain_path_iff.mp (hrest ▸ uriPlain_iff.mpr hplain)
      next => cases h

end uris

/-! ## The store -/

/-- What a store is constructed with: its repository, and the digest it uses. -/
structure LocalArtifactStore where
  repo : Path
  sha256hex : String → String

/-- The name of a text. -/
def SaveText.name (args : SaveText) : ArtifactName := ⟨args.taskId, args.runId, args.filename⟩

/-- The name of a file. -/
def SaveFile.name (args : SaveFile) : ArtifactName := ⟨args.taskId, args.runId, args.filename⟩

/-- The number of a service's next reading. -/
def nextServiceCall : ServiceM ℕ := do
  let f ← get
  set { f with calls := f.calls + 1 }
  pure f.calls

/-- A check without effects. -/
def checked {α : Type} : Except Err α → ServiceM α
  | .ok a => pure a
  | .error e => throw e

/-- Change the disk, or fail. -/
def onDisk (f : Disk → Option Disk) : ServiceM Unit := do
  let files ← get
  match f files.disk with
  | some disk => set { files with disk }
  | none => throw (.error "EISDIR, EEXIST or ENOTDIR")

/-- Read a file of the disk. -/
def readFile (p : Path) : ServiceM String := do
  let files ← get
  match files.disk.read p with
  | some content => pure content
  | none => throw (.error "ENOENT")

namespace LocalArtifactStore

variable (store : LocalArtifactStore)

/-- Source: `artifact-store.ts` `artifactDir`. -/
def artifactDir (taskId runId : String) : Path :=
  [".agentflow", "artifacts", taskId, runId].foldl resolve store.repo

/-- Where a save writes: `path.join(dir, filename)`. -/
def savePath (n : ArtifactName) : Path := resolve (store.artifactDir n.taskId n.runId) n.filename

/-- Source: `artifact-store.ts` `artifactPath`. -/
def artifactPath (n : ArtifactName) : Except Err Path :=
  let baseDir := store.artifactDir n.taskId n.runId
  let filePath := resolve baseDir n.filename
  let down := relative baseDir filePath
  if "..".toList.isPrefixOf down.toList = true ∨ isAbsolute down = true then
    .error (.error ("Invalid artifact URI path traversal: " ++ n.filename))
  else .ok filePath

/-- Source: `artifact-store.ts` `insertArtifact`. -/
def insertArtifact (n : ArtifactName) (projectId : String) (kind : ArtifactKind)
    (checksum : String) (summary : Option String) : ServiceM ArtifactRef := do
  let env ← read
  let id ← nextServiceCall
  let createdAt ← nextServiceCall
  let call ← nextServiceCall
  if env.throws call .insertArtifact = true then throw (.error "SqliteError")
  else do
    modify fun f => { f with artifacts := f.artifacts ++ [
      { id := "A-" ++ env.uuid id, projectId, taskId := n.taskId, runId := n.runId, kind,
        uri := artifactUri n, path := (store.savePath n).text, checksum, summary,
        createdAt := env.clock createdAt }] }
    pure { uri := artifactUri n, kind, checksum := some checksum, summary }

/-- Source: `artifact-store.ts` `saveText`. -/
def saveText (args : SaveText) : ServiceM ArtifactRef := do
  checked (validateName args.name)
  onDisk (Disk.mkdirp · (store.artifactDir args.taskId args.runId))
  onDisk (Disk.writeFile · (store.savePath args.name) args.content)
  store.insertArtifact args.name args.projectId args.kind
    ("sha256:" ++ store.sha256hex args.content) args.summary

/-- Source: `artifact-store.ts` `saveFile`. -/
def saveFile (args : SaveFile) : ServiceM ArtifactRef := do
  checked (validateName args.name)
  onDisk (Disk.mkdirp · (store.artifactDir args.taskId args.runId))
  let source ← readFile (resolve [] args.sourcePath)
  onDisk (Disk.writeFile · (store.savePath args.name) source)
  let content ← readFile (store.savePath args.name)
  store.insertArtifact args.name args.projectId args.kind
    ("sha256:" ++ store.sha256hex content) args.summary

/-- Source: `artifact-store.ts` `readText`. -/
def readText (uri : String) : ServiceM String := do
  let parsed ← checked (parseArtifactUri uri)
  let filePath ← checked (store.artifactPath parsed)
  readFile filePath

/-- The store as its callers see it. -/
def toArtifactStore : ArtifactStore where
  saveText := store.saveText
  saveFile := store.saveFile
  readText := store.readText

/-! ## Where a name is saved -/

section paths

variable {n n' : ArtifactName}

/-- The segments of a path that a directory has. -/
def seen (value : String) : List String := if value = "." then [] else [value]

/-- A component that is not empty and does not go up. -/
theorem resolve_seen {p : Path} {value : String} (hempty : value ≠ "") (hup : value ≠ "..")
    (hplain : '/' ∉ value.toList) : resolve p value = p ++ seen value := by
  unfold seen
  rw [resolve_of_plain hplain, step]
  by_cases hdot : value = "."
  · rw [if_pos (Or.inr hdot), if_pos hdot, List.append_nil]
  · rw [if_neg (not_or.mpr ⟨hempty, hdot⟩), if_neg hup, if_neg hdot]

theorem resolve_dot {p : Path} : resolve p "." = p := by
  rw [resolve_seen (by decide) (by decide) (by decide)]
  exact List.append_nil p

theorem ne_up {value : String} (h : includes value ".." = false) : value ≠ ".." := by
  rintro rfl
  simp [includes] at h

theorem resolve_segment {p : Path} {value : String} (h : Segment value) :
    resolve p value = p ++ seen value :=
  resolve_seen (ne_empty_of_not_blank h.not_blank) (ne_up h.no_traversal) h.no_separator

/-- A segment that is not the current directory. -/
theorem resolve_of_segment {p : Path} {value : String} (h : Segment value) (hdot : value ≠ ".") :
    resolve p value = p ++ [value] := by
  rw [resolve_segment h, seen, if_neg hdot]

/-- The directory of the artifacts. -/
def root : Path := [".agentflow", "artifacts"].foldl resolve store.repo

theorem artifactDir_eq (hn : n.All Segment) :
    store.artifactDir n.taskId n.runId = store.root ++ (seen n.taskId ++ seen n.runId) := by
  show resolve (resolve store.root n.taskId) n.runId = _
  rw [resolve_segment hn.1, resolve_segment hn.2.1, List.append_assoc]

theorem savePath_eq (hn : n.All Segment) : store.savePath n =
    store.root ++ (seen n.taskId ++ seen n.runId ++ seen n.filename) := by
  rw [savePath, store.artifactDir_eq hn, resolve_segment hn.2.2, List.append_assoc]

/-- A valid name is read where it was saved. -/
theorem artifactPath_eq (hn : n.All Segment) : store.artifactPath n = .ok (store.savePath n) := by
  have hdown : relative (store.artifactDir n.taskId n.runId) (store.savePath n) =
      String.intercalate "/" (seen n.filename) := by
    rw [savePath, resolve_segment hn.2.2]
    exact relative_append
  have hname : String.intercalate "/" (seen n.filename) = "" ∨
      String.intercalate "/" (seen n.filename) = n.filename := by
    unfold seen
    by_cases hdot : n.filename = "."
    · rw [if_pos hdot]
      exact Or.inl rfl
    · rw [if_neg hdot]
      exact Or.inr rfl
  have hsafe : ¬ ("..".toList.isPrefixOf (String.intercalate "/" (seen n.filename)).toList = true ∨
      isAbsolute (String.intercalate "/" (seen n.filename)) = true) := by
    rcases hname with h | h
    · rw [h]
      decide
    · rw [h, isAbsolute_of_notMem hn.2.2.no_separator]
      simp only [Bool.false_eq_true, or_false]
      intro hinit
      have hinfix := (List.isPrefixOf_iff_prefix.mp hinit).isInfix
      have := hn.2.2.no_traversal
      simp only [includes, decide_eq_false_iff_not] at this
      exact this hinfix
  show (if "..".toList.isPrefixOf
      (relative (store.artifactDir n.taskId n.runId) (store.savePath n)).toList = true ∨
      isAbsolute (relative (store.artifactDir n.taskId n.runId) (store.savePath n)) = true
    then _ else Except.ok (store.savePath n)) = _
  rw [hdown, if_neg hsafe]

end paths

/-! ## What is saved stays -/

/-- A save, of a text or of a file. -/
inductive Save
  | text (args : SaveText)
  | file (args : SaveFile)

/-- The name of a save. -/
def Save.name : Save → ArtifactName
  | .text args => args.name
  | .file args => args.name

/-- The program of a save. -/
def save : Save → ServiceM ArtifactRef
  | .text args => store.saveText args
  | .file args => store.saveFile args

/-- The files after a call, whether it returned or threw. -/
def filesAfter {α : Type} : EStateM.Result Err Files α → Files
  | .ok _ files => files
  | .error _ files => files

/-- A save happens, in its surroundings; it returns or throws. -/
def SaveStep (files : Files) (label : Save × Env) (files' : Files) : Prop :=
  filesAfter (store.save label.1 label.2 files) = files'

section disk

variable {store} {env : Env} {d : Disk} {n : ArtifactName} {E : Err → Disk → Prop}

theorem via_checked {α : Type} {x : Except Err α} {Q : α → Disk → Prop}
    (hQ : ∀ a, x = .ok a → Q a d) (hE : ∀ e, x = .error e → E e d) :
    EnsuresVia Files.disk (checked x) env d Q E := by
  cases x with
  | ok a => exact .pure (hQ a rfl)
  | error e => exact .throw (hE e rfl)

theorem via_onDisk {f : Disk → Option Disk} {Q : Unit → Disk → Prop}
    (hQ : ∀ d', f d = some d' → Q () d') (hE : f d = none → ∀ e, E e d) :
    EnsuresVia Files.disk (onDisk f) env d Q E := by
  rintro files rfl
  unfold onDisk
  refine ensures_bind.mpr (ensures_get.mpr ?_)
  cases hf : f files.disk with
  | none => exact hE hf _
  | some d' => exact hQ d' hf

theorem via_readFile {p : Path} {Q : String → Disk → Prop}
    (hQ : ∀ content, d.read p = some content → Q content d)
    (hE : d.read p = none → ∀ e, E e d) :
    EnsuresVia Files.disk (readFile p) env d Q E := by
  rintro files rfl
  unfold readFile
  refine ensures_bind.mpr (ensures_get.mpr ?_)
  cases hread : files.disk.read p with
  | none => exact hE hread _
  | some content => exact hQ content hread

/-- The row of an artifact is written without touching the disk. -/
theorem via_insertArtifact {projectId checksum : String} {kind : ArtifactKind}
    {summary : Option String} {Q : ArtifactRef → Disk → Prop}
    (hQ : Q { uri := artifactUri n, kind, checksum := some checksum, summary } d)
    (hE : (∃ k, env.throws k .insertArtifact = true) → ∀ e, E e d) :
    EnsuresVia Files.disk (store.insertArtifact n projectId kind checksum summary) env d Q E := by
  have hcall : ∀ {Q : ℕ → Disk → Prop}, (∀ k, Q k d) →
      EnsuresVia Files.disk nextServiceCall env d Q E := by
    rintro Q hQ files rfl
    exact hQ _
  refine .bind (.read (.bind (hcall fun id => .bind (hcall fun createdAt =>
    .bind (hcall fun call => .ite (fun hthrows => .throw (hE ⟨_, hthrows⟩ _)) fun _ => ?_)))))
  refine .bind ?_
  rintro files rfl
  exact ensures_modify.mpr (.pure hQ)

/-- A file is written where nothing is made a directory. -/
theorem filename_of_writeFile {d' d'' : Disk} {content : String}
    (hdir : d.mkdirp (store.artifactDir n.taskId n.runId) = some d')
    (hwrite : d'.writeFile (store.savePath n) content = some d'') : n.filename ≠ "." := by
  intro hdot
  rw [savePath, hdot, resolve_dot, Disk.writeFile_mkdirp hdir] at hwrite
  cases hwrite

/-- A text that was accepted has a valid name, and is where its name leads. -/
theorem saveText_spec {args : SaveText} :
    EnsuresVia Files.disk (store.saveText args) env d
      (fun ref d' => ref.uri = artifactUri args.name ∧ args.name.All Segment ∧
        args.name.filename ≠ "." ∧ Disk.nameable (store.savePath args.name) = true ∧
        d'.read (store.savePath args.name) = some args.content)
      fun _ _ => True := by
  refine .bind (via_checked (fun _ hvalid => ?_) fun _ _ => trivial)
  refine .bind (via_onDisk (fun d₁ hdir => ?_) fun _ _ => trivial)
  refine .bind (via_onDisk (fun d₂ hwrite => ?_) fun _ _ => trivial)
  exact via_insertArtifact ⟨rfl, validateName_ok_iff.mp hvalid, filename_of_writeFile hdir hwrite,
    Disk.nameable_of_writeFile hwrite, Disk.read_writeFile hwrite⟩ fun _ _ => trivial

/-- A save leaves the files of other paths. -/
theorem save_keeps {s : Save} {p : Path}
    (hp : s.name.All Segment → s.name.filename ≠ "." → p ≠ store.savePath s.name) :
    EnsuresVia Files.disk (store.save s) env d (fun _ d' => d'.read p = d.read p)
      fun _ d' => d'.read p = d.read p := by
  have hwritten : ∀ {d₁ d₂ content}, s.name.All Segment →
      d.mkdirp (store.artifactDir s.name.taskId s.name.runId) = some d₁ →
      d₁.writeFile (store.savePath s.name) content = some d₂ → d₂.read p = d.read p := by
    intro d₁ d₂ content hvalid hdir hwrite
    have hne := hp hvalid (filename_of_writeFile hdir hwrite)
    rw [Disk.read_writeFile_of_ne hwrite hne, Disk.read_mkdirp hdir]
  cases s with
  | text args =>
    refine .bind (via_checked (fun _ hvalid => ?_) fun _ _ => rfl)
    refine .bind (via_onDisk (fun d₁ hdir => ?_) fun _ _ => rfl)
    refine .bind (via_onDisk (fun d₂ hwrite => ?_) fun _ _ => Disk.read_mkdirp hdir)
    have hsame := hwritten (validateName_ok_iff.mp hvalid) hdir hwrite
    exact via_insertArtifact hsame fun _ _ => hsame
  | file args =>
    refine .bind (via_checked (fun _ hvalid => ?_) fun _ _ => rfl)
    refine .bind (via_onDisk (fun d₁ hdir => ?_) fun _ _ => rfl)
    refine .bind (via_readFile (fun source _ => ?_) fun _ _ => Disk.read_mkdirp hdir)
    refine .bind (via_onDisk (fun d₂ hwrite => ?_) fun _ _ => Disk.read_mkdirp hdir)
    have hsame := hwritten (validateName_ok_iff.mp hvalid) hdir hwrite
    refine .bind (via_readFile (fun _ _ => ?_) fun _ _ => hsame)
    exact via_insertArtifact hsame fun _ _ => hsame

end disk

/-! ## What can be read back -/

/-- A text saved under the name is read back, until somebody saves under the name again: with any
store, from any files. -/
def SavedReadable (n : ArtifactName) : Prop :=
  ∀ (store : LocalArtifactStore) (args : SaveText) (env : Env) (files files₁ : Files)
    (ref : ArtifactRef), args.name = n → store.saveText args env files = .ok ref files₁ →
    ∀ (later : List (Save × Env)) (files₂ : Files), Run store.SaveStep files₁ later files₂ →
      (∀ s ∈ later, s.1.name ≠ n) →
      ∀ env', ∃ files₃, store.readText ref.uri env' files₂ = .ok args.content files₃

/-- Both directories of the name are the current one, or neither is. -/
def NoAlias (n : ArtifactName) : Prop := n.taskId = "." ↔ n.runId = "."

instance (n : ArtifactName) : Decidable (NoAlias n) := inferInstanceAs (Decidable (_ ↔ _))

section readable

variable {store} {n n' : ArtifactName}

/-- Names with no alias have a file of their own. -/
theorem name_of_savePath (hn : n.All Segment) (hn' : n'.All Segment) (hfile : n.filename ≠ ".")
    (hfile' : n'.filename ≠ ".") (halias : NoAlias n)
    (h : store.savePath n = store.savePath n') : n' = n := by
  rw [store.savePath_eq hn, store.savePath_eq hn'] at h
  have hsegments := List.append_cancel_left h
  rw [seen, seen, seen, seen, seen, seen, if_neg hfile, if_neg hfile'] at hsegments
  obtain ⟨t, r, f⟩ := n
  obtain ⟨t', r', f'⟩ := n'
  simp only [NoAlias] at halias hsegments ⊢
  by_cases ht : t = "."
  · have hr := halias.mp ht
    by_cases ht' : t' = "." <;> by_cases hr' : r' = "." <;> simp_all
  · have hr : r ≠ "." := fun hr => ht (halias.mpr hr)
    by_cases ht' : t' = "." <;> by_cases hr' : r' = "." <;> simp_all

/-- What is read under a URI is what is at its path. -/
theorem readText_spec {env : Env} {d : Disk} (hn : n.All Segment) :
    EnsuresVia Files.disk (store.readText (artifactUri n)) env d
      (fun content _ => n.All UriPlain ∧ d.read (store.savePath n) = some content)
      fun _ _ => ¬ n.All UriPlain ∨ d.read (store.savePath n) = none := by
  have hparse : ∀ n', parseArtifactUri (artifactUri n) = .ok n' → n.All UriPlain ∧ n' = n := by
    intro n' h
    have hplain : n.All UriPlain := by
      by_contra hnot
      obtain ⟨huri, hn', hplain'⟩ := parse_spec h
      have hpath := congrArg afterScheme huri
      rw [afterScheme_artifactUri, afterScheme_artifactUri] at hpath
      exact hnot (uriPlain_path_iff.mp (hpath ▸ uriPlain_path_iff.mpr hplain'))
    exact ⟨hplain, Except.ok.inj (h.symm.trans ((parse_artifactUri_iff hn).mpr hplain))⟩
  refine .bind (via_checked (fun n' hp => ?_) fun e hp => .inl fun hplain => ?_)
  · obtain ⟨hplain, rfl⟩ := hparse n' hp
    refine .bind (via_checked (fun p hpath => ?_) fun e hpath => ?_)
    · rw [store.artifactPath_eq hn] at hpath
      cases hpath
      exact via_readFile (fun content hread => ⟨hplain, hread⟩) fun hnone _ => .inr hnone
    · rw [store.artifactPath_eq hn] at hpath
      cases hpath
  · rw [(parse_artifactUri_iff hn).mpr hplain] at hp
    cases hp

/-- A save is accepted where nothing is in its way. -/
theorem saveText_returns {env : Env} {d : Disk} {args : SaveText}
    (hn : args.name.All Segment) (hfile : args.name.filename ≠ ".")
    (hnameable : Disk.nameable (store.savePath args.name) = true)
    (hfree : ∀ q ∈ (store.artifactDir args.taskId args.runId).inits, d.read q = none)
    (hnotdir : d.isDir (store.savePath args.name) = false)
    (hquiet : ∀ k, env.throws k .insertArtifact = false) :
    EnsuresVia Files.disk (store.saveText args) env d
      (fun ref d' => ref.uri = artifactUri args.name ∧
        d'.read (store.savePath args.name) = some args.content ∧
        (∀ q, q ≠ store.savePath args.name → d'.read q = d.read q) ∧
        d'.isDir (store.savePath args.name) = false)
      fun _ _ => False := by
  have hpath : store.savePath args.name =
      store.artifactDir args.taskId args.runId ++ [args.filename] :=
    resolve_of_segment hn.2.2 hfile
  have hlonger : store.savePath args.name ∉ (store.artifactDir args.taskId args.runId).inits := by
    rw [hpath, List.mem_inits]
    intro hinit
    have := hinit.length_le
    simp at this
  have hdirNameable : Disk.nameable (store.artifactDir args.taskId args.runId) = true := by
    rw [hpath] at hnameable
    simp only [Disk.nameable, List.all_append, Bool.and_eq_true] at hnameable ⊢
    exact hnameable.1
  have hdir : d.mkdirp (store.artifactDir args.taskId args.runId) =
      some { d with dirs := (store.artifactDir args.taskId args.runId).inits ++ d.dirs } :=
    if_pos ⟨hdirNameable, hfree⟩
  obtain ⟨d₁, hd₁⟩ : ∃ d₁ : Disk, d₁ =
      { d with dirs := (store.artifactDir args.taskId args.runId).inits ++ d.dirs } := ⟨_, rfl⟩
  rw [← hd₁] at hdir
  have hnotdir₁ : d₁.isDir (store.savePath args.name) = false := by
    simp only [Disk.isDir, decide_eq_false_iff_not, not_or] at hnotdir ⊢
    refine ⟨hnotdir.1, fun hmem => ?_⟩
    rw [hd₁] at hmem
    rcases List.mem_append.mp hmem with h | h
    · exact hlonger h
    · exact hnotdir.2 h
  have hparent : d₁.isDir (store.savePath args.name).dropLast = true := by
    rw [hpath, List.dropLast_concat, hd₁]
    simp [Disk.isDir, List.mem_inits]
  have hwrite : d₁.writeFile (store.savePath args.name) args.content =
      some { d₁ with files := (store.savePath args.name, args.content) :: d₁.files } :=
    if_pos ⟨hnameable, hnotdir₁, hparent⟩
  refine .bind (via_checked (fun _ _ => ?_) fun e he => ?_)
  swap
  · rw [validateName_ok_iff.mpr hn] at he
    cases he
  refine .bind (via_onDisk (fun d' hd' => ?_) fun hnone => by simp [hdir] at hnone)
  obtain rfl : d₁ = d' := Option.some.inj (hdir.symm.trans hd')
  refine .bind (via_onDisk (fun d₂ hd₂ => ?_) fun hnone => by simp [hwrite] at hnone)
  refine via_insertArtifact ⟨rfl, Disk.read_writeFile hd₂, fun q hq => ?_, ?_⟩ ?_
  · rw [Disk.read_writeFile_of_ne hd₂ hq, Disk.read_mkdirp hd']
  · rw [hwrite] at hd₂
    cases hd₂
    exact hnotdir₁
  · rintro ⟨k, hk⟩
    rw [hquiet k] at hk
    cases hk

/-- A name without zero characters leads to a path without them. -/
theorem nameable_iff (hn : n.All Segment) :
    Disk.nameable (store.savePath n) = true ↔ Disk.nameable store.root = true ∧
      Disk.nameable [n.taskId, n.runId, n.filename] = true := by
  have hseen : ∀ value, Disk.nameable (seen value) = true ↔ Disk.nameable [value] = true := by
    intro value
    unfold seen
    by_cases hdot : value = "."
    · rw [if_pos hdot, hdot]
      decide
    · rw [if_neg hdot]
  have happend : ∀ p q, Disk.nameable (p ++ q) = true ↔
      Disk.nameable p = true ∧ Disk.nameable q = true := fun p q => by
    simp only [Disk.nameable, List.all_append, Bool.and_eq_true]
  have hthree : Disk.nameable [n.taskId, n.runId, n.filename] = true ↔
      Disk.nameable [n.taskId] = true ∧ Disk.nameable [n.runId] = true ∧
        Disk.nameable [n.filename] = true := by
    simp [Disk.nameable]
  rw [store.savePath_eq hn, happend, happend, happend, hseen, hseen, hseen, hthree, and_assoc]

/-- Nobody else saves where a name without an alias is saved. -/
theorem saved_kept (hn : n.All Segment) (hfile : n.filename ≠ ".") (halias : NoAlias n)
    {later : List (Save × Env)} {files files' : Files} (h : Run store.SaveStep files later files')
    (hlater : ∀ s ∈ later, s.1.name ≠ n) :
    files'.disk.read (store.savePath n) = files.disk.read (store.savePath n) := by
  induction h with
  | nil => rfl
  | @cons files files₁ files' s later hstep _ ih =>
    rw [ih fun s' hs' => hlater s' (List.mem_cons_of_mem s hs')]
    have hkeeps := @save_keeps store s.2 files.disk s.1 (store.savePath n) fun hs hsfile hp =>
      hlater s List.mem_cons_self (name_of_savePath hn hs hfile hsfile halias hp)
    have hspec := hkeeps files rfl
    rw [← hstep]
    cases hres : store.save s.1 s.2 files with
    | ok ref f => exact hspec.of_ok hres
    | error e f => exact hspec.of_error hres

/-- The store with its artifacts at the root, and surroundings where nothing throws. -/
def plainStore : LocalArtifactStore := ⟨[], fun _ => ""⟩

def plainEnv : Env := ⟨fun _ => 0, fun _ => "", fun _ _ => false⟩

/-- A save of a text under a name. -/
def textAs (n : ArtifactName) (content : String) : SaveText :=
  ⟨"default", n.taskId, n.runId, .diff, n.filename, content, none⟩

/-- A text is saved on an empty disk. -/
theorem saveText_empty (content : String) (hn : n.All Segment) (hfile : n.filename ≠ ".")
    (hnameable : Disk.nameable [n.taskId, n.runId, n.filename] = true) :
    ∃ ref files, plainStore.saveText (textAs n content) plainEnv Files.empty = .ok ref files ∧
      ref.uri = artifactUri n ∧ files.disk.read (plainStore.savePath n) = some content ∧
      (∀ q, q ≠ plainStore.savePath n → files.disk.read q = none) ∧
      files.disk.isDir (plainStore.savePath n) = false := by
  have hne : plainStore.savePath n ≠ [] := by
    rw [plainStore.savePath_eq hn]
    simp [root, plainStore, resolve_of_plain, step]
  have hspec := @saveText_returns plainStore plainEnv Files.empty.disk (textAs n content) hn hfile
    ((nameable_iff hn).mpr ⟨by decide, hnameable⟩) (fun _ _ => rfl)
    (by simpa [Disk.isDir, Files.empty] using show plainStore.savePath (textAs n content).name ≠ []
      from hne) (fun _ => rfl) Files.empty rfl
  cases hres : plainStore.saveText (textAs n content) plainEnv Files.empty with
  | ok ref files => exact ⟨ref, files, rfl, hspec.of_ok hres⟩
  | error e files => exact (hspec.of_error hres).elim

/-- The two directories of a name, exchanged. -/
def swapped (n : ArtifactName) : ArtifactName := ⟨n.runId, n.taskId, n.filename⟩

theorem savePath_swapped (hn : n.All Segment) (halias : ¬ NoAlias n) :
    store.savePath (swapped n) = store.savePath n ∧ swapped n ≠ n := by
  have hswapped : (swapped n).All Segment := ⟨hn.2.1, hn.1, hn.2.2⟩
  rw [store.savePath_eq hn, store.savePath_eq hswapped]
  simp only [NoAlias] at halias
  have hne : n.taskId ≠ n.runId := fun h => halias (by rw [h])
  refine ⟨?_, fun h => hne (congrArg ArtifactName.taskId h).symm⟩
  show store.root ++ (seen n.runId ++ seen n.taskId ++ seen n.filename) = _
  by_cases ht : n.taskId = "."
  · rw [ht, show seen "." = [] from rfl, List.append_nil, List.nil_append]
  · have hr : n.runId = "." := by
      by_contra hr
      exact halias ⟨fun h => absurd h ht, fun h => absurd h hr⟩
    rw [hr, show seen "." = [] from rfl, List.append_nil, List.nil_append]

/-- **What can be read back.** A URI is read back exactly when its segments are plain, and an
accepted URI is the rendering of what it is parsed into. A text saved under a valid name can be read
back until somebody saves under that name again, exactly when the name is plain and has no alias (or
no save under it is ever accepted). -/
theorem saved_readable_iff (hn : n.All Segment) :
    (parseArtifactUri (artifactUri n) = .ok n ↔ n.All UriPlain) ∧
    (∀ uri n', parseArtifactUri uri = .ok n' → artifactUri n' = uri) ∧
    (SavedReadable n ↔ n.filename = "." ∨
      Disk.nameable [n.taskId, n.runId, n.filename] = false ∨ (n.All UriPlain ∧ NoAlias n)) := by
  refine ⟨parse_artifactUri_iff hn, fun _ _ h => (parse_spec h).1, fun h => ?_, fun h => ?_⟩
  · by_contra hnot
    simp only [not_or, Bool.not_eq_false] at hnot
    obtain ⟨hfile, hnameable, hbad⟩ := hnot
    obtain ⟨ref, files, hsaved, huri, hread, hfree, hnotdir⟩ :=
      saveText_empty "a" hn hfile hnameable
    have hback := h plainStore (textAs n "a") plainEnv Files.empty files ref rfl hsaved
    rw [huri] at hback
    by_cases hplain : n.All UriPlain
    · -- The exchanged name has the same file, and another text is saved under it.
      have halias : ¬ NoAlias n := fun h => hbad ⟨hplain, h⟩
      obtain ⟨hsame, hne⟩ := @savePath_swapped plainStore n hn halias
      have hswapped : (swapped n).All Segment := ⟨hn.2.1, hn.1, hn.2.2⟩
      have hnameable' : Disk.nameable (plainStore.savePath (swapped n)) = true := by
        rw [hsame, nameable_iff hn]
        exact ⟨by decide, hnameable⟩
      have hagain := @saveText_returns plainStore plainEnv files.disk (textAs (swapped n) "b")
        hswapped hfile hnameable' (fun q hq => hfree q ?_) (by
          rw [show plainStore.savePath (textAs (swapped n) "b").name = plainStore.savePath n
            from hsame]
          exact hnotdir) (fun _ => rfl) files rfl
      · cases hres : plainStore.saveText (textAs (swapped n) "b") plainEnv files with
        | error e files' => exact hagain.of_error hres
        | ok ref' files' =>
          have hstep : plainStore.SaveStep files (.text (textAs (swapped n) "b"), plainEnv)
              files' := congrArg filesAfter hres
          obtain ⟨files₃, hread'⟩ := hback [_] files' (.cons hstep (.nil files')) (by
            rintro s hs
            obtain rfl := List.mem_singleton.mp hs
            exact hne) plainEnv
          have hspec := @readText_spec plainStore n plainEnv files'.disk hn files' rfl
          have hold := (hspec.of_ok hread').2
          have hnew : files'.disk.read (plainStore.savePath n) = some "b" := by
            rw [← hsame]
            exact (hagain.of_ok hres).2.1
          rw [hnew] at hold
          exact absurd (show "b" = "a" from Option.some.inj hold) (by decide)
      · rintro rfl
        have hinit := (List.mem_inits _ _).mp hq
        rw [← hsame, show plainStore.savePath (swapped n) =
          plainStore.artifactDir n.runId n.taskId ++ [n.filename] from
          resolve_of_segment hn.2.2 hfile] at hinit
        have := hinit.length_le
        simp [textAs, swapped] at this
    · have hspec := @readText_spec plainStore n plainEnv files.disk hn files rfl
      obtain ⟨files₃, hread'⟩ := hback [] files (.nil files) (by simp) plainEnv
      exact hplain (hspec.of_ok hread').1
  · intro store args env files files₁ ref hname hsaved later files₂ hlater hothers env'
    subst hname
    obtain ⟨huri, -, hfile, hnameable, hread⟩ :=
      (@saveText_spec store env files.disk args files rfl).of_ok hsaved
    rcases h with hdot | hnot | ⟨hplain, halias⟩
    · exact absurd hdot hfile
    · rw [nameable_iff hn] at hnameable
      rw [hnameable.2] at hnot
      cases hnot
    · rw [← saved_kept hn hfile halias hlater hothers] at hread
      have hspec := @readText_spec store args.name env' files₂.disk hn files₂ rfl
      rw [huri]
      cases hres : store.readText (artifactUri args.name) env' files₂ with
      | ok content files₃ =>
        have hcontent := (hspec.of_ok hres).2
        rw [hread] at hcontent
        exact ⟨files₃, congrArg (EStateM.Result.ok · files₃) (Option.some.inj hcontent).symm⟩
      | error e files₃ =>
        rcases hspec.of_error hres with hnot | hnone
        · exact absurd hplain hnot
        · rw [hread] at hnone
          cases hnone

/-- The value of a call that returned. -/
def returned {α : Type} : EStateM.Result Err Files α → Option α
  | .ok a _ => some a
  | .error _ _ => none

/-- A text saved on an empty disk, and read under the URI it got. -/
def readsBack (n : ArtifactName) (content : String) : Bool :=
  (plainStore.saveText (textAs n content) plainEnv Files.empty |> returned).all fun ref =>
    returned (plainStore.readText ref.uri plainEnv
      (filesAfter (plainStore.saveText (textAs n content) plainEnv Files.empty))) = some content

theorem SavedReadable.readsBack {content : String} (h : SavedReadable n) :
    readsBack n content = true := by
  unfold LocalArtifactStore.readsBack
  cases hsaved : plainStore.saveText (textAs n content) plainEnv Files.empty with
  | error e files => rfl
  | ok ref files =>
    obtain ⟨files', hread⟩ := h plainStore (textAs n content) plainEnv Files.empty files ref rfl
      hsaved [] files (.nil files) (by simp) plainEnv
    simp only [returned, filesAfter, Option.all_some, hread]
    exact decide_eq_true rfl

/-- A task id with a number sign is taken by the store, and never read back. -/
theorem saved_unreadable :
    let n : ArtifactName := ⟨"T#1", "R-1", "diff.patch"⟩
    n.All Segment ∧ (parseArtifactUri (artifactUri n)).isOk = false ∧ ¬ SavedReadable n := by
  refine ⟨validateName_ok_iff.mp rfl, by decide +kernel, fun h => ?_⟩
  have hread : readsBack _ "diff" = true := h.readsBack
  revert hread
  decide +kernel

theorem saved_readable_diff :
    SavedReadable ⟨"T-1", "R-1", "diff.patch"⟩ :=
  (saved_readable_iff (validateName_ok_iff.mp rfl)).2.2.mpr
    (.inr (.inr ⟨⟨by decide +kernel, by decide +kernel, by decide +kernel⟩, by decide⟩))

end readable

end LocalArtifactStore

end AgentWorkflow
