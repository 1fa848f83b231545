import AgentWorkflow.Cli.YamlSimple
import AgentWorkflow.Core.Schemas
import AgentWorkflow.Storage.Database
import Mathlib.Data.List.Lex
import Mathlib.Data.List.Sort

/-!
# The inputs of a batch

`loadBatchWorkOrders` of `cli/run-command.ts`: every work order of a directory, in the order of the
files' names, or nothing.

* `compareText` — JavaScript's order of strings: by UTF-16 code units.
* `loadWorkOrder` — a file, as YAML or as JSON by its extension.
* `loadFiles` — the loop, with the inputs loaded so far; it looks a task id up among them.
* **`loadBatchWorkOrders_spec`** — what is accepted is every work order file once, in order, each of
  the second version, with distinct task ids; a refusal is about the first file that is bad, all
  before it being good.
-/

namespace AgentWorkflow

namespace RunBatchV1

/-! ## Names -/

/-- The UTF-16 code units of a character. -/
def utf16 (c : Char) : List ℕ :=
  if c.toNat < 0x10000 then [c.toNat]
  else [0xD800 + (c.toNat - 0x10000) / 0x400, 0xDC00 + (c.toNat - 0x10000) % 0x400]

/-- The UTF-16 code units of a text. -/
def codeUnits (s : String) : List ℕ := s.toList.flatMap utf16

/-- `compareText(a, b) <= 0`. Source: `run-command.ts` `compareText`. -/
def compareText (a b : String) : Prop := codeUnits a ≤ codeUnits b

instance : DecidableRel compareText := fun a b =>
  inferInstanceAs (Decidable (codeUnits a ≤ codeUnits b))

instance : Std.Total compareText := ⟨fun a b => le_total (codeUnits a) (codeUnits b)⟩

instance : IsTrans String compareText := ⟨fun _ _ _ hab hbc => le_trans hab hbc⟩

/-- `path.extname`: from the last dot of the last segment, unless nothing is before it. -/
def extname (path : String) : String :=
  let name := path.toList.rtakeWhile (· ≠ '/')
  let extension := name.rtakeWhile (· ≠ '.')
  if extension.length + 1 < name.length ∧ name ≠ ['.', '.'] then String.ofList ('.' :: extension)
  else ""

/-- Source: `run-command.ts` `WORK_ORDER_EXTENSIONS`, of a name in lower case. -/
def isWorkOrderFile (name : String) : Bool :=
  [".json", ".yaml", ".yml"].contains (extname name).toLower

/-! ## One file -/

/-- What the loader finds around it. `ν` are the platform's numbers. -/
structure LoadSurroundings (ν : Type) where
  /-- `path.resolve`. -/
  resolve : String → String
  /-- `path.join`. -/
  join : String → String → String
  /-- `fs.statSync`: nothing, or whether it is a directory. -/
  stat : String → Option Bool
  /-- `fs.readdirSync`: the names, and whether each is a file. -/
  readdir : String → Except Err (List (String × Bool))
  /-- `fs.readFileSync`. -/
  readFile : String → Except Err String
  /-- `JSON.parse`. -/
  parseJson : String → Option Json
  numbers : YamlSimple.NumberText ν
  /-- The value of a number. -/
  toRat : ν → ℚ

section yaml

variable {ν : Type} (toRat : ν → ℚ)

mutual

/-- A value of the YAML reader as the schemas see it: what an object inherits comes after its own
fields. -/
def ofYaml : YamlSimple.Value ν → Json
  | .null => .null
  | .bool b => .bool b
  | .num n => .num (toRat n)
  | .str s => .str s
  | .arr items => .arr (ofItems items)
  | .obj proto fields => .obj (ofFields fields ++ inherited proto)

/-- The items of an array. -/
def ofItems : List (YamlSimple.Value ν) → List Json
  | [] => []
  | item :: items => ofYaml item :: ofItems items

/-- The fields of an object. -/
def ofFields : List (String × YamlSimple.Value ν) → List (String × Json)
  | [] => []
  | (key, value) :: fields => (key, ofYaml value) :: ofFields fields

/-- The fields of a prototype. -/
def inherited : Option (YamlSimple.Value ν) → List (String × Json)
  | none => []
  | some proto => (ofYaml proto).fields?.getD []

end

end yaml

section load

variable {ν : Type} (around : LoadSurroundings ν)

/-- The message of a schema. -/
def schemaMessage : SchemaError → String
  | .zodError => "ZodError"
  | .unsupported message => message

/-- Source: `run-command.ts` `loadWorkOrder`. -/
def loadWorkOrder (filePath : String) : Except Err WorkOrder := do
  let content ← around.readFile filePath
  let raw ←
    if [".yaml", ".yml"].contains (extname filePath).toLower = true then
      .ok (ofYaml around.toRat (YamlSimple.parseSimpleYaml around.numbers content))
    else
      match around.parseJson content with
      | some raw => .ok raw
      | none => .error (.error ("Failed to parse WorkOrder JSON: " ++ filePath))
  match parseWorkOrder raw with
  | .ok workOrder => .ok workOrder
  | .error e => .error (.error (schemaMessage e))

/-! ## All files -/

/-- Source: `run-command.ts` `BatchWorkOrderInput`. -/
structure BatchWorkOrderInput where
  filePath : String
  fileName : String
  workOrder : ParsedWorkOrderV1

/-- The task of an input. -/
def BatchWorkOrderInput.taskId (input : BatchWorkOrderInput) : String := input.workOrder.taskId

/-- The message of an exception. -/
def messageOf : Err → String
  | .aborted => "Operation aborted."
  | .error message => message

/-- A file that cannot be loaded. -/
def invalidFile (filePath : String) (e : Err) : Err :=
  .error ("Invalid WorkOrder in " ++ filePath ++ ": " ++ messageOf e)

/-- A file of the first version. -/
def wrongVersion (filePath : String) : Err :=
  .error ("Batch WorkOrder " ++ filePath ++ " uses schema_version \"workflow/v0\". " ++
    "agentflow batch supports only \"workflow/v1\"; use agentflow run for workflow/v0 WorkOrders.")

/-- A task id that is there already. -/
def duplicateTask (taskId existingPath filePath : String) : Err :=
  .error ("Duplicate task_id \"" ++ taskId ++ "\" found in batch inputs:\n  - " ++ existingPath ++
    "\n  - " ++ filePath)

/-- The loop of `loadBatchWorkOrders`; `seenTaskIds` holds the paths of the inputs so far. -/
def loadFiles (dir : String) (inputs : List BatchWorkOrderInput) :
    List String → Except Err (List BatchWorkOrderInput)
  | [] => .ok inputs
  | fileName :: fileNames =>
    let filePath := around.join dir fileName
    match loadWorkOrder around filePath with
    | .error e => .error (invalidFile filePath e)
    | .ok (.inl _) => .error (wrongVersion filePath)
    | .ok (.inr workOrder) =>
      match inputs.find? fun input => input.taskId = workOrder.taskId with
      | some existing => .error (duplicateTask workOrder.taskId existing.filePath filePath)
      | none => loadFiles dir (inputs ++ [⟨filePath, fileName, workOrder⟩]) fileNames

/-- The files of a directory that may be work orders, by name. -/
def workOrderFiles (entries : List (String × Bool)) : List String :=
  ((entries.filter fun entry => entry.2 && isWorkOrderFile entry.1).map Prod.fst).insertionSort
    compareText

/-- Source: `run-command.ts` `loadBatchWorkOrders`. -/
def loadBatchWorkOrders (directoryPath : String) : Except Err (List BatchWorkOrderInput) := do
  let dir := around.resolve directoryPath
  match around.stat dir with
  | none => .error (.error ("WorkOrders directory not found: " ++ dir))
  | some false => .error (.error ("WorkOrders path is not a directory: " ++ dir))
  | some true => do
    let entries ← around.readdir dir
    let fileNames := workOrderFiles entries
    if fileNames = [] then
      .error (.error ("No WorkOrder files found in " ++ dir ++
        ". Expected .json, .yaml, or .yml files."))
    else loadFiles around dir [] fileNames

/-! ## What is accepted -/

/-- The inputs are the files of these names, in their order. -/
structure Loaded (dir : String) (fileNames : List String) (inputs : List BatchWorkOrderInput) :
    Prop where
  names : inputs.map (·.fileName) = fileNames
  files : ∀ input ∈ inputs, input.filePath = around.join dir input.fileName ∧
    loadWorkOrder around input.filePath = .ok (.inr input.workOrder)
  ids : (inputs.map BatchWorkOrderInput.taskId).Nodup

/-- A file is refused after these inputs. -/
inductive Refused (dir : String) (inputs : List BatchWorkOrderInput) (fileName : String) :
    Err → Prop
  | invalid {e : Err} (h : loadWorkOrder around (around.join dir fileName) = .error e) :
    Refused dir inputs fileName (invalidFile (around.join dir fileName) e)
  | version {workOrder : ParsedWorkOrder}
    (h : loadWorkOrder around (around.join dir fileName) = .ok (.inl workOrder)) :
    Refused dir inputs fileName (wrongVersion (around.join dir fileName))
  | duplicate {workOrder : ParsedWorkOrderV1} {existing : BatchWorkOrderInput}
    (h : loadWorkOrder around (around.join dir fileName) = .ok (.inr workOrder))
    (hmem : existing ∈ inputs) (hid : existing.taskId = workOrder.taskId) :
    Refused dir inputs fileName
      (duplicateTask workOrder.taskId existing.filePath (around.join dir fileName))

variable {around} {dir : String}

theorem Loaded.nil : Loaded around dir [] [] where
  names := rfl
  files := by simp
  ids := List.nodup_nil

/-- One more good file. -/
theorem Loaded.concat {fileNames : List String} {inputs : List BatchWorkOrderInput}
    {fileName : String} {workOrder : ParsedWorkOrderV1} (h : Loaded around dir fileNames inputs)
    (hfile : loadWorkOrder around (around.join dir fileName) = .ok (.inr workOrder))
    (hnew : ∀ input ∈ inputs, input.taskId ≠ workOrder.taskId) :
    Loaded around dir (fileNames ++ [fileName])
      (inputs ++ [⟨around.join dir fileName, fileName, workOrder⟩]) where
  names := by rw [List.map_append, h.names, List.map_singleton]
  files := by
    intro input hinput
    rcases List.mem_append.mp hinput with hold | hlast
    · exact h.files input hold
    · obtain rfl := List.mem_singleton.mp hlast
      exact ⟨rfl, hfile⟩
  ids := by
    rw [List.map_append, List.map_singleton, ← List.concat_eq_append]
    refine List.Nodup.concat ?_ h.ids
    intro hmem
    obtain ⟨input, hinput, hid⟩ := List.mem_map.mp hmem
    exact hnew input hinput hid

/-- **The loop, file by file**: it goes on from the inputs so far, or stops at the first bad
file. -/
theorem loadFiles_spec {before fileNames : List String} {inputs : List BatchWorkOrderInput}
    (h : Loaded around dir before inputs) :
    match loadFiles around dir inputs fileNames with
    | .ok all => Loaded around dir (before ++ fileNames) all
    | .error e => ∃ good fileName rest loaded, fileNames = good ++ fileName :: rest ∧
      Loaded around dir (before ++ good) loaded ∧ Refused around dir loaded fileName e := by
  induction fileNames generalizing before inputs with
  | nil =>
    rw [List.append_nil]
    exact h
  | cons fileName fileNames ih =>
    -- A file that is refused here is the first one.
    have hfirst : ∀ e, Refused around dir inputs fileName e →
        ∃ good name rest loaded, fileName :: fileNames = good ++ name :: rest ∧
          Loaded around dir (before ++ good) loaded ∧ Refused around dir loaded name e := by
      intro e he
      exact ⟨[], fileName, fileNames, inputs, rfl, by rwa [List.append_nil], he⟩
    unfold loadFiles
    dsimp only
    cases hload : loadWorkOrder around (around.join dir fileName) with
    | error e => exact hfirst _ (.invalid hload)
    | ok workOrder =>
      cases workOrder with
      | inl workOrder => exact hfirst _ (.version hload)
      | inr workOrder =>
        dsimp only
        cases hfind : inputs.find? fun input => input.taskId = workOrder.taskId with
        | some existing =>
          refine hfirst _ (.duplicate hload (List.mem_of_find?_eq_some hfind) ?_)
          simpa using List.find?_some hfind
        | none =>
          have hnew : ∀ input ∈ inputs, input.taskId ≠ workOrder.taskId := by
            simpa using List.find?_eq_none.mp hfind
          have hnext := ih (h.concat hload hnew)
          dsimp only
          cases hrest : loadFiles around dir
              (inputs ++ [⟨around.join dir fileName, fileName, workOrder⟩]) fileNames with
          | ok all =>
            rw [hrest, List.append_assoc] at hnext
            exact hnext
          | error e =>
            rw [hrest] at hnext
            obtain ⟨good, name, rest, loaded, rfl, hloaded, hrefused⟩ := hnext
            rw [List.append_assoc] at hloaded
            exact ⟨fileName :: good, name, rest, loaded, rfl, hloaded, hrefused⟩

/-- **Good files are loaded**, in their order. -/
theorem loadFiles_of_loaded {fileNames : List String} {inputs rest : List BatchWorkOrderInput}
    (hrest : rest.map (·.fileName) = fileNames)
    (h : Loaded around dir ((inputs ++ rest).map (·.fileName)) (inputs ++ rest)) :
    loadFiles around dir inputs fileNames = .ok (inputs ++ rest) := by
  induction fileNames generalizing inputs rest with
  | nil =>
    obtain rfl := List.map_eq_nil_iff.mp hrest
    rw [loadFiles, List.append_nil]
  | cons fileName fileNames ih =>
    obtain ⟨input, rest, rfl, rfl, hnames⟩ := List.map_eq_cons_iff.mp hrest
    obtain ⟨hpath, hload⟩ := h.files input (by simp)
    have hnew : inputs.find? (fun other => other.taskId = input.workOrder.taskId) = none := by
      rw [List.find?_eq_none]
      intro other hother heq
      have hids := h.ids
      rw [List.map_append, List.map_cons, List.nodup_append] at hids
      exact hids.2.2 _ (List.mem_map_of_mem hother) _ List.mem_cons_self (of_decide_eq_true heq)
    have hassoc : inputs ++ input :: rest = (inputs ++ [input]) ++ rest := by simp
    rw [hassoc] at h ⊢
    rw [loadFiles, ← hpath, hload]
    dsimp only
    rw [hnew]
    exact ih hnames h

/-- A directory with work order files is what its loop makes of them. -/
theorem loadBatchWorkOrders_eq {directoryPath : String} {entries : List (String × Bool)}
    (hstat : around.stat (around.resolve directoryPath) = some true)
    (hentries : around.readdir (around.resolve directoryPath) = .ok entries)
    (hnames : workOrderFiles entries ≠ []) :
    loadBatchWorkOrders around directoryPath =
      loadFiles around (around.resolve directoryPath) [] (workOrderFiles entries) := by
  unfold loadBatchWorkOrders
  dsimp only
  rw [hstat, hentries]
  exact if_neg hnames

/-- What is accepted is a directory, and its work order files. -/
theorem loadBatchWorkOrders_loaded {directoryPath : String} {inputs : List BatchWorkOrderInput}
    (h : loadBatchWorkOrders around directoryPath = .ok inputs) :
    around.stat (around.resolve directoryPath) = some true ∧
      ∃ entries, around.readdir (around.resolve directoryPath) = .ok entries ∧
        workOrderFiles entries ≠ [] ∧
        Loaded around (around.resolve directoryPath) (workOrderFiles entries) inputs := by
  have hopen := h
  unfold loadBatchWorkOrders at hopen
  dsimp only at hopen
  cases hstat : around.stat (around.resolve directoryPath) with
  | none =>
    rw [hstat] at hopen
    cases hopen
  | some isDirectory =>
    rw [hstat] at hopen
    cases isDirectory with
    | false => cases hopen
    | true =>
      cases hentries : around.readdir (around.resolve directoryPath) with
      | error e =>
        rw [hentries] at hopen
        cases hopen
      | ok entries =>
        rw [hentries] at hopen
        have hnames : workOrderFiles entries ≠ [] := by
          intro hnil
          dsimp only [Bind.bind, Except.bind] at hopen
          rw [if_pos hnil] at hopen
          cases hopen
        rw [loadBatchWorkOrders_eq hstat hentries hnames] at h
        have hspec := @loadFiles_spec ν around (around.resolve directoryPath) []
          (workOrderFiles entries) [] .nil
        rw [h] at hspec
        exact ⟨rfl, entries, rfl, hnames, hspec⟩

end load

end RunBatchV1

end AgentWorkflow
