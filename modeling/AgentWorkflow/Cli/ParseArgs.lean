import Mathlib.Data.List.Basic
import Mathlib.Data.List.Flatten
import Mathlib.Order.Nat
import Mathlib.Tactic.Common

/-!
# The command line

`parseArgs` of `cli/run-command.ts`: a subcommand, options with their values, one positional
argument. An option takes the next token as its value, unless there is none or it begins with two
dashes.

* `parseArgs` — the loop over the tokens.
* `scan`, `readings` — what the loop makes of each token; `loop_eq`.
* `items` — what the tokens say: no option is the value of another one.
* `ReadsCommandLine` — what a reader of the command line should do with it.
* **`parseArgs_reads_iff`** — `parseArgs` does so exactly when no option stands directly before `-a`,
  `-d` or `-w`, whatever the order of the options, and no empty positional before another one.
-/

namespace AgentWorkflow

namespace CommandLine

/-! ## The source -/

/-- Where the value of an option goes. -/
inductive Target
  | agentPath
  | databasePath
  | workers
  deriving DecidableEq, Repr

/-- The recognised options. -/
def target? (arg : String) : Option Target :=
  if arg = "--agent" ∨ arg = "-a" ∨ arg = "--agents" then some .agentPath
  else if arg = "--database" ∨ arg = "-d" then some .databasePath
  else if arg = "--workers" ∨ arg = "-w" then some .workers
  else none

/-- `arg.startsWith("--")`. -/
def long (arg : String) : Bool := "--".toList.isPrefixOf arg.toList

/-- `arg.startsWith("-")`. -/
def dashed (arg : String) : Bool := "-".toList.isPrefixOf arg.toList

/-- Source: `run-command.ts` `CliArgs`. -/
structure CliArgs where
  subcommand : String
  workOrderPath : Option String
  agentPath : Option String
  databasePath : Option String
  workers : Option String
  parseErrors : Option (List String)
  deriving DecidableEq, Repr

namespace CliArgs

/-- Assign the value of an option. -/
def set (result : CliArgs) (value : String) : Target → CliArgs
  | .agentPath => { result with agentPath := some value }
  | .databasePath => { result with databasePath := some value }
  | .workers => { result with workers := some value }

/-- `result.parseErrors?.push(message)`. -/
def push (result : CliArgs) (message : String) : CliArgs :=
  { result with parseErrors := result.parseErrors.map (· ++ [message]) }

end CliArgs

/-- `!path`. -/
def lacks (path : Option String) : Bool := path = none ∨ path = some ""

/-- The error of an option without a value. -/
def missingValue (option : String) : String := "Missing value for " ++ option ++ "."

/-- The error of a token that is no option. -/
def unknownOption (arg : String) : String := "Unknown option: " ++ arg ++ "."

/-- The error of a second positional argument. -/
def unexpectedPositional (arg : String) : String :=
  "Unexpected positional argument: " ++ arg ++ "."

/-- The loop over the tokens after the subcommand. Source: `run-command.ts` `parseArgs`. -/
def loop : CliArgs → List String → CliArgs
  | result, [] => result
  | result, arg :: rest =>
    match target? arg with
    | some target =>
      match rest with
      | [] => loop (result.push (missingValue arg)) []
      | value :: rest =>
        if long value = true then loop (result.push (missingValue arg)) (value :: rest)
        else loop (result.set value target) rest
    | none =>
      if dashed arg = true then loop (result.push (unknownOption arg)) rest
      else if lacks result.workOrderPath = true then loop { result with workOrderPath := some arg } rest
      else loop (result.push (unexpectedPositional arg)) rest

/-- `delete result.parseErrors` where there is none. -/
def deleteEmpty (result : CliArgs) : CliArgs :=
  if result.parseErrors = some [] then { result with parseErrors := none } else result

/-- Source: `run-command.ts` `parseArgs`. -/
def parseArgs (rawArgs : List String) : CliArgs :=
  match rawArgs.drop 2 with
  | [] => deleteEmpty ⟨"", none, none, none, none, some []⟩
  | subcommand :: args => deleteEmpty (loop ⟨subcommand, none, none, none, none, some []⟩ args)

/-! ## What the tokens are taken for -/

/-- A part of the command line. -/
inductive Item
  /-- A complete pair of an option and its value. -/
  | pair (target : Target) (option value : String)
  /-- An option without a value. -/
  | missing (option : String)
  | unknown (arg : String)
  | positional (arg : String)
  deriving DecidableEq, Repr

/-- The tokens of a part. -/
def Item.tokens : Item → List String
  | .pair _ option value => [option, value]
  | .missing arg | .unknown arg | .positional arg => [arg]

/-- The parts of a command line, when an option takes the tokens of `takes` as its value. -/
def scan (takes : String → Bool) : List String → List Item
  | [] => []
  | arg :: rest =>
    match target? arg with
    | some target =>
      match rest with
      | [] => [.missing arg]
      | value :: rest =>
        if takes value = true then .pair target arg value :: scan takes rest
        else .missing arg :: scan takes (value :: rest)
    | none => (if dashed arg = true then .unknown arg else .positional arg) :: scan takes rest

/-- What the loop takes the tokens for. -/
def readings (tokens : List String) : List Item := scan (fun value => !long value) tokens

/-- A token that can be a value: it does not look like a long option, and is no option. -/
def isValue (token : String) : Bool := !long token && (target? token).isNone

/-- What the tokens say. -/
def items (tokens : List String) : List Item := scan isValue tokens

/-! ## What a reader should do -/

/-- The option of a part. -/
def Item.option? : Item → Option String
  | .pair _ option _ | .missing option => some option
  | _ => none

def Item.isMissing : Item → Bool
  | .missing _ => true
  | _ => false

/-- The positional argument of a part. -/
def Item.positional? : Item → Option String
  | .positional arg => some arg
  | _ => none

/-- The value of a part, when it is for the target. -/
def Item.value? (target : Target) : Item → Option String
  | .pair t _ value => if t = target then some value else none
  | _ => none

/-- The part is no complete pair. -/
def Item.bare : Item → Bool
  | .pair .. => false
  | _ => true

/-- The part is a complete pair for the target. -/
def Item.isFor (target : Target) (item : Item) : Bool := (item.value? target).isSome

/-- The errors to report; `seen` when there has been a positional argument. -/
def errorsOf : (seen : Bool) → List Item → List String
  | _, [] => []
  | seen, .pair _ _ _ :: its => errorsOf seen its
  | seen, .missing option :: its => missingValue option :: errorsOf seen its
  | seen, .unknown arg :: its => unknownOption arg :: errorsOf seen its
  | false, .positional _ :: its => errorsOf true its
  | true, .positional arg :: its => unexpectedPositional arg :: errorsOf true its

/-- What the parts mean: the last value for each target, the first positional argument, and an error
for everything else. -/
def meaning (subcommand : String) (its : List Item) : CliArgs := deleteEmpty
  { subcommand
    workOrderPath := (its.filterMap Item.positional?).head?
    agentPath := (its.filterMap (Item.value? .agentPath)).getLast?
    databasePath := (its.filterMap (Item.value? .databasePath)).getLast?
    workers := (its.filterMap (Item.value? .workers)).getLast?
    parseErrors := some (errorsOf false its) }

/-- The subcommand. -/
def subcommandOf (rawArgs : List String) : String := (rawArgs.drop 2).headD ""

/-- The same parts, with complete pairs for different targets in another order. -/
def SameItems (its its' : List Item) : Prop :=
  its'.filter Item.bare = its.filter Item.bare ∧
    ∀ target, its'.filter (Item.isFor target) = its.filter (Item.isFor target)

/-- The command line with complete pairs of distinct targets in another order. -/
def Reordered (rawArgs rawArgs' : List String) : Prop :=
  subcommandOf rawArgs' = subcommandOf rawArgs ∧
    SameItems (items (rawArgs.drop 3)) (items (rawArgs'.drop 3))

/-- The command line is read as it should be. -/
structure ReadsCommandLine (rawArgs : List String) : Prop where
  /-- No recognised option is taken as the value of another one. -/
  not_taken : ∀ target option value, .pair target option value ∈ readings (rawArgs.drop 3) →
    target? value = none
  /-- An option without a value behind it is reported. -/
  missing_reported : ∀ before item after option,
    readings (rawArgs.drop 3) = before ++ item :: after → item.option? = some option →
    (∀ next ∈ (item.tokens.tail ++ after.flatMap Item.tokens).head?, isValue next = false) →
    ∃ errors, (parseArgs rawArgs).parseErrors = some errors ∧ missingValue option ∈ errors
  /-- Every token is in one part, and every part has its place in the result. -/
  accounted : (readings (rawArgs.drop 3)).flatMap Item.tokens = rawArgs.drop 3 ∧
    parseArgs rawArgs = meaning (subcommandOf rawArgs) (readings (rawArgs.drop 3))
  /-- The order of complete pairs for different targets does not matter. -/
  reordered : ∀ rawArgs', Reordered rawArgs rawArgs' → parseArgs rawArgs' = parseArgs rawArgs

/-- An option without a value stands directly before a short option. -/
def OptionBeforeShort (tokens : List String) : Prop :=
  ∃ before option after short, items tokens = before ++ .missing option :: after ∧
    (after.flatMap Item.tokens).head? = some short ∧ short ∈ ["-a", "-d", "-w"]

/-- In no order of its complete pairs has the command line an option directly before a short one,
and it has no empty positional argument before another one. -/
structure Unambiguous (rawArgs : List String) : Prop where
  no_short : ∀ rawArgs', Reordered rawArgs rawArgs' → ¬ OptionBeforeShort (rawArgs'.drop 3)
  no_empty : ∀ second rest,
    (items (rawArgs.drop 3)).filterMap Item.positional? ≠ "" :: second :: rest

/-! ## Parts -/

section scan

variable {takes : String → Bool} {tokens : List String} {arg value option : String}
  {target : Target} {rest : List String}

/-- The cases of a scan. -/
theorem scan_option (h : target? arg = some target) : scan takes (arg :: value :: rest) =
    if takes value = true then .pair target arg value :: scan takes rest
    else .missing arg :: scan takes (value :: rest) := by
  rw [scan, h]

theorem scan_last (h : target? arg = some target) : scan takes [arg] = [.missing arg] := by
  rw [scan, h]

theorem scan_bare (h : target? arg = none) : scan takes (arg :: rest) =
    (if dashed arg = true then .unknown arg else .positional arg) :: scan takes rest := by
  rw [scan, h]

/-- Every token is in one part. -/
theorem flatMap_scan : (scan takes tokens).flatMap Item.tokens = tokens := by
  fun_induction scan takes tokens with
  | case1 => rfl
  | case2 arg target h => rfl
  | case3 arg target h value rest htakes ih => simp [ih, Item.tokens]
  | case4 arg target h value rest htakes ih => simp [ih, Item.tokens]
  | case5 arg rest h ih =>
    rw [List.flatMap_cons, ih]
    split <;> rfl

/-- A value is one that is taken. -/
theorem takes_of_mem_scan (h : .pair target option value ∈ scan takes tokens) :
    takes value = true := by
  fun_induction scan takes tokens with
  | case1 => cases h
  | case2 arg t ht => simp at h
  | case3 arg t ht v rest htakes ih =>
    rcases List.mem_cons.mp h with heq | h
    · obtain ⟨-, -, rfl⟩ := Item.pair.inj heq
      exact htakes
    · exact ih h
  | case4 arg t ht v rest htakes ih =>
    rcases List.mem_cons.mp h with heq | h
    · cases heq
    · exact ih h
  | case5 arg rest hnone ih =>
    rcases List.mem_cons.mp h with heq | h
    · split at heq <;> cases heq
    · exact ih h

/-- An option without a value stands at the end, or before a token that is not taken. -/
theorem takes_of_missing {before after : List Item} {next : String}
    (h : scan takes tokens = before ++ .missing option :: after)
    (hnext : (after.flatMap Item.tokens).head? = some next) : takes next = false := by
  fun_induction scan takes tokens generalizing before with
  | case1 => simp at h
  | case2 arg t ht =>
    obtain ⟨rfl, -, rfl⟩ | ⟨b, -, hb⟩ := List.cons_eq_append_iff.mp h <;> simp_all
  | case3 arg t ht v rest htakes ih =>
    rcases List.cons_eq_append_iff.mp h with ⟨-, heq⟩ | ⟨b, -, hb⟩
    · cases heq
    · exact ih hb
  | case4 arg t ht v rest htakes ih =>
    rcases List.cons_eq_append_iff.mp h with ⟨-, heq⟩ | ⟨b, -, hb⟩
    · rw [(List.cons.inj heq).2, flatMap_scan] at hnext
      rw [← Option.some.inj hnext]
      simpa using htakes
    · exact ih hb
  | case5 arg rest hnone ih =>
    rcases List.cons_eq_append_iff.mp h with ⟨-, heq⟩ | ⟨b, -, hb⟩
    · split at heq <;> cases heq
    · exact ih hb

/-- An option that is not long is a short one. -/
theorem mem_short (h : target? arg = some target) (hlong : long arg = false) :
    arg ∈ ["-a", "-d", "-w"] := by
  unfold target? at h
  split_ifs at h with h₁ h₂ h₃
  · rcases h₁ with rfl | rfl | rfl
    · exact absurd hlong (by decide)
    · decide
    · exact absurd hlong (by decide)
  · rcases h₂ with rfl | rfl
    · exact absurd hlong (by decide)
    · decide
  · rcases h₃ with rfl | rfl
    · exact absurd hlong (by decide)
    · decide

theorem long_of_short (h : arg ∈ ["-a", "-d", "-w"]) :
    long arg = false ∧ (target? arg).isSome = true := by
  simp only [List.mem_cons, List.not_mem_nil, or_false] at h
  rcases h with rfl | rfl | rfl <;> decide

end scan

/-! ## Readings and items -/

section readings

variable {tokens rest : List String} {arg value option : String} {target : Target}

/-- The parts of a command line without its first one are those of the rest. -/
theorem OptionBeforeShort.cons {item : Item} (h : OptionBeforeShort rest)
    (hitems : items tokens = item :: items rest) : OptionBeforeShort tokens := by
  obtain ⟨before, option, after, short, hsplit, hhead, hshort⟩ := h
  exact ⟨item :: before, option, after, short, by rw [hitems, hsplit, List.cons_append], hhead,
    hshort⟩

/-- How many options of a command line lack a value. -/
abbrev missingCount (its : List Item) : ℕ := its.countP Item.isMissing

theorem missingCount_bare (arg : String) (its : List Item) :
    missingCount ((if dashed arg = true then .unknown arg else .positional arg) :: its) =
      missingCount its := by
  rw [missingCount, List.countP_cons_of_neg]
  split <;> simp [Item.isMissing]

theorem missingCount_pair (its : List Item) :
    missingCount (.pair target option value :: its) = missingCount its :=
  List.countP_cons_of_neg (by simp [Item.isMissing])

theorem missingCount_missing (its : List Item) :
    missingCount (.missing option :: its) = missingCount its + 1 :=
  List.countP_cons_of_pos rfl

/-- An option before the tokens lacks a value, or takes a token that no option lacks. -/
theorem missingCount_items_cons (hoption : target? option = some target)
    (hle : ∀ l : List String, l.length ≤ rest.length →
      missingCount (readings l) ≤ missingCount (items l)) :
    missingCount (readings rest) ≤ missingCount (items (option :: rest)) := by
  cases rest with
  | nil => exact Nat.zero_le _
  | cons next rest =>
    unfold items
    rw [scan_option hoption]
    by_cases hvalue : isValue next = true
    · have hnone : target? next = none := by
        simpa [isValue] using (Bool.and_eq_true_iff.mp hvalue).2
      rw [if_pos hvalue, readings, scan_bare hnone, missingCount_bare, missingCount_pair]
      exact hle rest (by simp)
    · rw [if_neg hvalue, missingCount_missing]
      exact (hle (next :: rest) le_rfl).trans (Nat.le_succ _)

/-- The loop takes the tokens for what they say, or it takes a short option for a value; then an
option less lacks its value. -/
theorem readings_or (tokens : List String) :
    readings tokens = items tokens ∨
      OptionBeforeShort tokens ∧ missingCount (readings tokens) < missingCount (items tokens) := by
  induction hn : tokens.length using Nat.strongRecOn generalizing tokens with
  | ind n ih =>
  subst hn
  have hle : ∀ l : List String, l.length < tokens.length →
      missingCount (readings l) ≤ missingCount (items l) := by
    intro l hl
    rcases ih l.length hl l rfl with heq | ⟨-, hlt⟩
    · rw [heq]
    · exact hlt.le
  cases tokens with
  | nil => exact .inl rfl
  | cons arg rest =>
    cases htarget : target? arg with
    | none =>
      have hitems : items (arg :: rest) = _ :: items rest := scan_bare htarget
      have hreadings : readings (arg :: rest) = _ :: readings rest := scan_bare htarget
      rw [hitems, hreadings, missingCount_bare, missingCount_bare]
      rcases ih rest.length (by simp) rest rfl with h | ⟨hshort, hlt⟩
      · exact .inl (congrArg _ h)
      · exact .inr ⟨hshort.cons hitems, hlt⟩
    | some target =>
      cases rest with
      | nil => exact .inl ((scan_last htarget).trans (scan_last htarget).symm)
      | cons value rest =>
        have hitems : items (arg :: value :: rest) = _ := scan_option htarget
        have hreadings : readings (arg :: value :: rest) = _ := scan_option htarget
        cases hlong : long value with
        | true =>
          rw [if_neg (by simp [isValue, hlong])] at hitems
          rw [if_neg (by simp [hlong])] at hreadings
          rw [hitems, hreadings, missingCount_missing, missingCount_missing]
          rcases ih (value :: rest).length (by simp) (value :: rest) rfl with h | ⟨hshort, hlt⟩
          · exact .inl (congrArg _ h)
          · exact .inr ⟨hshort.cons hitems, Nat.succ_lt_succ hlt⟩
        | false =>
          rw [if_pos (by simp [hlong])] at hreadings
          cases hvalue : target? value with
          | none =>
            rw [if_pos (by simp [isValue, hlong, hvalue])] at hitems
            rw [hitems, hreadings, missingCount_pair, missingCount_pair]
            have hlength : rest.length < (arg :: value :: rest).length := by
              simp only [List.length_cons]
              omega
            rcases ih rest.length hlength rest rfl with h | ⟨hshort, hlt⟩
            · exact .inl (congrArg _ h)
            · exact .inr ⟨hshort.cons hitems, hlt⟩
          | some target' =>
            -- The loop takes a short option; what it says is that `arg` lacks a value.
            rw [if_neg (by simp [isValue, hlong, hvalue])] at hitems
            refine .inr ⟨⟨[], arg, _, value, hitems, ?_, mem_short hvalue hlong⟩, ?_⟩
            · have hflat := @flatMap_scan isValue (value :: rest)
              rw [hflat]
              rfl
            · rw [hitems, hreadings, missingCount_missing, missingCount_pair]
              refine Nat.lt_succ_of_le (missingCount_items_cons hvalue fun l hl => hle l ?_)
              simp only [List.length_cons]
              omega

/-- An option that the loop reports stands at the end, or before a long token. -/
theorem long_of_missing {before after : List Item}
    (h : readings tokens = before ++ .missing option :: after) {next : String}
    (hnext : (after.flatMap Item.tokens).head? = some next) : long next = true := by
  simpa using takes_of_missing h hnext

theorem readings_eq_iff : readings tokens = items tokens ↔ ¬ OptionBeforeShort tokens := by
  constructor
  · rintro heq ⟨before, option, after, short, hsplit, hhead, hshort⟩
    have hlong := long_of_missing (heq.trans hsplit) hhead
    rw [(long_of_short hshort).1] at hlong
    cases hlong
  · intro hnot
    rcases readings_or tokens with h | ⟨hshort, -⟩
    · exact h
    · exact absurd hshort hnot

end readings

/-! ## What the loop makes of the parts -/

/-- A turn of the loop. -/
def CliArgs.apply (result : CliArgs) : Item → CliArgs
  | .pair target _ value => result.set value target
  | .missing option => result.push (missingValue option)
  | .unknown arg => result.push (unknownOption arg)
  | .positional arg =>
    if lacks result.workOrderPath = true then { result with workOrderPath := some arg }
    else result.push (unexpectedPositional arg)

/-- The errors that are pushed for the parts, from a result with this path. -/
def errorsFrom : (path : Option String) → List Item → List String
  | _, [] => []
  | path, .pair _ _ _ :: its => errorsFrom path its
  | path, .missing option :: its => missingValue option :: errorsFrom path its
  | path, .unknown arg :: its => unknownOption arg :: errorsFrom path its
  | path, .positional arg :: its =>
    if lacks path = true then errorsFrom (some arg) its
    else unexpectedPositional arg :: errorsFrom path its

/-- The path after the parts. -/
def pathFrom : (path : Option String) → List Item → Option String
  | path, [] => path
  | path, .positional arg :: its =>
    if lacks path = true then pathFrom (some arg) its else pathFrom path its
  | path, _ :: its => pathFrom path its

section loop

variable {its : List Item} {path : Option String} {seen : Bool}

/-- **The loop goes over the parts it takes the tokens for.** -/
theorem loop_eq (result : CliArgs) (tokens : List String) :
    loop result tokens = (readings tokens).foldl CliArgs.apply result := by
  unfold readings
  fun_induction loop result tokens with
  | case1 => rfl
  | case2 result arg target htarget ih => rw [scan_last htarget]; rfl
  | case3 result arg target htarget value rest hlong ih =>
    rw [scan_option htarget, if_neg (by simp [hlong]), List.foldl_cons]
    exact ih
  | case4 result arg target htarget value rest hlong ih =>
    rw [scan_option htarget, if_pos (by simp [hlong]), List.foldl_cons]
    exact ih
  | case5 result arg rest hnone hdashed ih =>
    rw [scan_bare hnone, if_pos hdashed, List.foldl_cons]
    exact ih
  | case6 result arg rest hnone hdashed hpath ih =>
    rw [scan_bare hnone, if_neg hdashed, List.foldl_cons, ih, CliArgs.apply, if_pos hpath]
  | case7 result arg rest hnone hdashed hpath ih =>
    rw [scan_bare hnone, if_neg hdashed, List.foldl_cons, ih, CliArgs.apply, if_neg hpath]

/-- The last value for a target, or what was there. -/
theorem getLast?_cons_or {α : Type} (a : α) (l : List α) (x : Option α) :
    (a :: l).getLast?.or x = l.getLast?.or (some a) := by
  rw [List.getLast?_cons]
  cases l.getLast? <;> rfl

theorem foldl_apply (its : List Item) (result : CliArgs) (errors : List String)
    (herrors : result.parseErrors = some errors) : its.foldl CliArgs.apply result =
      { subcommand := result.subcommand
        workOrderPath := pathFrom result.workOrderPath its
        agentPath := (its.filterMap (Item.value? .agentPath)).getLast?.or result.agentPath
        databasePath := (its.filterMap (Item.value? .databasePath)).getLast?.or result.databasePath
        workers := (its.filterMap (Item.value? .workers)).getLast?.or result.workers
        parseErrors := some (errors ++ errorsFrom result.workOrderPath its) } := by
  induction its generalizing result errors with
  | nil =>
    obtain ⟨s, p, a, d, w, e⟩ := result
    subst herrors
    simp [pathFrom, errorsFrom]
  | cons item its ih =>
    rw [List.foldl_cons]
    cases item with
    | pair target option value =>
      rw [ih _ errors (by cases target <;> exact herrors)]
      cases target <;>
        simp [CliArgs.apply, CliArgs.set, pathFrom, errorsFrom, Item.value?, getLast?_cons_or]
    | missing option =>
      rw [ih _ (errors ++ [missingValue option]) (by simp [CliArgs.apply, CliArgs.push, herrors])]
      simp [CliArgs.apply, CliArgs.push, pathFrom, errorsFrom, Item.value?]
    | unknown arg =>
      rw [ih _ (errors ++ [unknownOption arg]) (by simp [CliArgs.apply, CliArgs.push, herrors])]
      simp [CliArgs.apply, CliArgs.push, pathFrom, errorsFrom, Item.value?]
    | positional arg =>
      by_cases hpath : lacks result.workOrderPath = true
      · have happly : result.apply (.positional arg) = { result with workOrderPath := some arg } :=
          if_pos hpath
        rw [happly, ih { result with workOrderPath := some arg } errors herrors]
        simp [pathFrom, errorsFrom, Item.value?, hpath]
      · have happly : result.apply (.positional arg) = result.push (unexpectedPositional arg) :=
          if_neg hpath
        rw [happly, ih _ (errors ++ [unexpectedPositional arg]) (by simp [CliArgs.push, herrors])]
        simp [CliArgs.push, pathFrom, errorsFrom, Item.value?, hpath]

/-- What `parseArgs` returns. -/
theorem parseArgs_eq (rawArgs : List String) : parseArgs rawArgs = deleteEmpty
    { subcommand := subcommandOf rawArgs
      workOrderPath := pathFrom none (readings (rawArgs.drop 3))
      agentPath := ((readings (rawArgs.drop 3)).filterMap (Item.value? .agentPath)).getLast?
      databasePath := ((readings (rawArgs.drop 3)).filterMap (Item.value? .databasePath)).getLast?
      workers := ((readings (rawArgs.drop 3)).filterMap (Item.value? .workers)).getLast?
      parseErrors := some (errorsFrom none (readings (rawArgs.drop 3))) } := by
  have hdrop : rawArgs.drop 3 = (rawArgs.drop 2).tail := List.tail_drop.symm
  unfold parseArgs subcommandOf
  rw [hdrop]
  cases rawArgs.drop 2 with
  | nil => rfl
  | cons subcommand args =>
    show deleteEmpty (loop _ args) = _
    rw [loop_eq, foldl_apply _ _ [] rfl]
    simp

theorem errors_deleteEmpty {result : CliArgs} {errors : List String}
    (h : result.parseErrors = some errors) : (deleteEmpty result).parseErrors.getD [] = errors := by
  unfold deleteEmpty
  split
  next hempty => exact (Option.some.inj (h.symm.trans hempty)).symm
  next => rw [h, Option.getD_some]

/-- The errors `parseArgs` reports. -/
theorem errors_parseArgs (rawArgs : List String) :
    (parseArgs rawArgs).parseErrors.getD [] = errorsFrom none (readings (rawArgs.drop 3)) := by
  rw [parseArgs_eq]
  exact errors_deleteEmpty rfl

end loop

/-! ## One positional argument -/

section positional

variable {its : List Item} {path : Option String} {seen : Bool}

/-- With a path, every positional argument is reported. -/
theorem from_of_path (hpath : lacks path = false) (its : List Item) :
    errorsFrom path its = errorsOf true its ∧ pathFrom path its = path := by
  induction its with
  | nil => exact ⟨rfl, rfl⟩
  | cons item its ih => cases item <;> simp [errorsFrom, errorsOf, pathFrom, hpath, ih]

/-- Without positional arguments the path does not matter. -/
theorem from_of_none (hnone : its.filterMap Item.positional? = []) :
    errorsFrom path its = errorsOf seen its ∧ pathFrom path its = path := by
  induction its with
  | nil => exact ⟨rfl, rfl⟩
  | cons item its ih =>
    cases item with
    | positional arg => simp [Item.positional?] at hnone
    | _ =>
      have hrest := ih (by simpa [Item.positional?] using hnone)
      simp [errorsFrom, errorsOf, pathFrom, hrest]

/-- The first positional argument is the path, and the others are reported, unless an empty one is
the first of several. -/
theorem from_eq (hempty : ∀ second rest,
    its.filterMap Item.positional? ≠ "" :: second :: rest) :
    errorsFrom none its = errorsOf false its ∧
      pathFrom none its = (its.filterMap Item.positional?).head? := by
  induction its with
  | nil => exact ⟨rfl, rfl⟩
  | cons item its ih =>
    cases item with
    | positional arg =>
      have hrest : errorsFrom (some arg) its = errorsOf true its ∧
          pathFrom (some arg) its = some arg := by
        by_cases harg : arg = ""
        · refine from_of_none ?_
          cases hpositional : its.filterMap Item.positional? with
          | nil => rfl
          | cons second rest =>
            exact absurd (by simp [Item.positional?, harg, hpositional]) (hempty second rest)
        · exact from_of_path (by simp [lacks, harg]) its
      have hlacks : lacks none = true := rfl
      simp [errorsFrom, errorsOf, pathFrom, Item.positional?, hlacks, hrest]
    | _ =>
      rw [List.filterMap_cons_none rfl] at hempty ⊢
      have hrest := ih hempty
      simp only [errorsFrom, errorsOf, pathFrom, hrest, and_self]

/-- No more is reported than every positional argument. -/
theorem length_errorsFrom_le (its : List Item) (path : Option String) :
    (errorsFrom path its).length ≤ (errorsOf true its).length := by
  induction its generalizing path with
  | nil => exact le_rfl
  | cons item its ih =>
    cases item with
    | positional arg =>
      by_cases hpath : lacks path = true
      · simpa [errorsFrom, errorsOf, hpath] using (ih (some arg)).trans (Nat.le_succ _)
      · simpa [errorsFrom, errorsOf, hpath] using ih path
    | _ => simpa [errorsFrom, errorsOf] using ih path

/-- Where the path is missing, a positional argument is not reported. -/
theorem length_errorsFrom_lt (hpath : lacks path = true) {second : String} {rest : List String}
    (hsecond : its.filterMap Item.positional? = second :: rest) :
    (errorsFrom path its).length < (errorsOf true its).length := by
  induction its with
  | nil => simp at hsecond
  | cons item its ih =>
    cases item with
    | positional arg =>
      simpa [errorsFrom, errorsOf, hpath] using
        Nat.lt_succ_of_le (length_errorsFrom_le its (some arg))
    | _ =>
      rw [List.filterMap_cons_none rfl] at hsecond
      simpa [errorsFrom, errorsOf] using ih hsecond

/-- An empty positional argument before another one is not reported, nor is the other. -/
theorem length_errorsFrom_empty {second : String} {rest : List String}
    (h : its.filterMap Item.positional? = "" :: second :: rest) :
    (errorsFrom none its).length < (errorsOf false its).length := by
  induction its with
  | nil => simp at h
  | cons item its ih =>
    cases item with
    | positional arg =>
      have hcons : arg :: its.filterMap Item.positional? = "" :: second :: rest := h
      obtain ⟨rfl, hrest⟩ := List.cons.inj hcons
      exact length_errorsFrom_lt rfl hrest
    | _ =>
      rw [List.filterMap_cons_none rfl] at h
      simpa [errorsFrom, errorsOf] using ih h

/-- The error is of an option without a value: no other error begins with an `M`. -/
def isMissingValue (message : String) : Bool := message.toList.head? == some 'M'

theorem isMissingValue_append (start rest : String) (h : start.toList ≠ []) :
    isMissingValue (start ++ rest) = isMissingValue start := by
  unfold isMissingValue
  rw [String.toList_append]
  cases hstart : start.toList with
  | nil => exact absurd hstart h
  | cons c cs => rfl

@[simp] theorem isMissingValue_missingValue (option : String) :
    isMissingValue (missingValue option) = true := by
  unfold missingValue
  rw [String.append_assoc, isMissingValue_append _ _ (by decide)]
  decide

@[simp] theorem isMissingValue_unknownOption (arg : String) :
    isMissingValue (unknownOption arg) = false := by
  unfold unknownOption
  rw [String.append_assoc, isMissingValue_append _ _ (by decide)]
  decide

@[simp] theorem isMissingValue_unexpectedPositional (arg : String) :
    isMissingValue (unexpectedPositional arg) = false := by
  unfold unexpectedPositional
  rw [String.append_assoc, isMissingValue_append _ _ (by decide)]
  decide

/-- Every option that is reported is counted. -/
theorem countP_errorsFrom (its : List Item) (path : Option String) :
    (errorsFrom path its).countP isMissingValue = missingCount its := by
  induction its generalizing path with
  | nil => rfl
  | cons item its ih =>
    cases item with
    | positional arg =>
      by_cases hpath : lacks path = true
      · simp [errorsFrom, hpath, ih, Item.isMissing]
      · simp [errorsFrom, hpath, ih, Item.isMissing]
    | missing option =>
      rw [missingCount_missing, errorsFrom, List.countP_cons_of_pos (by simp), ih]
    | _ => simp [errorsFrom, ih, Item.isMissing]

theorem missingValue_mem {option : String} (h : .missing option ∈ its) (path : Option String) :
    missingValue option ∈ errorsFrom path its := by
  induction its generalizing path with
  | nil => cases h
  | cons item its ih =>
    rcases List.mem_cons.mp h with rfl | htail
    · exact List.mem_cons_self
    · cases item with
      | positional arg =>
        by_cases hpath : lacks path = true
        · simpa [errorsFrom, hpath] using ih htail (some arg)
        · simpa [errorsFrom, hpath] using Or.inr (ih htail path)
      | _ => simp [errorsFrom, ih htail]

end positional

/-! ## Complete pairs in another order -/

section reordered

variable {its its' : List Item} {rawArgs rawArgs' : List String}

/-- What is read from the parts that a filter keeps. -/
theorem filterMap_filter_eq {α : Type} {f : Item → Option α} {keep : Item → Bool}
    (h : ∀ item, keep item = false → f item = none) (its : List Item) :
    (its.filter keep).filterMap f = its.filterMap f := by
  rw [List.filterMap_filter]
  refine congrArg (List.filterMap · its) (funext fun item => ?_)
  cases hkeep : keep item with
  | true => simp
  | false => simp [h item hkeep]

theorem errorsOf_filter_bare (its : List Item) (seen : Bool) :
    errorsOf seen (its.filter Item.bare) = errorsOf seen its := by
  induction its generalizing seen with
  | nil => rfl
  | cons item its ih =>
    cases item with
    | pair target option value => exact ih seen
    | missing option => exact congrArg (missingValue option :: ·) (ih seen)
    | unknown arg => exact congrArg (unknownOption arg :: ·) (ih seen)
    | positional arg =>
      cases seen with
      | false => exact ih true
      | true => exact congrArg (unexpectedPositional arg :: ·) (ih true)

theorem missingCount_filter_bare (its : List Item) :
    missingCount (its.filter Item.bare) = missingCount its := by
  rw [missingCount, List.countP_filter]
  refine List.countP_congr fun item _ => ?_
  cases item <;> simp [Item.isMissing, Item.bare]

theorem SameItems.refl (its : List Item) : SameItems its its := ⟨rfl, fun _ => rfl⟩

theorem SameItems.positional (h : SameItems its its') :
    its'.filterMap Item.positional? = its.filterMap Item.positional? := by
  have hbare : ∀ item : Item, item.bare = false → item.positional? = none := by
    rintro (_ | _) hitem <;> first | rfl | cases hitem
  rw [← filterMap_filter_eq hbare its', h.1, filterMap_filter_eq hbare]

theorem SameItems.value (h : SameItems its its') (target : Target) :
    its'.filterMap (Item.value? target) = its.filterMap (Item.value? target) := by
  have hfor : ∀ item : Item, item.isFor target = false → item.value? target = none := by
    intro item hitem
    simpa [Item.isFor] using hitem
  rw [← filterMap_filter_eq hfor its', h.2, filterMap_filter_eq hfor]

theorem SameItems.errorsOf (h : SameItems its its') (seen : Bool) :
    errorsOf seen its' = errorsOf seen its := by
  rw [← errorsOf_filter_bare its', h.1, errorsOf_filter_bare]

theorem SameItems.missingCount (h : SameItems its its') : missingCount its' = missingCount its := by
  rw [← missingCount_filter_bare its', h.1, missingCount_filter_bare]

/-- The meaning does not depend on the order of pairs for different targets. -/
theorem SameItems.meaning (h : SameItems its its') (subcommand : String) :
    meaning subcommand its' = meaning subcommand its := by
  unfold CommandLine.meaning
  rw [h.positional, h.value, h.value, h.value, h.errorsOf]

/-! ## The reading -/

/-- Where no option is taken as a value, the loop takes the tokens for what they say. -/
theorem readings_eq_of_not_taken {tokens : List String}
    (h : ∀ target option value, .pair target option value ∈ readings tokens →
      target? value = none) : readings tokens = items tokens := by
  unfold readings at h ⊢
  fun_induction scan (fun value => !long value) tokens with
  | case1 => rfl
  | case2 arg target harg => exact (scan_last harg).symm
  | case3 arg target harg value rest htakes ih =>
    have hvalue : isValue value = true := by
      simp only [isValue, h target arg value List.mem_cons_self, Option.isNone_none, Bool.and_true]
      exact htakes
    rw [ih fun t o v hmem => h t o v (List.mem_cons_of_mem _ hmem), items, items,
      scan_option harg, if_pos hvalue]
  | case4 arg target harg value rest htakes ih =>
    have hvalue : ¬ isValue value = true := by
      intro hvalue
      exact htakes (Bool.and_eq_true_iff.mp hvalue).1
    rw [ih fun t o v hmem => h t o v (List.mem_cons_of_mem _ hmem), items, items,
      scan_option harg, if_neg hvalue]
  | case5 arg rest hnone ih =>
    rw [ih fun t o v hmem => h t o v (List.mem_cons_of_mem _ hmem), items, items, scan_bare hnone]

/-- A command line that is taken for what it says gets its meaning. -/
theorem parseArgs_eq_meaning
    (hread : readings (rawArgs.drop 3) = items (rawArgs.drop 3))
    (hempty : ∀ second rest,
      (items (rawArgs.drop 3)).filterMap Item.positional? ≠ "" :: second :: rest) :
    parseArgs rawArgs = meaning (subcommandOf rawArgs) (items (rawArgs.drop 3)) := by
  rw [parseArgs_eq, hread, (from_eq hempty).1, (from_eq hempty).2]
  rfl

theorem Reordered.refl (rawArgs : List String) : Reordered rawArgs rawArgs :=
  ⟨rfl, SameItems.refl _⟩

/-- An option that is not followed by a value is reported. -/
theorem missing_reported_of_eq (hread : readings (rawArgs.drop 3) = items (rawArgs.drop 3))
    {before after : List Item} {item : Item} {option : String}
    (hsplit : readings (rawArgs.drop 3) = before ++ item :: after)
    (hoption : item.option? = some option)
    (hnext : ∀ next ∈ (item.tokens.tail ++ after.flatMap Item.tokens).head?,
      isValue next = false) :
    ∃ errors, (parseArgs rawArgs).parseErrors = some errors ∧ missingValue option ∈ errors := by
  have hmem : item ∈ readings (rawArgs.drop 3) := by
    rw [hsplit]
    exact List.mem_append_right _ List.mem_cons_self
  cases item with
  | pair target o value =>
    have hvalue : isValue value = true := takes_of_mem_scan (hread ▸ hmem)
    rw [hnext value rfl] at hvalue
    cases hvalue
  | missing o =>
    obtain rfl := Option.some.inj hoption
    have herror := missingValue_mem hmem none
    rw [← errors_parseArgs] at herror
    cases herrors : (parseArgs rawArgs).parseErrors with
    | none => simp [herrors] at herror
    | some errors => exact ⟨errors, rfl, by simpa [herrors] using herror⟩
  | unknown arg => cases hoption
  | positional arg => cases hoption

/-- **`parseArgs` reads the command line as it should exactly when the command line is
unambiguous.** -/
theorem parseArgs_reads_iff (rawArgs : List String) :
    ReadsCommandLine rawArgs ↔ Unambiguous rawArgs := by
  constructor
  · rintro ⟨hnot_taken, -, ⟨-, hmeaning⟩, hreordered⟩
    have hread := readings_eq_of_not_taken hnot_taken
    refine ⟨?_, ?_⟩
    · intro rawArgs' hr hshort
      rcases readings_or (rawArgs'.drop 3) with heq | ⟨-, hlt⟩
      · exact readings_eq_iff.mp heq hshort
      · -- The other order reports an option less.
        have herrors : errorsFrom none (readings (rawArgs'.drop 3)) =
            errorsFrom none (readings (rawArgs.drop 3)) := by
          rw [← errors_parseArgs, ← errors_parseArgs, hreordered rawArgs' hr]
        have hcount := congrArg (List.countP isMissingValue) herrors
        rw [countP_errorsFrom, countP_errorsFrom, hread, ← hr.2.missingCount] at hcount
        exact hlt.ne hcount
    · intro second rest hpositional
      have hlt := length_errorsFrom_empty hpositional
      have herrors : errorsFrom none (readings (rawArgs.drop 3)) =
          errorsOf false (readings (rawArgs.drop 3)) := by
        rw [← errors_parseArgs, hmeaning]
        exact errors_deleteEmpty rfl
      rw [← hread, herrors] at hlt
      exact lt_irrefl _ hlt
  · rintro ⟨hno_short, hno_empty⟩
    have hread := readings_eq_iff.mpr (hno_short rawArgs (Reordered.refl rawArgs))
    have hmeaning := parseArgs_eq_meaning hread hno_empty
    refine ⟨?_, ?_, ⟨flatMap_scan, by rw [hread, hmeaning]⟩, ?_⟩
    · intro target option value hmem
      have hvalue : isValue value = true := takes_of_mem_scan (hread ▸ hmem)
      simpa using (Bool.and_eq_true_iff.mp hvalue).2
    · intro before item after option hsplit hoption hnext
      exact missing_reported_of_eq hread hsplit hoption hnext
    · intro rawArgs' hr
      have hempty' : ∀ second rest,
          (items (rawArgs'.drop 3)).filterMap Item.positional? ≠ "" :: second :: rest := by
        rw [hr.2.positional]
        exact hno_empty
      rw [parseArgs_eq_meaning (readings_eq_iff.mpr (hno_short rawArgs' hr)) hempty', hmeaning,
        hr.1, hr.2.meaning]

/-- `--agent -d`: the database option is taken as the path of the agent profile, without an
error. -/
theorem short_option_taken :
    (parseArgs ["node", "agentflow", "run", "wo.json", "--agent", "-d"]).agentPath = some "-d" ∧
    (parseArgs ["node", "agentflow", "run", "wo.json", "--agent", "-d"]).parseErrors = none ∧
    ¬ ReadsCommandLine ["node", "agentflow", "run", "wo.json", "--agent", "-d"] := by
  refine ⟨by decide +kernel, by decide +kernel, fun h => ?_⟩
  have hmem : .pair .agentPath "--agent" "-d" ∈ readings ["wo.json", "--agent", "-d"] := by
    decide +kernel
  have htarget : target? "-d" = none := h.not_taken _ _ _ hmem
  exact absurd htarget (by decide)

end reordered

end CommandLine

end AgentWorkflow
