import AgentWorkflow.Adapters.OutputTailBuffer
import AgentWorkflow.Core.AgentProfiles
import AgentWorkflow.Core.RunServices
import AgentWorkflow.Lib.Settling

/-!
# An agent's process

`ChildProcessOfficialCliAdapter.run` of `adapters/official-cli-adapter.ts`: a child process, a timer
and an abort signal, and one promise all their callbacks may settle.

* `ChildEvent` — what the callbacks are called with. Node orders them as it likes: nothing is assumed
  of a sequence of events.
* `AdapterRun` — the variables the callbacks share; `step`, `settle` — the callbacks.
* `decides` — the abstract reading of a sequence: **the first of timeout, abort, error and close
  decides**, and the outcome comes with the close or the error after it.
* **`outcome_eq_decides`** — the callbacks compute it, for every sequence of events.
* **`run_settled`** — the whole call: what is refused before anything is spawned, what is spawned, and how
  the promise settles.
-/

namespace AgentWorkflow

/-! ## Events -/

/-- What happens to a child process and its promise. -/
inductive ChildEvent
  | stdout (chunk : Buffer)
  | stderr (chunk : Buffer)
  /-- The timer fires. -/
  | timeout
  /-- The signal is aborted. -/
  | abort
  /-- There is no process, or it could not be killed; `now` is the clock there. -/
  | error (message : String) (now : ℤ)
  /-- The process has ended and its pipes are closed. -/
  | close (exitCode : Option ℤ) (signal : Option String) (now : ℤ)
  deriving DecidableEq

namespace ChildEvent

/-- Anything but output. -/
def isControl : ChildEvent → Bool
  | stdout _ | stderr _ => false
  | _ => true

/-- The process has ended, or was never there. -/
def isEnd : ChildEvent → Bool
  | error .. | close .. => true
  | _ => false

/-- The process has ended. -/
def isClose : ChildEvent → Bool
  | close .. => true
  | _ => false

/-- The arguments of a close. -/
def close? : ChildEvent → Option (Option ℤ × Option String × ℤ)
  | close exitCode signal now => some (exitCode, signal, now)
  | _ => none

/-- What an event adds to stdout. -/
def toStdout : ChildEvent → Buffer
  | stdout chunk => chunk
  | _ => []

/-- What an event adds to stderr. -/
def toStderr : ChildEvent → Buffer
  | stderr chunk => chunk
  | _ => []

end ChildEvent

/-- The events before the process has ended. -/
def untilClose (es : List ChildEvent) : List ChildEvent := es.takeWhile fun e => !e.isClose

/-! ## The callbacks -/

/-- The variables of one call of `run`. -/
structure AdapterRun where
  timedOut : Bool
  killed : Bool
  aborting : Bool
  /-- The timer has neither fired nor been cleared. -/
  timer : Bool
  /-- The abort listener is attached. -/
  listening : Bool
  stdoutBuf : OutputTailBuffer
  stderrBuf : OutputTailBuffer
  /-- How often `child.kill()` was called. -/
  kills : ℕ
  deriving DecidableEq, Repr

/-- Source: `official-cli-adapter.ts` `AgentProcessResult`, every field. -/
structure AdapterResult extends AgentProcessResult where
  signal : Option String
  wallTimeMs : ℤ

namespace AdapterRun

/-- Source: `official-cli-adapter.ts` `abortHandler`. -/
def abortHandler (s : AdapterRun) : AdapterRun :=
  if s.killed = true then s
  else { s with aborting := true, killed := true, kills := s.kills + 1 }

/-- What a callback does to the variables. -/
def step (s : AdapterRun) : ChildEvent → AdapterRun
  | .stdout chunk => { s with stdoutBuf := OutputTailBuffer.Adapter.append s.stdoutBuf chunk }
  | .stderr chunk => { s with stderrBuf := OutputTailBuffer.Adapter.append s.stderrBuf chunk }
  | .timeout =>
    if s.timer = true then
      { s with timer := false, timedOut := true, killed := true, kills := s.kills + 1 }
    else s
  | .abort => if s.listening = true then abortHandler { s with listening := false } else s
  | .error .. => { s with timer := false, listening := false }
  | .close .. => { s with timer := false, listening := false, killed := true }

/-- What is fixed for the callbacks of one call: how bytes are read as text, the executable, and the
clock at the start. -/
structure Fixed where
  utf8 : Buffer → String
  executable : String
  startTime : ℤ

/-- The error of a process that could not be started. -/
def spawnFailed (executable message : String) : Err :=
  .error ("Failed to spawn \"" ++ executable ++ "\": " ++ message)

/-- What a callback settles the promise with. -/
def settle (fixed : Fixed) (s : AdapterRun) : ChildEvent → Option (Except Err AdapterResult)
  | .error message _ =>
    if s.aborting = true then some (.error .aborted)
    else if s.killed = true then none
    else some (.error (spawnFailed fixed.executable message))
  | .close exitCode signal now =>
    if s.aborting = true then some (.error .aborted)
    else some (.ok
      { exitCode, signal, timedOut := s.timedOut
        stdoutTail := fixed.utf8 s.stdoutBuf.buf
        stderrTail := fixed.utf8 s.stderrBuf.buf
        stdoutBytes := s.stdoutBuf.totalBytes
        stderrBytes := s.stderrBuf.totalBytes
        wallTimeMs := now - fixed.startTime })
  | _ => none

/-- The promise of a call. -/
def promise (fixed : Fixed) : Settling AdapterRun ChildEvent (Except Err AdapterResult) :=
  ⟨step, settle fixed⟩

/-- The variables once every callback is attached. `aborted` is whether the signal is aborted by
then: the handler is called at once. -/
def start (maxStdout maxStderr : ℕ) (aborted : Bool) : AdapterRun :=
  let s : AdapterRun :=
    { timedOut := false, killed := false, aborting := false, timer := true, listening := true
      stdoutBuf := OutputTailBuffer.new maxStdout
      stderrBuf := OutputTailBuffer.new maxStderr
      kills := 0 }
  if aborted = true then abortHandler s else s

/-! ## The first control event decides -/

/-- The limits of the two tails. -/
structure Limits where
  maxStdout : ℕ
  maxStderr : ℕ

section decides

variable (fixed : Fixed) (limits : Limits)

/-- The result of a process that has printed `out` and `err` and has ended. -/
def resultOf (timedOut : Bool) (out err : Buffer) (closing : Option ℤ × Option String × ℤ) :
    AdapterResult where
  exitCode := closing.1
  signal := closing.2.1
  timedOut := timedOut
  stdoutTail := fixed.utf8 (OutputTailBuffer.lastBytes limits.maxStdout out)
  stderrTail := fixed.utf8 (OutputTailBuffer.lastBytes limits.maxStderr err)
  stdoutBytes := out.length
  stderrBytes := err.length
  wallTimeMs := closing.2.2 - fixed.startTime

/-- A process is waited for until it has ended. `out` and `err` were printed before. -/
def awaitClose (timedOut : Bool) (out err : Buffer) (es : List ChildEvent) :
    Option (Except Err AdapterResult) :=
  (es.findSome? ChildEvent.close?).map fun closing =>
    .ok (resultOf fixed limits timedOut (out ++ (untilClose es).flatMap ChildEvent.toStdout)
      (err ++ (untilClose es).flatMap ChildEvent.toStderr) closing)

/-- What the first control event leads to. -/
def decidedBy (out err : Buffer) (es : List ChildEvent) :
    Option ChildEvent → Option (Except Err AdapterResult)
  | some .abort => if es.any ChildEvent.isEnd = true then some (.error .aborted) else none
  | some .timeout => awaitClose fixed limits true out err es
  | some (.error message _) => some (.error (spawnFailed fixed.executable message))
  | some (.close ..) => awaitClose fixed limits false out err es
  | _ => none

/-- **What a sequence of events means**: a signal that is aborted from the start is its first control
event. -/
def decides (aborted : Bool) (es : List ChildEvent) : Option (Except Err AdapterResult) :=
  decidedBy fixed limits [] [] es
    (if aborted = true then some .abort else es.find? ChildEvent.isControl)

end decides

/-! ## The callbacks compute it -/

section phases

variable {fixed : Fixed} {limits : Limits} {s : AdapterRun} {out err : Buffer}
  {es : List ChildEvent} {timedOut : Bool}

/-- The buffers hold what was printed. -/
structure Printed (limits : Limits) (out err : Buffer) (s : AdapterRun) : Prop where
  stdout : OutputTailBuffer.Holds limits.maxStdout out s.stdoutBuf
  stderr : OutputTailBuffer.Holds limits.maxStderr err s.stderrBuf

/-- A callback that prints nothing. -/
theorem Printed.quiet {s' : AdapterRun} (h : Printed limits out err s)
    (hstdout : s'.stdoutBuf = s.stdoutBuf) (hstderr : s'.stderrBuf = s.stderrBuf) :
    Printed limits (out ++ []) (err ++ []) s' := by
  rw [List.append_nil, List.append_nil]
  exact ⟨hstdout ▸ h.stdout, hstderr ▸ h.stderr⟩

theorem stdoutBuf_abortHandler : (abortHandler s).stdoutBuf = s.stdoutBuf := by
  unfold abortHandler
  split <;> rfl

theorem stderrBuf_abortHandler : (abortHandler s).stderrBuf = s.stderrBuf := by
  unfold abortHandler
  split <;> rfl

/-- A callback prints what its event adds. -/
theorem Printed.step (h : Printed limits out err s) (e : ChildEvent) :
    Printed limits (out ++ e.toStdout) (err ++ e.toStderr) (s.step e) := by
  cases e with
  | stdout chunk =>
    exact ⟨OutputTailBuffer.Adapter.append_holds h.stdout chunk, (List.append_nil err).symm ▸ h.stderr⟩
  | stderr chunk =>
    exact ⟨(List.append_nil out).symm ▸ h.stdout, OutputTailBuffer.Adapter.append_holds h.stderr chunk⟩
  | timeout =>
    refine h.quiet ?_ ?_ <;>
    · rw [AdapterRun.step]
      split <;> rfl
  | abort =>
    refine h.quiet ?_ ?_
    · rw [AdapterRun.step]
      split
      · exact stdoutBuf_abortHandler
      · rfl
    · rw [AdapterRun.step]
      split
      · exact stderrBuf_abortHandler
      · rfl
  | error message now => exact h.quiet rfl rfl
  | close exitCode signal now => exact h.quiet rfl rfl

/-- What the result of a close shows is what was printed. -/
theorem Printed.result (h : Printed limits out err s) (haborting : s.aborting = false)
    (htimedOut : s.timedOut = timedOut) (exitCode : Option ℤ) (signal : Option String) (now : ℤ) :
    settle fixed s (.close exitCode signal now) =
      some (.ok (resultOf fixed limits timedOut out err (exitCode, signal, now))) := by
  have hout : s.stdoutBuf.buf = OutputTailBuffer.lastBytes limits.maxStdout out := h.stdout.buf
  have herr : s.stderrBuf.buf = OutputTailBuffer.lastBytes limits.maxStderr err := h.stderr.buf
  simp only [settle, haborting, Bool.false_eq_true, if_false, resultOf, hout, herr,
    h.stdout.totalBytes, h.stderr.totalBytes, htimedOut]

/-- Waiting passes over anything but a close. -/
theorem awaitClose_cons {e : ChildEvent} (he : e.isClose = false) :
    awaitClose fixed limits timedOut out err (e :: es) =
      awaitClose fixed limits timedOut (out ++ e.toStdout) (err ++ e.toStderr) es := by
  have hnone : e.close? = none := by
    cases e with
    | close => cases he
    | _ => rfl
  have huntil : untilClose (e :: es) = e :: untilClose es :=
    List.takeWhile_cons_of_pos (by rw [he]; rfl)
  simp only [awaitClose, List.findSome?_cons, hnone, huntil, List.flatMap_cons, List.append_assoc]

theorem awaitClose_close (exitCode : Option ℤ) (signal : Option String) (now : ℤ) :
    awaitClose fixed limits timedOut out err (.close exitCode signal now :: es) =
      some (.ok (resultOf fixed limits timedOut out err (exitCode, signal, now))) := by
  have huntil : untilClose (.close exitCode signal now :: es) = [] :=
    List.takeWhile_cons_of_neg (by simp [ChildEvent.isClose])
  simp only [awaitClose, List.findSome?_cons, ChildEvent.close?, huntil, List.flatMap_nil,
    List.append_nil, Option.map_some]

/-- An aborting call rejects at the first end. -/
theorem outcome_aborting (h : s.aborting = true) :
    (promise fixed).outcome s es =
      if es.any ChildEvent.isEnd = true then some (.error .aborted) else none := by
  induction es generalizing s with
  | nil => rfl
  | cons e es ih =>
    by_cases he : e.isEnd = true
    · have hsettle : (promise fixed).settle s e = some (.error .aborted) := by
        cases e with
        | error => exact if_pos h
        | close => exact if_pos h
        | _ => cases he
      rw [Settling.outcome_cons_of_some hsettle, List.any_cons, he, Bool.true_or, if_pos rfl]
    · have hsettle : (promise fixed).settle s e = none := by
        cases e with
        | error => exact absurd rfl he
        | close => exact absurd rfl he
        | _ => rfl
      have hstep : (s.step e).aborting = true := by
        cases e with
        | timeout =>
          rw [AdapterRun.step]
          split <;> exact h
        | abort =>
          rw [AdapterRun.step]
          split
          · unfold abortHandler
            split
            · exact h
            · rfl
          · exact h
        | _ => exact h
      rw [Settling.outcome_cons_of_none hsettle, List.any_cons, Bool.eq_false_iff.mpr he,
        Bool.false_or]
      exact ih hstep

/-- The variables after the timer has fired first. -/
structure TimedOut (s : AdapterRun) : Prop where
  aborting : s.aborting = false
  killed : s.killed = true
  timedOut : s.timedOut = true

theorem TimedOut.step (h : TimedOut s) (e : ChildEvent) : TimedOut (s.step e) := by
  cases e with
  | timeout =>
    rw [AdapterRun.step]
    split
    · exact ⟨h.aborting, rfl, rfl⟩
    · exact h
  | abort =>
    rw [AdapterRun.step]
    split
    · have hignored : abortHandler { s with listening := false } = { s with listening := false } :=
        if_pos h.killed
      rw [hignored]
      exact ⟨h.aborting, h.killed, h.timedOut⟩
    · exact h
  | close => exact ⟨h.aborting, rfl, h.timedOut⟩
  | _ => exact ⟨h.aborting, h.killed, h.timedOut⟩

/-- A call that has timed out waits for the close, whatever else happens. -/
theorem outcome_timedOut (h : TimedOut s) (hprinted : Printed limits out err s) :
    (promise fixed).outcome s es = awaitClose fixed limits true out err es := by
  induction es generalizing s out err with
  | nil => rfl
  | cons e es ih =>
    by_cases he : e.isClose = true
    · cases e with
      | close exitCode signal now =>
        rw [awaitClose_close]
        exact Settling.outcome_cons_of_some
          (hprinted.result h.aborting h.timedOut exitCode signal now)
      | _ => cases he
    · have hsettle : (promise fixed).settle s e = none := by
        cases e with
        | error => exact (if_neg (by rw [h.aborting]; decide)).trans (if_pos h.killed)
        | close => exact absurd rfl he
        | _ => rfl
      rw [Settling.outcome_cons_of_none hsettle, awaitClose_cons (Bool.eq_false_iff.mpr he)]
      exact ih (h.step e) (hprinted.step e)

/-- What is decided is decided with the output before it. -/
theorem decidedBy_cons {e : ChildEvent} {first : Option ChildEvent} (he : e.isControl = false) :
    decidedBy fixed limits (out ++ e.toStdout) (err ++ e.toStderr) es first =
      decidedBy fixed limits out err (e :: es) first := by
  have hclose : e.isClose = false := by
    cases e with
    | close => cases he
    | _ => rfl
  have hend : e.isEnd = false := by
    cases e with
    | error => cases he
    | close => cases he
    | _ => rfl
  cases first with
  | none => rfl
  | some c =>
    cases c with
    | abort => simp only [decidedBy, List.any_cons, hend, Bool.false_or]
    | timeout => exact (awaitClose_cons hclose).symm
    | close => exact (awaitClose_cons hclose).symm
    | _ => rfl

/-- The variables before any control event. -/
structure Running (s : AdapterRun) : Prop where
  aborting : s.aborting = false
  killed : s.killed = false
  timedOut : s.timedOut = false
  timer : s.timer = true
  listening : s.listening = true

/-- A running call goes where its first control event leads. -/
theorem outcome_running (h : Running s) (hprinted : Printed limits out err s) :
    (promise fixed).outcome s es =
      decidedBy fixed limits out err es (es.find? ChildEvent.isControl) := by
  induction es generalizing s out err with
  | nil => rfl
  | cons e es ih =>
    cases e with
    | stdout chunk =>
      have hnext := ih (s := s.step (.stdout chunk))
        ⟨h.aborting, h.killed, h.timedOut, h.timer, h.listening⟩ (hprinted.step (.stdout chunk))
      rw [Settling.outcome_cons_of_none rfl]
      refine hnext.trans ?_
      rw [List.find?_cons_of_neg (by simp [ChildEvent.isControl])]
      exact decidedBy_cons rfl
    | stderr chunk =>
      have hnext := ih (s := s.step (.stderr chunk))
        ⟨h.aborting, h.killed, h.timedOut, h.timer, h.listening⟩ (hprinted.step (.stderr chunk))
      rw [Settling.outcome_cons_of_none rfl]
      refine hnext.trans ?_
      rw [List.find?_cons_of_neg (by simp [ChildEvent.isControl])]
      exact decidedBy_cons rfl
    | timeout =>
      rw [List.find?_cons_of_pos rfl, Settling.outcome_cons_of_none rfl]
      have hfired : TimedOut (s.step .timeout) := by
        rw [AdapterRun.step, if_pos h.timer]
        exact ⟨h.aborting, rfl, rfl⟩
      refine (outcome_timedOut hfired (hprinted.step .timeout)).trans ?_
      exact (awaitClose_cons rfl).symm
    | abort =>
      rw [List.find?_cons_of_pos rfl, Settling.outcome_cons_of_none rfl]
      have haborting : (s.step .abort).aborting = true := by
        rw [AdapterRun.step, if_pos h.listening, abortHandler, if_neg (by simp [h.killed])]
      exact outcome_aborting haborting
    | error message now =>
      rw [List.find?_cons_of_pos rfl]
      refine Settling.outcome_cons_of_some ?_
      exact (if_neg (by rw [h.aborting]; decide)).trans (if_neg (by rw [h.killed]; decide))
    | close exitCode signal now =>
      rw [List.find?_cons_of_pos rfl]
      refine (Settling.outcome_cons_of_some
        (hprinted.result h.aborting h.timedOut exitCode signal now)).trans ?_
      exact (awaitClose_close exitCode signal now).symm

/-- **The callbacks compute what the first control event decides**, for every sequence of events. -/
theorem outcome_eq_decides (aborted : Bool) (es : List ChildEvent) :
    (promise fixed).outcome (start limits.maxStdout limits.maxStderr aborted) es =
      decides fixed limits aborted es := by
  cases aborted with
  | true => exact outcome_aborting rfl
  | false =>
    refine outcome_running ⟨rfl, rfl, rfl, rfl, rfl⟩ ?_
    exact ⟨OutputTailBuffer.new_holds, OutputTailBuffer.new_holds⟩

/-- A close that is the first control event is the first close. -/
theorem close_of_control {exitCode : Option ℤ} {signal : Option String} {now : ℤ}
    (h : es.find? ChildEvent.isControl = some (.close exitCode signal now)) :
    es.findSome? ChildEvent.close? = some (exitCode, signal, now) := by
  induction es with
  | nil => cases h
  | cons e es ih =>
    by_cases he : e.isControl = true
    · rw [List.find?_cons_of_pos he] at h
      obtain rfl := Option.some.inj h
      rfl
    · rw [List.find?_cons_of_neg he] at h
      have hnone : e.close? = none := by
        cases e with
        | close => exact absurd rfl he
        | _ => rfl
      rw [List.findSome?_cons, hnone]
      exact ih h

/-- What resolves was decided by the timer, or by the close. -/
theorem decides_ok {aborted : Bool} {r : AdapterResult}
    (h : decides fixed limits aborted es = some (.ok r)) :
    ((if aborted = true then some .abort else es.find? ChildEvent.isControl) = some .timeout ∧
      r.timedOut = true) ∨
    ∃ exitCode signal now,
      (if aborted = true then some .abort else es.find? ChildEvent.isControl) =
        some (.close exitCode signal now) ∧ r.timedOut = false ∧ r.exitCode = exitCode := by
  unfold decides at h
  cases aborted with
  | true =>
    rw [if_pos rfl, decidedBy] at h
    split at h <;> cases h
  | false =>
    rw [if_neg Bool.false_ne_true] at h ⊢
    cases hfirst : es.find? ChildEvent.isControl with
    | none =>
      rw [hfirst] at h
      cases h
    | some e =>
      rw [hfirst] at h
      cases e with
      | timeout =>
        obtain ⟨closing, -, hr⟩ := Option.map_eq_some_iff.mp h
        obtain rfl := Except.ok.inj hr
        exact Or.inl ⟨rfl, rfl⟩
      | close exitCode signal now =>
        obtain ⟨closing, hclosing, hr⟩ := Option.map_eq_some_iff.mp h
        obtain rfl := Except.ok.inj hr
        obtain rfl := Option.some.inj ((close_of_control hfirst).symm.trans hclosing)
        exact Or.inr ⟨exitCode, signal, now, rfl, rfl, rfl⟩
      | abort =>
        rw [decidedBy] at h
        split at h <;> cases h
      | _ => cases h

end phases

end AdapterRun

/-! ## What is spawned -/

/-- The text a replacement pattern stands for: `$$`, `$&`, and what stands before and after the match.
The character after the last of them is a backtick, 96. -/
def substitution (found before after : List Char) : List Char → List Char
  | '$' :: '$' :: rest => '$' :: substitution found before after rest
  | '$' :: '&' :: rest => found ++ substitution found before after rest
  | '$' :: '\'' :: rest => after ++ substitution found before after rest
  | '$' :: c :: rest =>
    if c = Char.ofNat 96 then before ++ substitution found before after rest
    else '$' :: substitution found before after (c :: rest)
  | c :: rest => c :: substitution found before after rest
  | [] => []

/-- `String.prototype.replaceAll` from a place on: `before` is the text up to it, and `skip` more
characters of it belong to a match. -/
def replaceFrom (search replacement : List Char) : List Char → ℕ → List Char → List Char
  | _, _, [] => []
  | before, skip + 1, c :: rest => replaceFrom search replacement (before ++ [c]) skip rest
  | before, 0, c :: rest =>
    if search.isPrefixOf (c :: rest) = true then
      substitution search before ((c :: rest).drop search.length) replacement ++
        replaceFrom search replacement (before ++ [c]) (search.length - 1) rest
    else c :: replaceFrom search replacement (before ++ [c]) 0 rest

/-- `text.replaceAll(search, replacement)`. -/
def replaceAll (search replacement text : String) : String :=
  String.ofList (replaceFrom search.toList replacement.toList [] 0 text.toList)

/-- Source: `official-cli-adapter.ts` `renderArgs`. -/
def renderArgs (args : List String) (promptFile : String) : List String :=
  args.map (replaceAll "\x7b\x7bprompt_file\x7d\x7d" promptFile)

/-- The environment of a process. -/
abbrev ProcessEnv := String → Option String

/-- `Object.assign(env, set)`, then `delete env[key]` for every key of `unset`. -/
def ProfileEnvironment.apply (environment : ProfileEnvironment) (env : ProcessEnv) : ProcessEnv :=
  let assigned : ProcessEnv := (environment.set.getD []).foldl
    (fun (env : ProcessEnv) p => Function.update env p.1 (some p.2)) env
  (environment.unset.getD []).foldl (fun (env : ProcessEnv) key => Function.update env key none)
    assigned

section profiles

variable {isRegExp : String → Bool}

/-- `profile.command`. -/
def AgentProfile.command : AgentProfile isRegExp → ProfileCommand
  | .inl p => p.1.command
  | .inr p => p.1.command

/-- `profile.environment`. -/
def AgentProfile.environment : AgentProfile isRegExp → Option ProfileEnvironment
  | .inl p => p.1.environment
  | .inr p => p.1.environment

/-- `profile.limits`. -/
def AgentProfile.limits : AgentProfile isRegExp → Option ProfileLimits
  | .inl p => p.1.limits
  | .inr p => p.1.limits

end profiles

/-- The process a call starts, and its timer. -/
structure SpawnRequest where
  executable : String
  args : List String
  cwd : String
  env : ProcessEnv
  timeoutMs : ℚ

/-- The arguments of `run`; the signal is part of the surroundings. -/
structure AdapterCall (isRegExp : String → Bool) where
  agentProfile : AgentProfile isRegExp
  workspacePath : String
  promptFile : String
  timeoutSeconds : Option ℚ

/-- What a call finds around it. -/
structure AdapterSurroundings where
  utf8 : Buffer → String
  /-- `path.resolve`. -/
  resolve : String → String
  /-- `fs.stat`: nothing, a directory, or something else. -/
  stat : String → Option Bool
  processEnv : ProcessEnv
  /-- Whether the signal is aborted when the call begins, and when the process has been spawned. -/
  abortedAtEntry : Bool
  abortedAtSpawn : Bool
  startTime : ℤ
  /-- What `spawn` throws, before there is a process. -/
  spawnThrows : SpawnRequest → Option Err
  /-- What happens to the process. -/
  events : SpawnRequest → List ChildEvent

/-- A call: the process it has spawned, and what its promise is settled with, if it is. -/
structure AdapterCall.Done where
  spawned : Option SpawnRequest
  outcome : Option (Except Err AdapterResult)

namespace ChildProcessOfficialCliAdapter

variable {isRegExp : String → Bool}

/-- The limits of the tails of a call. -/
def limits (call : AdapterCall isRegExp) : AdapterRun.Limits where
  maxStdout := (call.agentProfile.limits.bind ProfileLimits.maxStdoutBytes).getD (64 * 1024)
  maxStderr := (call.agentProfile.limits.bind ProfileLimits.maxStderrBytes).getD (64 * 1024)

/-- The process of a call. -/
def request (call : AdapterCall isRegExp) (around : AdapterSurroundings) : SpawnRequest where
  executable := call.agentProfile.command.executable
  args := renderArgs call.agentProfile.command.args (around.resolve call.promptFile)
  cwd := around.resolve
    (call.agentProfile.command.cwd.getD (around.resolve call.workspacePath))
  env := (call.agentProfile.environment.map ProfileEnvironment.apply).getD id around.processEnv
  timeoutMs := call.timeoutSeconds.getD
    ((call.agentProfile.limits.bind ProfileLimits.timeoutSeconds).map Nat.cast |>.getD 300) * 1000

/-- The fixed values of the callbacks of a call. -/
def fixed (call : AdapterCall isRegExp) (around : AdapterSurroundings) : AdapterRun.Fixed where
  utf8 := around.utf8
  executable := call.agentProfile.command.executable
  startTime := around.startTime

/-- Source: `official-cli-adapter.ts` `ChildProcessOfficialCliAdapter.run`. -/
def run (call : AdapterCall isRegExp) (around : AdapterSurroundings) : AdapterCall.Done :=
  if around.abortedAtEntry = true then ⟨none, some (.error .aborted)⟩
  else
    let request := request call around
    match around.stat request.cwd with
    | none => ⟨none, some (.error (.error ("cwd does not exist: " ++ request.cwd)))⟩
    | some false => ⟨none, some (.error (.error ("cwd is not a directory: " ++ request.cwd)))⟩
    | some true =>
      match around.spawnThrows request with
      | some e => ⟨none, some (.error e)⟩
      | none =>
        ⟨some request,
          (AdapterRun.promise (fixed call around)).outcome
            (AdapterRun.start (limits call).maxStdout (limits call).maxStderr
              around.abortedAtSpawn)
            (around.events request)⟩

/-- The first control event of a call that has spawned a process. -/
def firstControl (call : AdapterCall isRegExp) (around : AdapterSurroundings) : Option ChildEvent :=
  if around.abortedAtSpawn = true then some .abort
  else (around.events (request call around)).find? ChildEvent.isControl

/-- A call spawns its process, or rejects. -/
theorem run_cases (call : AdapterCall isRegExp) (around : AdapterSurroundings) :
    (around.abortedAtEntry = false ∧ around.stat (request call around).cwd = some true ∧
        around.spawnThrows (request call around) = none ∧
        run call around = ⟨some (request call around),
          AdapterRun.decides (fixed call around) (limits call) around.abortedAtSpawn
            (around.events (request call around))⟩) ∨
      ((around.abortedAtEntry = true ∨ around.stat (request call around).cwd ≠ some true ∨
          around.spawnThrows (request call around) ≠ none) ∧
        ∃ e, run call around = ⟨none, some (.error e)⟩) := by
  unfold run
  by_cases hentry : around.abortedAtEntry = true
  · exact Or.inr ⟨Or.inl hentry, _, if_pos hentry⟩
  rw [if_neg hentry]
  rcases hstat : around.stat (request call around).cwd with _ | isDirectory
  · exact Or.inr ⟨Or.inr (Or.inl (by simp)), _, by simp only [hstat]; rfl⟩
  cases isDirectory with
  | false => exact Or.inr ⟨Or.inr (Or.inl (by simp)), _, by simp only [hstat]; rfl⟩
  | true =>
    rcases hspawn : around.spawnThrows (request call around) with _ | e
    · refine Or.inl ⟨Bool.eq_false_iff.mpr hentry, rfl, rfl, ?_⟩
      simp only [hstat, hspawn, AdapterRun.outcome_eq_decides]
    · exact Or.inr ⟨Or.inr (Or.inr (by simp)), e, by simp only [hstat, hspawn]⟩

/-- A call that resolves has spawned its process, and the timer or the close came first. -/
theorem run_resolved {call : AdapterCall isRegExp} {around : AdapterSurroundings}
    {r : AdapterResult} (h : (run call around).outcome = some (.ok r)) :
    (run call around).spawned = some (request call around) ∧
      (firstControl call around = some .timeout ∧ r.timedOut = true ∨
        ∃ exitCode signal now, firstControl call around = some (.close exitCode signal now) ∧
          r.timedOut = false ∧ r.exitCode = exitCode) := by
  rcases run_cases call around with ⟨-, -, -, hrun⟩ | ⟨-, e, hrun⟩
  · rw [hrun] at h ⊢
    exact ⟨rfl, AdapterRun.decides_ok h⟩
  · rw [hrun] at h
    cases h

end ChildProcessOfficialCliAdapter

/-! ## Why it failed -/

section classification

variable {platform : Platform}

/-- Whether a pattern is found in a text. -/
def Platform.finds (platform : Platform) (text pattern : String) : Bool :=
  match platform.regExpTest pattern text with
  | .ok found => found
  | .error _ => false

/-- The failures a profile can tell by stderr, in the order they are looked for. -/
def providerPatterns (c : FailureClassification) :
    List (OfficialCliFailureReason × List String) :=
  [(.providerRateLimited, c.providerRateLimitedStderr.getD []),
    (.providerQuotaExhausted, c.providerQuotaExhaustedStderr.getD []),
    (.providerAuthFailed, c.providerAuthFailedStderr.getD [])]

/-- **What a failed process failed for**: the first failure one of whose patterns is in its stderr. -/
def reasonByStderr (platform : Platform) (c : Option FailureClassification) (stderrTail : String) :
    OfficialCliFailureReason :=
  (((c.map providerPatterns).getD []).find? fun kind =>
    kind.2.any (platform.finds stderrTail)).elim .agentNonzeroExit Prod.fst

/-- Patterns that can be tested are tested one after the other. -/
theorem matchesAnyPattern_eq {patterns : List String}
    (h : ∀ pattern ∈ patterns, ∃ found, platform.regExpTest pattern text = .ok found) :
    matchesAnyPattern platform text patterns = .ok (patterns.any (platform.finds text)) := by
  induction patterns with
  | nil => rfl
  | cons pattern patterns ih =>
    obtain ⟨found, hfound⟩ := h pattern List.mem_cons_self
    have hrest := ih fun q hq => h q (List.mem_cons_of_mem _ hq)
    have hfinds : platform.finds text pattern = found := by
      rw [Platform.finds, hfound]
    rw [matchesAnyPattern, hfound, List.any_cons, hfinds]
    cases found with
    | true => rfl
    | false => exact hrest

/-- The patterns of a profile that passed its schema can be tested. -/
theorem testable_of_valid (text : String) {isRegExp : String → Bool}
    {patterns : Option (List String)}
    (hregExp : ∀ pattern, isRegExp pattern = true →
      ∀ text, ∃ found, platform.regExpTest pattern text = .ok found)
    (h : PatternsValid isRegExp patterns) :
    ∀ pattern ∈ patterns.getD [], ∃ found, platform.regExpTest pattern text = .ok found := by
  intro pattern hpattern
  cases patterns with
  | none => cases hpattern
  | some l => exact hregExp pattern (h l rfl pattern hpattern).2 text

/-- **The classification of a profile that passed its schema never throws**, and it is read off the
result and its stderr. -/
theorem classifyOfficialCliFailure_eq {isRegExp : String → Bool}
    (hregExp : ∀ pattern, isRegExp pattern = true →
      ∀ text, ∃ found, platform.regExpTest pattern text = .ok found)
    (p : ParsedAgentProfileV1 isRegExp) (result : AgentProcessResult) :
    classifyOfficialCliFailure platform (p.1.toAgentProfileV1 p.2) result =
      .ok (if result.timedOut = true then some .agentTimedOut
        else if result.exitCode = some 0 then none
        else some (reasonByStderr platform p.1.failureClassification result.stderrTail)) := by
  have hprofile : (p.1.toAgentProfileV1 p.2).failureClassification = p.1.failureClassification := rfl
  unfold classifyOfficialCliFailure
  by_cases htimedOut : result.timedOut = true
  · rw [if_pos htimedOut, if_pos htimedOut]
    rfl
  rw [if_neg htimedOut, if_neg htimedOut]
  by_cases hexit : result.exitCode = some 0
  · rw [if_pos hexit, if_pos hexit]
    rfl
  rw [if_neg hexit, if_neg hexit, hprofile]
  cases hc : p.1.failureClassification with
  | none => rfl
  | some c =>
    obtain ⟨hrate, hquota, hauth⟩ := p.2.failureClassification c hc
    have h1 := matchesAnyPattern_eq (testable_of_valid result.stderrTail hregExp hrate)
    have h2 := matchesAnyPattern_eq (testable_of_valid result.stderrTail hregExp hquota)
    have h3 := matchesAnyPattern_eq (testable_of_valid result.stderrTail hregExp hauth)
    simp only [Option.bind_some, h1, h2, h3, reasonByStderr, Option.map_some, Option.getD_some,
      providerPatterns, List.find?_cons, List.find?_nil]
    cases (c.providerRateLimitedStderr.getD []).any (platform.finds result.stderrTail) with
    | true => rfl
    | false =>
      cases (c.providerQuotaExhaustedStderr.getD []).any (platform.finds result.stderrTail) with
      | true => rfl
      | false =>
        cases (c.providerAuthFailedStderr.getD []).any (platform.finds result.stderrTail) with
        | true => rfl
        | false => rfl

/-- **From the events of a process to the reason of the run.** With any profile that passed its schema,
a call that resolves is classified as timed out exactly when the timer came first; otherwise the close
came first, and its code and the stderr up to it say whether and why the agent failed. -/
theorem ChildProcessOfficialCliAdapter.run_classified {isRegExp : String → Bool}
    (hregExp : ∀ pattern, isRegExp pattern = true →
      ∀ text, ∃ found, platform.regExpTest pattern text = .ok found)
    (p : ParsedAgentProfileV1 isRegExp) {call : AdapterCall isRegExp} {around : AdapterSurroundings}
    {r : AdapterResult}
    (h : (run call around).outcome = some (.ok r)) :
    ∃ reason, classifyOfficialCliFailure platform (p.1.toAgentProfileV1 p.2)
        r.toAgentProcessResult = .ok reason ∧
      ((firstControl call around = some .timeout ∧ reason = some .agentTimedOut) ∨
        ∃ exitCode signal now, firstControl call around = some (.close exitCode signal now) ∧
          reason = if exitCode = some 0 then none
            else some (reasonByStderr platform p.1.failureClassification r.stderrTail)) := by
  refine ⟨_, classifyOfficialCliFailure_eq hregExp p r.toAgentProcessResult, ?_⟩
  obtain ⟨-, ⟨hfirst, htimedOut⟩ | ⟨exitCode, signal, now, hfirst, htimedOut, hexit⟩⟩ :=
    run_resolved h
  · exact Or.inl ⟨hfirst, if_pos htimedOut⟩
  · refine Or.inr ⟨exitCode, signal, now, hfirst, ?_⟩
    rw [if_neg (by rw [htimedOut]; decide), hexit]

end classification

namespace Sample

/-- An agent whose provider says 429 on stderr when it limits it. -/
def limitedProfile : ParsedAgentProfileV1 fun _ => true where
  val :=
    { agentId := "ada", command := ⟨"agent", ["--prompt", "\x7b\x7bprompt_file\x7d\x7d"], none⟩
      environment := none, kinds := ["code_change"], roles := [.implementer], costProfile := none
      failureClassification := some ⟨some ["429"], none, none⟩
      quota := .default, reliability := .default, limits := none }
  property := by decide +kernel

/-- A call for it. -/
def limitedCall : AdapterCall fun _ => true := ⟨.inr limitedProfile, "/work", "/work/prompt.md", none⟩

/-- The process prints 429 and ends with 1. -/
def limitedAround : AdapterSurroundings where
  utf8 bytes := String.ofList (bytes.map fun byte => Char.ofNat byte.toNat)
  resolve path := path
  stat _ := some true
  processEnv _ := none
  abortedAtEntry := false
  abortedAtSpawn := false
  startTime := 1000
  spawnThrows _ := none
  events _ := [.stderr [52, 50, 57], .close (some 1) none 2000]

/-- Patterns without special characters, on the texts they are equal to. -/
def literalPlatform : Platform where
  json := ⟨fun _ => "json", fun _ => none⟩
  stringify _ := "json"
  sha256hex _ := "00"
  pathJoin := String.intercalate "/"
  regExpTest pattern text := .ok (decide (pattern = text))

theorem limitedCall_classified : ∃ r : AdapterResult,
    (ChildProcessOfficialCliAdapter.run limitedCall limitedAround).outcome = some (.ok r) ∧
    classifyOfficialCliFailure literalPlatform
      (limitedProfile.1.toAgentProfileV1 limitedProfile.2) r.toAgentProcessResult =
        .ok (some .providerRateLimited) := by
  refine ⟨_, rfl, ?_⟩
  obtain ⟨reason, hreason, ⟨hfirst, -⟩ | ⟨exitCode, signal, now, hfirst, hclassified⟩⟩ :=
    @ChildProcessOfficialCliAdapter.run_classified literalPlatform _
      (fun pattern _ text => ⟨decide (pattern = text), rfl⟩) limitedProfile limitedCall
      limitedAround _ rfl
  · cases hfirst
  · cases hfirst
    rw [hreason, hclassified]
    decide +kernel

end Sample

end AgentWorkflow
