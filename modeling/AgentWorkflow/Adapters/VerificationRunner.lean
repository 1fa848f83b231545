import AgentWorkflow.Adapters.ChildProcess

/-!
# The verification commands

`verification/verification-runner.ts`: the commands of a work order are run one after the other, each
in a shell with a timer and the abort signal.

* `RunnerRun` — the variables of one command's callbacks. They are not those of an agent's process:
  here **an abort always counts**, also after the timer has fired, and any end settles the promise.
* `settledBy` — the abstract reading of a sequence of events: the first end decides, with what came
  before it. **`outcome_eq_settledBy`** — the callbacks compute it.
* `ShellVerificationRunner.run` — the loop.
* **`run_verdict`** — verification passes exactly when every command ends by itself with 0; otherwise
  it has stopped at the first one that does not, and none was run after it.
-/

namespace AgentWorkflow

namespace ChildEvent

/-- What an event adds to the one output of a command. -/
def printed (e : ChildEvent) : Buffer := e.toStdout ++ e.toStderr

end ChildEvent

/-- The events before a command ends. -/
def untilEnd (es : List ChildEvent) : List ChildEvent := es.takeWhile fun e => !e.isEnd

/-- An entry of `commandResults`. -/
structure CommandRun where
  command : String
  exitCode : Option ℤ
  timedOut : Bool
  output : String
  wallTimeMs : ℤ
  deriving DecidableEq, Repr

/-! ## One command -/

/-- The variables of one call of `runSingleCommand`. -/
structure RunnerRun where
  timedOut : Bool
  aborted : Bool
  /-- The timer has neither fired nor been cleared. -/
  timer : Bool
  /-- The abort listener is attached. -/
  listening : Bool
  outputBuf : OutputTailBuffer
  /-- How often `killChildTree` was called. -/
  kills : ℕ
  deriving DecidableEq, Repr

namespace RunnerRun

/-- Source: `verification-runner.ts` `abortHandler`. -/
def abortHandler (s : RunnerRun) : RunnerRun := { s with aborted := true, kills := s.kills + 1 }

/-- What a callback does to the variables. -/
def step (s : RunnerRun) : ChildEvent → RunnerRun
  | .stdout chunk | .stderr chunk =>
    { s with outputBuf := OutputTailBuffer.Runner.append s.outputBuf chunk }
  | .timeout =>
    if s.timer = true then { s with timer := false, timedOut := true, kills := s.kills + 1 } else s
  | .abort => if s.listening = true then abortHandler { s with listening := false } else s
  | .error .. | .close .. => { s with timer := false, listening := false }

/-- What is fixed for the callbacks of one command. -/
structure Fixed where
  utf8 : Buffer → String
  command : String
  maxOutputBytes : ℕ
  startTime : ℤ

/-- The output as it is reported: with a note when the beginning is missing. -/
def noted (maxOutputBytes totalBytes : ℕ) (output : String) : String :=
  if maxOutputBytes < totalBytes then
    "[output truncated to last " ++ toString maxOutputBytes ++ " bytes]\n" ++ output
  else output

/-- What a callback settles the promise with. -/
def settle (fixed : Fixed) (s : RunnerRun) : ChildEvent → Option (Except Err CommandRun)
  | .error _ now =>
    if s.aborted = true then some (.error .aborted)
    else some (.ok
      { command := fixed.command, exitCode := none, timedOut := false
        output := fixed.utf8 s.outputBuf.buf, wallTimeMs := now - fixed.startTime })
  | .close exitCode _ now =>
    if s.aborted = true then some (.error .aborted)
    else some (.ok
      { command := fixed.command, exitCode, timedOut := s.timedOut
        output := noted fixed.maxOutputBytes s.outputBuf.totalBytes (fixed.utf8 s.outputBuf.buf)
        wallTimeMs := now - fixed.startTime })
  | _ => none

/-- The promise of a command. -/
def promise (fixed : Fixed) : Settling RunnerRun ChildEvent (Except Err CommandRun) :=
  ⟨step, settle fixed⟩

/-- The variables once every callback is attached. -/
def start (maxOutputBytes : ℕ) (aborted : Bool) : RunnerRun :=
  let s : RunnerRun :=
    { timedOut := false, aborted := false, timer := true, listening := true
      outputBuf := OutputTailBuffer.new maxOutputBytes, kills := 0 }
  if aborted = true then abortHandler s else s

/-! ## The first end decides -/

section spec

variable (fixed : Fixed)

/-- The result of a command that printed `output` and ended with `e`. -/
def resultOf (timedOut : Bool) (output : Buffer) : ChildEvent → CommandRun
  | .close exitCode _ now =>
    { command := fixed.command, exitCode, timedOut
      output := noted fixed.maxOutputBytes output.length
        (fixed.utf8 (OutputTailBuffer.lastBytes fixed.maxOutputBytes output))
      wallTimeMs := now - fixed.startTime }
  | .error _ now =>
    { command := fixed.command, exitCode := none, timedOut := false
      output := fixed.utf8 (OutputTailBuffer.lastBytes fixed.maxOutputBytes output)
      wallTimeMs := now - fixed.startTime }
  | _ => ⟨fixed.command, none, timedOut, "", 0⟩

/-- What the events lead to, after `before`. -/
def settledAfter (aborted : Bool) (before es : List ChildEvent) :
    Option (Except Err CommandRun) :=
  (es.find? ChildEvent.isEnd).map fun e =>
    if aborted = true ∨ .abort ∈ before ++ untilEnd es then .error .aborted
    else .ok (resultOf fixed (decide (.timeout ∈ before ++ untilEnd es))
      ((before ++ untilEnd es).flatMap ChildEvent.printed) e)

/-- **What a sequence of events means**: nothing before the first end, and then an abort if there was
one, whenever it was. -/
def settledBy (aborted : Bool) (es : List ChildEvent) : Option (Except Err CommandRun) :=
  settledAfter fixed aborted [] es

end spec

section callbacks

variable {fixed : Fixed} {s : RunnerRun} {aborted : Bool} {before es : List ChildEvent}

/-- The variables after the events `before`, none of which is an end. -/
structure After (fixed : Fixed) (aborted : Bool) (before : List ChildEvent) (s : RunnerRun) :
    Prop where
  aborted_iff : s.aborted = true ↔ aborted = true ∨ .abort ∈ before
  timedOut_iff : s.timedOut = true ↔ .timeout ∈ before
  timer : s.timer = true ∨ s.timedOut = true
  listening : s.listening = true ∨ s.aborted = true
  output : OutputTailBuffer.Holds fixed.maxOutputBytes (before.flatMap ChildEvent.printed) s.outputBuf

/-- An event that is no end is noted. -/
theorem After.step (h : After fixed aborted before s) {e : ChildEvent} (he : e.isEnd = false) :
    After fixed aborted (before ++ [e]) (s.step e) := by
  have houtput : (before ++ [e]).flatMap ChildEvent.printed =
      before.flatMap ChildEvent.printed ++ e.printed := by simp
  cases e with
  | error => cases he
  | close => cases he
  | stdout chunk =>
    refine ⟨h.aborted_iff.trans (by simp), h.timedOut_iff.trans (by simp), h.timer, h.listening, ?_⟩
    have hprinted : (ChildEvent.stdout chunk).printed = chunk := List.append_nil chunk
    rw [houtput, hprinted]
    exact OutputTailBuffer.Runner.append_holds h.output chunk
  | stderr chunk =>
    refine ⟨h.aborted_iff.trans (by simp), h.timedOut_iff.trans (by simp), h.timer, h.listening, ?_⟩
    have hprinted : (ChildEvent.stderr chunk).printed = chunk := rfl
    rw [houtput, hprinted]
    exact OutputTailBuffer.Runner.append_holds h.output chunk
  | timeout =>
    have hquiet := houtput.trans (List.append_nil _) ▸ h.output
    rw [RunnerRun.step]
    by_cases htimer : s.timer = true
    · rw [if_pos htimer]
      exact ⟨h.aborted_iff.trans (by simp), iff_of_true rfl (by simp), Or.inr rfl, h.listening,
        hquiet⟩
    · rw [if_neg htimer]
      have htimedOut := h.timer.resolve_left htimer
      exact ⟨h.aborted_iff.trans (by simp), iff_of_true htimedOut (by simp), h.timer, h.listening,
        hquiet⟩
  | abort =>
    have hquiet := houtput.trans (List.append_nil _) ▸ h.output
    rw [RunnerRun.step]
    by_cases hlistening : s.listening = true
    · rw [if_pos hlistening]
      exact ⟨iff_of_true rfl (by simp), h.timedOut_iff.trans (by simp), h.timer, Or.inr rfl, hquiet⟩
    · rw [if_neg hlistening]
      have haborted := h.listening.resolve_left hlistening
      exact ⟨iff_of_true haborted (by simp), h.timedOut_iff.trans (by simp), h.timer, h.listening,
        hquiet⟩

/-- An end settles with what was noted. -/
theorem After.settle (h : After fixed aborted before s) {e : ChildEvent} (he : e.isEnd = true) :
    settle fixed s e = some (if aborted = true ∨ .abort ∈ before then .error .aborted
      else .ok (resultOf fixed (decide (.timeout ∈ before))
        (before.flatMap ChildEvent.printed) e)) := by
  have hbuf : s.outputBuf.buf =
      OutputTailBuffer.lastBytes fixed.maxOutputBytes (before.flatMap ChildEvent.printed) :=
    h.output.buf
  have htimedOut : s.timedOut = decide (.timeout ∈ before) := by
    rw [Bool.eq_iff_iff, h.timedOut_iff, decide_eq_true_iff]
  by_cases haborted : s.aborted = true
  · rw [if_pos (h.aborted_iff.mp haborted)]
    cases e with
    | error => exact if_pos haborted
    | close => exact if_pos haborted
    | _ => cases he
  · rw [if_neg (mt h.aborted_iff.mpr haborted)]
    cases e with
    | error message now =>
      refine (if_neg haborted).trans ?_
      rw [hbuf, resultOf]
    | close exitCode signal now =>
      refine (if_neg haborted).trans ?_
      rw [hbuf, htimedOut, h.output.totalBytes, resultOf]
    | _ => cases he

/-- The callbacks from some events on. -/
theorem outcome_after (h : After fixed aborted before s) :
    (promise fixed).outcome s es = settledAfter fixed aborted before es := by
  induction es generalizing s before with
  | nil => rfl
  | cons e es ih =>
    cases he : e.isEnd with
    | true =>
      have huntil : untilEnd (e :: es) = [] := List.takeWhile_cons_of_neg (by simp [he])
      rw [Settling.outcome_cons_of_some (h.settle he), settledAfter,
        List.find?_cons_of_pos he, Option.map_some, huntil, List.append_nil]
    | false =>
      have huntil : untilEnd (e :: es) = e :: untilEnd es :=
        List.takeWhile_cons_of_pos (by rw [he]; rfl)
      have hsettle : (promise fixed).settle s e = none := by
        cases e with
        | error => cases he
        | close => cases he
        | _ => rfl
      rw [Settling.outcome_cons_of_none hsettle]
      refine (ih (h.step he)).trans ?_
      rw [settledAfter, settledAfter, List.find?_cons_of_neg (by simp [he]), huntil,
        List.append_assoc, List.singleton_append]

/-- **The callbacks compute what the first end decides**, for every sequence of events. -/
theorem outcome_eq_settledBy (aborted : Bool) (es : List ChildEvent) :
    (promise fixed).outcome (start fixed.maxOutputBytes aborted) es =
      settledBy fixed aborted es := by
  refine outcome_after ?_
  cases aborted with
  | true => exact ⟨by simp [start, abortHandler], by simp [start, abortHandler], Or.inl rfl,
      Or.inl rfl, OutputTailBuffer.new_holds⟩
  | false => exact ⟨by simp [start], by simp [start], Or.inl rfl, Or.inl rfl,
      OutputTailBuffer.new_holds⟩

end callbacks

end RunnerRun

/-! ## The loop -/

/-- Whether the loop goes on. -/
def CommandRun.succeeded (r : CommandRun) : Bool := r.exitCode = some 0 && !r.timedOut

/-- What one command finds around it. -/
structure CommandSurroundings where
  /-- Whether the signal is aborted before the command, and when its process has been spawned. -/
  abortedBefore : Bool
  abortedAtSpawn : Bool
  /-- What `spawn` throws, before there is a process. -/
  spawnThrows : Option Err
  startTime : ℤ
  events : List ChildEvent

/-- What a verification finds around it. -/
structure VerificationSurroundings where
  utf8 : Buffer → String
  /-- `path.resolve`. -/
  resolve : String → String
  /-- `fs.statSync`: nothing, a directory, or something else. -/
  stat : String → Option Bool
  abortedAtEntry : Bool
  command : ℕ → CommandSurroundings

/-- Source: `verification-runner.ts` `VerificationResult`, every field. -/
structure VerificationRun where
  passed : Bool
  commandResults : List CommandRun
  deriving DecidableEq, Repr

namespace ShellVerificationRunner

/-- The bytes kept of an output. -/
def maxOutputBytes : ℕ := 256 * 1024

variable (around : VerificationSurroundings)

/-- The fixed values of the callbacks of a command. -/
def fixed (n : ℕ) (command : String) : RunnerRun.Fixed where
  utf8 := around.utf8
  command := command
  maxOutputBytes := maxOutputBytes
  startTime := (around.command n).startTime

/-- Source: `verification-runner.ts` `runSingleCommand`, of the command with the number `n`. -/
def runSingleCommand (n : ℕ) (command : String) : Option (Except Err CommandRun) :=
  let c := around.command n
  if c.abortedBefore = true then some (.error .aborted)
  else
    match c.spawnThrows with
    | some e => some (.error e)
    | none =>
      (RunnerRun.promise (fixed around n command)).outcome
        (RunnerRun.start maxOutputBytes c.abortedAtSpawn) c.events

/-- The loop of `run`: `n` commands are done, with the results `commandResults`. -/
def loop (n : ℕ) (commandResults : List CommandRun) :
    List String → Option (Except Err VerificationRun)
  | [] => some (.ok ⟨true, commandResults⟩)
  | command :: commands =>
    if (around.command n).abortedBefore = true then some (.error .aborted)
    else
      match runSingleCommand around n command with
      | none => none
      | some (.error e) => some (.error e)
      | some (.ok result) =>
        if result.exitCode ≠ some 0 ∨ result.timedOut = true then
          some (.ok ⟨false, commandResults ++ [result]⟩)
        else loop (n + 1) (commandResults ++ [result]) commands

/-- Source: `verification-runner.ts` `ShellVerificationRunner.run`. -/
def run (workspacePath : String) (commands : List String) : Option (Except Err VerificationRun) :=
  if around.abortedAtEntry = true then some (.error .aborted)
  else
    let ws := around.resolve workspacePath
    match around.stat ws with
    | none => some (.error (.error ("Workspace path does not exist: " ++ ws)))
    | some false => some (.error (.error ("Workspace path is not a directory: " ++ ws)))
    | some true =>
      if commands.length = 0 then some (.ok ⟨true, []⟩) else loop around 0 [] commands

/-! ## What a verification says -/

end ShellVerificationRunner

/-- A command starts: nobody has aborted, and there is a process. -/
structure CommandSurroundings.Starts (c : CommandSurroundings) : Prop where
  abortedBefore : c.abortedBefore = false
  spawnThrows : c.spawnThrows = none
  abortedAtSpawn : c.abortedAtSpawn = false

/-- **A command passes**: it starts, and after nothing but output it ends with 0. -/
def CommandSurroundings.Passes (c : CommandSurroundings) : Prop :=
  c.Starts ∧ ∃ pre signal now post, c.events = pre ++ .close (some 0) signal now :: post ∧
    ∀ e ∈ pre, e.isControl = false

/-- **A command fails**: it starts, nobody aborts, and it ends otherwise, or after its timer. -/
def CommandSurroundings.Fails (c : CommandSurroundings) : Prop :=
  c.Starts ∧ ∃ pre e post, c.events = pre ++ e :: post ∧ e.isEnd = true ∧
    (∀ x ∈ pre, x.isEnd = false ∧ x ≠ .abort) ∧
    ((∀ signal now, e ≠ .close (some 0) signal now) ∨ .timeout ∈ pre)

namespace ShellVerificationRunner

section single

variable {around : VerificationSurroundings} {n : ℕ} {command : String} {r : CommandRun}

/-- The first end of some events, with what comes before it. -/
theorem split_at_end {es : List ChildEvent} {e : ChildEvent}
    (h : es.find? ChildEvent.isEnd = some e) :
    ∃ post, es = untilEnd es ++ e :: post ∧ e.isEnd = true ∧
      ∀ x ∈ untilEnd es, x.isEnd = false := by
  induction es with
  | nil => cases h
  | cons x es ih =>
    cases hx : x.isEnd with
    | true =>
      rw [List.find?_cons_of_pos hx] at h
      obtain rfl := Option.some.inj h
      have huntil : untilEnd (x :: es) = [] := List.takeWhile_cons_of_neg (by simp [hx])
      rw [huntil]
      exact ⟨es, rfl, hx, by simp⟩
    | false =>
      rw [List.find?_cons_of_neg (by simp [hx])] at h
      obtain ⟨post, hes, he, hpre⟩ := ih h
      have huntil : untilEnd (x :: es) = x :: untilEnd es :=
        List.takeWhile_cons_of_pos (by rw [hx]; rfl)
      refine ⟨post, ?_, he, ?_⟩
      · rw [huntil, List.cons_append, ← hes]
      · rw [huntil]
        intro y hy
        rcases List.mem_cons.mp hy with rfl | hy
        · exact hx
        · exact hpre y hy

/-- A list that is cut at an end is cut at its first. -/
theorem end_of_split {pre : List ChildEvent} (post : List ChildEvent) {e : ChildEvent}
    (he : e.isEnd = true) (hpre : ∀ x ∈ pre, x.isEnd = false) :
    (pre ++ e :: post).find? ChildEvent.isEnd = some e ∧ untilEnd (pre ++ e :: post) = pre := by
  induction pre with
  | nil =>
    exact ⟨List.find?_cons_of_pos he, List.takeWhile_cons_of_neg (by simp [he])⟩
  | cons x pre ih =>
    have hx := hpre x List.mem_cons_self
    obtain ⟨hfind, huntil⟩ := ih fun y hy => hpre y (List.mem_cons_of_mem _ hy)
    refine ⟨?_, ?_⟩
    · rw [List.cons_append, List.find?_cons_of_neg (by simp [hx]), hfind]
    · rw [List.cons_append]
      refine (List.takeWhile_cons_of_pos (by rw [hx]; rfl)).trans ?_
      exact congrArg (x :: ·) huntil

/-- A command that resolves has started, was not aborted, and its result is that of its first end. -/
theorem single_eq_ok_iff : runSingleCommand around n command = some (.ok r) ↔
    (around.command n).Starts ∧ ∃ pre e post, (around.command n).events = pre ++ e :: post ∧
      e.isEnd = true ∧ (∀ x ∈ pre, x.isEnd = false ∧ x ≠ .abort) ∧
      r = RunnerRun.resultOf (fixed around n command) (decide (.timeout ∈ pre))
        (pre.flatMap ChildEvent.printed) e := by
  have hsettled : ∀ aborted es, (RunnerRun.promise (fixed around n command)).outcome
      (RunnerRun.start maxOutputBytes aborted) es =
        RunnerRun.settledBy (fixed around n command) aborted es :=
    RunnerRun.outcome_eq_settledBy
  unfold runSingleCommand
  simp only [hsettled]
  constructor
  · intro h
    by_cases hbefore : (around.command n).abortedBefore = true
    · rw [if_pos hbefore] at h
      cases h
    rw [if_neg hbefore] at h
    cases hspawn : (around.command n).spawnThrows with
    | some e => simp [hspawn] at h
    | none =>
      simp only [hspawn, RunnerRun.settledBy, RunnerRun.settledAfter, List.nil_append,
        Option.map_eq_some_iff] at h
      obtain ⟨e, he, hr⟩ := h
      by_cases haborted : (around.command n).abortedAtSpawn = true ∨
          .abort ∈ untilEnd (around.command n).events
      · rw [if_pos haborted] at hr
        cases hr
      rw [if_neg haborted] at hr
      obtain ⟨hspawned, hnoAbort⟩ := not_or.mp haborted
      obtain ⟨post, hes, hend, hpre⟩ := split_at_end he
      refine ⟨⟨Bool.eq_false_iff.mpr hbefore, hspawn, Bool.eq_false_iff.mpr hspawned⟩,
        untilEnd (around.command n).events, e, post, hes, hend, fun x hx => ⟨hpre x hx, ?_⟩,
        (Except.ok.inj hr).symm⟩
      rintro rfl
      exact hnoAbort hx
  · rintro ⟨hstarts, pre, e, post, hes, hend, hpre, rfl⟩
    obtain ⟨hfind, huntil⟩ := end_of_split post hend fun x hx => (hpre x hx).1
    have hnoAbort : ¬ ((around.command n).abortedAtSpawn = true ∨ ChildEvent.abort ∈ pre) := by
      rintro (h | h)
      · rw [hstarts.abortedAtSpawn] at h
        cases h
      · exact (hpre _ h).2 rfl
    have hbefore : ¬ (around.command n).abortedBefore = true := by
      rw [hstarts.abortedBefore]
      exact Bool.false_ne_true
    rw [if_neg hbefore, hstarts.spawnThrows]
    simp only [RunnerRun.settledBy, RunnerRun.settledAfter, List.nil_append, hes, hfind, huntil,
      Option.map_some, if_neg hnoAbort]

theorem succeeded_resultOf {fixed : RunnerRun.Fixed} {timedOut : Bool} {output : Buffer}
    {e : ChildEvent} :
    (RunnerRun.resultOf fixed timedOut output e).succeeded = true ↔
      (∃ signal now, e = .close (some 0) signal now) ∧ timedOut = false := by
  cases e with
  | close exitCode signal now =>
    rw [CommandRun.succeeded, Bool.and_eq_true, decide_eq_true_iff, Bool.not_eq_true']
    refine and_congr_left fun _ => ⟨?_, ?_⟩
    · rintro rfl
      exact ⟨signal, now, rfl⟩
    · rintro ⟨signal', now', h⟩
      cases h
      rfl
  | _ => simp [RunnerRun.resultOf, CommandRun.succeeded]

/-- Output is no end, and nobody's decision. -/
theorem quiet_of_output {e : ChildEvent} (h : e.isControl = false) :
    e.isEnd = false ∧ e ≠ .abort ∧ e ≠ .timeout := by
  cases e with
  | stdout chunk => exact ⟨rfl, by simp, by simp⟩
  | stderr chunk => exact ⟨rfl, by simp, by simp⟩
  | _ => cases h

/-- A result that succeeded is the result of a command that passes. -/
theorem single_passes_iff (command : String) :
    (∃ r, runSingleCommand around n command = some (.ok r) ∧ r.succeeded = true) ↔
      (around.command n).Passes := by
  simp only [single_eq_ok_iff]
  constructor
  · rintro ⟨r, ⟨hstarts, pre, e, post, hes, hend, hpre, rfl⟩, hr⟩
    obtain ⟨⟨signal, now, rfl⟩, htimedOut⟩ := succeeded_resultOf.mp hr
    refine ⟨hstarts, pre, signal, now, post, hes, fun x hx => ?_⟩
    have hnoTimeout : ChildEvent.timeout ∉ pre := of_decide_eq_false htimedOut
    obtain ⟨hxend, hxabort⟩ := hpre x hx
    cases x with
    | timeout => exact absurd hx hnoTimeout
    | abort => exact absurd rfl hxabort
    | error => cases hxend
    | close => cases hxend
    | _ => rfl
  · rintro ⟨hstarts, pre, signal, now, post, hes, hpre⟩
    refine ⟨_, ⟨hstarts, pre, _, post, hes, rfl, fun x hx => ?_, rfl⟩, ?_⟩
    · obtain ⟨hend, habort, -⟩ := quiet_of_output (hpre x hx)
      exact ⟨hend, habort⟩
    · refine succeeded_resultOf.mpr ⟨⟨signal, now, rfl⟩, decide_eq_false fun htimeout => ?_⟩
      exact (quiet_of_output (hpre _ htimeout)).2.2 rfl

/-- A result that did not succeed is the result of a command that fails. -/
theorem single_fails_iff (command : String) :
    (∃ r, runSingleCommand around n command = some (.ok r) ∧ r.succeeded = false) ↔
      (around.command n).Fails := by
  simp only [single_eq_ok_iff]
  constructor
  · rintro ⟨r, ⟨hstarts, pre, e, post, hes, hend, hpre, rfl⟩, hr⟩
    refine ⟨hstarts, pre, e, post, hes, hend, hpre, ?_⟩
    by_cases htimeout : ChildEvent.timeout ∈ pre
    · exact Or.inr htimeout
    · refine Or.inl fun signal now he => Bool.eq_false_iff.mp hr (succeeded_resultOf.mpr ?_)
      exact ⟨⟨signal, now, he⟩, decide_eq_false htimeout⟩
  · rintro ⟨hstarts, pre, e, post, hes, hend, hpre, hfails⟩
    refine ⟨_, ⟨hstarts, pre, e, post, hes, hend, hpre, rfl⟩, Bool.eq_false_iff.mpr fun h => ?_⟩
    obtain ⟨⟨signal, now, rfl⟩, htimedOut⟩ := succeeded_resultOf.mp h
    rcases hfails with h | h
    · exact h signal now rfl
    · exact of_decide_eq_false htimedOut h

end single

section loops

variable {around : VerificationSurroundings} {n : ℕ} {command workspacePath : String}
  {commands : List String} {acc : List CommandRun} {r : CommandRun} {v : VerificationRun}

/-- The test of the loop. -/
theorem stops_iff : (r.exitCode ≠ some 0 ∨ r.timedOut = true) ↔ r.succeeded = false := by
  rw [CommandRun.succeeded, Bool.and_eq_false_iff, decide_eq_false_iff_not, Bool.not_eq_false']

/-- The results of the commands from `n` on: all but the last have succeeded, and the last has where the
verification passed. -/
inductive Ran (around : VerificationSurroundings) :
    ℕ → List String → Bool → List CommandRun → Prop
  | done {n : ℕ} : Ran around n [] true []
  | failed {n : ℕ} {command : String} {commands : List String} {r : CommandRun}
    (hr : runSingleCommand around n command = some (.ok r)) (hfailed : r.succeeded = false) :
    Ran around n (command :: commands) false [r]
  | next {n : ℕ} {command : String} {commands : List String} {r : CommandRun} {passed : Bool}
    {rs : List CommandRun} (hr : runSingleCommand around n command = some (.ok r))
    (hsucceeded : r.succeeded = true) (hrest : Ran around (n + 1) commands passed rs) :
    Ran around n (command :: commands) passed (r :: rs)

/-- **The loop runs the commands until one fails.** -/
theorem loop_eq_ok_iff : loop around n acc commands = some (.ok v) ↔
    ∃ rs, Ran around n commands v.passed rs ∧ v.commandResults = acc ++ rs := by
  induction commands generalizing n acc with
  | nil =>
    constructor
    · intro h
      obtain rfl := Except.ok.inj (Option.some.inj h)
      exact ⟨[], .done, (List.append_nil acc).symm⟩
    · rintro ⟨rs, hran, hv⟩
      obtain ⟨passed, commandResults⟩ := v
      cases hran with
      | done =>
        obtain rfl : commandResults = acc := hv.trans (List.append_nil acc)
        rfl
  | cons command commands ih =>
    rw [loop]
    constructor
    · intro h
      by_cases hbefore : (around.command n).abortedBefore = true
      · rw [if_pos hbefore] at h
        cases h
      rw [if_neg hbefore] at h
      rcases hr : runSingleCommand around n command with _ | (e | r)
      · simp [hr] at h
      · simp [hr] at h
      simp only [hr] at h
      by_cases hstops : r.exitCode ≠ some 0 ∨ r.timedOut = true
      · rw [if_pos hstops] at h
        obtain rfl := Except.ok.inj (Option.some.inj h)
        exact ⟨[r], .failed hr (stops_iff.mp hstops), rfl⟩
      · rw [if_neg hstops] at h
        obtain ⟨rs, hran, hv⟩ := ih.mp h
        refine ⟨r :: rs, .next hr ?_ hran, by rw [hv, List.append_assoc]; rfl⟩
        exact Bool.not_eq_false _ ▸ mt stops_iff.mpr hstops
    · rintro ⟨rs, hran, hv⟩
      have hbefore : ∀ {r}, runSingleCommand around n command = some (.ok r) →
          ¬ (around.command n).abortedBefore = true := by
        intro r hr
        rw [(single_eq_ok_iff.mp hr).1.abortedBefore]
        exact Bool.false_ne_true
      obtain ⟨passed, commandResults⟩ := v
      cases hran with
      | failed hr hfailed =>
        rw [if_neg (hbefore hr), hr]
        obtain rfl : commandResults = _ := hv
        exact if_pos (stops_iff.mpr hfailed)
      | next hr hsucceeded hrest =>
        rw [if_neg (hbefore hr), hr]
        refine (if_neg ?_).trans (ih.mpr ⟨_, hrest, ?_⟩)
        · rw [stops_iff, hsucceeded]
          exact Bool.noConfusion
        · rw [hv, List.append_assoc]
          rfl

/-- A verification that passes has run every command. -/
theorem ran_true_iff : (∃ rs, Ran around n commands true rs) ↔
    ∀ i, i < commands.length → (around.command (n + i)).Passes := by
  induction commands generalizing n with
  | nil => exact iff_of_true ⟨[], .done⟩ fun i hi => absurd hi (Nat.not_lt_zero i)
  | cons command commands ih =>
    constructor
    · rintro ⟨rs, hran⟩ i hi
      cases hran with
      | next hr hsucceeded hrest =>
        cases i with
        | zero => exact (single_passes_iff _).mp ⟨_, hr, hsucceeded⟩
        | succ i =>
          have hi' : i < commands.length := Nat.lt_of_succ_lt_succ hi
          have hrest' := ih.mp ⟨_, hrest⟩ i hi'
          rwa [Nat.add_right_comm, Nat.add_assoc] at hrest'
    · intro h
      obtain ⟨r, hr, hsucceeded⟩ := (single_passes_iff command).mpr
        (h 0 (Nat.succ_pos _))
      obtain ⟨rs, hrest⟩ := ih (n := n + 1) |>.mpr fun i hi => by
        have hi' := h (i + 1) (Nat.succ_lt_succ hi)
        rwa [← Nat.add_assoc, Nat.add_right_comm] at hi'
      exact ⟨r :: rs, .next hr hsucceeded hrest⟩

/-- A verification that fails has stopped at the first command that fails. -/
theorem ran_false_iff : (∃ rs, Ran around n commands false rs) ↔
    ∃ k, k < commands.length ∧ (around.command (n + k)).Fails ∧
      ∀ i, i < k → (around.command (n + i)).Passes := by
  induction commands generalizing n with
  | nil =>
    refine iff_of_false ?_ ?_
    · rintro ⟨rs, hran⟩
      cases hran
    · rintro ⟨k, hk, -⟩
      exact Nat.not_lt_zero k hk
  | cons command commands ih =>
    constructor
    · rintro ⟨rs, hran⟩
      cases hran with
      | failed hr hfailed =>
        exact ⟨0, Nat.succ_pos _, (single_fails_iff _).mp ⟨_, hr, hfailed⟩, fun i hi =>
          absurd hi (Nat.not_lt_zero i)⟩
      | next hr hsucceeded hrest =>
        obtain ⟨k, hk, hfails, hpasses⟩ := ih.mp ⟨_, hrest⟩
        refine ⟨k + 1, Nat.succ_lt_succ hk, ?_, fun i hi => ?_⟩
        · rwa [Nat.add_right_comm, Nat.add_assoc] at hfails
        · cases i with
          | zero => exact (single_passes_iff _).mp ⟨_, hr, hsucceeded⟩
          | succ i =>
            have hi' := hpasses i (Nat.lt_of_succ_lt_succ hi)
            rwa [Nat.add_right_comm, Nat.add_assoc] at hi'
    · rintro ⟨k, hk, hfails, hpasses⟩
      cases k with
      | zero =>
        obtain ⟨r, hr, hfailed⟩ := (single_fails_iff command).mpr hfails
        exact ⟨[r], .failed hr hfailed⟩
      | succ k =>
        obtain ⟨r, hr, hsucceeded⟩ := (single_passes_iff command).mpr
          (hpasses 0 (Nat.succ_pos _))
        obtain ⟨rs, hrest⟩ := ih (n := n + 1) |>.mpr ⟨k, Nat.lt_of_succ_lt_succ hk, by
          rwa [Nat.add_right_comm, Nat.add_assoc], fun i hi => by
            have hi' := hpasses (i + 1) (Nat.succ_lt_succ hi)
            rwa [← Nat.add_assoc, Nat.add_right_comm] at hi'⟩
        exact ⟨r :: rs, .next hr hsucceeded hrest⟩

/-- Each result is that of its command, and only the last may have failed. -/
theorem Ran.results {passed : Bool} {rs : List CommandRun} (h : Ran around n commands passed rs) :
    ∀ i r, rs[i]? = some r →
      (∃ c, commands[i]? = some c ∧ runSingleCommand around (n + i) c = some (.ok r)) ∧
      (r.succeeded = false ↔ passed = false ∧ i + 1 = rs.length) := by
  induction h with
  | done =>
    intro i r hr
    cases hr
  | failed hr hfailed =>
    intro i r' hr'
    cases i with
    | zero =>
      obtain rfl := Option.some.inj hr'
      exact ⟨⟨_, rfl, hr⟩, iff_of_true hfailed ⟨rfl, rfl⟩⟩
    | succ i => cases hr'
  | @next n command commands r passed rs hr hsucceeded hrest ih =>
    intro i r' hr'
    cases i with
    | zero =>
      obtain rfl := Option.some.inj hr'
      refine ⟨⟨_, rfl, hr⟩, iff_of_false (by rw [hsucceeded]; exact Bool.noConfusion) ?_⟩
      rintro ⟨rfl, hlast⟩
      cases hrest with
      | failed => exact absurd hlast (by simp)
      | next => exact absurd hlast (by simp)
    | succ i =>
      obtain ⟨⟨c, hc, hsingle⟩, hiff⟩ := ih i r' hr'
      rw [Nat.add_right_comm, Nat.add_assoc] at hsingle
      refine ⟨⟨c, hc, hsingle⟩, hiff.trans ?_⟩
      rw [List.length_cons, Nat.add_right_cancel_iff]

/-- A verification can begin: nobody has aborted, and its workspace is a directory. -/
structure Ready (around : VerificationSurroundings) (workspacePath : String) : Prop where
  abortedAtEntry : around.abortedAtEntry = false
  stat : around.stat (around.resolve workspacePath) = some true

theorem run_eq_ok_iff : run around workspacePath commands = some (.ok v) ↔
    Ready around workspacePath ∧ Ran around 0 commands v.passed v.commandResults := by
  have hloop : loop around 0 [] commands = some (.ok v) ↔
      Ran around 0 commands v.passed v.commandResults := by
    rw [loop_eq_ok_iff]
    constructor
    · rintro ⟨rs, hran, hv⟩
      rwa [hv]
    · intro hran
      exact ⟨_, hran, rfl⟩
  unfold run
  by_cases hentry : around.abortedAtEntry = true
  · rw [if_pos hentry]
    refine iff_of_false (by simp) fun h => ?_
    exact Bool.false_ne_true (h.1.abortedAtEntry.symm.trans hentry)
  rw [if_neg hentry]
  have hready : Ready around workspacePath ↔
      around.stat (around.resolve workspacePath) = some true :=
    ⟨Ready.stat, fun h => ⟨Bool.eq_false_iff.mpr hentry, h⟩⟩
  rw [hready, ← hloop]
  rcases hstat : around.stat (around.resolve workspacePath) with _ | isDirectory
  · simp [hstat]
  cases isDirectory with
  | false => simp [hstat]
  | true =>
    rw [and_iff_right rfl]
    simp only [hstat]
    cases commands with
    | nil => exact Iff.rfl
    | cons command commands => exact Iff.rfl

end loops

end ShellVerificationRunner

end AgentWorkflow
