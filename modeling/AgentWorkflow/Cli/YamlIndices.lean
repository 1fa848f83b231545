import AgentWorkflow.Cli.YamlSimple

/-!
# Where the YAML reader stands

`YamlSimple.loop` reads the lines that are left. The source has an index into all lines instead, and
gives it from block to block: `parseBlock(lines, startIdx, baseIndent)` returns the index it stopped
at. Here the loop is written with the index; a read outside the lines is an error, and so is a run
out of turns.

* `loopAt`, `parseBlock` — the loop and the block, with a record of the nested calls.
* `Progress` — what a block does with its index, whatever the lines are, and what `loop` makes of the
  lines from there.
* **`parseBlock_terminates`** — a block never runs out of turns and never reads outside the lines,
  its index stays in bounds, and every nested call moves it on.
-/

namespace AgentWorkflow

namespace YamlSimple

variable {ν : Type} (N : NumberText ν)

/-! ## The loop with its index -/

/-- Why a block does not return. -/
inductive Stuck
  /-- There are no turns left. -/
  | turns
  /-- `lines[idx]` is undefined. -/
  | outside (idx : ℕ)
  deriving DecidableEq, Repr

/-- A nested call: where the block it is made by started, where it starts itself, and the index it
returns. -/
structure Call where
  callerIdx : ℕ
  startIdx : ℕ
  nextIdx : ℕ
  deriving DecidableEq, Repr

/-- A block as the loop leaves it, with the nested calls it made and those made by them. -/
structure BlockRun (ν : Type) where
  result : Obj ν
  nextIdx : ℕ
  calls : List Call

/-- `lines[idx]`, which is read from. -/
def lineAt (lines : List Line) (idx : ℕ) : Except Stuck Line :=
  match lines[idx]? with
  | some line => .ok line
  | none => .error (.outside idx)

/-- The loop of a block that started at `startIdx`. Source: `yaml-simple.ts` `parseBlock`. -/
def loopAt (lines : List Line) : (turns startIdx baseIndent : ℕ) → Obj ν → (idx : ℕ) →
    Except Stuck (BlockRun ν)
  | 0, _, _, _, _ => .error .turns
  | turns + 1, startIdx, baseIndent, result, idx =>
    if lines.length ≤ idx then .ok ⟨result, idx, []⟩
    else do
      let line ← lineAt lines idx
      if skipped line = true then loopAt lines turns startIdx baseIndent result (idx + 1)
      else if indent line < baseIndent then .ok ⟨result, idx, []⟩
      else if baseIndent < indent line then loopAt lines turns startIdx baseIndent result (idx + 1)
      else
        match content (trim line) with
        | .item raw =>
          loopAt lines turns startIdx baseIndent (result.set (Nat.repr idx) (parseScalar N raw))
            (idx + 1)
        | .other => loopAt lines turns startIdx baseIndent result (idx + 1)
        | .field key raw =>
          if raw ≠ [] then
            loopAt lines turns startIdx baseIndent (result.set key (parseScalar N raw)) (idx + 1)
          else
            let idx := idx + 1
            if lines.length ≤ idx then .ok ⟨result, idx, []⟩
            else do
              let nextLine ← lineAt lines idx
              if skipped nextLine = true ∨ indent nextLine ≤ indent line then
                loopAt lines turns startIdx baseIndent result idx
              else do
                let nested ← loopAt lines turns idx (indent nextLine) .empty idx
                let value := nested.result.finish N
                let rest ← loopAt lines turns startIdx baseIndent
                  (result.set key
                    (if isItem (trim nextLine) = true then .arr (value.toItems N) else value))
                  nested.nextIdx
                .ok ⟨rest.result, rest.nextIdx,
                  ⟨startIdx, idx, nested.nextIdx⟩ :: nested.calls ++ rest.calls⟩

/-- What a block returns. Source: `yaml-simple.ts` `ParseResult`. -/
structure ParseResult (ν : Type) where
  value : Value ν
  nextIdx : ℕ
  /-- No field of the source: the nested calls. -/
  calls : List Call

/-- Source: `yaml-simple.ts` `parseBlock`. -/
def parseBlock (lines : List Line) (turns startIdx baseIndent : ℕ) :
    Except Stuck (ParseResult ν) := do
  let run ← loopAt N lines turns startIdx baseIndent .empty startIdx
  .ok ⟨run.result.finish N, run.nextIdx, run.calls⟩

/-! ## Progress -/

/-- A nested call starts after its caller and returns an index after its start. -/
structure Call.Forward (length : ℕ) (c : Call) : Prop where
  starts_later : c.callerIdx < c.startIdx
  moves_on : c.startIdx < c.nextIdx
  inside : c.nextIdx ≤ length

/-- What the loop has done at its end. -/
structure Progress (lines : List Line) (baseIndent : ℕ) (result : Obj ν) (idx : ℕ)
    (run : BlockRun ν) : Prop where
  not_back : idx ≤ run.nextIdx
  inside : run.nextIdx ≤ lines.length
  /-- A line of the block itself is consumed. -/
  consumes : ∀ line, lines[idx]? = some line → skipped line = false → indent line = baseIndent →
    idx < run.nextIdx
  calls : ∀ c ∈ run.calls, c.Forward lines.length
  /-- The lines that are left are those `loop` leaves. -/
  loop_eq : ∀ turns, lines.length - idx ≤ turns →
    loop N turns baseIndent result (lines.zipIdx.drop idx) =
      (run.result, lines.zipIdx.drop run.nextIdx)

section progress

variable {N} {lines : List Line} {baseIndent idx : ℕ} {result : Obj ν} {run : BlockRun ν}

theorem lineAt_of_lt (h : idx < lines.length) : lineAt lines idx = .ok lines[idx] := by
  rw [lineAt, List.getElem?_eq_getElem h]

/-- The lines from an index on. -/
theorem drop_zipIdx (h : idx < lines.length) :
    lines.zipIdx.drop idx = (lines[idx], idx) :: lines.zipIdx.drop (idx + 1) := by
  rw [List.drop_eq_getElem_cons (by rwa [List.length_zipIdx]), List.getElem_zipIdx, Nat.zero_add]

theorem drop_zipIdx_length : lines.zipIdx.drop lines.length = [] :=
  List.drop_eq_nil_of_le (List.length_zipIdx).le

/-- Nothing is left. -/
theorem Progress.at_end : Progress N lines baseIndent result lines.length
    ⟨result, lines.length, []⟩ where
  not_back := le_rfl
  inside := le_rfl
  consumes line hline := by simp at hline
  calls c hc := absurd hc List.not_mem_nil
  loop_eq turns _ := by
    rw [drop_zipIdx_length]
    cases turns <;> rfl

/-- The loop ends from this index, in as many turns as there are lines left and one. -/
def Ends (N : NumberText ν) (lines : List Line) (startIdx baseIndent : ℕ) (result : Obj ν)
    (idx : ℕ) : Prop :=
  ∃ run, (∀ turns, lines.length - idx < turns →
      loopAt N lines turns startIdx baseIndent result idx = .ok run) ∧
    Progress N lines baseIndent result idx run

variable {startIdx : ℕ}

/-- A line of the block itself. -/
theorem loopAt_own (hidx : idx < lines.length) (hskip : skipped lines[idx] = false)
    (hindent : indent lines[idx] = baseIndent) (turns : ℕ) :
    loopAt N lines (turns + 1) startIdx baseIndent result idx =
      match content (trim lines[idx]) with
      | .item raw =>
        loopAt N lines turns startIdx baseIndent (result.set (Nat.repr idx) (parseScalar N raw))
          (idx + 1)
      | .other => loopAt N lines turns startIdx baseIndent result (idx + 1)
      | .field key raw =>
        if raw ≠ [] then
          loopAt N lines turns startIdx baseIndent (result.set key (parseScalar N raw)) (idx + 1)
        else if lines.length ≤ idx + 1 then .ok ⟨result, idx + 1, []⟩
        else (do
          let nextLine ← lineAt lines (idx + 1)
          if skipped nextLine = true ∨ indent nextLine ≤ indent lines[idx] then
            loopAt N lines turns startIdx baseIndent result (idx + 1)
          else do
            let nested ← loopAt N lines turns (idx + 1) (indent nextLine) .empty (idx + 1)
            let value := nested.result.finish N
            let rest ← loopAt N lines turns startIdx baseIndent
              (result.set key
                (if isItem (trim nextLine) = true then .arr (value.toItems N) else value))
              nested.nextIdx
            .ok ⟨rest.result, rest.nextIdx,
              ⟨startIdx, idx + 1, nested.nextIdx⟩ :: nested.calls ++ rest.calls⟩) := by
  rw [loopAt, if_neg (not_le.mpr hidx), lineAt_of_lt hidx]
  change (if skipped lines[idx] = true then _ else _) = _
  rw [if_neg (by simp [hskip]), if_neg (by simp [hindent]), if_neg (by simp [hindent])]

/-- The same line, in the list of the lines that are left. -/
theorem loop_own {line : Line} (hskip : skipped line = false) (hindent : indent line = baseIndent)
    (turns : ℕ) (rest : List (Line × ℕ)) :
    loop N (turns + 1) baseIndent result ((line, idx) :: rest) =
      match content (trim line) with
      | .item raw => loop N turns baseIndent (result.set (Nat.repr idx) (parseScalar N raw)) rest
      | .other => loop N turns baseIndent result rest
      | .field key raw =>
        if raw ≠ [] then loop N turns baseIndent (result.set key (parseScalar N raw)) rest
        else
          match rest with
          | [] => (result, [])
          | (nextLine, nextIdx) :: rest =>
            if skipped nextLine = true ∨ indent nextLine ≤ indent line then
              loop N turns baseIndent result ((nextLine, nextIdx) :: rest)
            else
              let nested := loop N turns (indent nextLine) .empty ((nextLine, nextIdx) :: rest)
              let value := nested.1.finish N
              loop N turns baseIndent
                (result.set key
                  (if isItem (trim nextLine) = true then .arr (value.toItems N) else value))
                nested.2 := by
  have hshown : ¬ skipped line = true := by simp [hskip]
  have hleave : ¬ indent line < baseIndent := by simp [hindent]
  have hdeep : ¬ baseIndent < indent line := by simp [hindent]
  refine (if_neg hshown).trans ((if_neg hleave).trans ((if_neg hdeep).trans ?_))
  cases content (trim line) with
  | item raw => rfl
  | other => rfl
  | field key raw =>
    cases rest with
    | nil => rfl
    | cons next rest => rfl

/-- The block stops before this line. -/
theorem Ends.here (hidx : idx < lines.length)
    (hat : ∀ turns, loopAt N lines (turns + 1) startIdx baseIndent result idx =
      .ok ⟨result, idx, []⟩)
    (hloop : ∀ turns, loop N (turns + 1) baseIndent result
        ((lines[idx], idx) :: lines.zipIdx.drop (idx + 1)) =
      (result, (lines[idx], idx) :: lines.zipIdx.drop (idx + 1)))
    (hleave : indent lines[idx] ≠ baseIndent) : Ends N lines startIdx baseIndent result idx := by
  refine ⟨⟨result, idx, []⟩, fun turns hturns => ?_, le_rfl, hidx.le, fun line hline _ hindent => ?_,
    fun c hc => absurd hc List.not_mem_nil, fun turns hturns => ?_⟩
  · obtain ⟨turns, rfl⟩ : ∃ t, turns = t + 1 := ⟨turns - 1, by omega⟩
    exact hat turns
  · rw [List.getElem?_eq_getElem hidx] at hline
    exact absurd (Option.some.inj hline ▸ hindent) hleave
  · obtain ⟨turns, rfl⟩ : ∃ t, turns = t + 1 := ⟨turns - 1, by omega⟩
    rw [drop_zipIdx hidx, hloop]

/-- The block goes on after the line. -/
theorem Ends.next {result' : Obj ν} (hidx : idx < lines.length)
    (h : Ends N lines startIdx baseIndent result' (idx + 1))
    (hat : ∀ turns, loopAt N lines (turns + 1) startIdx baseIndent result idx =
      loopAt N lines turns startIdx baseIndent result' (idx + 1))
    (hloop : ∀ turns, loop N (turns + 1) baseIndent result
        ((lines[idx], idx) :: lines.zipIdx.drop (idx + 1)) =
      loop N turns baseIndent result' (lines.zipIdx.drop (idx + 1))) :
    Ends N lines startIdx baseIndent result idx := by
  obtain ⟨run, hrun, hprogress⟩ := h
  refine ⟨run, fun turns hturns => ?_, Nat.le_of_succ_le hprogress.not_back, hprogress.inside,
    fun _ _ _ _ => hprogress.not_back, hprogress.calls, fun turns hturns => ?_⟩
  · obtain ⟨turns, rfl⟩ : ∃ t, turns = t + 1 := ⟨turns - 1, by omega⟩
    rw [hat, hrun turns (by omega)]
  · obtain ⟨turns, rfl⟩ : ∃ t, turns = t + 1 := ⟨turns - 1, by omega⟩
    rw [drop_zipIdx hidx, hloop, hprogress.loop_eq turns (by omega)]

/-- The block goes on after a nested one. -/
theorem Ends.nested {key : String} (hstart : startIdx ≤ idx) (hidx : idx < lines.length)
    (hnext : idx + 1 < lines.length) (hskip : skipped lines[idx] = false)
    (hindent : indent lines[idx] = baseIndent) (hfield : content (trim lines[idx]) = .field key [])
    (hshown : skipped lines[idx + 1] = false) (hdeeper : baseIndent < indent lines[idx + 1])
    (hnested : Ends N lines (idx + 1) (indent lines[idx + 1]) .empty (idx + 1))
    (hrest : ∀ result' idx', idx < idx' → idx' ≤ lines.length →
      Ends N lines startIdx baseIndent result' idx') :
    Ends N lines startIdx baseIndent result idx := by
  obtain ⟨inner, hinner, hin⟩ := hnested
  have hmoves : idx + 1 < inner.nextIdx :=
    hin.consumes _ (List.getElem?_eq_getElem hnext) hshown rfl
  obtain ⟨value, hvalue⟩ : ∃ value, value =
      if isItem (trim lines[idx + 1]) = true then .arr ((inner.result.finish N).toItems N)
      else inner.result.finish N := ⟨_, rfl⟩
  obtain ⟨outer, houter, hout⟩ := hrest (result.set key value) inner.nextIdx (by omega) hin.inside
  have hlater : idx < outer.nextIdx := lt_of_lt_of_le (by omega) hout.not_back
  have hflat : ¬ (skipped lines[idx + 1] = true ∨ indent lines[idx + 1] ≤ indent lines[idx]) :=
    not_or.mpr ⟨by simp [hshown], by omega⟩
  refine ⟨⟨outer.result, outer.nextIdx,
      ⟨startIdx, idx + 1, inner.nextIdx⟩ :: inner.calls ++ outer.calls⟩, fun turns hturns => ?_,
    hlater.le, hout.inside, fun _ _ _ _ => hlater, fun c hc => ?_, fun turns hturns => ?_⟩
  · obtain ⟨turns, rfl⟩ : ∃ t, turns = t + 1 := ⟨turns - 1, by omega⟩
    rw [loopAt_own hidx hskip hindent, hfield]
    simp only [ne_eq, not_true_eq_false, if_false, if_neg (not_le.mpr hnext), lineAt_of_lt hnext]
    change (if skipped lines[idx + 1] = true ∨ _ then _ else _) = _
    rw [if_neg hflat, hinner turns (by omega)]
    change (loopAt N lines turns startIdx baseIndent (result.set key _) inner.nextIdx >>= _) = _
    rw [← hvalue, houter turns (by omega)]
    rfl
  · rw [List.cons_append, List.mem_cons, List.mem_append] at hc
    rcases hc with rfl | hc | hc
    · exact ⟨by show startIdx < idx + 1; omega, hmoves, hin.inside⟩
    · exact hin.calls c hc
    · exact hout.calls c hc
  · obtain ⟨turns, rfl⟩ : ∃ t, turns = t + 1 := ⟨turns - 1, by omega⟩
    have hinner' := hin.loop_eq turns (by omega)
    have houter' := hout.loop_eq turns (by omega)
    rw [drop_zipIdx hnext] at hinner'
    rw [drop_zipIdx hidx, loop_own hskip hindent, hfield, drop_zipIdx hnext]
    change (if skipped lines[idx + 1] = true ∨ _ then _ else _) = _
    rw [if_neg hflat, hinner']
    change loop N turns baseIndent (result.set key _) (lines.zipIdx.drop inner.nextIdx) = _
    rw [← hvalue, houter']

/-- The block ends with a field that has no value. -/
theorem Ends.last {key : String} (hidx : idx < lines.length) (hlast : lines.length ≤ idx + 1)
    (hskip : skipped lines[idx] = false) (hindent : indent lines[idx] = baseIndent)
    (hfield : content (trim lines[idx]) = .field key []) :
    Ends N lines startIdx baseIndent result idx := by
  have hend : idx + 1 = lines.length := le_antisymm hidx hlast
  have hnone : lines.zipIdx.drop (idx + 1) = [] := hend ▸ drop_zipIdx_length
  refine ⟨⟨result, idx + 1, []⟩, fun turns hturns => ?_, Nat.le_succ idx, hend.le,
    fun _ _ _ _ => Nat.lt_succ_self idx, fun c hc => absurd hc List.not_mem_nil,
    fun turns hturns => ?_⟩
  · obtain ⟨turns, rfl⟩ : ∃ t, turns = t + 1 := ⟨turns - 1, by omega⟩
    rw [loopAt_own hidx hskip hindent, hfield]
    simp only [ne_eq, not_true_eq_false, if_false, if_pos hlast]
  · obtain ⟨turns, rfl⟩ : ∃ t, turns = t + 1 := ⟨turns - 1, by omega⟩
    rw [drop_zipIdx hidx, loop_own hskip hindent, hfield, hnone]
    rfl

/-- A line that is skipped, or belongs to a deeper block, is passed over. -/
theorem Ends.pass (hidx : idx < lines.length)
    (hforeign : skipped lines[idx] = true ∨ baseIndent < indent lines[idx])
    (h : Ends N lines startIdx baseIndent result (idx + 1)) :
    Ends N lines startIdx baseIndent result idx := by
  have hline : ∀ {β : Type} (next leave own : β),
      (if skipped lines[idx] = true then next
        else if indent lines[idx] < baseIndent then leave
        else if baseIndent < indent lines[idx] then next else own) = next := by
    intro β next leave own
    rcases hforeign with hskip | hdeep
    · rw [if_pos hskip]
    · rw [if_neg hdeep.not_gt, if_pos hdeep, ite_self]
  refine .next hidx h (fun turns => ?_) fun turns => ?_
  · rw [loopAt, if_neg (not_le.mpr hidx), lineAt_of_lt hidx]
    exact hline _ _ _
  · rw [loop]
    exact hline _ _ _

/-- The block stops before a line of an outer one. -/
theorem Ends.leave (hidx : idx < lines.length) (hskip : skipped lines[idx] = false)
    (hleave : indent lines[idx] < baseIndent) : Ends N lines startIdx baseIndent result idx := by
  refine .here hidx (fun turns => ?_) (fun turns => ?_) hleave.ne
  · rw [loopAt, if_neg (not_le.mpr hidx), lineAt_of_lt hidx]
    change (if skipped lines[idx] = true then _ else _) = _
    rw [if_neg (by simp [hskip]), if_pos hleave]
  · rw [loop, if_neg (by simp [hskip]), if_pos hleave]

/-- A line of the block itself, by what is on it. -/
theorem Ends.own (hstart : startIdx ≤ idx) (hidx : idx < lines.length)
    (hskip : skipped lines[idx] = false) (hindent : indent lines[idx] = baseIndent)
    (hlater : ∀ startIdx baseIndent (result : Obj ν) idx', idx < idx' → startIdx ≤ idx' →
      idx' ≤ lines.length → Ends N lines startIdx baseIndent result idx') :
    Ends N lines startIdx baseIndent result idx := by
  have hnext : ∀ result', Ends N lines startIdx baseIndent result' (idx + 1) := fun result' =>
    hlater startIdx baseIndent result' (idx + 1) (Nat.lt_succ_self idx) (by omega) hidx
  cases hcontent : content (trim lines[idx]) with
  | item raw =>
    refine .next hidx (hnext (result.set (Nat.repr idx) (parseScalar N raw))) (fun turns => ?_)
      fun turns => ?_
    · rw [loopAt_own hidx hskip hindent, hcontent]
    · rw [loop_own hskip hindent, hcontent]
  | other =>
    refine .next hidx (hnext result) (fun turns => ?_) fun turns => ?_
    · rw [loopAt_own hidx hskip hindent, hcontent]
    · rw [loop_own hskip hindent, hcontent]
  | field key raw =>
    by_cases hraw : raw ≠ []
    · refine .next hidx (hnext (result.set key (parseScalar N raw))) (fun turns => ?_)
        fun turns => ?_
      · rw [loopAt_own hidx hskip hindent, hcontent]
        exact if_pos hraw
      · rw [loop_own hskip hindent, hcontent]
        exact if_pos hraw
    rw [not_ne_iff] at hraw
    subst hraw
    rcases Nat.lt_or_ge (idx + 1) lines.length with hidx' | hlast
    swap
    · exact .last hidx hlast hskip hindent hcontent
    by_cases hflat : skipped lines[idx + 1] = true ∨ indent lines[idx + 1] ≤ indent lines[idx]
    · refine .next hidx (hnext result) (fun turns => ?_) fun turns => ?_
      · rw [loopAt_own hidx hskip hindent, hcontent]
        simp only [ne_eq, not_true_eq_false, if_false, if_neg (not_le.mpr hidx'),
          lineAt_of_lt hidx']
        exact if_pos hflat
      · rw [loop_own hskip hindent, hcontent, drop_zipIdx hidx']
        exact if_pos hflat
    · obtain ⟨hshown, hdeeper⟩ := not_or.mp hflat
      rw [Bool.not_eq_true] at hshown
      rw [not_le, hindent] at hdeeper
      exact .nested hstart hidx hidx' hskip hindent hcontent hshown hdeeper
        (hlater (idx + 1) _ .empty (idx + 1) (Nat.lt_succ_self idx) le_rfl hidx'.le)
        fun result' idx' hlt hle =>
          hlater startIdx baseIndent result' idx' hlt (hstart.trans hlt.le) hle

/-- **The loop ends, wherever it stands.** -/
theorem loopAt_ends (N : NumberText ν) (lines : List Line) (n : ℕ) :
    ∀ startIdx baseIndent (result : Obj ν) idx, lines.length - idx = n → startIdx ≤ idx →
      idx ≤ lines.length → Ends N lines startIdx baseIndent result idx := by
  induction n using Nat.strong_induction_on with
  | _ n ih =>
  rintro startIdx baseIndent result idx rfl hstart hidx
  rcases hidx.eq_or_lt with rfl | hidx
  · refine ⟨_, fun turns hturns => ?_, .at_end⟩
    obtain ⟨turns, rfl⟩ : ∃ t, turns = t + 1 := ⟨turns - 1, by omega⟩
    rw [loopAt, if_pos le_rfl]
  have hlater : ∀ startIdx baseIndent (result : Obj ν) idx', idx < idx' → startIdx ≤ idx' →
      idx' ≤ lines.length → Ends N lines startIdx baseIndent result idx' :=
    fun startIdx baseIndent result idx' hlt hstart hle =>
      ih _ (by omega) startIdx baseIndent result idx' rfl hstart hle
  have hnext : Ends N lines startIdx baseIndent result (idx + 1) :=
    hlater startIdx baseIndent result (idx + 1) (Nat.lt_succ_self idx) (by omega) hidx
  cases hskip : skipped lines[idx] with
  | true => exact .pass hidx (.inl hskip) hnext
  | false =>
    rcases lt_trichotomy (indent lines[idx]) baseIndent with hleave | hindent | hdeep
    · exact .leave hidx hskip hleave
    · exact .own hstart hidx hskip hindent hlater
    · exact .pass hidx (.inr hdeep) hnext

end progress

/-! ## A block and a text -/

/-- **A block returns, from any index within the lines.** It has as many turns as it takes with one
more than there are lines left; no read is outside the lines; the index it returns is neither before
its start nor past the last line; and every call it makes, or a call of it makes, starts later than
its caller and returns a later index. On the lines of a text the value is that of
`parseSimpleYaml`. -/
theorem parseBlock_terminates (N : NumberText ν) (lines : List Line) (startIdx baseIndent : ℕ)
    (hstart : startIdx ≤ lines.length) :
    (∃ r : ParseResult ν, (∀ turns, lines.length - startIdx < turns →
        parseBlock N lines turns startIdx baseIndent = .ok r) ∧
      startIdx ≤ r.nextIdx ∧ r.nextIdx ≤ lines.length ∧
      ∀ c ∈ r.calls, c.Forward lines.length) ∧
    ∀ text : String, ∃ r : ParseResult ν, (∀ turns, (splitLines text.toList).length < turns →
        parseBlock N (splitLines text.toList) turns 0 0 = .ok r) ∧
      r.value = parseSimpleYaml N text := by
  have hblock : ∀ {lines : List Line} {startIdx baseIndent : ℕ} {run : BlockRun ν}
      {turns : ℕ}, loopAt N lines turns startIdx baseIndent .empty startIdx = .ok run →
      parseBlock N lines turns startIdx baseIndent =
        .ok ⟨run.result.finish N, run.nextIdx, run.calls⟩ := by
    intro lines startIdx baseIndent run turns h
    rw [parseBlock, h]
    rfl
  constructor
  · obtain ⟨run, hrun, hprogress⟩ :=
      loopAt_ends N lines _ startIdx baseIndent .empty startIdx rfl le_rfl hstart
    exact ⟨_, fun turns hturns => hblock (hrun turns hturns), hprogress.not_back,
      hprogress.inside, hprogress.calls⟩
  · intro text
    obtain ⟨run, hrun, hprogress⟩ :=
      loopAt_ends N (splitLines text.toList) _ 0 0 .empty 0 rfl le_rfl (Nat.zero_le _)
    refine ⟨_, fun turns hturns => hblock (hrun turns (by omega)), ?_⟩
    have hloop := hprogress.loop_eq (splitLines text.toList).length (by omega)
    rw [List.drop_zero] at hloop
    show run.result.finish N =
      (loop N (splitLines text.toList).length 0 .empty (splitLines text.toList).zipIdx).1.finish N
    rw [hloop]

namespace Sample

/-- A nested block that is never indented as its first line is, and a field without a value. -/
def ragged : List Line := ["a:".toList, "   - x".toList, " b:".toList, "c:".toList]

theorem parseBlock_ragged :
    (∃ r : ParseResult ℤ, (∀ turns, 4 - 1 < turns →
        parseBlock integers ragged turns 1 1 = .ok r) ∧
      1 ≤ r.nextIdx ∧ r.nextIdx ≤ 4 ∧ ∀ c ∈ r.calls, c.Forward 4) :=
  (parseBlock_terminates integers ragged 1 1 (by decide)).1

end Sample

end YamlSimple

end AgentWorkflow
