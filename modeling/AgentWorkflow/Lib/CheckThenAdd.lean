import AgentWorkflow.Lib.Run
import Mathlib.Data.List.Nodup
import Mathlib.Order.Nat

/-!
# Several processes that add what is missing

Any number of processes run one program over a shared store. An instruction either ensures an item in one
step, or looks whether the item is there and, in a later step, adds it: between the two another process
may have added it, and then adding fails.

* `Store`, `Store.Lawful` — the store and what is asked of it, for one program.
* `Place`, `Conf`, `Conf.step` — where the processes are, and their steps; a process may crash anywhere.
* **`Conf.Inv.of_run`** — in every interleaving: the store stays good and only grows, a process that is
  through has left every item of the program in it, and what fails is an item that another process
  added, which is then further on.
* **`Conf.Inv.survivor`** — so the processes cannot all fail.
* `Store.runAll` — a program run alone; **`runAll_ok`**, **`runAll_again`** — it succeeds, and running it
  again changes nothing.
-/

universe u v w x

namespace CheckThenAdd

/-- An instruction about an item. -/
inductive Instr (α : Type u) where
  /-- One step, no failure. -/
  | ensure (a : α)
  /-- Look whether it is there; if not, add it. -/
  | add (a : α)
  deriving DecidableEq, Repr

/-- The item of an instruction. -/
def Instr.item {α : Type u} : Instr α → α
  | .ensure a | .add a => a

/-- A store of items. -/
structure Store (σ : Type u) (α : Type v) (ε : Type w) where
  /-- Whether an item is there. -/
  has : σ → α → Bool
  ensure : α → σ → Except ε σ
  add : α → σ → Except ε σ

/-- What the program `prog` may rely on: on good stores, an instruction whose predecessors' items are
there succeeds, unless it adds what is there. `dup a` is the failure then. -/
structure Store.Lawful {σ : Type u} {α : Type v} {ε : Type w} (S : Store σ α ε) (Good : σ → Prop)
    (prog : List (Instr α)) (dup : α → ε) : Prop where
  nodup : (prog.map Instr.item).Nodup
  ensure_present : ∀ {done a rest s}, prog = done ++ .ensure a :: rest → Good s →
    (∀ i ∈ done, S.has s i.item = true) → S.has s a = true → S.ensure a s = .ok s
  ensure_absent : ∀ {done a rest s}, prog = done ++ .ensure a :: rest → Good s →
    (∀ i ∈ done, S.has s i.item = true) → S.has s a = false →
    ∃ s', S.ensure a s = .ok s' ∧ Good s' ∧ S.has s' a = true ∧
      ∀ b, S.has s b = true → S.has s' b = true
  add_absent : ∀ {done a rest s}, prog = done ++ .add a :: rest → Good s →
    (∀ i ∈ done, S.has s i.item = true) → S.has s a = false →
    ∃ s', S.add a s = .ok s' ∧ Good s' ∧ S.has s' a = true ∧
      (∀ b, S.has s b = true → S.has s' b = true) ∧
      ∀ i ∈ prog, S.has s' i.item = true → S.has s i.item = true ∨ i.item = a
  add_present : ∀ {s a}, Good s → .add a ∈ prog → S.has s a = true → S.add a s = .error (dup a)

/-- Where a process is. -/
inductive Place (α : Type u) (ε : Type v) where
  /-- Before the first of these instructions. -/
  | before (rest : List (Instr α))
  /-- It has seen that `a` is not there. -/
  | adding (a : α) (rest : List (Instr α))
  | failed (a : α) (e : ε) (rest : List (Instr α))
  | crashed

/-- How many instructions a process has not passed. -/
def Place.left {α : Type u} {ε : Type v} : Place α ε → ℕ
  | .before rest => rest.length
  | .adding _ rest | .failed _ _ rest => rest.length + 1
  | .crashed => 0

/-- The store and the processes. -/
structure Conf (σ : Type u) (ι : Type v) (α : Type w) (ε : Type x) where
  store : σ
  place : ι → Place α ε

/-- What happens: a process takes a step, or crashes. -/
inductive Event (ι : Type u) where
  | step (p : ι)
  | crash (p : ι)

section runs

variable {σ : Type u} {ι : Type v} {α : Type w} {ε : Type x} [DecidableEq ι] (S : Store σ α ε)

/-- A process at another place, with the store as it leaves it. -/
def Conf.put (c : Conf σ ι α ε) (s : σ) (p : ι) (place : Place α ε) : Conf σ ι α ε :=
  ⟨s, Function.update c.place p place⟩

/-- What an event does. -/
def Conf.step (c : Conf σ ι α ε) : Event ι → Conf σ ι α ε
  | .crash p => c.put c.store p .crashed
  | .step p =>
    match c.place p with
    | .before (.ensure a :: rest) =>
      match S.ensure a c.store with
      | .ok s => c.put s p (.before rest)
      | .error e => c.put c.store p (.failed a e rest)
    | .before (.add a :: rest) =>
      c.put c.store p (if S.has c.store a = true then .before rest else .adding a rest)
    | .adding a rest =>
      match S.add a c.store with
      | .ok s => c.put s p (.before rest)
      | .error e => c.put c.store p (.failed a e rest)
    | _ => c

/-- The runs of the processes. -/
abbrev Runs : Conf σ ι α ε → List (Event ι) → Conf σ ι α ε → Prop :=
  Run fun c e c' => c.step S e = c'

/-- Every process before the program. -/
def Conf.initial (s : σ) (prog : List (Instr α)) : Conf σ ι α ε := ⟨s, fun _ => .before prog⟩

variable {S} {Good : σ → Prop} {prog done rest : List (Instr α)} {dup : α → ε}
  {c c' : Conf σ ι α ε} {p q : ι} {s s' : σ}

/-! ## The invariant -/

/-- The items of instructions that were passed are there. -/
def Passed (S : Store σ α ε) (s : σ) (done : List (Instr α)) : Prop :=
  ∀ i ∈ done, S.has s i.item = true

/-- What is known of a process at a place. `further n` is whether another process has at most `n`
instructions before it. -/
def Known (S : Store σ α ε) (prog : List (Instr α)) (dup : α → ε) (s : σ) (further : ℕ → Prop) :
    Place α ε → Prop
  | .before rest => ∃ done, prog = done ++ rest ∧ Passed S s done
  | .adding a rest => ∃ done, prog = done ++ .add a :: rest ∧ Passed S s done ∧
      (S.has s a = true → further rest.length)
  | .failed a e rest => e = dup a ∧ S.has s a = true ∧ further rest.length ∧
      ∃ done, prog = done ++ .add a :: rest
  | .crashed => True

/-- Some process has at most `n` instructions before it. -/
def Conf.Further (c : Conf σ ι α ε) (n : ℕ) : Prop := ∃ q, (c.place q).left ≤ n

/-- The invariant of every run. -/
structure Conf.Inv (S : Store σ α ε) (Good : σ → Prop) (prog : List (Instr α)) (dup : α → ε)
    (s₀ : σ) (c : Conf σ ι α ε) : Prop where
  good : Good c.store
  grows : ∀ a, S.has s₀ a = true → S.has c.store a = true
  known : ∀ p, Known S prog dup c.store c.Further (c.place p)

theorem Passed.grow (h : Passed S s done) (hgrow : ∀ b, S.has s b = true → S.has s' b = true) :
    Passed S s' done := fun i hi => hgrow _ (h i hi)

theorem Passed.snoc {i : Instr α} (h : Passed S s done) (hi : S.has s i.item = true) :
    Passed S s (done ++ [i]) := by
  intro j hj
  rcases List.mem_append.mp hj with hj | hj
  · exact h j hj
  · obtain rfl := List.mem_singleton.mp hj
    exact hi

theorem place_put : (c.put s p place).place q = if q = p then place else c.place q := by
  by_cases h : q = p
  · subst h
    simp [Conf.put]
  · simp [Conf.put, h]

/-- Nobody falls back. -/
theorem Conf.Further.put {n : ℕ} {place : Place α ε} (h : c.Further n)
    (hleft : place.left ≤ (c.place p).left) : (c.put s p place).Further n := by
  obtain ⟨q, hq⟩ := h
  refine ⟨q, ?_⟩
  rw [place_put]
  split
  next heq =>
    subst heq
    omega
  next => exact hq

/-- What was known of a process stays known, when the store grows only by items some process has then
passed. -/
theorem Known.grow {place : Place α ε} {further further' : ℕ → Prop}
    (h : Known S prog dup s further place)
    (hgrow : ∀ b, S.has s b = true → S.has s' b = true)
    (hfurther : ∀ n, further n → further' n)
    (hnew : ∀ done a rest, prog = done ++ .add a :: rest → Passed S s done →
      S.has s a = false → S.has s' a = true → further' rest.length) :
    Known S prog dup s' further' place := by
  cases place with
  | before rest =>
    obtain ⟨done, hprog, hpassed⟩ := h
    exact ⟨done, hprog, hpassed.grow hgrow⟩
  | adding a rest =>
    obtain ⟨done, hprog, hpassed, hraced⟩ := h
    refine ⟨done, hprog, hpassed.grow hgrow, fun hs' => ?_⟩
    cases hs : S.has s a with
    | true => exact hfurther _ (hraced hs)
    | false => exact hnew done a rest hprog hpassed hs hs'
  | failed a e rest =>
    obtain ⟨he, ha, hf, hprog⟩ := h
    exact ⟨he, hgrow a ha, hfurther _ hf, hprog⟩
  | crashed => trivial

/-- A process moves on, and leaves a store that has grown only by what it, or another process further
on, has passed. -/
theorem Conf.Inv.put {s₀ : σ} {place : Place α ε} (h : c.Inv S Good prog dup s₀) (hgood : Good s)
    (hleft : place.left ≤ (c.place p).left)
    (hgrow : ∀ b, S.has c.store b = true → S.has s b = true)
    (hnew : ∀ done a rest, prog = done ++ .add a :: rest → Passed S c.store done →
      S.has c.store a = false → S.has s a = true → place.left ≤ rest.length)
    (hplace : Known S prog dup s (c.put s p place).Further place) :
    (c.put s p place).Inv S Good prog dup s₀ where
  good := hgood
  grows a ha := hgrow a (h.grows a ha)
  known q := by
    rw [place_put]
    split
    next => exact hplace
    next hne =>
      refine (h.known q).grow hgrow (fun n hn => hn.put hleft) fun done a rest hprog hp hs hs' => ?_
      refine ⟨p, ?_⟩
      rw [place_put, if_pos rfl]
      exact hnew done a rest hprog hp hs hs'

/-! ## Steps keep it -/

/-- Where an instruction stands in the program. -/
theorem getElem?_of_eq {i : Instr α} (h : prog = done ++ i :: rest) :
    prog[done.length]? = some i := by
  rw [h, List.getElem?_append_right le_rfl, Nat.sub_self]
  rfl

/-- An instruction that another has not passed stands behind it. -/
theorem rest_lt {done' rest' : List (Instr α)} {i j : Instr α} (h : prog = done ++ i :: rest)
    (h' : prog = done' ++ j :: rest') (hne : i ≠ j) (hnot : i ∉ done') :
    rest.length < rest'.length := by
  have hlength := congrArg List.length (h.symm.trans h')
  simp only [List.length_append, List.length_cons] at hlength
  rcases lt_trichotomy done.length done'.length with hlt | heq | hgt
  · have hi := getElem?_of_eq h
    rw [h', List.getElem?_append_left hlt] at hi
    exact absurd (List.mem_of_getElem? hi) hnot
  · have hi := getElem?_of_eq h
    rw [heq, getElem?_of_eq h'] at hi
    exact absurd (Option.some.inj hi).symm hne
  · omega

/-- An instruction stands in the program once. -/
theorem rest_eq {done' rest' : List (Instr α)} {i : Instr α} (hnodup : (prog.map Instr.item).Nodup)
    (h : prog = done ++ i :: rest) (h' : prog = done' ++ i :: rest') : rest = rest' := by
  have hlt : done.length < prog.length := by
    rw [h, List.length_append, List.length_cons]
    omega
  have hlengths : done.length = done'.length :=
    (List.getElem?_inj hlt hnodup.of_map).mp ((getElem?_of_eq h).trans (getElem?_of_eq h').symm)
  exact (List.cons.inj (List.append_inj_right (h.symm.trans h') hlengths)).2

variable (hS : S.Lawful Good prog dup)

include hS

/-- A process that ensures an item. -/
theorem Conf.Inv.ensure {s₀ : σ} {a : α} (h : c.Inv S Good prog dup s₀)
    (hp : c.place p = .before (.ensure a :: rest)) :
    (c.step S (.step p)).Inv S Good prog dup s₀ := by
  have hknown := h.known p
  rw [hp] at hknown
  obtain ⟨done, hprog, hpassed⟩ := hknown
  have hleft : (Place.before rest : Place α ε).left ≤ (c.place p).left := by
    rw [hp]
    exact Nat.le_succ _
  have hsnoc : prog = (done ++ [.ensure a]) ++ rest := by rw [hprog, List.append_assoc]; rfl
  simp only [Conf.step, hp]
  cases hhas : S.has c.store a with
  | true =>
    rw [hS.ensure_present hprog h.good hpassed hhas]
    refine h.put h.good hleft (fun _ hb => hb) (fun _ b _ _ _ hf ht => ?_)
      ⟨_, hsnoc, hpassed.snoc hhas⟩
    exact Bool.noConfusion (hf.symm.trans ht)
  | false =>
    obtain ⟨s', hs', hgood, ha, hgrow⟩ := hS.ensure_absent hprog h.good hpassed hhas
    rw [hs']
    refine h.put hgood hleft hgrow (fun done' b rest' hprog' hpassed' _ _ => ?_)
      ⟨_, hsnoc, (hpassed.grow hgrow).snoc ha⟩
    refine Nat.le_of_lt (rest_lt hprog hprog' (by simp) fun hin => ?_)
    exact Bool.noConfusion (hhas.symm.trans (hpassed' _ hin))

omit hS in
/-- A process that looks for an item. -/
theorem Conf.Inv.look {s₀ : σ} {a : α} (h : c.Inv S Good prog dup s₀)
    (hp : c.place p = .before (.add a :: rest)) :
    (c.step S (.step p)).Inv S Good prog dup s₀ := by
  have hknown := h.known p
  rw [hp] at hknown
  obtain ⟨done, hprog, hpassed⟩ := hknown
  have hsnoc : prog = (done ++ [.add a]) ++ rest := by rw [hprog, List.append_assoc]; rfl
  have hsame : ∀ (place : Place α ε) (done' : List (Instr α)) (b : α) (rest' : List (Instr α)),
      prog = done' ++ .add b :: rest' → Passed S c.store done' → S.has c.store b = false →
      S.has c.store b = true → place.left ≤ rest'.length :=
    fun _ _ _ _ _ _ hf ht => Bool.noConfusion (hf.symm.trans ht)
  simp only [Conf.step, hp]
  cases hhas : S.has c.store a with
  | true =>
    rw [if_pos rfl]
    refine h.put h.good ?_ (fun _ hb => hb) (hsame _) ⟨_, hsnoc, hpassed.snoc hhas⟩
    rw [hp]
    exact Nat.le_succ _
  | false =>
    rw [if_neg Bool.false_ne_true]
    refine h.put h.good ?_ (fun _ hb => hb) (hsame _) ⟨done, hprog, hpassed, fun ht => ?_⟩
    · rw [hp]
      exact le_refl _
    · exact Bool.noConfusion (hhas.symm.trans ht)

/-- A process that adds an item it has not seen: it does, or somebody has. -/
theorem Conf.Inv.add {s₀ : σ} {a : α} (h : c.Inv S Good prog dup s₀)
    (hp : c.place p = .adding a rest) : (c.step S (.step p)).Inv S Good prog dup s₀ := by
  have hknown := h.known p
  rw [hp] at hknown
  obtain ⟨done, hprog, hpassed, hraced⟩ := hknown
  have hmem : Instr.add a ∈ prog := by simp [hprog]
  have hsnoc : prog = (done ++ [.add a]) ++ rest := by rw [hprog, List.append_assoc]; rfl
  simp only [Conf.step, hp]
  cases hhas : S.has c.store a with
  | true =>
    rw [hS.add_present h.good hmem hhas]
    have hleft : (Place.failed a (dup a) rest : Place α ε).left ≤ (c.place p).left := by
      rw [hp]
      exact le_refl _
    refine h.put h.good hleft (fun _ hb => hb) (fun _ b _ _ _ hf ht => ?_)
      ⟨rfl, hhas, (hraced hhas).put hleft, done, hprog⟩
    exact Bool.noConfusion (hf.symm.trans ht)
  | false =>
    obtain ⟨s', hs', hgood, ha, hgrow, honly⟩ := hS.add_absent hprog h.good hpassed hhas
    rw [hs']
    refine h.put hgood ?_ hgrow (fun done' b rest' hprog' hpassed' hf ht => ?_)
      ⟨_, hsnoc, (hpassed.grow hgrow).snoc ha⟩
    · rw [hp]
      exact Nat.le_succ _
    · have hb : Instr.add b ∈ prog := by simp [hprog']
      rcases honly _ hb ht with hold | hba
      · exact Bool.noConfusion (hf.symm.trans hold)
      · obtain rfl : b = a := hba
        exact le_of_eq (congrArg List.length (rest_eq hS.nodup hprog hprog'))

/-- **Every step keeps the invariant.** -/
theorem Conf.Inv.step {s₀ : σ} {e : Event ι} (h : c.Inv S Good prog dup s₀) :
    (c.step S e).Inv S Good prog dup s₀ := by
  cases e with
  | crash p =>
    refine h.put h.good (Nat.zero_le _) (fun _ hb => hb) (fun _ b _ _ _ hf ht => ?_) trivial
    exact Bool.noConfusion (hf.symm.trans ht)
  | step p =>
    cases hp : c.place p with
    | before rest =>
      cases rest with
      | nil =>
        have hsame : c.step S (.step p) = c := by simp only [Conf.step, hp]
        rwa [hsame]
      | cons i rest =>
        cases i with
        | ensure a => exact h.ensure hS hp
        | add a => exact h.look hp
    | adding a rest => exact h.add hS hp
    | failed a e rest =>
      have hsame : c.step S (.step p) = c := by simp only [Conf.step, hp]
      rwa [hsame]
    | crashed =>
      have hsame : c.step S (.step p) = c := by simp only [Conf.step, hp]
      rwa [hsame]

/-- **Every interleaving keeps it.** -/
theorem Conf.Inv.of_run {s₀ : σ} {es : List (Event ι)} (hgood : Good s₀)
    (h : Runs S (Conf.initial s₀ prog) es c) : c.Inv S Good prog dup s₀ := by
  have hinitial : (Conf.initial s₀ prog : Conf σ ι α ε).Inv S Good prog dup s₀ :=
    ⟨hgood, fun _ ha => ha, fun _ => ⟨[], rfl, fun _ hi => absurd hi List.not_mem_nil⟩⟩
  refine Run.invariant (I := fun c => c.Inv S Good prog dup s₀) h hinitial ?_
  rintro c e c' rfl hc
  exact hc.step hS

omit hS [DecidableEq ι]

/-- A process that is through has every item in the store. -/
theorem Conf.Inv.through {s₀ : σ} (h : c.Inv S Good prog dup s₀) (hp : c.place p = .before []) :
    ∀ i ∈ prog, S.has c.store i.item = true := by
  have hknown := h.known p
  rw [hp] at hknown
  obtain ⟨done, hprog, hpassed⟩ := hknown
  rw [hprog, List.append_nil]
  exact hpassed

/-- **The processes cannot all fail**: of those that have ended without a crash, the one that is
furthest on is through. -/
theorem Conf.Inv.survivor {s₀ : σ} (h : c.Inv S Good prog dup s₀)
    (hended : ∀ q, c.place q = .before [] ∨ ∃ a e rest, c.place q = .failed a e rest) (p : ι) :
    ∃ q, c.place q = .before [] := by
  -- Whoever failed has been overtaken by somebody who is further on.
  induction hn : (c.place p).left using Nat.strong_induction_on generalizing p with
  | _ n ih =>
    rcases hended p with hp | ⟨a, e, rest, hp⟩
    · exact ⟨p, hp⟩
    · have hknown := h.known p
      rw [hp] at hknown hn
      obtain ⟨-, -, ⟨q, hq⟩, -⟩ := hknown
      refine ih _ ?_ q rfl
      simp only [Place.left] at hn
      omega

end runs

/-! ## Alone -/

section alone

variable {σ : Type u} {α : Type v} {ε : Type w} (S : Store σ α ε)

/-- A program run alone: what it returns, and the store it leaves. -/
def Store.runAll : List (Instr α) → σ → Except ε Unit × σ
  | [], s => (.ok (), s)
  | .ensure a :: rest, s =>
    match S.ensure a s with
    | .ok s' => Store.runAll rest s'
    | .error e => (.error e, s)
  | .add a :: rest, s =>
    if S.has s a = true then Store.runAll rest s
    else
      match S.add a s with
      | .ok s' => Store.runAll rest s'
      | .error e => (.error e, s)

variable {S} {Good : σ → Prop} {prog done rest : List (Instr α)} {dup : α → ε} {s : σ}

/-- The rest of a program, alone. -/
theorem Store.Lawful.runAll_rest (hS : S.Lawful Good prog dup) (hprog : prog = done ++ rest)
    (hgood : Good s) (hpassed : Passed S s done) :
    ∃ s', S.runAll rest s = (.ok (), s') ∧ Good s' ∧ (∀ i ∈ prog, S.has s' i.item = true) ∧
      ∀ b, S.has s b = true → S.has s' b = true := by
  induction rest generalizing done s with
  | nil =>
    rw [List.append_nil] at hprog
    exact ⟨s, rfl, hgood, hprog ▸ hpassed, fun _ h => h⟩
  | cons i rest ih =>
    have hsnoc : prog = (done ++ [i]) ++ rest := by rw [hprog, List.append_assoc]; rfl
    have hnext : ∀ {s₁}, Good s₁ → S.has s₁ i.item = true →
        (∀ b, S.has s b = true → S.has s₁ b = true) →
        ∃ s', S.runAll rest s₁ = (.ok (), s') ∧ Good s' ∧ (∀ i ∈ prog, S.has s' i.item = true) ∧
          ∀ b, S.has s b = true → S.has s' b = true := by
      intro s₁ hgood₁ hi hgrow
      obtain ⟨s', hrun, hgood', hall, hgrow'⟩ := ih hsnoc hgood₁ ((hpassed.grow hgrow).snoc hi)
      exact ⟨s', hrun, hgood', hall, fun b hb => hgrow' b (hgrow b hb)⟩
    cases i with
    | ensure a =>
      rw [Store.runAll]
      cases hhas : S.has s a with
      | true =>
        rw [hS.ensure_present hprog hgood hpassed hhas]
        exact hnext hgood hhas fun _ h => h
      | false =>
        obtain ⟨s₁, hs₁, hgood₁, ha, hgrow⟩ := hS.ensure_absent hprog hgood hpassed hhas
        rw [hs₁]
        exact hnext hgood₁ ha hgrow
    | add a =>
      rw [Store.runAll]
      cases hhas : S.has s a with
      | true =>
        rw [if_pos rfl]
        exact hnext hgood hhas fun _ h => h
      | false =>
        obtain ⟨s₁, hs₁, hgood₁, ha, hgrow, -⟩ := hS.add_absent hprog hgood hpassed hhas
        rw [if_neg Bool.false_ne_true, hs₁]
        exact hnext hgood₁ ha hgrow

/-- **A program alone succeeds.** -/
theorem Store.Lawful.runAll_ok (hS : S.Lawful Good prog dup) (hgood : Good s) :
    ∃ s', S.runAll prog s = (.ok (), s') ∧ Good s' ∧ (∀ i ∈ prog, S.has s' i.item = true) ∧
      ∀ b, S.has s b = true → S.has s' b = true :=
  hS.runAll_rest (List.nil_append prog).symm hgood fun _ hi => absurd hi List.not_mem_nil

/-- **Where everything is there, it changes nothing.** -/
theorem Store.Lawful.runAll_again (hS : S.Lawful Good prog dup) (hgood : Good s)
    (hall : ∀ i ∈ prog, S.has s i.item = true) : S.runAll prog s = (.ok (), s) := by
  have hrest : ∀ rest, (∀ i ∈ rest, i ∈ prog) → S.runAll rest s = (.ok (), s) := by
    intro rest
    induction rest with
    | nil => exact fun _ => rfl
    | cons i rest ih =>
      intro hsub
      have hi : S.has s i.item = true := hall i (hsub i List.mem_cons_self)
      have hrec := ih fun j hj => hsub j (List.mem_cons_of_mem _ hj)
      cases i with
      | ensure a =>
        obtain ⟨done, rest', hprog⟩ := List.append_of_mem (hsub _ List.mem_cons_self)
        have hsame : S.ensure a s = .ok s := hS.ensure_present hprog hgood
          (fun j hj => hall j (by rw [hprog]; exact List.mem_append_left _ hj)) hi
        rw [Store.runAll, hsame]
        exact hrec
      | add a =>
        rw [Store.runAll]
        exact (if_pos hi).trans hrec
  exact hrest prog fun _ h => h

end alone

end CheckThenAdd
