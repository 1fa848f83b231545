import Mathlib.Tactic.Common

/-!
# Runs of a labelled transition system

A system is a relation `R s l t` (from `s` the label `l` leads to `t`); a run is a list of labels
threaded through it.

* `Run R s ls t` — from `s` the labels `ls`, first to last, lead to `t`.
* **`Run.invariant`** — what every step keeps, every run keeps. `Run.invariant_of_guard` is the same
  for the runs whose steps all meet a condition on the state before the step and the label.
* `Run.foldl_iff`, `Run.foldlM_iff`, `Run.guarded_foldlM_iff` — where the relation is a function,
  its runs can be computed.
* `Run.strengthen` — a run of one relation is a run of another when an invariant says so.
* `Run.snoc_iff`, `Run.append_iff` — a run is cut at any point, so a statement about every state
  a run passes through is a statement about its prefixes.
* `AtEach P xs` — every entry of the history `xs` meets `P` of the entries before it; a history that
  only grows is checked once, entry by entry (`atEach_snoc`).
-/

universe u v

variable {σ : Type u} {ℓ : Type v}

/-- From `s` the labels, first to last, lead to the last state. -/
inductive Run (R : σ → ℓ → σ → Prop) : σ → List ℓ → σ → Prop
  | nil (s : σ) : Run R s [] s
  | cons {s t u : σ} {l : ℓ} {ls : List ℓ} : R s l t → Run R t ls u → Run R s (l :: ls) u

/-- `R` restricted to the steps that meet `C` (the state before the step and the label). -/
def Guarded (C : σ → ℓ → Prop) (R : σ → ℓ → σ → Prop) : σ → ℓ → σ → Prop :=
  fun s l t => C s l ∧ R s l t

namespace Run

variable {R R' : σ → ℓ → σ → Prop} {s t u : σ} {l : ℓ} {ls ms : List ℓ}

@[simp] theorem nil_iff : Run R s [] t ↔ s = t := by
  constructor
  · intro h
    cases h
    rfl
  · rintro rfl
    exact .nil s

theorem cons_iff : Run R s (l :: ls) u ↔ ∃ t, R s l t ∧ Run R t ls u := by
  constructor
  · intro h
    cases h with
    | cons h hs => exact ⟨_, h, hs⟩
  · rintro ⟨t, h, hs⟩
    exact .cons h hs

theorem append_iff : Run R s (ls ++ ms) u ↔ ∃ t, Run R s ls t ∧ Run R t ms u := by
  induction ls generalizing s with
  | nil => simp
  | cons l ls ih =>
    simp only [List.cons_append, cons_iff, ih]
    constructor
    · rintro ⟨t, h, v, hv, hu⟩
      exact ⟨v, ⟨t, h, hv⟩, hu⟩
    · rintro ⟨v, ⟨t, h, hv⟩, hu⟩
      exact ⟨t, h, v, hv, hu⟩

/-- A run extended by its last step. -/
theorem snoc_iff : Run R s (ls ++ [l]) u ↔ ∃ t, Run R s ls t ∧ R t l u := by
  simp [append_iff, cons_iff]

/-- Runs of a smaller relation are runs of a larger one. -/
theorem mono (h : Run R s ls t) (hR : ∀ s l t, R s l t → R' s l t) : Run R' s ls t := by
  induction h with
  | nil s => exact .nil s
  | cons h _ ih => exact .cons (hR _ _ _ h) ih

/-- **What every step keeps, every run keeps.** -/
theorem invariant {I : σ → Prop} (h : Run R s ls t) (hs : I s)
    (hstep : ∀ s l t, R s l t → I s → I t) : I t := by
  induction h with
  | nil s => exact hs
  | cons h _ ih => exact ih (hstep _ _ _ h hs)

/-- A run is a run of the steps that its invariant allows. -/
theorem strengthen {I : σ → Prop} (h : Run R s ls t) (hs : I s)
    (hstep : ∀ s l t, R s l t → I s → R' s l t ∧ I t) : Run R' s ls t := by
  induction h with
  | nil s => exact .nil s
  | cons h _ ih =>
    obtain ⟨h', hI⟩ := hstep _ _ _ h hs
    exact .cons h' (ih hI)

/-- The run of a function is its fold. -/
theorem foldl_iff {f : σ → ℓ → σ} : Run (fun s l t => f s l = t) s ls t ↔ ls.foldl f s = t := by
  induction ls generalizing s with
  | nil => exact nil_iff
  | cons l ls ih =>
    rw [cons_iff]
    constructor
    · rintro ⟨t, rfl, ht⟩
      exact ih.mp ht
    · intro h
      exact ⟨f s l, rfl, ih.mpr h⟩

/-- The run of a partial function is its fold. -/
theorem foldlM_iff {f : σ → ℓ → Option σ} :
    Run (fun s l t => f s l = some t) s ls t ↔ ls.foldlM f s = some t := by
  induction ls generalizing s with
  | nil => exact nil_iff.trans Option.some_inj.symm
  | cons l ls ih =>
    rw [cons_iff, List.foldlM_cons]
    exact Iff.trans (exists_congr fun t => and_congr_right fun _ => ih)
      Option.bind_eq_some_iff.symm

/-- The guarded run of a partial function is the fold of its restriction. -/
theorem guarded_foldlM_iff {f : σ → ℓ → Option σ} {C : σ → ℓ → Prop} [∀ s l, Decidable (C s l)] :
    Run (Guarded C fun s l t => f s l = some t) s ls t ↔
      ls.foldlM (fun s l => if C s l then f s l else none) s = some t := by
  rw [← foldlM_iff]
  refine ⟨fun h => h.mono fun s l t hl => ?_, fun h => h.mono fun s l t hl => ?_⟩
  · rw [if_pos hl.1]
    exact hl.2
  · exact Option.ite_none_right_eq_some.mp hl

/-- Every label of a run is a label of its list. -/
theorem mem_labels (h : Run R s ls t) : Run (fun s l t => R s l t ∧ l ∈ ls) s ls t := by
  induction h with
  | nil s => exact .nil s
  | cons h _ ih =>
    refine .cons ⟨h, List.mem_cons_self⟩ (ih.mono fun s l t hl => ?_)
    exact ⟨hl.1, List.mem_cons_of_mem _ hl.2⟩

/-- A run whose labels all meet a condition is a guarded run. -/
theorem guarded_of_labels {C : ℓ → Prop} (h : Run R s ls t) (hC : ∀ l ∈ ls, C l) :
    Run (Guarded (fun _ => C) R) s ls t :=
  h.mem_labels.mono fun _ l _ hl => ⟨hC l hl.2, hl.1⟩

/-- The invariant rule for the runs whose steps all meet a condition. -/
theorem invariant_of_guard {C : σ → ℓ → Prop} {I : σ → Prop} (h : Run (Guarded C R) s ls t)
    (hs : I s) (hstep : ∀ s l t, C s l → R s l t → I s → I t) : I t :=
  h.invariant hs fun s l t hl => hstep s l t hl.1 hl.2

/-- Two runs of a relation that is a function, over the same labels, are one. -/
theorem both {R'' : σ → ℓ → σ → Prop} (hR : ∀ s l t t', R s l t → R' s l t' → t = t')
    (hboth : ∀ s l t, R s l t → R' s l t → R'' s l t) {t' : σ} (h : Run R s ls t)
    (h' : Run R' s ls t') : Run R'' s ls t := by
  induction h with
  | nil s => exact .nil s
  | cons hl _ ih =>
    obtain ⟨t₁, hl', h'⟩ := cons_iff.mp h'
    obtain rfl := hR _ _ _ _ hl hl'
    exact .cons (hboth _ _ _ hl hl') (ih h')

/-- The guarded runs are runs. -/
theorem of_guarded {C : σ → ℓ → Prop} (h : Run (Guarded C R) s ls t) : Run R s ls t :=
  h.mono fun _ _ _ hl => hl.2

end Run

/-! ## Histories -/

/-- Every entry of a history meets `P` of the entries before it. -/
def AtEach (P : List ℓ → ℓ → Prop) (xs : List ℓ) : Prop :=
  ∀ pre x, pre ++ [x] <+: xs → P pre x

section histories

variable {P : List ℓ → ℓ → Prop} {xs : List ℓ} {x : ℓ}

theorem atEach_nil : AtEach P [] := by
  intro pre x h
  simp at h

/-- A longer history is checked at its new entry. -/
theorem atEach_snoc : AtEach P (xs ++ [x]) ↔ AtEach P xs ∧ P xs x := by
  constructor
  · intro h
    exact ⟨fun pre y hy => h pre y (hy.trans (List.prefix_append _ _)), h xs x List.prefix_rfl⟩
  · rintro ⟨hxs, hx⟩ pre y hy
    rcases List.prefix_concat_iff.mp hy with heq | hy
    · obtain ⟨rfl, hlast⟩ := List.append_inj' heq rfl
      obtain rfl := List.singleton_inj.mp hlast
      exact hx
    · exact hxs pre y hy

variable {β : Type*} {f : ℓ → Option β} {b : β}

/-- The last value `f` reads off a history. -/
def lastSome (f : ℓ → Option β) (xs : List ℓ) : Option β := xs.reverse.findSome? f

theorem lastSome_snoc : lastSome f (xs ++ [x]) = (f x).or (lastSome f xs) := by
  unfold lastSome
  rw [List.reverse_append, List.reverse_singleton, List.singleton_append, List.findSome?_cons]
  cases f x with
  | none => rfl
  | some b => rfl

theorem lastSome_snoc_of_none (h : f x = none) : lastSome f (xs ++ [x]) = lastSome f xs := by
  rw [lastSome_snoc, h, Option.none_or]

theorem lastSome_snoc_of_some (h : f x = some b) : lastSome f (xs ++ [x]) = some b := by
  rw [lastSome_snoc, h, Option.some_or]

theorem lastSome_append_of_none {ys : List ℓ} (h : ∀ y ∈ ys, f y = none) :
    lastSome f (xs ++ ys) = lastSome f xs := by
  have hnone : ys.reverse.findSome? f = none :=
    List.findSome?_eq_none_iff.mpr fun y hy => h y (List.mem_reverse.mp hy)
  unfold lastSome
  rw [List.reverse_append, List.findSome?_append, hnone, Option.none_or]

/-- The last value is the one of an entry no later entry has a value after. -/
theorem lastSome_eq_some_iff : lastSome f xs = some b ↔
    ∃ pre x post, xs = pre ++ x :: post ∧ f x = some b ∧ ∀ y ∈ post, f y = none := by
  unfold lastSome
  rw [List.findSome?_eq_some_iff]
  constructor
  · rintro ⟨l₁, x, l₂, hxs, hx, hl₁⟩
    refine ⟨l₂.reverse, x, l₁.reverse, ?_, hx, fun y hy => hl₁ y (List.mem_reverse.mp hy)⟩
    have hrev := congrArg List.reverse hxs
    rw [List.reverse_reverse] at hrev
    rw [hrev]
    simp
  · rintro ⟨pre, x, post, rfl, hx, hpost⟩
    refine ⟨post.reverse, x, pre.reverse, by simp, hx, fun y hy => ?_⟩
    exact hpost y (List.mem_reverse.mp hy)

end histories
