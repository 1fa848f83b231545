import Mathlib.Tactic.Common

/-!
# Fallible programs over an environment and a state

A `Prog ρ ε σ α` reads an environment `ρ`, changes a state `σ` and either returns an `α` or throws
an `ε`. A throw keeps the state reached so far, as an exception of an imperative program does: a
statement that ran before the throw stays done.

* `Ensures m r s Q E` — the weakest precondition of `m` at the environment `r` and the state `s`:
  `Q` holds of the value and the state if `m` returns, `E` of the exception and the state if it
  throws. One rule for each way of building a program (`ensures_bind`, `ensures_tryCatch`, …), each
  an equivalence, so that `simp only` with them computes the verification condition of a block.
* `Ensures.mono`, `Ensures.and` — consequence and conjunction; `Ensures.of_ok`, `Ensures.of_error`
  read a specification at a known result.
* `zoom` — a program on a part of the state, run inside a program on the whole; the rest of the
  state is untouched by construction (`ensures_zoom`).
* `EnsuresVia view m r t Q E` — the same through a view of the state: from every state seen as
  `t`, and with postconditions on what is seen. **The rules never mention what is not seen.**
* `Maintains I m Q` — an invariant of the program, whatever the environment and however it ends.
-/

namespace Fallible

/-- A program that reads `ρ`, changes `σ`, and returns or throws. -/
abbrev Prog (ρ ε σ : Type) : Type → Type := ReaderT ρ (EStateM ε σ)

variable {ρ ε σ τ α β : Type}

/-- The weakest precondition of `m` for the postconditions `Q` (on return) and `E` (on throw). -/
def Ensures (m : Prog ρ ε σ α) (r : ρ) (s : σ) (Q : α → σ → Prop) (E : ε → σ → Prop) : Prop :=
  match m r s with
  | .ok a s' => Q a s'
  | .error e s' => E e s'

/-! ## Consequence -/

section consequence

variable {m : Prog ρ ε σ α} {r : ρ} {s s' : σ} {Q Q' : α → σ → Prop} {E E' : ε → σ → Prop}

/-- Weaker postconditions are easier. -/
theorem Ensures.mono (h : Ensures m r s Q E) (hQ : ∀ a s', Q a s' → Q' a s')
    (hE : ∀ e s', E e s' → E' e s') : Ensures m r s Q' E' := by
  unfold Ensures at h ⊢
  cases hm : m r s with
  | ok a s' => rw [hm] at h; exact hQ a s' h
  | error e s' => rw [hm] at h; exact hE e s' h

/-- Two specifications of one run hold together. -/
theorem Ensures.and (h : Ensures m r s Q E) (h' : Ensures m r s Q' E') :
    Ensures m r s (fun a s' => Q a s' ∧ Q' a s') (fun e s' => E e s' ∧ E' e s') := by
  unfold Ensures at h h' ⊢
  cases hm : m r s with
  | ok a s' => rw [hm] at h h'; exact ⟨h, h'⟩
  | error e s' => rw [hm] at h h'; exact ⟨h, h'⟩

/-- A specification read at a return. -/
theorem Ensures.of_ok {a : α} (h : Ensures m r s Q E) (hm : m r s = .ok a s') : Q a s' := by
  unfold Ensures at h
  rwa [hm] at h

/-- A specification read at a throw. -/
theorem Ensures.of_error {e : ε} (h : Ensures m r s Q E) (hm : m r s = .error e s') : E e s' := by
  unfold Ensures at h
  rwa [hm] at h

/-- A program is specified by what holds of each of its results. -/
theorem ensures_of_forall (hQ : ∀ a s', m r s = .ok a s' → Q a s')
    (hE : ∀ e s', m r s = .error e s' → E e s') : Ensures m r s Q E := by
  unfold Ensures
  cases hm : m r s with
  | ok a s' => exact hQ a s' hm
  | error e s' => exact hE e s' hm

/-- A program that returns meets its postcondition there. -/
theorem ensures_of_ok {a : α} (hm : m r s = .ok a s') (hQ : Q a s') : Ensures m r s Q E := by
  unfold Ensures
  rwa [hm]

/-- The strongest postconditions: the results themselves. -/
theorem ensures_self (m : Prog ρ ε σ α) (r : ρ) (s : σ) :
    Ensures m r s (fun a s' => m r s = .ok a s') (fun e s' => m r s = .error e s') :=
  ensures_of_forall (fun _ _ h => h) (fun _ _ h => h)

/-- A program whose first part returns goes on from there. -/
theorem bind_of_ok {f : α → Prog ρ ε σ β} {a : α} (hm : m r s = .ok a s') :
    (m >>= f) r s = f a r s' := by
  show (match m r s with
    | .ok a s' => f a r s'
    | .error e s' => .error e s') = f a r s'
  rw [hm]

/-- A program whose first part throws goes no further. -/
theorem bind_of_error {f : α → Prog ρ ε σ β} {e : ε} (hm : m r s = .error e s') :
    (m >>= f) r s = .error e s' := by
  show (match m r s with
    | .ok a s' => f a r s'
    | .error e s' => .error e s') = .error e s'
  rw [hm]

end consequence

/-! ## One rule for each way of building a program -/

section rules

variable {r : ρ} {s : σ} {E : ε → σ → Prop}

@[simp] theorem ensures_pure {a : α} {Q : α → σ → Prop} :
    Ensures (pure a : Prog ρ ε σ α) r s Q E ↔ Q a s := Iff.rfl

@[simp] theorem ensures_throw {e : ε} {Q : α → σ → Prop} :
    Ensures (throw e : Prog ρ ε σ α) r s Q E ↔ E e s := Iff.rfl

@[simp] theorem ensures_get {Q : σ → σ → Prop} :
    Ensures (get : Prog ρ ε σ σ) r s Q E ↔ Q s s := Iff.rfl

@[simp] theorem ensures_read {Q : ρ → σ → Prop} :
    Ensures (read : Prog ρ ε σ ρ) r s Q E ↔ Q r s := Iff.rfl

@[simp] theorem ensures_set {t : σ} {Q : PUnit → σ → Prop} :
    Ensures (set t : Prog ρ ε σ PUnit) r s Q E ↔ Q ⟨⟩ t := Iff.rfl

@[simp] theorem ensures_modify {f : σ → σ} {Q : PUnit → σ → Prop} :
    Ensures (modify f : Prog ρ ε σ PUnit) r s Q E ↔ Q ⟨⟩ (f s) := Iff.rfl

/-- Sequencing: the first part establishes what the second needs. -/
@[simp] theorem ensures_bind {m : Prog ρ ε σ α} {f : α → Prog ρ ε σ β} {Q : β → σ → Prop} :
    Ensures (m >>= f) r s Q E ↔ Ensures m r s (fun a s' => Ensures (f a) r s' Q E) E := by
  show (match (match m r s with
      | .ok a s' => f a r s'
      | .error e s' => .error e s') with
    | .ok b s' => Q b s'
    | .error e s' => E e s') ↔ (match m r s with
    | .ok a s' => Ensures (f a) r s' Q E
    | .error e s' => E e s')
  cases m r s <;> rfl

@[simp] theorem ensures_map {m : Prog ρ ε σ α} {f : α → β} {Q : β → σ → Prop} :
    Ensures (f <$> m) r s Q E ↔ Ensures m r s (fun a s' => Q (f a) s') E := by
  rw [map_eq_pure_bind, ensures_bind]
  rfl

/-- A handler runs from the state the exception left. -/
@[simp] theorem ensures_tryCatch {m : Prog ρ ε σ α} {h : ε → Prog ρ ε σ α} {Q : α → σ → Prop} :
    Ensures (tryCatch m h) r s Q E ↔ Ensures m r s Q (fun e s' => Ensures (h e) r s' Q E) := by
  show (match EStateM.tryCatch (m r) (fun e => h e r) s with
    | .ok b s' => Q b s'
    | .error e s' => E e s') ↔ _
  unfold EStateM.tryCatch Ensures
  cases m r s <;> rfl

theorem ensures_ite {c : Prop} [Decidable c] {m m' : Prog ρ ε σ α} {Q : α → σ → Prop} :
    Ensures (if c then m else m') r s Q E ↔
      (c → Ensures m r s Q E) ∧ (¬ c → Ensures m' r s Q E) := by
  by_cases h : c <;> simp [h]

end rules

/-! ## Programs on a part of the state -/

/-- Run a program on the part `get s` of the state and write the part back. -/
def zoom (get : σ → τ) (put : τ → σ → σ) (m : Prog ρ ε τ α) : Prog ρ ε σ α := fun r s =>
  match m r (get s) with
  | .ok a t => .ok a (put t s)
  | .error e t => .error e (put t s)

@[simp] theorem ensures_zoom {get : σ → τ} {put : τ → σ → σ} {m : Prog ρ ε τ α} {r : ρ} {s : σ}
    {Q : α → σ → Prop} {E : ε → σ → Prop} :
    Ensures (zoom get put m) r s Q E ↔
      Ensures m r (get s) (fun a t => Q a (put t s)) (fun e t => E e (put t s)) := by
  unfold Ensures zoom
  cases m r (get s) <;> rfl

/-- A zoomed program is specified without looking at it, by postconditions that ignore the part. -/
theorem ensures_zoom_of_forall {get : σ → τ} {put : τ → σ → σ} {m : Prog ρ ε τ α} {r : ρ} {s : σ}
    {Q : α → σ → Prop} {E : ε → σ → Prop} (hQ : ∀ a t, Q a (put t s)) (hE : ∀ e t, E e (put t s)) :
    Ensures (zoom get put m) r s Q E :=
  ensures_zoom.mpr (ensures_of_forall (fun a t _ => hQ a t) (fun e t _ => hE e t))

/-! ## Specifications through a view

The part of the state a specification is about is often a function of it; the rest may change in
any way. The rules below never mention the rest. -/

/-- From every state seen as `t`, the results of `m` are seen as the postconditions say. -/
def EnsuresVia (view : σ → τ) (m : Prog ρ ε σ α) (r : ρ) (t : τ) (Q : α → τ → Prop)
    (E : ε → τ → Prop) : Prop :=
  ∀ s, view s = t → Ensures m r s (fun a s' => Q a (view s')) (fun e s' => E e (view s'))

namespace EnsuresVia

variable {view : σ → τ} {m : Prog ρ ε σ α} {r : ρ} {t : τ} {Q Q' : α → τ → Prop}
  {E E' : ε → τ → Prop}

/-- Weaker postconditions are easier. -/
theorem mono (h : EnsuresVia view m r t Q E) (hQ : ∀ a t', Q a t' → Q' a t')
    (hE : ∀ e t', E e t' → E' e t') : EnsuresVia view m r t Q' E' :=
  fun s hs => (h s hs).mono (fun a s' => hQ a (view s')) (fun e s' => hE e (view s'))

theorem pure {a : α} (h : Q a t) : EnsuresVia view (Pure.pure a) r t Q E := by
  rintro s rfl
  exact h

theorem throw {e : ε} (h : E e t) : EnsuresVia view (MonadExcept.throw e) r t Q E := by
  rintro s rfl
  exact h

theorem read {Q : ρ → τ → Prop} (h : Q r t) :
    EnsuresVia view (MonadReader.read : Prog ρ ε σ ρ) r t Q E := by
  rintro s rfl
  exact h

theorem bind {f : α → Prog ρ ε σ β} {Q : β → τ → Prop}
    (h : EnsuresVia view m r t (fun a t' => EnsuresVia view (f a) r t' Q E) E) :
    EnsuresVia view (m >>= f) r t Q E := fun s hs =>
  ensures_bind.mpr ((h s hs).mono (fun _ s' ha => ha s' rfl) (fun _ _ he => he))

theorem tryCatch {f : ε → Prog ρ ε σ α}
    (h : EnsuresVia view m r t Q (fun e t' => EnsuresVia view (f e) r t' Q E)) :
    EnsuresVia view (MonadExcept.tryCatch m f) r t Q E := fun s hs =>
  ensures_tryCatch.mpr ((h s hs).mono (fun _ _ ha => ha) (fun _ s' he => he s' rfl))

theorem ite {c : Prop} [Decidable c] {m m' : Prog ρ ε σ α}
    (h : c → EnsuresVia view m r t Q E) (h' : ¬ c → EnsuresVia view m' r t Q E) :
    EnsuresVia view (if c then m else m') r t Q E := by
  by_cases hc : c
  · rw [if_pos hc]
    exact h hc
  · rw [if_neg hc]
    exact h' hc

/-- What a view specification says of a result. -/
theorem of_ok {s s' : σ} {a : α} (h : EnsuresVia view m r (view s) Q E)
    (hm : m r s = .ok a s') : Q a (view s') := (h s rfl).of_ok hm

/-- What a view specification says of a throw. -/
theorem of_error {s s' : σ} {e : ε} (h : EnsuresVia view m r (view s) Q E)
    (hm : m r s = .error e s') : E e (view s') := (h s rfl).of_error hm

end EnsuresVia

/-! ## Invariants of programs

What a program keeps from every state and in every environment, with what is known of the value it
returns. The invariant is a parameter, so that one pass over a program serves all of them. -/

/-- From a state with `I` the program ends in one, also when it throws; what it returns meets
`Q`. -/
def Maintains (I : σ → Prop) (m : Prog ρ ε σ α) (Q : α → Prop) : Prop :=
  ∀ r s, I s → Ensures m r s (fun a s' => Q a ∧ I s') (fun _ s' => I s')

namespace Maintains

variable {I : σ → Prop} {m : Prog ρ ε σ α} {Q Q' : α → Prop}

/-- Less may be known of the value. -/
theorem mono (h : Maintains I m Q) (hQ : ∀ a, Q a → Q' a) : Maintains I m Q' :=
  fun r s hs => (h r s hs).mono (fun a _ ha => ⟨hQ a ha.1, ha.2⟩) fun _ _ he => he

/-- Nothing need be known of the value. -/
theorem any (h : Maintains I m Q) : Maintains I m fun _ => True := h.mono fun _ _ => trivial

theorem pure {a : α} (h : Q a) : Maintains I (Pure.pure a : Prog ρ ε σ α) Q :=
  fun _ _ hs => ⟨h, hs⟩

theorem throw {e : ε} : Maintains I (MonadExcept.throw e : Prog ρ ε σ α) Q := fun _ _ hs => hs

theorem get {Q : σ → Prop} (h : ∀ s, I s → Q s) : Maintains I (MonadState.get : Prog ρ ε σ σ) Q :=
  fun _ s hs => ⟨h s hs, hs⟩

theorem modify {f : σ → σ} (h : ∀ s, I s → I (f s)) :
    Maintains I (modify f : Prog ρ ε σ PUnit) fun _ => True :=
  fun _ s hs => ⟨trivial, h s hs⟩

theorem bind {f : α → Prog ρ ε σ β} {Q' : β → Prop} (h : Maintains I m Q)
    (hf : ∀ a, Q a → Maintains I (f a) Q') : Maintains I (m >>= f) Q' := fun r s hs =>
  ensures_bind.mpr ((h r s hs).mono (fun a s' ha => hf a ha.1 r s' ha.2) fun _ _ he => he)

theorem map {f : α → β} {Q' : β → Prop} (h : Maintains I m Q) (hf : ∀ a, Q a → Q' (f a)) :
    Maintains I (f <$> m) Q' := fun r s hs =>
  ensures_map.mpr ((h r s hs).mono (fun a _ ha => ⟨hf a ha.1, ha.2⟩) fun _ _ he => he)

theorem tryCatch {f : ε → Prog ρ ε σ α} (h : Maintains I m Q)
    (hf : ∀ e, Maintains I (f e) Q) : Maintains I (MonadExcept.tryCatch m f) Q := fun r s hs =>
  ensures_tryCatch.mpr ((h r s hs).mono (fun _ _ ha => ha) fun e s' he => hf e r s' he)

theorem ite {c : Prop} [Decidable c] {m' : Prog ρ ε σ α} (h : c → Maintains I m Q)
    (h' : ¬ c → Maintains I m' Q) : Maintains I (if c then m else m') Q := by
  by_cases hc : c
  · rw [if_pos hc]
    exact h hc
  · rw [if_neg hc]
    exact h' hc

/-- A program on a part of the state keeps what it keeps of the part, for every rest. -/
theorem zoom {get : σ → τ} {put : τ → σ → σ} {m : Prog ρ ε τ α}
    (h : ∀ s, I s → ∀ r, Ensures m r (get s) (fun a t => Q a ∧ I (put t s)) fun _ t => I (put t s)) :
    Maintains I (Fallible.zoom get put m) Q := fun r s hs => ensures_zoom.mpr (h s hs r)

end Maintains

end Fallible
