import AgentWorkflow.Lib.Fallible

/-!
# Programs whose calls are recorded

A program calls others; what it called, with which arguments and what came back, is a list of
entries beside the state the calls change.

* `Traced` — a state with the entries so far.
* `recorded` — a call, run on the state and entered with its result; **an exception is entered before
  it is thrown on.**
* `ensures_recorded` — the specification of a recorded call.
-/

namespace Fallible

variable {ρ ε ε' σ κ α : Type}

/-- A state with the calls so far. -/
structure Traced (κ σ : Type) where
  calls : List κ
  state : σ

/-- A call of `m`; `entry` is what is recorded of its result, and `raise` what its exception becomes
in the caller. -/
def recorded (entry : Except ε α → κ) (raise : ε → ε') (m : Prog ρ ε σ α) :
    Prog ρ ε' (Traced κ σ) α := fun r s =>
  match m r s.state with
  | .ok a t => .ok a ⟨s.calls ++ [entry (.ok a)], t⟩
  | .error e t => .error (raise e) ⟨s.calls ++ [entry (.error e)], t⟩

theorem ensures_recorded {entry : Except ε α → κ} {raise : ε → ε'} {m : Prog ρ ε σ α} {r : ρ}
    {s : Traced κ σ} {Q : α → Traced κ σ → Prop} {E : ε' → Traced κ σ → Prop} :
    Ensures (recorded entry raise m) r s Q E ↔
      Ensures m r s.state (fun a t => Q a ⟨s.calls ++ [entry (.ok a)], t⟩)
        (fun e t => E (raise e) ⟨s.calls ++ [entry (.error e)], t⟩) := by
  unfold Ensures recorded
  cases m r s.state <;> rfl

/-- A call of a program nothing is known of. -/
theorem ensures_recorded_of_forall {entry : Except ε α → κ} {raise : ε → ε'} {m : Prog ρ ε σ α}
    {r : ρ} {s : Traced κ σ} {Q : α → Traced κ σ → Prop} {E : ε' → Traced κ σ → Prop}
    (hQ : ∀ a t, Q a ⟨s.calls ++ [entry (.ok a)], t⟩)
    (hE : ∀ e t, E (raise e) ⟨s.calls ++ [entry (.error e)], t⟩) :
    Ensures (recorded entry raise m) r s Q E :=
  ensures_recorded.mpr (ensures_of_forall (fun a t _ => hQ a t) (fun e t _ => hE e t))

end Fallible
