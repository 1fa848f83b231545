import Mathlib.Tactic.Common

/-!
# Promises settled by events

A promise whose executor has registered callbacks: each event runs one of them, which may change the
variables the callbacks share and may settle the promise. Only the first settling counts.

* `Settling` — the callbacks; `Settling.outcome` — what a sequence of events settles the promise
  with, if anything.
* `outcome_cons_of_some`, `outcome_cons_of_none` — **the first event that settles decides**; later
  events change nothing.
-/

universe u v w

/-- The callbacks of a promise. -/
structure Settling (σ : Type u) (ε : Type v) (α : Type w) where
  /-- What an event does to the variables. -/
  step : σ → ε → σ
  /-- What it settles the promise with. -/
  settle : σ → ε → Option α

namespace Settling

variable {σ : Type u} {ε : Type v} {α : Type w} {m : Settling σ ε α} {s : σ} {e : ε}
  {es : List ε} {a : α}

/-- What the events settle the promise with. -/
def outcome (m : Settling σ ε α) : σ → List ε → Option α
  | _, [] => none
  | s, e :: es => (m.settle s e).or (outcome m (m.step s e) es)

theorem outcome_cons_of_some (h : m.settle s e = some a) : m.outcome s (e :: es) = some a := by
  rw [outcome, h, Option.some_or]

theorem outcome_cons_of_none (h : m.settle s e = none) :
    m.outcome s (e :: es) = m.outcome (m.step s e) es := by
  rw [outcome, h, Option.none_or]

end Settling
