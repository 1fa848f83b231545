import AgentWorkflow.Lib.Fallible
import Mathlib.Data.List.Induction
import Mathlib.Logic.Function.Basic

/-!
# Protocols, and the conversations of a log

A protocol says where each letter leads. A log holds the letters of any number of conversations, one
after another and among entries that belong to none.

* `Protocol.place` — where a word leads; none when the protocol does not know it.
* **`count_le_one`** — a letter that leads into a set nothing leaves, and that is not said inside
  it, is said at most once.
* `said` — the word of one conversation in a log. An entry moves its own conversation and no other
  (`said_concat_of_read`, `said_concat_of_ne`, `said_concat_of_unread`).
* `Speaks` — **a program that moves one conversation**: every other stays at its place, however the
  program ends. The rules are those of a program, with the place of the conversation as its state.
-/

/-- Where a conversation begins, and where each letter leads. -/
structure Protocol (S E : Type) where
  start : S
  next : S → E → Option S

namespace Protocol

variable {S E : Type} {p : Protocol S E} {s : S} {word before : List E} {e : E}

/-- Where a word leads. -/
def place (p : Protocol S E) (word : List E) : Option S := word.foldlM p.next p.start

/-- One more letter leads on from where the word has led. -/
theorem place_concat : p.place (word ++ [e]) = (p.place word).bind fun s => p.next s e := by
  unfold place
  rw [List.foldlM_append]
  cases h : word.foldlM p.next p.start with
  | none => rfl
  | some s => exact bind_pure (p.next s e)

/-- What a word has said is a word of the protocol at every moment. -/
theorem place_isSome_of_prefix (h : before <+: word) (hword : (p.place word).isSome = true) :
    (p.place before).isSome = true := by
  obtain ⟨after, rfl⟩ := h
  induction after using List.reverseRecOn with
  | nil => rwa [List.append_nil] at hword
  | append_singleton after e ih =>
    rw [← List.append_assoc, place_concat] at hword
    exact ih (Option.isSome_of_isSome_bind hword)

/-- A letter that leads into `B`, which no letter leaves and in which it is not said. -/
structure Once (p : Protocol S E) (e : E) (B : S → Prop) : Prop where
  start : ¬ B p.start
  stays : ∀ s e' s', B s → p.next s e' = some s' → B s'
  enters : ∀ s s', p.next s e = some s' → B s'
  silent : ∀ s, B s → p.next s e = none

variable [DecidableEq E]

/-- The letter has been said in `B` only, and once. -/
theorem Once.place {B : S → Prop} (h : p.Once e B) (hword : p.place word = some s) :
    word.count e ≤ 1 ∧ (0 < word.count e → B s) := by
  induction word using List.reverseRecOn generalizing s with
  | nil => simp
  | append_singleton word e' ih =>
    rw [place_concat, Option.bind_eq_some_iff] at hword
    obtain ⟨s₀, hs₀, hnext⟩ := hword
    obtain ⟨hle, hB⟩ := ih hs₀
    rw [List.count_append]
    by_cases he : e' = e
    · subst he
      have hnone : word.count e' = 0 := by
        by_contra hsome
        rw [h.silent s₀ (hB (Nat.pos_of_ne_zero hsome))] at hnext
        cases hnext
      rw [hnone]
      exact ⟨by simp, fun _ => h.enters s₀ s hnext⟩
    · rw [List.count_singleton, if_neg (by simpa using he), Nat.add_zero]
      exact ⟨hle, fun hpos => h.stays s₀ e' s (hB hpos) hnext⟩

/-- **Said at most once.** -/
theorem Once.count_le_one {B : S → Prop} (h : p.Once e B) (hword : p.place word = some s) :
    word.count e ≤ 1 := (h.place hword).1

end Protocol

/-! ## Conversations -/

section conversations

variable {L K E : Type} [DecidableEq K] {read : L → Option (K × E)} {log : List L} {k k' : K}
  {l : L} {e : E}

/-- The word of a conversation. -/
def said (read : L → Option (K × E)) (log : List L) (k : K) : List E :=
  log.filterMap fun l => (read l).bind fun x => if x.1 = k then some x.2 else none

theorem said_concat_of_read (h : read l = some (k, e)) :
    said read (log ++ [l]) k = said read log k ++ [e] := by
  simp [said, List.filterMap_append, h]

theorem said_concat_of_ne (h : read l = some (k, e)) (hk : k' ≠ k) :
    said read (log ++ [l]) k' = said read log k' := by
  simp [said, List.filterMap_append, h, hk.symm]

theorem said_concat_of_unread (h : read l = none) :
    said read (log ++ [l]) k = said read log k := by
  simp [said, List.filterMap_append, h]

end conversations

/-! ## Programs that speak -/

namespace Fallible

variable {ρ ε σ α β S K : Type} [DecidableEq K]

/-- From a state with the places `P`, but `s` in the conversation `k`, the program moves `k` alone:
on return to a place with `Q`, on a throw to one with `X`. -/
def Speaks (view : σ → K → Option S) (P : K → Option S) (k : K) (m : Prog ρ ε σ α) (r : ρ) (s : S)
    (Q : α → S → Prop) (X : ε → S → Prop) : Prop :=
  EnsuresVia view m r (Function.update P k (some s))
    (fun a places => ∃ s', places = Function.update P k (some s') ∧ Q a s')
    fun e places => ∃ s', places = Function.update P k (some s') ∧ X e s'

namespace Speaks

variable {view : σ → K → Option S} {P : K → Option S} {k : K} {m : Prog ρ ε σ α} {r : ρ} {s : S}
  {Q Q' : α → S → Prop} {X X' : ε → S → Prop}

theorem mono (h : Speaks view P k m r s Q X) (hQ : ∀ a s', Q a s' → Q' a s')
    (hX : ∀ e s', X e s' → X' e s') : Speaks view P k m r s Q' X' := by
  refine EnsuresVia.mono h ?_ ?_
  · rintro a places ⟨s', hplaces, ha⟩
    exact ⟨s', hplaces, hQ a s' ha⟩
  · rintro e places ⟨s', hplaces, he⟩
    exact ⟨s', hplaces, hX e s' he⟩

/-- A program that leaves all places. -/
theorem quiet (h : ∀ places, EnsuresVia view m r places (fun _ places' => places' = places)
      fun _ places' => places' = places) (hQ : ∀ a, Q a s) (hX : ∀ e, X e s) :
    Speaks view P k m r s Q X :=
  (h _).mono (fun a _ ha => ⟨s, ha, hQ a⟩) fun e _ he => ⟨s, he, hX e⟩

theorem pure {a : α} (h : Q a s) : Speaks view P k (Pure.pure a) r s Q X :=
  EnsuresVia.pure ⟨s, rfl, h⟩

theorem throw {e : ε} (h : X e s) : Speaks view P k (MonadExcept.throw e) r s Q X :=
  EnsuresVia.throw ⟨s, rfl, h⟩

theorem bind {f : α → Prog ρ ε σ β} {Q : β → S → Prop}
    (h : Speaks view P k m r s (fun a s' => Speaks view P k (f a) r s' Q X) X) :
    Speaks view P k (m >>= f) r s Q X := by
  refine EnsuresVia.bind (EnsuresVia.mono h ?_ fun _ _ he => he)
  rintro a places ⟨s', rfl, ha⟩
  exact ha

theorem tryCatch {f : ε → Prog ρ ε σ α}
    (h : Speaks view P k m r s Q fun e s' => Speaks view P k (f e) r s' Q X) :
    Speaks view P k (MonadExcept.tryCatch m f) r s Q X := by
  refine EnsuresVia.tryCatch (EnsuresVia.mono h (fun _ _ ha => ha) ?_)
  rintro e places ⟨s', rfl, he⟩
  exact he

theorem ite {c : Prop} [Decidable c] {m' : Prog ρ ε σ α} (h : c → Speaks view P k m r s Q X)
    (h' : ¬ c → Speaks view P k m' r s Q X) : Speaks view P k (if c then m else m') r s Q X :=
  EnsuresVia.ite h h'

theorem map {f : α → β} {Q : β → S → Prop} (h : Speaks view P k m r s (fun a s' => Q (f a) s') X) :
    Speaks view P k (f <$> m) r s Q X := by
  rw [map_eq_pure_bind]
  exact .bind (h.mono (fun _ _ ha => .pure ha) fun _ _ he => he)

end Speaks

end Fallible
