import Mathlib.Tactic

/-!
# `Lib.Outcome` — calls that may fail an assertion, throw, or touch a dead object

A C++ call is modelled as a pure function into `Outcome α = Except Fault α`. The three faults are kept
apart because they mean different things: a failed `assert` and an access outside a live object are
defects, whereas a standard container that cannot grow *throws*, which is documented behaviour.

`Safe x P` is the postcondition judgement used throughout: `x` commits no defect, and if it returns then
its value satisfies `P`. Its rules (`Safe.bind`, `Safe.assert`, `Safe.mono`) let a proof follow
the shape of the program without unfolding the monad.
-/

namespace Lib

universe u

/-- How a call can fail to return a value. -/
inductive Fault where
  /-- An `assert` evaluated to false. -/
  | assertion
  /-- A standard container was asked to grow beyond `max_size()`; it throws `std::length_error`. -/
  | lengthError
  /-- An access outside a live object: a dangling pointer, a range overrun, a second `delete`. -/
  | badAccess
deriving DecidableEq, Repr

abbrev Outcome (α : Type u) := Except Fault α

/-- `assert(p)`. -/
def assert (p : Prop) [Decidable p] : Outcome Unit := if p then .ok () else .error .assertion

variable {α β : Type u}

/-! ## Running a computation apart -/

theorem bind_eq_ok {x : Outcome α} {f : α → Outcome β} {r : β} :
    (x >>= f) = .ok r ↔ ∃ a, x = .ok a ∧ f a = .ok r := by
  cases x with
  | error e => simp [Bind.bind, Except.bind]
  | ok a => simp [Bind.bind, Except.bind]

@[simp] theorem ok_bind (a : α) (f : α → Outcome β) : ((Except.ok a : Outcome α) >>= f) = f a := rfl

@[simp] theorem bind_ok (x : Outcome α) : (x >>= fun a => .ok a) = x := by
  cases x <;> rfl

theorem ok_ne_error (a : α) (e : Fault) : (Except.ok a : Outcome α) ≠ .error e := nofun

theorem assert_pos {p : Prop} [Decidable p] (h : p) : assert p = .ok () := if_pos h

theorem assert_neg {p : Prop} [Decidable p] (h : ¬ p) : assert p = .error .assertion := if_neg h

theorem of_assert {p : Prop} [Decidable p] {u : Unit} (h : assert p = .ok u) : p := by
  by_contra hp
  rw [assert_neg hp] at h
  cases h

/-- The call returns a value that satisfies `P`. For a concrete call this can be computed. -/
def Returns (x : Outcome α) (P : α → Prop) : Prop := ∃ a, x = .ok a ∧ P a

instance Returns.decidable (x : Outcome α) (P : α → Prop) [DecidablePred P] : Decidable (Returns x P) :=
  match x with
  | .ok a => decidable_of_iff (P a) ⟨fun h => ⟨a, rfl, h⟩, fun ⟨_, ha, h⟩ => Except.ok.inj ha ▸ h⟩
  | .error _ => isFalse fun ⟨_, ha, _⟩ => nomatch ha

/-! ## The postcondition judgement -/

/-- `x` commits no defect, and if it returns a value then the value satisfies `P`. Throwing is allowed.
    An inductive predicate, so that no elaboration step tries to evaluate `x`. -/
inductive Safe : Outcome α → (α → Prop) → Prop where
  | ok {a : α} {P : α → Prop} : P a → Safe (.ok a) P
  | throws {P : α → Prop} : Safe (.error .lengthError) P

namespace Safe

variable {x : Outcome α} {P Q : α → Prop} {R : β → Prop}

/-- **Sequencing.** The continuation is only entered with a value that satisfies the first postcondition. -/
theorem bind {f : α → Outcome β} (hx : Safe x P) (hf : ∀ a, P a → Safe (f a) R) :
    Safe (x >>= f) R := by
  cases hx with
  | ok ha => exact hf _ ha
  | throws => exact throws

theorem assert {p : Prop} [Decidable p] (h : p) : Safe (Lib.assert p) (fun _ => p) := by
  rw [assert_pos h]; exact ok h

theorem mono (hx : Safe x P) (h : ∀ a, P a → Q a) : Safe x Q := by
  cases hx with
  | ok ha => exact ok (h _ ha)
  | throws => exact throws

/-- The postcondition may use that the value was returned. -/
theorem attach (hx : Safe x P) : Safe x (fun a => x = .ok a ∧ P a) := by
  cases hx with
  | ok ha => exact ok ⟨rfl, ha⟩
  | throws => exact throws

/-- A value that was returned satisfies the postcondition. -/
theorem of_eq_ok {a : α} (h : Safe x P) (hx : x = .ok a) : P a := by
  subst hx
  cases h with
  | ok ha => exact ha

/-- A computation that is safe and does not throw returns. -/
theorem exists_ok (h : Safe x P) (hx : x ≠ .error .lengthError) : ∃ a, x = .ok a ∧ P a := by
  cases h with
  | ok ha => exact ⟨_, rfl, ha⟩
  | throws => exact absurd rfl hx

theorem ne_assertion (h : Safe x P) : x ≠ .error .assertion := by
  intro hx
  subst hx
  nomatch h

theorem ne_badAccess (h : Safe x P) : x ≠ .error .badAccess := by
  intro hx
  subst hx
  nomatch h

end Safe

end Lib
