import Muduo.Lib.Outcome

/-!
# `Lib.Loop` — `while` loops that need not terminate

The body of a loop either leaves the loop or goes on to another iteration, unless it faults. `run body fuel s`
executes at most `fuel` iterations from `s` and is `none` when these are not enough; a loop `Returns` when some
fuel is. More fuel never changes a result, so what a loop returns is determined.

The proof rules are `returns_of_measure`, `run_of_measure` and `run_safe`, by which a loop whose iterations decrease a
measure under an invariant returns, and `not_returns_of_inv`, by which a loop that can always go on does not.
-/

namespace Lib.Loop

universe u

/-- How an iteration ends. -/
inductive Step (σ : Type u) where
  /-- The condition fails, or the body executes `break`. -/
  | leave (s : σ)
  | again (s : σ)
deriving DecidableEq, Repr

variable {σ : Type u} {body : σ → Outcome (Step σ)} {s s' : σ} {r : Outcome σ} {n : Nat}

/-- At most `fuel` iterations. -/
def run (body : σ → Outcome (Step σ)) : Nat → σ → Option (Outcome σ)
  | 0, _ => none
  | fuel + 1, s =>
      match body s with
      | .ok (.leave s') => some (.ok s')
      | .ok (.again s') => run body fuel s'
      | .error e => some (.error e)

/-- The loop ends, with result `r`. -/
def Returns (body : σ → Outcome (Step σ)) (s : σ) (r : Outcome σ) : Prop := ∃ fuel, run body fuel s = some r

theorem run_leave (h : body s = .ok (.leave s')) : run body (n + 1) s = some (.ok s') := by
  rw [run, h]

theorem run_again (h : body s = .ok (.again s')) : run body (n + 1) s = run body n s' := by
  rw [run, h]

theorem run_error {e : Fault} (h : body s = .error e) : run body (n + 1) s = some (.error e) := by
  rw [run, h]

/-- What follows a call, if it returns. -/
def andThen {α β : Type u} (x : Option (Outcome α)) (f : α → Option (Outcome β)) : Option (Outcome β) :=
  match x with
  | some (.ok a) => f a
  | some (.error e) => some (.error e)
  | none => none

@[simp] theorem ok_andThen {α β : Type u} (a : α) (f : α → Option (Outcome β)) :
    andThen (some (.ok a)) f = f a := rfl

@[simp] theorem error_andThen {α β : Type u} (e : Fault) (f : α → Option (Outcome β)) :
    andThen (some (.error e)) f = some (.error e) := rfl

/-- The states in which an iteration starts. -/
inductive Visits (body : σ → Outcome (Step σ)) : σ → σ → Prop where
  | start {a : σ} : Visits body a a
  | next {a b c : σ} : Visits body a b → body b = .ok (.again c) → Visits body a c

/-- **The loop invariant rule.** -/
theorem Visits.inv {I : σ → Prop} (hstep : ∀ s s', I s → body s = .ok (.again s') → I s')
    (h : Visits body s s') (hs : I s) : I s' := by
  induction h with
  | start => exact hs
  | next _ hbody ih => exact hstep _ _ ih hbody

/-- **The termination rule.** -/
theorem returns_of_measure {I : σ → Prop} (μ : σ → Nat)
    (hstep : ∀ s, I s → (∃ s', body s = .ok (.leave s')) ∨
      ∃ s', body s = .ok (.again s') ∧ I s' ∧ μ s' < μ s)
    (hs : I s) : ∃ s', Returns body s (.ok s') := by
  induction hμ : μ s using Nat.strong_induction_on generalizing s with
  | _ k ih =>
      rcases hstep s hs with ⟨s', hbody⟩ | ⟨s', hbody, hs', hlt⟩
      · exact ⟨s', 1, run_leave hbody⟩
      · obtain ⟨s'', fuel, hrun⟩ := ih (μ s') (hμ ▸ hlt) hs' rfl
        exact ⟨s'', fuel + 1, (run_again hbody).trans hrun⟩

/-- **The total correctness rule**: with fuel for the measure, the loop ends in a state that satisfies `Q`. -/
theorem run_of_measure {I Q : σ → Prop} (μ : σ → Nat)
    (hstep : ∀ s, I s → (∃ s', body s = .ok (.leave s') ∧ Q s') ∨
      ∃ s', body s = .ok (.again s') ∧ I s' ∧ μ s' < μ s)
    (hs : I s) (hfuel : μ s < n) : ∃ s', run body n s = some (.ok s') ∧ Q s' := by
  induction n generalizing s with
  | zero => exact absurd hfuel (Nat.not_lt_zero _)
  | succ n ih =>
      rcases hstep s hs with ⟨s', hbody, hQ⟩ | ⟨s', hbody, hs', hlt⟩
      · exact ⟨s', run_leave hbody, hQ⟩
      · obtain ⟨s'', hrun, hQ⟩ := ih hs' (lt_of_lt_of_le hlt (Nat.le_of_lt_succ hfuel))
        exact ⟨s'', (run_again hbody).trans hrun, hQ⟩

/-- What holds after an iteration: `Q` if the loop is left, and `R` if it goes on. -/
def Step.Ends (Q R : σ → Prop) : Step σ → Prop
  | .leave s => Q s
  | .again s => R s

/-- **The total correctness rule**, for an iteration that may throw. -/
theorem run_safe {I Q : σ → Prop} (μ : σ → Nat)
    (hstep : ∀ s, I s → Safe (body s) (Step.Ends Q fun s' => I s' ∧ μ s' < μ s)) (hs : I s) (hfuel : μ s < n) :
    ∃ r, run body n s = some r ∧ Safe r Q := by
  induction n generalizing s with
  | zero => exact absurd hfuel (Nat.not_lt_zero _)
  | succ n ih =>
      have hbody := hstep s hs
      rw [run]
      cases h : body s with
      | error e =>
          rw [h] at hbody
          cases hbody
          exact ⟨_, rfl, .throws⟩
      | ok step =>
          have hends := hbody.of_eq_ok h
          cases step with
          | leave s' => exact ⟨_, rfl, .ok hends⟩
          | again s' => exact ih hends.1 (lt_of_lt_of_le hends.2 (Nat.le_of_lt_succ hfuel))

/-- **The divergence rule.** -/
theorem not_returns_of_inv {I : σ → Prop} (hstep : ∀ s, I s → ∃ s', body s = .ok (.again s') ∧ I s')
    (hs : I s) : ¬ Returns body s r := by
  rintro ⟨fuel, hrun⟩
  induction fuel generalizing s with
  | zero => exact absurd hrun (by simp [run])
  | succ fuel ih =>
      obtain ⟨s', hbody, hs'⟩ := hstep s hs
      rw [run_again hbody] at hrun
      exact ih hs' hrun

end Lib.Loop
