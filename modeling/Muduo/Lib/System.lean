import Muduo.Lib.Outcome

/-!
# `Lib.System` — guarded transition systems over faulting steps

A `System` separates what the environment *may* ask for (`enabled`) from what the program *does* when asked
(`exec`, which may fault). A state is `Reachable` when a finite sequence of enabled actions that all returned
leads to it from an initial state.

The proof rules are `System.keeps` and `System.inv`: an invariant that holds initially holds in every reachable
state if every action that returns keeps it, and in particular if its preservation is stated with `Safe`.
`System.when` restricts a system to the actions that meet a side condition. `Path` and `ReachedBy` remember the
actions that led to a state; `perform` takes them.
-/

namespace Lib

/-- Initial states, the actions each state admits, and the effect of an action. -/
structure System (σ α : Type*) where
  init : σ → Prop
  enabled : σ → α → Prop
  exec : σ → α → Outcome σ

namespace System

variable {σ α : Type*}

/-- One action: it was enabled and it returned. -/
def Step (S : System σ α) (s : σ) (a : α) (s' : σ) : Prop :=
  S.enabled s a ∧ S.exec s a = .ok s'

/-- The states reached by finitely many actions that all returned. -/
inductive Reachable (S : System σ α) : σ → Prop where
  | init {s} : S.init s → Reachable S s
  | step {s a s'} : Reachable S s → S.Step s a s' → Reachable S s'

/-- One more action, given by name. -/
theorem Reachable.next {S : System σ α} {s s' : σ} (h : S.Reachable s) (a : α) (ha : S.enabled s a)
    (hs : S.exec s a = .ok s') : S.Reachable s' :=
  .step h ⟨ha, hs⟩

/-- The same system, with only the actions that meet `C` in the state they are taken in. -/
def when (S : System σ α) (C : σ → α → Prop) : System σ α :=
  { S with enabled := fun s a => S.enabled s a ∧ C s a }

instance when.decidableEnabled (S : System σ α) (C : σ → α → Prop) [∀ s, DecidablePred (S.enabled s)]
    [∀ s, DecidablePred (C s)] (s : σ) : DecidablePred ((S.when C).enabled s) :=
  fun a => inferInstanceAs (Decidable (S.enabled s a ∧ C s a))

theorem Reachable.of_when {S : System σ α} {C : σ → α → Prop} {s : σ} (h : (S.when C).Reachable s) :
    S.Reachable s := by
  induction h with
  | init hs => exact .init hs
  | step _ hs ih => exact ih.step ⟨hs.1.1, hs.2⟩

/-- **The invariant rule**, for actions that may fault. -/
theorem keeps {S : System σ α} {I : σ → Prop} (h0 : ∀ s, S.init s → I s)
    (hstep : ∀ s a s', I s → S.enabled s a → S.exec s a = .ok s' → I s') {s : σ} (h : S.Reachable s) : I s := by
  induction h with
  | init hs => exact h0 _ hs
  | step _ hs ih => exact hstep _ _ _ ih hs.1 hs.2

/-- **The invariant rule**, for actions that are safe. -/
theorem inv {S : System σ α} {I : σ → Prop} (h0 : ∀ s, S.init s → I s)
    (hstep : ∀ s a, I s → S.enabled s a → Safe (S.exec s a) I) {s : σ} (h : S.Reachable s) : I s :=
  keeps h0 (fun _ _ _ hs ha hs' => (hstep _ _ hs ha).of_eq_ok hs') h

/-! ## The actions of a run -/

/-- The actions of the list lead from one state to another, and all of them returned. -/
inductive Path (S : System σ α) (s₀ : σ) : List α → σ → Prop where
  | nil : Path S s₀ [] s₀
  | snoc {as s a s'} : Path S s₀ as s → S.Step s a s' → Path S s₀ (as ++ [a]) s'

namespace Path

variable {S : System σ α} {s₀ s s' : σ} {as bs : List α}

/-- One more action, given by name. -/
theorem next (h : S.Path s₀ as s) (a : α) (ha : S.enabled s a) (hs : S.exec s a = .ok s') :
    S.Path s₀ (as ++ [a]) s' :=
  .snoc h ⟨ha, hs⟩

theorem trans (h : S.Path s₀ as s) (h' : S.Path s bs s') : S.Path s₀ (as ++ bs) s' := by
  induction h' with
  | nil => rwa [List.append_nil]
  | snoc _ hs ih =>
      rw [← List.append_assoc]
      exact ih.snoc hs

end Path

/-- The actions of the list, one after the other, as far as they are enabled and return. -/
def perform (S : System σ α) [∀ s, DecidablePred (S.enabled s)] : σ → List α → Option σ
  | s, [] => some s
  | s, a :: as =>
      if S.enabled s a then
        match S.exec s a with
        | .ok s' => S.perform s' as
        | .error _ => none
      else none

theorem Path.of_perform {S : System σ α} [∀ s, DecidablePred (S.enabled s)] {s s' : σ} {as : List α}
    (h : S.perform s as = some s') : S.Path s as s' := by
  induction as generalizing s with
  | nil =>
      obtain rfl := Option.some.inj h
      exact .nil
  | cons a as ih =>
      rw [perform] at h
      split_ifs at h with ha
      cases hexec : S.exec s a with
      | error e =>
          rw [hexec] at h
          cases h
      | ok s₁ =>
          rw [hexec] at h
          exact (Path.nil.next a ha hexec).trans (ih h)

/-- A path that can be taken, to a state of which `P` can be computed. -/
theorem Path.exists_of_perform (S : System σ α) [∀ s, DecidablePred (S.enabled s)] {s : σ} (as : List α)
    {P : σ → Prop} [DecidablePred P] (h : ((S.perform s as).any fun s' => P s') = true) :
    ∃ s', S.Path s as s' ∧ P s' := by
  obtain ⟨s', hs', hP⟩ := (Option.any_eq_true _ _).mp h
  exact ⟨s', .of_perform hs', of_decide_eq_true hP⟩

/-- The states reached by the actions of the list. -/
def ReachedBy (S : System σ α) (as : List α) (s : σ) : Prop := ∃ s₀, S.init s₀ ∧ S.Path s₀ as s

variable {S : System σ α} {as : List α} {s s' : σ}

theorem ReachedBy.init (h : S.init s) : S.ReachedBy [] s := ⟨s, h, .nil⟩

/-- A run that can be taken from an initial state, to a state of which `P` can be computed. -/
theorem ReachedBy.exists_of_perform (S : System σ α) [∀ s, DecidablePred (S.enabled s)] (as : List α)
    {P : σ → Prop} [DecidablePred P] (h : S.init s) (has : ((S.perform s as).any fun s' => P s') = true) :
    ∃ s', S.ReachedBy as s' ∧ P s' := by
  obtain ⟨s', hpath, hP⟩ := Path.exists_of_perform S as has
  exact ⟨s', ⟨s, h, hpath⟩, hP⟩

/-- One more action, given by name. -/
theorem ReachedBy.next (h : S.ReachedBy as s) (a : α) (ha : S.enabled s a) (hs : S.exec s a = .ok s') :
    S.ReachedBy (as ++ [a]) s' := by
  obtain ⟨s₀, h0, hpath⟩ := h
  exact ⟨s₀, h0, hpath.snoc ⟨ha, hs⟩⟩

/-- **The invariant rule**, for a relation between a state and the actions that lead there. -/
theorem Path.keeps {s₀ : σ} {I : List α → σ → Prop} (h0 : I [] s₀)
    (hstep : ∀ as s a s', I as s → S.enabled s a → S.exec s a = .ok s' → I (as ++ [a]) s') (h : S.Path s₀ as s) :
    I as s := by
  induction h with
  | nil => exact h0
  | snoc _ hs ih => exact hstep _ _ _ _ ih hs.1 hs.2

theorem ReachedBy.keeps {I : List α → σ → Prop} (h0 : ∀ s, S.init s → I [] s)
    (hstep : ∀ as s a s', I as s → S.enabled s a → S.exec s a = .ok s' → I (as ++ [a]) s')
    (h : S.ReachedBy as s) : I as s := by
  obtain ⟨s₀, hs₀, hpath⟩ := h
  exact hpath.keeps (h0 s₀ hs₀) hstep

/-- A path goes on from a reachable state. -/
theorem Reachable.path (h : S.Reachable s) (hpath : S.Path s as s') : S.Reachable s' := by
  induction hpath with
  | nil => exact h
  | snoc _ hs ih => exact ih.step hs

theorem ReachedBy.reachable (h : S.ReachedBy as s) : S.Reachable s := by
  obtain ⟨s₀, h0, hpath⟩ := h
  exact (Reachable.init h0).path hpath

end System

end Lib
