import Mathlib.Tactic
import Muduo.Lib.Loop

/-!
# `Lib.Consumer` — incremental consumers of a stream

A consumer looks at the input that has arrived and not been consumed, and either waits for more of it, goes on
in another state with less of it, or halts. The laws of a `Consumer` say that what it does with an input it
does with every longer one: only waiting can be changed by what arrives later.

`run` lets a consumer go on for as long as it can, and `resume` does so again when more has arrived. The main
result is `run_append`: how the input is cut does not matter, neither for where the consumer ends nor for what it
leaves.
-/

namespace Lib

universe u v w

/-- What a consumer does with an input. -/
inductive Turn (σ : Type u) (ρ : Type v) (α : Type w) where
  | wait
  | more (s : σ) (rest : List α)
  | halt (r : ρ) (rest : List α)

/-- Where a consumer is: it can take more input, or it has halted. -/
inductive Progress (σ : Type u) (ρ : Type v) where
  | pending (s : σ)
  | halted (r : ρ)

/-- A consumer with states `σ` and results `ρ`. -/
structure Consumer (σ : Type u) (ρ : Type v) (α : Type w) where
  turn : σ → List α → Turn σ ρ α
  shrinks : ∀ {s s' l rest}, turn s l = .more s' rest → rest.length < l.length
  more_append : ∀ {s s' l rest}, turn s l = .more s' rest → ∀ d, turn s (l ++ d) = .more s' (rest ++ d)
  halt_append : ∀ {s r l rest}, turn s l = .halt r rest → ∀ d, turn s (l ++ d) = .halt r (rest ++ d)

namespace Consumer

variable {σ : Type u} {ρ : Type v} {α : Type w} (C : Consumer σ ρ α) {s s' : σ} {r : ρ} {l rest : List α}

/-- The consumer goes on until it waits or halts; with it comes what it has not consumed. -/
def run (s : σ) (l : List α) : Progress σ ρ × List α :=
  match h : C.turn s l with
  | .wait => (.pending s, l)
  | .more s' rest =>
      have := C.shrinks h
      run s' rest
  | .halt r rest => (.halted r, rest)
termination_by l.length

/-- The same, from where the consumer is. -/
def resume : Progress σ ρ → List α → Progress σ ρ × List α
  | .pending s, l => C.run s l
  | .halted r, l => (.halted r, l)

variable {C}

theorem run_wait (h : C.turn s l = .wait) : C.run s l = (.pending s, l) := by
  unfold run
  split
  · rfl
  · next h' => exact absurd (h.symm.trans h') (by simp)
  · next h' => exact absurd (h.symm.trans h') (by simp)

theorem run_more (h : C.turn s l = .more s' rest) : C.run s l = C.run s' rest := by
  rw [run]
  split
  · next h' => exact absurd (h.symm.trans h') (by simp)
  · next s₁ rest₁ h' =>
      obtain ⟨rfl, rfl⟩ := Turn.more.inj (h.symm.trans h')
      rfl
  · next h' => exact absurd (h.symm.trans h') (by simp)

theorem run_halt (h : C.turn s l = .halt r rest) : C.run s l = (.halted r, rest) := by
  unfold run
  split
  · next h' => exact absurd (h.symm.trans h') (by simp)
  · next h' => exact absurd (h.symm.trans h') (by simp)
  · next r₁ rest₁ h' =>
      obtain ⟨rfl, rfl⟩ := Turn.halt.inj (h.symm.trans h')
      rfl

/-- **What arrives later**: it is as if it had been there from the start. -/
theorem run_append (s : σ) (l d : List α) :
    C.run s (l ++ d) = C.resume (C.run s l).1 ((C.run s l).2 ++ d) := by
  induction s, l using run.induct C with
  | case1 s l h =>
      rw [run_wait h]
      rfl
  | case2 s l s' rest h _ ih => rw [run_more h, run_more (C.more_append h d), ih]
  | case3 s l r rest h =>
      rw [run_halt h, run_halt (C.halt_append h d)]
      rfl

/-- A consumer that has halted keeps its result, and leaves what arrives. -/
theorem run_halted_append (h : C.run s l = (.halted r, rest)) (d : List α) :
    C.run s (l ++ d) = (.halted r, rest ++ d) := by
  rw [run_append, h]
  rfl

/-- A consumer that waits goes on from where it is. -/
theorem run_pending_append (h : C.run s l = (.pending s', rest)) (d : List α) :
    C.run s (l ++ d) = C.run s' (rest ++ d) := by
  rw [run_append, h]
  rfl

/-- A consumer that waits would not go on. -/
theorem run_rest (h : C.run s l = (.pending s', rest)) : C.run s' rest = (.pending s', rest) := by
  have hmore := run_pending_append h []
  rw [List.append_nil, List.append_nil, h] at hmore
  exact hmore.symm

theorem length_le_of_pending (h : C.run s l = (.pending s', rest)) : rest.length ≤ l.length := by
  induction s, l using run.induct C with
  | case1 s l hturn =>
      rw [run_wait hturn] at h
      exact (congrArg List.length (Prod.mk.inj h).2).ge
  | case2 s l s₁ rest₁ hturn _ ih =>
      rw [run_more hturn] at h
      exact (ih h).trans (C.shrinks hturn).le
  | case3 s l r rest₁ hturn =>
      rw [run_halt hturn] at h
      cases h

/-- A consumer that gives nothing back when it halts leaves no more than there was. -/
theorem length_resume_le (hhalt : ∀ {s r l rest}, C.turn s l = .halt r rest → rest.length ≤ l.length)
    (x : Progress σ ρ) (l : List α) : (C.resume x l).2.length ≤ l.length := by
  cases x with
  | halted r => exact Nat.le_refl _
  | pending s =>
      show (C.run s l).2.length ≤ l.length
      induction s, l using run.induct C with
      | case1 s l hturn => rw [run_wait hturn]
      | case2 s l s₁ rest₁ hturn _ ih =>
          rw [run_more hturn]
          exact ih.trans (C.shrinks hturn).le
      | case3 s l r rest₁ hturn =>
          rw [run_halt hturn]
          exact hhalt hturn

/-! ## In pieces -/

/-- The input arrives in pieces, and the consumer goes on after each of them. -/
def feed (C : Consumer σ ρ α) (x : Progress σ ρ × List α) : List (List α) → Progress σ ρ × List α
  | [] => x
  | piece :: pieces => C.feed (C.resume x.1 (x.2 ++ piece)) pieces

/-- **How the input is cut does not matter.** -/
theorem feed_run (s : σ) (l : List α) (pieces : List (List α)) :
    C.feed (C.run s l) pieces = C.run s (l ++ pieces.flatten) := by
  induction pieces generalizing l with
  | nil => rw [List.flatten_nil, List.append_nil, feed]
  | cons piece pieces ih => rw [feed, ← run_append, ih, List.append_assoc, List.flatten_cons]

/-! ## A loop that consumes -/

section Loop

variable {τ : Type} {body : τ → Outcome (Loop.Step τ)} {R : σ → List α → τ → Prop}
variable {E : Progress σ ρ → List α → τ → Prop} {t : τ} {fuel : Nat}

/-- One iteration is one turn: `R` holds before it, and `E` when the loop is left. -/
def Turns (C : Consumer σ ρ α) (body : τ → Outcome (Loop.Step τ)) (R : σ → List α → τ → Prop)
    (E : Progress σ ρ → List α → τ → Prop) (s : σ) (l : List α) (t : τ) : Prop :=
  match C.turn s l with
  | .wait => ∃ t', body t = .ok (.leave t') ∧ E (.pending s) l t'
  | .more s' rest => ∃ t', body t = .ok (.again t') ∧ R s' rest t'
  | .halt r rest => ∃ t', body t = .ok (.leave t') ∧ E (.halted r) rest t'

/-- **The rule for a loop whose iterations are turns**: it ends where the consumer does. -/
theorem loop (hbody : ∀ s l t, R s l t → C.Turns body R E s l t) (h : R s l t) (hfuel : l.length < fuel) :
    ∃ t', Loop.run body fuel t = some (.ok t') ∧ E (C.run s l).1 (C.run s l).2 t' := by
  induction s, l using run.induct C generalizing t fuel with
  | case1 s l hturn =>
      obtain ⟨fuel, rfl⟩ := Nat.exists_eq_succ_of_ne_zero (Nat.ne_of_gt (Nat.zero_lt_of_lt hfuel))
      have hleave := hbody s l t h
      rw [Turns, hturn] at hleave
      obtain ⟨t', hleave, hE⟩ := hleave
      rw [run_wait hturn]
      exact ⟨t', Loop.run_leave hleave, hE⟩
  | case2 s l s' rest hturn hlen ih =>
      obtain ⟨fuel, rfl⟩ := Nat.exists_eq_succ_of_ne_zero (Nat.ne_of_gt (Nat.zero_lt_of_lt hfuel))
      have hagain := hbody s l t h
      rw [Turns, hturn] at hagain
      obtain ⟨t₁, hagain, hR⟩ := hagain
      obtain ⟨t', hrun, hE⟩ := ih hR (lt_of_lt_of_le hlen (Nat.le_of_lt_succ hfuel))
      rw [run_more hturn]
      exact ⟨t', (Loop.run_again hagain).trans hrun, hE⟩
  | case3 s l r rest hturn =>
      obtain ⟨fuel, rfl⟩ := Nat.exists_eq_succ_of_ne_zero (Nat.ne_of_gt (Nat.zero_lt_of_lt hfuel))
      have hleave := hbody s l t h
      rw [Turns, hturn] at hleave
      obtain ⟨t', hleave, hE⟩ := hleave
      rw [run_halt hturn]
      exact ⟨t', Loop.run_leave hleave, hE⟩

end Loop

end Consumer

end Lib
