import Muduo.Base.BlockingQueue

/-!
# `Base.Correctness.BlockingQueue` — every element has a taker on its way

The values taken are the first ones put, in their order. While a thread waits un-notified, each element in the queue
has a thread that was notified for it and did not resume yet; so when all of these have resumed, a thread that still
waits does so at an empty queue.
-/

namespace Muduo

open Lib

namespace BlockingQueue

variable {τ T : Type} {s : BlockingQueue τ T} {t : τ}

structure Shape (s : BlockingQueue τ T) : Prop where
  fifo : s.puts = s.takes.map Prod.snd ++ s.queue
  takers : ∀ t, s.notEmpty.Mem t → s.threads t = .waiting .take

structure Inv (s : BlockingQueue τ T) : Prop extends Shape s where
  elements : s.notEmpty.Covers s.size

variable [DecidableEq τ]

/-- `t` goes elsewhere, and the others stay where they are. -/
theorem Shape.takers_update (h : s.Shape) (p : QueuePoint T) (ht : ¬ s.notEmpty.Mem t) (v : τ)
    (hv : s.notEmpty.Mem v) : Function.update s.threads t p v = .waiting .take := by
  have hne : v ≠ t := by
    rintro rfl
    exact ht hv
  rw [Function.update_of_ne hne]
  exact h.takers v hv

theorem Inv.put (h : s.Inv) (x : T) {u : Option τ} (hpick : s.notEmpty.Picks u) : (s.put x u).Inv := by
  refine ⟨⟨?_, fun v hv => h.takers v ((Condition.mem_notify hpick).mp hv)⟩, ?_⟩
  · show s.puts ++ [x] = s.takes.map Prod.snd ++ (s.queue ++ [x])
    rw [h.fifo, List.append_assoc]
  · show (s.notEmpty.notify u).Covers (s.queue ++ [x]).length
    rw [List.length_append, List.length_singleton]
    exact h.elements.notify hpick

/-- A turn of `take`, by a thread that is not at the condition variable. It needs one element to be spoken for less
    than there are. -/
theorem Shape.take (h : s.Shape) (ht : ¬ s.notEmpty.Mem t) (he : s.notEmpty.Covers (s.size - 1)) :
    Safe (s.take t) Inv := by
  unfold BlockingQueue.take
  cases hq : s.queue with
  | nil =>
      -- the thread waits: there is no element
      refine Safe.ok ⟨⟨?_, ?_⟩, ?_⟩
      · rw [h.fifo, hq]
      · intro v hv
        rcases Condition.mem_wait.mp hv with rfl | hv
        · exact Function.update_self _ _ _
        · exact h.takers_update _ ht v hv
      · exact Condition.Covers.zero _
  | cons x rest =>
      have hsize : s.size - 1 = rest.length := by simp [size, hq]
      rw [hsize] at he
      simp only [List.isEmpty_cons, assert_pos, ok_bind, Bool.false_eq_true, if_false]
      refine Safe.ok ⟨⟨?_, h.takers_update _ ht⟩, he⟩
      rw [h.fifo, hq, List.map_append, List.append_assoc]
      rfl

/-- A step of a thread keeps the invariant, and no assertion fails. -/
theorem Inv.exec (h : s.Inv) {a : QueueAction τ T} (ha : s.enabled a) : Safe (s.exec a) Inv := by
  cases a with
  | call t call u =>
      cases call with
      | put x => exact Safe.ok (h.put x ha.2)
      | take =>
          have hidle : s.threads t = .idle := ha
          refine h.toShape.take ?_ (h.elements.mono (Nat.sub_le _ _))
          intro hmem
          rw [h.takers t hmem] at hidle
          cases hidle
  | spurious t => exact Safe.ok ⟨⟨h.fifo, fun v hv => h.takers v hv.of_spurious⟩, h.elements.spurious t⟩
  | resume t u =>
      have hshape : Shape { s with notEmpty := s.notEmpty.resume t } :=
        ⟨h.fifo, fun v hv => h.takers v ((Condition.mem_resume ha.1).mp hv).2⟩
      exact hshape.take (fun hmem => ((Condition.mem_resume ha.1).mp hmem).1 rfl) (h.elements.resume t)

theorem blockingSystem_inv (h : (blockingSystem τ T).Reachable s) : s.Inv := by
  refine System.inv (S := blockingSystem τ T) ?_ (fun _ _ hs ha => hs.exec ha) h
  rintro s rfl
  exact ⟨⟨rfl, fun t ht => absurd ht (Condition.not_mem_empty t)⟩, Condition.Covers.zero _⟩

/-- **A FIFO without lost wakeups.** For any threads and every interleaving: the values taken are the first ones put,
    in this order; while a thread waits un-notified, there are no more elements than threads that were notified and
    did not resume yet, so if none of these is left the queue is empty; a thread in `take` that resumes when there is
    an element returns the first one. No assertion fails. -/
theorem unbounded_fifo (h : (blockingSystem τ T).Reachable s) :
    s.puts = s.takes.map Prod.snd ++ s.queue ∧
      (s.notEmpty.waiting.Nonempty → s.size ≤ s.notEmpty.notified.card) ∧
      (s.notEmpty.waiting.Nonempty → s.notEmpty.notified = ∅ → s.queue = []) ∧
      (∀ t u x rest, s.enabled (.resume t u) → s.queue = x :: rest →
        ∃ s', s.exec (.resume t u) = .ok s' ∧ s'.takes = s.takes ++ [(t, x)] ∧ s'.queue = rest) ∧
      ∀ a, s.enabled a → Safe (s.exec a) fun _ => True := by
  have hinv := blockingSystem_inv h
  refine ⟨hinv.fifo, hinv.elements, fun hw hnone => ?_, fun t u x rest _ hq => ?_, fun a ha => ?_⟩
  · have hle := hinv.elements hw
    rw [hnone, Finset.card_empty] at hle
    exact List.length_eq_zero_iff.mp (Nat.le_zero.mp hle)
  · unfold BlockingQueue.exec BlockingQueue.take
    simp only [hq, List.isEmpty_cons, assert_pos, ok_bind, Bool.false_eq_true, if_false]
    exact ⟨_, rfl, rfl, rfl⟩
  · exact (hinv.exec ha).mono fun _ _ => trivial

/-- Two threads wait, two elements are put, and a third thread is there before those that were notified. -/
theorem unbounded_fifo_overtaken : ∃ s : BlockingQueue (Fin 4) Nat,
    s.takes = [(2, 7), (0, 8)] ∧ s.puts = s.takes.map Prod.snd ++ s.queue := by
  have h := (System.Reachable.init (S := blockingSystem (Fin 4) Nat) rfl)
    |>.next (.call 0 .take none) rfl rfl
    |>.next (.call 1 .take none) rfl rfl
    |>.next (.call 3 (.put 7) (some 1)) ⟨rfl, Finset.mem_insert_self _ _⟩ rfl
    |>.next (.call 2 .take none) rfl rfl
    |>.next (.resume 1 none) ⟨by decide, rfl⟩ rfl
    |>.next (.call 3 (.put 8) (some 0)) ⟨rfl, Finset.mem_insert_of_mem (by decide)⟩ rfl
    |>.next (.resume 0 none) ⟨by decide, rfl⟩ rfl
  exact ⟨_, rfl, (unbounded_fifo h).1⟩

end BlockingQueue

end Muduo
