import Muduo.Base.BoundedBlockingQueue

/-!
# `Base.Correctness.BoundedBlockingQueue` — a bounded FIFO without lost wakeups

What was put is what was taken and then what is in the queue. On either side, while a thread waits un-notified, each
unit it could use has a thread that was notified for it and is on its way: elements on the side of `take`, free slots
on the side of `put`. A thread that was notified may find its unit gone, but then whoever took it has reduced the
number of units as well, so the count still holds when the thread begins to wait again.
-/

namespace Muduo

open Lib

namespace CircularBuffer

variable {T : Type} {q : CircularBuffer T}

@[simp] theorem size_popFront (q : CircularBuffer T) : q.popFront.size = q.size - 1 := List.length_tail

theorem pushBack_elems (h : q.full = false) (x : T) : (q.pushBack x).elems = q.elems ++ [x] := by
  have hroom : q.size + 1 - q.capacity = 0 := by
    have hne : q.size ≠ q.capacity := by simpa [full] using h
    have hle : q.size ≤ q.capacity := q.bounded
    omega
  show (q.elems ++ [x]).drop (q.size + 1 - q.capacity) = _
  rw [hroom, List.drop_zero]

theorem size_pushBack (h : q.full = false) (x : T) : (q.pushBack x).size = q.size + 1 := by
  unfold size
  rw [pushBack_elems h, List.length_append, List.length_singleton]

theorem elems_of_not_empty (h : q.empty = false) : ∃ x, q.front = .ok x ∧ q.elems = x :: q.popFront.elems := by
  cases hq : q.elems with
  | nil => simp [empty, size, hq] at h
  | cons x xs => exact ⟨x, by simp [front, hq], by simp [popFront, hq]⟩

end CircularBuffer

namespace BoundedBlockingQueue

variable {τ T : Type} {s : BoundedBlockingQueue τ T} {cap : Nat} {t : τ}

/-- The elements, and which threads are at the condition variables. -/
structure Shape (cap : Nat) (s : BoundedBlockingQueue τ T) : Prop where
  capacity : s.queue.capacity = cap
  fifo : s.puts = s.takes ++ s.queue.elems
  takers : ∀ t, s.notEmpty.Mem t → s.threads t = .waiting .take
  putters : ∀ t, s.notFull.Mem t → ∃ x, s.threads t = .waiting (.put x)

structure Inv (cap : Nat) (s : BoundedBlockingQueue τ T) : Prop extends Shape cap s where
  elements : s.notEmpty.Covers s.queue.size
  slots : s.notFull.Covers (cap - s.queue.size)

variable [DecidableEq τ]

/-- `t` goes elsewhere, and the others stay where they are. -/
theorem Shape.takers_update (h : s.Shape cap) {c : Condition τ} (p : QueuePoint T)
    (hmem : ∀ v, c.Mem v → s.notEmpty.Mem v) (ht : ¬ s.notEmpty.Mem t) (v : τ) (hv : c.Mem v) :
    Function.update s.threads t p v = .waiting .take := by
  have hne : v ≠ t := by
    rintro rfl
    exact ht (hmem v hv)
  rw [Function.update_of_ne hne]
  exact h.takers v (hmem v hv)

theorem Shape.putters_update (h : s.Shape cap) {c : Condition τ} (p : QueuePoint T)
    (hmem : ∀ v, c.Mem v → s.notFull.Mem v) (ht : ¬ s.notFull.Mem t) (v : τ) (hv : c.Mem v) :
    ∃ x, Function.update s.threads t p v = .waiting (.put x) := by
  have hne : v ≠ t := by
    rintro rfl
    exact ht (hmem v hv)
  rw [Function.update_of_ne hne]
  exact h.putters v (hmem v hv)

/-- A turn of `put`, by a thread that is at no condition variable. It needs one slot to be spoken for less than
    there are. -/
theorem Shape.put (h : s.Shape cap) (x : T) {u : Option τ} (hpick : s.notEmpty.Picks u)
    (htaker : ¬ s.notEmpty.Mem t) (hputter : ¬ s.notFull.Mem t) (he : s.notEmpty.Covers s.queue.size)
    (hf : s.notFull.Covers (cap - s.queue.size - 1)) : Safe (s.put t x u) (Inv cap) := by
  unfold BoundedBlockingQueue.put
  cases hfull : s.queue.full with
  | true =>
      -- the thread waits: no slot is free, so none is to be spoken for
      refine Safe.ok ⟨⟨h.capacity, h.fifo, h.takers_update _ (fun _ => id) htaker, ?_⟩, he, ?_⟩
      · intro v hv
        rcases Condition.mem_wait.mp hv with rfl | hv
        · exact ⟨x, Function.update_self _ _ _⟩
        · exact h.putters_update _ (fun _ => id) hputter v hv
      · have hnone : cap - s.queue.size = 0 := by
          have hsize : s.queue.size = s.queue.capacity := by simpa [CircularBuffer.full] using hfull
          rw [hsize, h.capacity, Nat.sub_self]
        show (s.notFull.wait t).Covers (cap - s.queue.size)
        rw [hnone]
        exact Condition.Covers.zero _
  | false =>
      -- one element more, and one consumer is notified if any waits
      refine Safe.ok ⟨⟨h.capacity, ?_, ?_, h.putters_update _ (fun _ => id) hputter⟩, ?_, ?_⟩
      · show s.puts ++ [x] = s.takes ++ (s.queue.pushBack x).elems
        rw [CircularBuffer.pushBack_elems hfull, h.fifo, List.append_assoc]
      · exact h.takers_update _ (fun _ => (Condition.mem_notify hpick).mp) htaker
      · show (s.notEmpty.notify u).Covers (s.queue.pushBack x).size
        rw [CircularBuffer.size_pushBack hfull]
        exact he.notify hpick
      · show s.notFull.Covers (cap - (s.queue.pushBack x).size)
        rw [CircularBuffer.size_pushBack hfull]
        exact hf

/-- A turn of `take`, by a thread that is at no condition variable. -/
theorem Shape.take (h : s.Shape cap) {u : Option τ} (hpick : s.notFull.Picks u)
    (htaker : ¬ s.notEmpty.Mem t) (hputter : ¬ s.notFull.Mem t) (he : s.notEmpty.Covers (s.queue.size - 1))
    (hf : s.notFull.Covers (cap - s.queue.size)) : Safe (s.take t u) (Inv cap) := by
  unfold BoundedBlockingQueue.take
  cases hempty : s.queue.empty with
  | true =>
      -- the thread waits: there is no element
      refine Safe.ok ⟨⟨h.capacity, h.fifo, ?_, h.putters_update _ (fun _ => id) hputter⟩, ?_, hf⟩
      · intro v hv
        rcases Condition.mem_wait.mp hv with rfl | hv
        · exact Function.update_self _ _ _
        · exact h.takers_update _ (fun _ => id) htaker v hv
      · have hnone : s.queue.size = 0 := by simpa [CircularBuffer.empty] using hempty
        show (s.notEmpty.wait t).Covers s.queue.size
        rw [hnone]
        exact Condition.Covers.zero _
  | false =>
      -- one slot more, and one producer is notified if any waits
      obtain ⟨x, hfront, helems⟩ := CircularBuffer.elems_of_not_empty hempty
      simp only [hfront, ok_bind, assert_pos, Bool.false_eq_true, if_false]
      refine Safe.ok ⟨⟨h.capacity, ?_, h.takers_update _ (fun _ => id) htaker, ?_⟩, ?_, ?_⟩
      · show s.puts = (s.takes ++ [x]) ++ s.queue.popFront.elems
        rw [h.fifo, helems, List.append_assoc]
        rfl
      · exact h.putters_update _ (fun _ => (Condition.mem_notify hpick).mp) hputter
      · show s.notEmpty.Covers s.queue.popFront.size
        rw [CircularBuffer.size_popFront]
        exact he
      · have hsize : s.queue.size ≠ 0 := by simpa [CircularBuffer.empty] using hempty
        have hcap : s.queue.size ≤ cap := h.capacity ▸ s.queue.bounded
        show (s.notFull.notify u).Covers (cap - s.queue.popFront.size)
        rw [CircularBuffer.size_popFront]
        exact (hf.notify hpick).mono (by omega)

/-- A step of a thread keeps the invariant, and no assertion fails. -/
theorem Inv.exec (h : s.Inv cap) {a : QueueAction τ T} (ha : s.enabled a) : Safe (s.exec a) (Inv cap) := by
  -- a thread is at no condition variable but the one of its call
  have htaker : ∀ {t p}, s.threads t = p → p ≠ .waiting .take → ¬ s.notEmpty.Mem t := by
    intro t p ht hp hmem
    exact hp (ht.symm.trans (h.takers t hmem))
  have hputter : ∀ {t p}, s.threads t = p → (∀ x, p ≠ .waiting (.put x)) → ¬ s.notFull.Mem t := by
    intro t p ht hp hmem
    obtain ⟨x, hx⟩ := h.putters t hmem
    exact hp x (ht.symm.trans hx)
  cases a with
  | call t call u =>
      obtain ⟨hidle, hpick⟩ := ha
      have htaker := htaker hidle (by simp)
      have hputter := hputter hidle (by simp)
      cases call with
      | put x => exact h.toShape.put x hpick htaker hputter h.elements (h.slots.mono (Nat.sub_le _ _))
      | take => exact h.toShape.take hpick htaker hputter (h.elements.mono (Nat.sub_le _ _)) h.slots
  | spurious t =>
      refine Safe.ok ⟨⟨h.capacity, h.fifo, ?_, ?_⟩, h.elements.spurious t, h.slots.spurious t⟩
      · exact fun v hv => h.takers v hv.of_spurious
      · exact fun v hv => h.putters v hv.of_spurious
  | resume t u =>
      obtain ⟨hunnotified, hunnotified', call, ht, hpick⟩ := ha
      unfold BoundedBlockingQueue.exec
      simp only [ht]
      cases call with
      | put x =>
          have hshape : Shape cap { s with notFull := s.notFull.resume t } :=
            ⟨h.capacity, h.fifo, h.takers, fun v hv =>
              h.putters v ((Condition.mem_resume hunnotified').mp hv).2⟩
          refine hshape.put x hpick (htaker ht (by simp)) ?_ h.elements (h.slots.resume t)
          exact fun hmem => ((Condition.mem_resume hunnotified').mp hmem).1 rfl
      | take =>
          have hshape : Shape cap { s with notEmpty := s.notEmpty.resume t } :=
            ⟨h.capacity, h.fifo, fun v hv => h.takers v ((Condition.mem_resume hunnotified).mp hv).2, h.putters⟩
          refine hshape.take hpick ?_ (hputter ht (by simp)) (h.elements.resume t) h.slots
          exact fun hmem => ((Condition.mem_resume hunnotified).mp hmem).1 rfl

theorem queueSystem_inv (h : (queueSystem τ T cap).Reachable s) : s.Inv cap := by
  refine System.inv (S := queueSystem τ T cap) ?_ ?_ h
  · rintro s ⟨hnotEmpty, hnotFull, hqueue, -, hputs, htakes⟩
    refine ⟨⟨by rw [hqueue]; rfl, by rw [hputs, htakes, hqueue]; rfl, ?_, ?_⟩, ?_, ?_⟩
    · intro t ht
      rw [hnotEmpty] at ht
      exact absurd ht (Condition.not_mem_empty t)
    · intro t ht
      rw [hnotFull] at ht
      exact absurd ht (Condition.not_mem_empty t)
    · exact .of_waiting_eq_empty (by simp [hnotEmpty]) _
    · exact .of_waiting_eq_empty (by simp [hnotFull]) _
  · exact fun _ _ hs ha => hs.exec ha

/-- **A bounded FIFO without lost wakeups.** For every capacity, any threads and every interleaving: the size is
    within the capacity, the values taken are the first ones put, and while a thread waits un-notified for an
    element or for a free slot, there are no more of these than threads that were notified and did not resume
    yet. No assertion fails. -/
theorem bounded_fifo (h : (queueSystem τ T cap).Reachable s) :
    s.queue.size ≤ cap ∧ s.puts = s.takes ++ s.queue.elems ∧
      (∀ t ∈ s.notEmpty.waiting, s.threads t = .waiting .take ∧ s.queue.size ≤ s.notEmpty.notified.card) ∧
      (∀ t ∈ s.notEmpty.notified, s.threads t = .waiting .take) ∧
      (∀ t ∈ s.notFull.waiting, (∃ x, s.threads t = .waiting (.put x)) ∧
        cap - s.queue.size ≤ s.notFull.notified.card) ∧
      (∀ t ∈ s.notFull.notified, ∃ x, s.threads t = .waiting (.put x)) ∧
      ∀ a, s.enabled a → Safe (s.exec a) fun _ => True := by
  have hinv := queueSystem_inv h
  refine ⟨hinv.capacity ▸ s.queue.bounded, hinv.fifo, ?_, fun t ht => hinv.takers t (Or.inr ht), ?_,
    fun t ht => hinv.putters t (Or.inr ht), ?_⟩
  · exact fun t ht => ⟨hinv.takers t (Or.inl ht), hinv.elements ⟨t, ht⟩⟩
  · exact fun t ht => ⟨hinv.putters t (Or.inl ht), hinv.slots ⟨t, ht⟩⟩
  · exact fun a ha => (hinv.exec ha).mono fun _ _ => trivial

/-- A consumer waits, is notified, and takes what was put. -/
theorem bounded_fifo_handover : ∃ s : BoundedBlockingQueue (Fin 2) Nat,
    s.takes = [5] ∧ s.puts = s.takes ++ s.queue.elems := by
  have h := (System.Reachable.init (S := queueSystem (Fin 2) Nat 1)
      (s := ⟨.empty, .empty, .new 1, fun _ => .idle, [], []⟩) ⟨rfl, rfl, rfl, fun _ => rfl, rfl, rfl⟩)
    |>.next (.call 0 .take none) ⟨rfl, rfl⟩ rfl
    |>.next (.call 1 (.put 5) (some 0)) ⟨rfl, Finset.mem_insert_self _ _⟩ rfl
    |>.next (.resume 0 none) ⟨by decide, by decide, .take, rfl, rfl⟩ rfl
  exact ⟨_, rfl, (bounded_fifo h).2.1⟩

end BoundedBlockingQueue

end Muduo
