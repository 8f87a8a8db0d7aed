import Muduo.Lib.Condition
import Muduo.Lib.System

/-!
# `Base.BoundedBlockingQueue` — `put` and `take`

`BoundedBlockingQueue.h` over the `boost::circular_buffer` that it keeps its elements in. Both functions hold the
mutex all the time except while they wait, so a step of a thread leads from where it locks the mutex, or has it again
after a wait, to where it unlocks it or waits: one turn around the `while` loop.

A notified thread does not get the mutex at once. Others may come first, and find the queue as it is.
-/

namespace Muduo

open Lib

/-- `boost::circular_buffer`. -/
structure CircularBuffer (T : Type) where
  capacity : Nat
  elems : List T
  bounded : elems.length ≤ capacity

namespace CircularBuffer

variable {T : Type}

def new (capacity : Nat) : CircularBuffer T := ⟨capacity, [], Nat.zero_le _⟩

def size (q : CircularBuffer T) : Nat := q.elems.length

def full (q : CircularBuffer T) : Bool := q.size = q.capacity

def empty (q : CircularBuffer T) : Bool := q.size = 0

/-- The first element gives way if there is no room. -/
def pushBack (q : CircularBuffer T) (x : T) : CircularBuffer T where
  capacity := q.capacity
  elems := (q.elems ++ [x]).drop (q.size + 1 - q.capacity)
  bounded := by
    have h := q.bounded
    simp only [List.length_drop, List.length_append, List.length_singleton, size]
    omega

def front (q : CircularBuffer T) : Outcome T :=
  match q.elems with
  | [] => .error .badAccess
  | x :: _ => .ok x

def popFront (q : CircularBuffer T) : CircularBuffer T where
  capacity := q.capacity
  elems := q.elems.tail
  bounded := by
    have h := q.bounded
    rw [List.length_tail]
    omega

end CircularBuffer

/-- A call of one of the two functions. -/
inductive QueueCall (T : Type) where
  | put (x : T)
  | take

/-- Where a thread is. -/
inductive QueuePoint (T : Type) where
  | idle
  /-- In `wait()`. -/
  | waiting (call : QueueCall T)

/-- `class BoundedBlockingQueue`, and the threads that use it. -/
structure BoundedBlockingQueue (τ T : Type) where
  notEmpty : Condition τ
  notFull : Condition τ
  queue : CircularBuffer T
  threads : τ → QueuePoint T
  /-- The values that were put, in this order. -/
  puts : List T
  /-- The values that `take` returned, in this order. -/
  takes : List T

inductive QueueAction (τ T : Type) where
  /-- `t` calls, and has the mutex; if it notifies, then it wakes `u`. -/
  | call (t : τ) (call : QueueCall T) (u : Option τ)
  /-- `t` wakes up without having been notified. -/
  | spurious (t : τ)
  /-- `t` has the mutex again; if it notifies, then it wakes `u`. -/
  | resume (t : τ) (u : Option τ)

namespace BoundedBlockingQueue

variable {τ T : Type}

/-- The condition variable that a call notifies. -/
def notifies (s : BoundedBlockingQueue τ T) : QueueCall T → Condition τ
  | .put _ => s.notEmpty
  | .take => s.notFull

def enabled (s : BoundedBlockingQueue τ T) : QueueAction τ T → Prop
  | .call t call u => s.threads t = .idle ∧ (s.notifies call).Picks u
  | .spurious t => t ∈ s.notEmpty.waiting ∨ t ∈ s.notFull.waiting
  | .resume t u =>
      t ∉ s.notEmpty.waiting ∧ t ∉ s.notFull.waiting ∧
        ∃ call, s.threads t = .waiting call ∧ (s.notifies call).Picks u

variable [DecidableEq τ]

def put (s : BoundedBlockingQueue τ T) (t : τ) (x : T) (u : Option τ) : Outcome (BoundedBlockingQueue τ T) :=
  if s.queue.full = true then
    .ok { s with
      notFull := s.notFull.wait t
      threads := Function.update s.threads t (.waiting (.put x)) }
  else do
    assert (s.queue.full = false)
    .ok { s with
      queue := s.queue.pushBack x
      notEmpty := s.notEmpty.notify u
      threads := Function.update s.threads t .idle
      puts := s.puts ++ [x] }

def take (s : BoundedBlockingQueue τ T) (t : τ) (u : Option τ) : Outcome (BoundedBlockingQueue τ T) :=
  if s.queue.empty = true then
    .ok { s with
      notEmpty := s.notEmpty.wait t
      threads := Function.update s.threads t (.waiting .take) }
  else do
    assert (s.queue.empty = false)
    let front ← s.queue.front
    .ok { s with
      queue := s.queue.popFront
      notFull := s.notFull.notify u
      threads := Function.update s.threads t .idle
      takes := s.takes ++ [front] }

def exec (s : BoundedBlockingQueue τ T) : QueueAction τ T → Outcome (BoundedBlockingQueue τ T)
  | .call t (.put x) u => s.put t x u
  | .call t .take u => s.take t u
  -- it is at one of the two at most
  | .spurious t => .ok { s with notEmpty := s.notEmpty.spurious t, notFull := s.notFull.spurious t }
  | .resume t u =>
      match s.threads t with
      | .waiting (.put x) => { s with notFull := s.notFull.resume t }.put t x u
      | .waiting .take => { s with notEmpty := s.notEmpty.resume t }.take t u
      | .idle => .ok s

def queueSystem (τ T : Type) [DecidableEq τ] (capacity : Nat) :
    System (BoundedBlockingQueue τ T) (QueueAction τ T) where
  init s := s.notEmpty = .empty ∧ s.notFull = .empty ∧ s.queue = .new capacity ∧ (∀ t, s.threads t = .idle) ∧
    s.puts = [] ∧ s.takes = []
  enabled := enabled
  exec := exec

end BoundedBlockingQueue

end Muduo
