import Muduo.Base.BoundedBlockingQueue

/-!
# `Base.BlockingQueue` — `put` and `take` without a bound

`BlockingQueue.h`, over a `std::deque`. As in the bounded queue, a step of a thread is one turn around the `while` loop
with the mutex held. Nobody ever waits in `put`.
-/

namespace Muduo

open Lib

/-- `class BlockingQueue`, and the threads that use it. -/
structure BlockingQueue (τ T : Type) where
  notEmpty : Condition τ
  queue : List T
  threads : τ → QueuePoint T
  /-- The values that were put, in this order. -/
  puts : List T
  /-- The values that `take` returned, and to whom, in this order. -/
  takes : List (τ × T)

namespace BlockingQueue

variable {τ T : Type}

def size (s : BlockingQueue τ T) : Nat := s.queue.length

def enabled (s : BlockingQueue τ T) : QueueAction τ T → Prop
  | .call t (.put _) u => s.threads t = .idle ∧ s.notEmpty.Picks u
  | .call t .take _ => s.threads t = .idle
  | .spurious t => t ∈ s.notEmpty.waiting
  | .resume t _ => t ∉ s.notEmpty.waiting ∧ s.threads t = .waiting .take

variable [DecidableEq τ]

def put (s : BlockingQueue τ T) (x : T) (u : Option τ) : BlockingQueue τ T :=
  { s with
    queue := s.queue ++ [x]
    notEmpty := s.notEmpty.notify u
    puts := s.puts ++ [x] }

def take (s : BlockingQueue τ T) (t : τ) : Outcome (BlockingQueue τ T) :=
  if s.queue.isEmpty = true then
    .ok { s with
      notEmpty := s.notEmpty.wait t
      threads := Function.update s.threads t (.waiting .take) }
  else do
    assert (s.queue.isEmpty = false)
    match s.queue with
    | [] => .error .badAccess
    | front :: rest =>
        .ok { s with
          queue := rest
          threads := Function.update s.threads t .idle
          takes := s.takes ++ [(t, front)] }

def exec (s : BlockingQueue τ T) : QueueAction τ T → Outcome (BlockingQueue τ T)
  | .call _ (.put x) u => .ok (s.put x u)
  | .call t .take _ => s.take t
  | .spurious t => .ok { s with notEmpty := s.notEmpty.spurious t }
  | .resume t _ => { s with notEmpty := s.notEmpty.resume t }.take t

def blockingSystem (τ T : Type) [DecidableEq τ] : System (BlockingQueue τ T) (QueueAction τ T) where
  init s := s = ⟨.empty, [], fun _ => .idle, [], []⟩
  enabled := enabled
  exec := exec

end BlockingQueue

end Muduo
