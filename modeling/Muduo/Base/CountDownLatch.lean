import Muduo.Base.Types
import Muduo.Lib.Condition
import Muduo.Lib.System

/-!
# `Base.CountDownLatch` — a count that threads wait for

`CountDownLatch.cc`. All three functions hold the mutex, `wait` all the time except while it waits, so a step of a
thread leads from where it locks the mutex, or has it again, to where it unlocks it or waits. `countDown` wakes the
waiters when the count is 0, and not when it goes below. The count is an `int`, and `--count_` wraps at the least one.
-/

namespace Muduo

open Lib

/-- Where a thread is. -/
inductive LatchPoint where
  | idle
  /-- In `condition_.wait()`. -/
  | waiting
deriving DecidableEq

/-- `class CountDownLatch`, and the threads that use it. -/
structure CountDownLatch (τ : Type) where
  condition : Condition τ
  count : Int
  threads : τ → LatchPoint
  /-- The threads that returned from `wait`, in this order. -/
  returned : List τ
  /-- The calls of `countDown`. -/
  countDowns : Nat

inductive LatchAction (τ : Type) where
  /-- `t` calls `wait`, and has the mutex. -/
  | wait (t : τ)
  /-- `t` calls `countDown`. -/
  | countDown (t : τ)
  /-- `t` wakes up without having been notified. -/
  | spurious (t : τ)
  /-- `t` has the mutex again. -/
  | resume (t : τ)

namespace CountDownLatch

variable {τ : Type}

def getCount (s : CountDownLatch τ) : Int := s.count

def enabled (s : CountDownLatch τ) : LatchAction τ → Prop
  | .wait t | .countDown t => s.threads t = .idle
  | .spurious t => t ∈ s.condition.waiting
  | .resume t => s.threads t = .waiting ∧ t ∉ s.condition.waiting

variable [DecidableEq τ]

/-- `while (count_ > 0) condition_.wait();`, from the condition on. -/
def wait (s : CountDownLatch τ) (t : τ) : CountDownLatch τ :=
  if s.count > 0 then
    { s with
      condition := s.condition.wait t
      threads := Function.update s.threads t .waiting }
  else
    { s with
      threads := Function.update s.threads t .idle
      returned := s.returned ++ [t] }

def countDown (s : CountDownLatch τ) : CountDownLatch τ :=
  let s := { s with count := toInt32 (s.count - 1), countDowns := s.countDowns + 1 }
  if s.count = 0 then { s with condition := s.condition.notifyAll } else s

def exec (s : CountDownLatch τ) : LatchAction τ → Outcome (CountDownLatch τ)
  | .wait t => .ok (s.wait t)
  | .countDown _ => .ok s.countDown
  | .spurious t => .ok { s with condition := s.condition.spurious t }
  | .resume t => .ok ({ s with condition := s.condition.resume t }.wait t)

def latchSystem (τ : Type) [DecidableEq τ] (count : Int) : System (CountDownLatch τ) (LatchAction τ) where
  init s := s = ⟨.empty, count, fun _ => .idle, [], 0⟩
  enabled := enabled
  exec := exec

end CountDownLatch

end Muduo
