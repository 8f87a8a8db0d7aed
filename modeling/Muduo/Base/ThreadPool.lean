import Muduo.Lib.Condition
import Muduo.Lib.System

/-!
# `Base.ThreadPool` — a queue of tasks and the threads that execute them

`ThreadPool.cc`, after `start(n)`. `run`, `take` and the first half of `stop` hold the mutex. A worker reads `running_`
at the head of its loop without it, so `stop` is two steps: it clears `running_`, and it notifies all and releases
the mutex. In between the workers may read, but none gets the mutex.

A task is a `boost::function`, which may be empty; `take` also returns an empty one when there is nothing to do.
-/

namespace Muduo

open Lib

/-- Where a worker is in `runInThread`. A task goes with its number in the order in which tasks are dequeued. -/
inductive WorkerPoint (α : Type) where
  /-- At `while (running_)`. -/
  | loopHead
  /-- It is to lock the mutex in `take`. -/
  | locking
  /-- In `cond_.wait()`. -/
  | waiting
  /-- `take` has returned. -/
  | took (task : Option (Nat × α))
  /-- In `task()`. -/
  | executing
  | exited

/-- Where the thread that calls `stop` is. -/
inductive StopPoint where
  | before
  /-- `running_` is cleared, and the mutex is held. -/
  | cleared
  /-- All are notified, and the mutex is released. -/
  | released
deriving DecidableEq

/-- `class ThreadPool`, with `n` threads. -/
structure ThreadPool (n : Nat) (α : Type) where
  running : Bool
  queue : List (Option α)
  cond : Condition (Fin n)
  workers : Fin n → WorkerPoint α
  stopping : StopPoint
  /-- The tasks that `run` put into the queue, in this order. -/
  submitted : List (Option α)
  /-- The tasks that were taken out of it, in this order. -/
  dequeued : List (Option α)
  /-- The tasks that workers called, with their numbers. -/
  executed : List (Nat × α)
  /-- The tasks that `run` called itself. -/
  direct : List (Option α)

inductive PoolAction (n : Nat) (α : Type) where
  /-- `run(task)`, which wakes `u`. -/
  | run (task : Option α) (u : Option (Fin n))
  | readRunning (t : Fin n)
  /-- `t` has locked the mutex in `take`. -/
  | take (t : Fin n)
  /-- `t` wakes up without having been notified. -/
  | spurious (t : Fin n)
  /-- `t` has the mutex again. -/
  | resume (t : Fin n)
  /-- `if (task) task();`. -/
  | call (t : Fin n)
  /-- The task that `t` is executing returns. -/
  | taskReturns (t : Fin n)
  | stop
  | stopNotify

/-- The worker whose step it is. -/
def PoolAction.worker {n : Nat} {α : Type} : PoolAction n α → Option (Fin n)
  | .readRunning t | .take t | .resume t | .call t | .taskReturns t => some t
  | .run _ _ | .spurious _ | .stop | .stopNotify => none

namespace ThreadPool

variable {n : Nat} {α : Type}

def enabled (s : ThreadPool n α) : PoolAction n α → Prop
  | .run _ u => s.stopping ≠ .cleared ∧ s.cond.Picks u
  | .readRunning t => s.workers t = .loopHead
  | .take t => s.stopping ≠ .cleared ∧ s.workers t = .locking
  | .spurious t => t ∈ s.cond.waiting
  | .resume t => s.stopping ≠ .cleared ∧ s.workers t = .waiting ∧ t ∉ s.cond.waiting
  | .call t => ∃ task, s.workers t = .took task
  | .taskReturns t => s.workers t = .executing
  | .stop => s.stopping = .before
  | .stopNotify => s.stopping = .cleared

def run (s : ThreadPool n α) (task : Option α) (u : Option (Fin n)) : ThreadPool n α :=
  -- without threads, the caller executes the task
  if n = 0 then { s with direct := s.direct ++ [task] }
  else
    { s with
      queue := s.queue ++ [task]
      cond := s.cond.notify u
      submitted := s.submitted ++ [task] }

/-- A turn of the loop in `take`, and what follows it. -/
def take (s : ThreadPool n α) (t : Fin n) : ThreadPool n α :=
  if (s.queue.isEmpty && s.running) = true then
    { s with cond := s.cond.wait t, workers := Function.update s.workers t .waiting }
  else
    match s.queue with
    -- only after `stop`
    | [] => { s with workers := Function.update s.workers t (.took none) }
    | task :: queue =>
        { s with
          queue
          workers := Function.update s.workers t (.took (task.map fun f => (s.dequeued.length, f)))
          dequeued := s.dequeued ++ [task] }

def exec (s : ThreadPool n α) : PoolAction n α → Outcome (ThreadPool n α)
  | .run task u => .ok (s.run task u)
  | .readRunning t =>
      .ok { s with workers := Function.update s.workers t (if s.running = true then .locking else .exited) }
  | .take t => .ok (s.take t)
  | .spurious t => .ok { s with cond := s.cond.spurious t }
  | .resume t => .ok ({ s with cond := s.cond.resume t }.take t)
  | .call t =>
      match s.workers t with
      | .took (some (k, f)) =>
          .ok { s with
            workers := Function.update s.workers t .executing
            executed := s.executed ++ [(k, f)] }
      -- an empty task
      | _ => .ok { s with workers := Function.update s.workers t .loopHead }
  | .taskReturns t => .ok { s with workers := Function.update s.workers t .loopHead }
  | .stop => .ok { s with running := false, stopping := .cleared }
  | .stopNotify => .ok { s with cond := s.cond.notifyAll, stopping := .released }

/-- The pool after `start(n)`; each thread is about to begin. -/
def poolSystem (n : Nat) (α : Type) : System (ThreadPool n α) (PoolAction n α) where
  init s := s = ⟨true, [], .empty, fun _ => .loopHead, .before, [], [], [], []⟩
  enabled := enabled
  exec := exec

end ThreadPool

end Muduo
