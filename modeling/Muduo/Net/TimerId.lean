import Muduo.Net.TimerQueue

/-!
# `Net.TimerId` — the ids that `addTimer` returns

`TimerQueue::addTimer` hands its timer over with `runInLoop`, and only then reads `timer->sequence()` for the id
it returns. On the loop thread nothing comes in between. On another thread, the loop may be faster: by the time
of the read it may have run the timer, deleted it, and have a new one at its address. The call is two steps there,
and `pending` holds the calls that are between them. `ids` records which id was returned for which timer; the
code does not read it.
-/

namespace Muduo.Net

open Lib

/-- A `TimerQueue`, and the calls of `addTimer`. -/
structure TimerClients where
  queue : TimerQueue
  /-- The address and the serial number of the timer of each call that has still to return. -/
  pending : List (Nat × Nat)
  /-- The serial number of the timer of each call that has returned, and the `TimerId`. -/
  ids : List (Nat × ActiveTimer)

inductive ClientOp where
  /-- A step of the queue; an `addTimer` on the loop thread returns. -/
  | step (a : TimerQueue.TimerOp)
  /-- The `n`-th call of `addTimer` on another thread reads the sequence number and returns. -/
  | returns (n : Nat)

namespace TimerClients

/-- `TimerId(timer, timer->sequence())`. -/
def timerId (q : TimerQueue) (p : Nat) : Outcome ActiveTimer := do
  let t ← q.deref p
  .ok ⟨p, t.sequence⟩

def enabled (s : TimerClients) : ClientOp → Prop
  | .step a => s.queue.enabled a
  | .returns n => n < s.pending.length

/-- The queue has come to `q` by a step; what becomes of the `addTimer` whose step it was. -/
def handedOver (s : TimerClients) (q : TimerQueue) : TimerQueue.TimerOp → Outcome TimerClients
  | .addTimer p _ _ => do
      let id ← timerId q p
      .ok { s with queue := q, ids := s.ids ++ [(s.queue.numCreated + 1, id)] }
  | .addTimerElsewhere p _ _ =>
      .ok { s with queue := q, pending := s.pending ++ [(p, s.queue.numCreated + 1)] }
  | _ => .ok { s with queue := q }

def exec (s : TimerClients) : ClientOp → Outcome TimerClients
  | .step a => do
      let q ← s.queue.exec a
      s.handedOver q a
  | .returns n =>
      match s.pending[n]? with
      | none => .ok s
      | some (p, k) => do
          let id ← timerId s.queue p
          .ok { s with pending := s.pending.eraseIdx n, ids := s.ids ++ [(k, id)] }

def clientSystem : System TimerClients ClientOp where
  init s := TimerQueue.timerSystem.init s.queue ∧ s.pending = [] ∧ s.ids = []
  enabled := enabled
  exec := exec

end TimerClients

end Muduo.Net
