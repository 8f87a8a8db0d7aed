import Mathlib.Logic.Function.Basic
import Muduo.Lib.System

/-!
# `Net.EventLoop` — one loop thread, its functor queue, and the other threads

The functions of `EventLoop.cc` that move work between threads. `loop()` is cut at the points where another
thread can step in: around the two halves of `queueInLoop` (the push under the mutex, then `wakeup()`), around
`poll`, before the swap in `doPendingFunctors` and between functors. The functors are of any type; what a
functor does is left to user code, which may queue more of them whenever it runs on the loop thread.

Every push gets a number, so that two equal functors stay apart; `pushed`, `executed` and `returned` record
what has happened and are not read by the code.
-/

namespace Muduo.Net

open Lib

/-- Where the loop thread is. -/
inductive LoopPhase where
  /-- Outside `loop()`. -/
  | outside
  /-- At the test of `while (!quit_)`. -/
  | head
  /-- Blocked in `poller_->poll`. -/
  | polling
  /-- Between callbacks of the active channels, or in one. -/
  | handling
  /-- In `doPendingFunctors`, before the swap. -/
  | calling
  /-- Between functors, or in one. -/
  | running
  /-- `callingPendingFunctors_` is reset; the local vector is destroyed. -/
  | destroying
deriving DecidableEq, Repr

/-- User code runs on the loop thread in these phases only. -/
def LoopPhase.user : LoopPhase → Bool
  | .outside | .handling | .running | .destroying => true
  | .head | .polling | .calling => false

/-- Where another thread is in its use of the loop. -/
inductive ThreadPoint where
  | idle
  /-- In `queueInLoop`, after push number `id`, before `wakeup()`. -/
  | queueing (id : Nat)
  /-- In `quit`, before `wakeup()`. -/
  | quitting
deriving DecidableEq, Repr

/-- A functor in the queue, with its number and the thread that pushed it (`none` is the loop thread). -/
structure Pending (τ φ : Type) where
  id : Nat
  thread : Option τ
  cb : φ
deriving DecidableEq, Repr

/-- `class EventLoop`, and the program points of the other threads. -/
structure EventLoop (τ φ : Type) where
  phase : LoopPhase
  looping : Bool
  quit : Bool
  callingPendingFunctors : Bool
  /-- The counter of `wakeupFd_`. -/
  wakeupCounter : Nat
  /-- `wakeupChannel_` was reported by `poll` and has not been dispatched yet. -/
  wakeupActive : Bool
  pendingFunctors : List (Pending τ φ)
  /-- The local vector of `doPendingFunctors`, less what has been run. -/
  functors : List (Pending τ φ)
  threads : τ → ThreadPoint
  /-- Every functor pushed, oldest first. -/
  pushed : List (Pending τ φ)
  /-- Every functor run, oldest first. -/
  executed : List (Pending τ φ)
  /-- The numbers of the pushes whose `queueInLoop` call on another thread has returned. -/
  returned : List Nat

namespace EventLoop

variable {τ φ : Type}

/-- The constructor. -/
def new (τ φ : Type) : EventLoop τ φ where
  phase := .outside
  looping := false
  quit := false
  callingPendingFunctors := false
  wakeupCounter := 0
  wakeupActive := false
  pendingFunctors := []
  functors := []
  threads := fun _ => .idle
  pushed := []
  executed := []
  returned := []

/-! ## `wakeupFd_` -/

/-- The largest value an `eventfd` counter can hold. -/
def eventfdMax : Nat := 2 ^ 64 - 2

/-- `wakeup()`: a write of 1 that would overflow the counter fails with `EAGAIN` and is only logged. -/
def wakeup (l : EventLoop τ φ) : EventLoop τ φ :=
  if l.wakeupCounter + 1 ≤ eventfdMax then { l with wakeupCounter := l.wakeupCounter + 1 } else l

/-- `handleRead()`, the read callback of `wakeupChannel_`. -/
def handleRead (l : EventLoop τ φ) : EventLoop τ φ := { l with wakeupCounter := 0, wakeupActive := false }

/-! ## The functor queue -/

/-- The push of `queueInLoop`, under the mutex. -/
def push (l : EventLoop τ φ) (thread : Option τ) (cb : φ) : EventLoop τ φ :=
  let f : Pending τ φ := ⟨l.pushed.length, thread, cb⟩
  { l with pendingFunctors := l.pendingFunctors ++ [f], pushed := l.pushed ++ [f] }

/-- `queueInLoop`, called on the loop thread. -/
def queueInLoop (l : EventLoop τ φ) (cb : φ) : EventLoop τ φ :=
  let l := l.push none cb
  if l.callingPendingFunctors then l.wakeup else l

/-- `functors.swap(pendingFunctors_)`. -/
def swapFunctors (l : EventLoop τ φ) : EventLoop τ φ :=
  { l with functors := l.pendingFunctors, pendingFunctors := l.functors }

/-- `functors[i]()`, as far as the loop is concerned. -/
def runNext (l : EventLoop τ φ) : EventLoop τ φ :=
  { l with functors := l.functors.tail, executed := l.executed ++ l.functors.take 1 }

/-! ## The steps of the loop thread and of the other threads -/

/-- The steps, in the order the source has them; those from `push` on are taken by another thread. -/
inductive LoopOp (τ φ : Type) where
  /-- `loop()` up to the first test. -/
  | loop
  /-- The test of `while (!quit_)`. -/
  | test
  /-- `poll` returns, with `wakeupChannel_` among the active channels or not. -/
  | pollReturn (wakeup : Bool)
  /-- `wakeupChannel_` is dispatched. -/
  | handleRead
  /-- User code on the loop thread calls `queueInLoop`. -/
  | queueInLoop (cb : φ)
  /-- User code on the loop thread calls `quit`. -/
  | quit
  /-- All active channels are handled; `doPendingFunctors` starts. -/
  | doPendingFunctors
  | swap
  | runNext
  /-- `callingPendingFunctors_ = false`. -/
  | endFunctors
  /-- `doPendingFunctors` returns. -/
  | destroyed
  | push (t : τ) (cb : φ)
  /-- Another thread calls `quit`: the assignment. -/
  | setQuit (t : τ)
  /-- The `wakeup()` that ends `queueInLoop` or `quit` on another thread. -/
  | wakeup (t : τ)

/-- `poll` reports `wakeupChannel_` only when its descriptor is readable. -/
def enabled (l : EventLoop τ φ) : LoopOp τ φ → Prop
  | .loop => l.phase = .outside
  | .test => l.phase = .head
  | .pollReturn w => l.phase = .polling ∧ (w = true → l.wakeupCounter ≠ 0)
  | .handleRead => l.phase = .handling ∧ l.wakeupActive = true
  | .queueInLoop _ => l.phase.user = true
  | .quit => l.phase.user = true
  -- `wakeupChannel_` has been handled if it was active
  | .doPendingFunctors => l.phase = .handling ∧ l.wakeupActive = false
  | .swap => l.phase = .calling
  | .runNext => l.phase = .running ∧ l.functors ≠ []
  | .endFunctors => l.phase = .running ∧ l.functors = []
  | .destroyed => l.phase = .destroying
  | .push t _ => l.threads t = .idle
  | .setQuit t => l.threads t = .idle
  | .wakeup t => l.threads t ≠ .idle

instance decidableEnabled (l : EventLoop τ φ) : DecidablePred l.enabled
  | .loop | .test | .swap | .destroyed => inferInstanceAs (Decidable (l.phase = _))
  | .pollReturn w => inferInstanceAs (Decidable (l.phase = .polling ∧ (w = true → l.wakeupCounter ≠ 0)))
  | .handleRead => inferInstanceAs (Decidable (l.phase = .handling ∧ l.wakeupActive = true))
  | .queueInLoop _ | .quit => inferInstanceAs (Decidable (l.phase.user = true))
  | .doPendingFunctors => inferInstanceAs (Decidable (l.phase = .handling ∧ l.wakeupActive = false))
  | .runNext => inferInstanceAs (Decidable (l.phase = .running ∧ l.functors ≠ []))
  | .endFunctors => inferInstanceAs (Decidable (l.phase = .running ∧ l.functors = []))
  | .push t _ | .setQuit t => inferInstanceAs (Decidable (l.threads t = .idle))
  | .wakeup t => inferInstanceAs (Decidable (l.threads t ≠ .idle))

variable [DecidableEq τ]

/-- Move thread `t` to another point of its program. -/
def setThread (l : EventLoop τ φ) (t : τ) (p : ThreadPoint) : EventLoop τ φ :=
  { l with threads := Function.update l.threads t p }

/-- The call that thread `t` was in returns. -/
def threadReturns (l : EventLoop τ φ) (t : τ) : EventLoop τ φ :=
  match l.threads t with
  | .queueing id => { l.setThread t .idle with returned := l.returned ++ [id] }
  | .quitting => l.setThread t .idle
  | .idle => l

def exec (l : EventLoop τ φ) : LoopOp τ φ → Outcome (EventLoop τ φ)
  | .loop => do
      assert (l.looping = false)
      .ok { l with looping := true, quit := false, phase := .head }
  | .test => .ok (if l.quit then { l with looping := false, phase := .outside } else { l with phase := .polling })
  | .pollReturn w => .ok { l with phase := .handling, wakeupActive := w }
  | .handleRead => .ok l.handleRead
  | .queueInLoop cb => .ok (l.queueInLoop cb)
  | .quit => .ok { l with quit := true }
  | .doPendingFunctors => .ok { l with phase := .calling, callingPendingFunctors := true }
  | .swap => .ok { l.swapFunctors with phase := .running }
  | .runNext => .ok l.runNext
  | .endFunctors => .ok { l with phase := .destroying, callingPendingFunctors := false }
  | .destroyed => .ok { l with phase := .head }
  | .push t cb => .ok ((l.push (some t) cb).setThread t (.queueing l.pushed.length))
  | .setQuit t => .ok ({ l with quit := true }.setThread t .quitting)
  | .wakeup t => .ok (l.wakeup.threadReturns t)

/-- A loop and any number of other threads, from the construction of the loop on. -/
def loopSystem (τ φ : Type) [DecidableEq τ] : System (EventLoop τ φ) (LoopOp τ φ) where
  init l := l = EventLoop.new τ φ
  enabled := enabled
  exec := exec

end EventLoop

end Muduo.Net
