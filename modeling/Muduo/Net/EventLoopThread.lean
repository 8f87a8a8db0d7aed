import Muduo.Net.EventLoop

/-!
# `Net.EventLoopThread` — a thread with a loop on its stack, and its owner

`EventLoopThread.cc`: the owner calls `startLoop()` and later destroys the object; `threadFunc` makes the loop on the
new thread, publishes a pointer to it and enters `loop()`. `startLoop` returns as soon as the pointer is there, so
the owner may go on to the destructor while the new thread is still outside `loop()`.

The loop is that of `EventLoop`, with all that user code and other threads may do to it; the owner is one of the
other threads there, named `none`.
-/

namespace Muduo.Net

open Lib

/-- Where the new thread is in `threadFunc`. -/
inductive ThreadFuncPoint where
  | notStarted
  /-- It is to make the loop. -/
  | starting
  /-- The loop is made; `callback_` may run. -/
  | callback
  /-- `loop_` is set; it is to call `loop.loop()`. -/
  | published
  /-- `loop.loop()` is called. -/
  | inLoop
  /-- The loop is destroyed. -/
  | ended
deriving DecidableEq, Repr

/-- Where the owner is. -/
inductive OwnerPoint where
  /-- It is to call `startLoop`. -/
  | outside
  /-- It waits in `startLoop` until `loop_` is set. -/
  | waiting
  /-- `startLoop` has returned. -/
  | started
  /-- In the destructor, after `exiting_ = true`. -/
  | exiting
  /-- In `loop_->quit()`, after `quit_ = true`. -/
  | quitting
  /-- `loop_->quit()` has returned; it is to join. -/
  | joining
  | joined
deriving DecidableEq, Repr

/-- `class EventLoopThread`, and the two threads. -/
structure EventLoopThread (τ φ : Type) where
  loop : EventLoop (Option τ) φ
  /-- `loop_` is not null. -/
  published : Bool
  exiting : Bool
  thread : ThreadFuncPoint
  owner : OwnerPoint

namespace EventLoopThread

variable {τ φ : Type}

inductive Action (τ φ : Type) where
  /-- The next step of the owner. -/
  | owner
  /-- `EventLoop loop;`. -/
  | construct
  /-- `loop_ = &loop`, under the mutex. -/
  | publish
  /-- A step of the loop thread in user code or `loop()`, or of another thread. -/
  | loop (op : EventLoop.LoopOp (Option τ) φ)
  /-- `loop.loop()` has returned; `threadFunc` returns. -/
  | leave

/-- `loop()` has left its `while` loop. -/
def Left (s : EventLoopThread τ φ) : Prop := s.thread = .ended ∨ s.thread = .inLoop ∧ s.loop.phase = .outside

/-- What may happen to the loop while the new thread is where it is: `callback_` may use the loop, `loop()` is called
    once, and other threads than the owner may use the loop as long as it is alive. -/
def admits (s : EventLoopThread τ φ) : EventLoop.LoopOp (Option τ) φ → Prop
  | .loop => s.thread = .published
  | .queueInLoop _ | .quit => s.thread = .callback ∨ s.thread = .inLoop ∧ s.loop.phase ≠ .outside
  | .push t _ | .setQuit t | .wakeup t =>
      t ≠ none ∧ (s.thread = .callback ∨ s.thread = .published ∨ s.thread = .inLoop)
  | _ => s.thread = .inLoop

def enabled (s : EventLoopThread τ φ) : Action τ φ → Prop
  | .owner =>
      match s.owner with
      -- `while (loop_ == NULL) cond_.wait()`
      | .waiting => s.published = true
      | .joining => s.thread = .ended
      | .joined => False
      | _ => True
  | .construct => s.thread = .starting
  | .publish => s.thread = .callback
  | .loop op => s.admits op ∧ s.loop.enabled op
  | .leave => s.thread = .inLoop ∧ s.loop.phase = .outside

/-- `loop_->`: the pointer is set, and the loop is alive. -/
def deref (s : EventLoopThread τ φ) : Outcome Unit :=
  if s.published = true ∧ s.thread ≠ .ended then .ok () else .error .badAccess

/-- `threadFunc` comes to the call of `loop()`. -/
def afterOp (thread : ThreadFuncPoint) : EventLoop.LoopOp (Option τ) φ → ThreadFuncPoint
  | .loop => .inLoop
  | _ => thread

variable [DecidableEq τ]

/-- `startLoop()`, and `~EventLoopThread()` after it. -/
def ownerStep (s : EventLoopThread τ φ) : Outcome (EventLoopThread τ φ) :=
  match s.owner with
  | .outside => do
      assert (s.thread = .notStarted)
      .ok { s with thread := .starting, owner := .waiting }
  -- `startLoop` returns the pointer
  | .waiting => .ok { s with owner := .started }
  | .started => .ok { s with exiting := true, owner := .exiting }
  | .exiting => do
      s.deref
      let loop ← s.loop.exec (.setQuit none)
      .ok { s with loop, owner := .quitting }
  | .quitting => do
      s.deref
      let loop ← s.loop.exec (.wakeup none)
      .ok { s with loop, owner := .joining }
  | .joining | .joined => .ok { s with owner := .joined }

def exec (s : EventLoopThread τ φ) : Action τ φ → Outcome (EventLoopThread τ φ)
  | .owner => s.ownerStep
  | .construct => .ok { s with loop := EventLoop.new (Option τ) φ, thread := .callback }
  | .publish => .ok { s with published := true, thread := .published }
  | .loop op => do
      let loop ← s.loop.exec op
      .ok { s with loop, thread := afterOp s.thread op }
  | .leave => .ok { s with thread := .ended }

def threadSystem (τ φ : Type) [DecidableEq τ] : System (EventLoopThread τ φ) (Action τ φ) where
  init s := s = ⟨EventLoop.new (Option τ) φ, false, false, .notStarted, .outside⟩
  enabled := enabled
  exec := exec

end EventLoopThread

end Muduo.Net
