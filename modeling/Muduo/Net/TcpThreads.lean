import Muduo.Net.EventLoop
import Muduo.Net.TcpConnection

/-!
# `Net.TcpThreads` — one connection used from several threads

`send` and `shutdown` may be called on any thread. On a thread other than the loop's they read `state_`,
perhaps write it, and hand the rest to the loop as a functor; each of these is a step of its own here, and the
loop thread may do anything in between. The loop is `EventLoop`, its functors are the `ConnTask`s below, and
what they do when they are run is `TcpConnection`'s.

All writes succeed, in full or in part, and the peer does not close: that is the setting in which a graceful
shutdown promises something. User code that runs on the loop thread calls `send` and `shutdown` directly,
whichever callback or functor it is in.
-/

namespace Muduo.Net

open Lib

/-- A message `send` was called with while `state_` was `kConnected`, numbered in the order of these calls. -/
structure Message where
  id : Nat
  data : Bytes
deriving DecidableEq, Repr

def Message.bytes (m : Message) : List UInt8 := m.data.data

/-- The functors that `send` and `shutdown` hand to `runInLoop`. -/
inductive ConnTask where
  | sendInLoop (m : Message)
  | shutdownInLoop
deriving DecidableEq, Repr

/-- Where another thread is in its use of the connection. -/
inductive CallPoint where
  | idle
  /-- In `send`, which found `kConnected`; the functor is not queued yet. -/
  | sending (m : Message)
  /-- In `shutdown`, which found `kConnected`; `state_` is not set yet. -/
  | stopping
  /-- In `shutdown`, after `setState(kDisconnecting)`; the functor is not queued yet. -/
  | stopped
deriving DecidableEq, Repr

/-- A connection, its loop, and the program points of the other threads. -/
structure SharedConn (τ : Type) where
  conn : TcpConnection
  loop : EventLoop τ ConnTask
  calls : τ → CallPoint
  /-- The messages accepted by `send`, on any thread. -/
  accepted : List Message
  /-- The messages `sendInLoop` was executed with, oldest first. -/
  sent : List Message

/-- The steps of the loop thread, and, from `sendCheck` on, those of another thread. -/
inductive SharedOp (τ : Type) where
  /-- A step of `EventLoop` that runs no functor and queues none. -/
  | loop (a : EventLoop.LoopOp τ ConnTask)
  /-- The channel is dispatched with `POLLOUT`; the kernel takes at most `n` bytes. -/
  | handleWrite (n : Nat)
  /-- User code on the loop thread. -/
  | send (data : Bytes) (n : Nat)
  | shutdown
  /-- The next functor of `doPendingFunctors`. -/
  | runNext (n : Nat)
  | sendCheck (t : τ) (data : Bytes)
  | sendQueue (t : τ)
  | shutdownCheck (t : τ)
  | shutdownSet (t : τ)
  | shutdownQueue (t : τ)

namespace SharedConn

variable {τ : Type}

/-- The steps of the loop that leave its functors where they are, or swap the vectors. -/
def controls : EventLoop.LoopOp τ ConnTask → Bool
  | .queueInLoop _ | .runNext | .push _ _ => false
  | _ => true

def enabled (s : SharedConn τ) : SharedOp τ → Prop
  | .loop a => controls a = true ∧ s.loop.enabled a
  | .handleWrite _ => s.loop.phase = .handling
  | .send _ _ => s.loop.phase.user = true
  | .shutdown => s.loop.phase.user = true
  | .runNext _ => s.loop.enabled .runNext
  | .sendCheck t _ => s.calls t = .idle ∧ s.loop.threads t = .idle
  | .sendQueue t => (∃ m, s.calls t = .sending m) ∧ s.loop.threads t = .idle
  | .shutdownCheck t => s.calls t = .idle ∧ s.loop.threads t = .idle
  | .shutdownSet t => s.calls t = .stopping
  | .shutdownQueue t => s.calls t = .stopped ∧ s.loop.threads t = .idle

instance decidableEnabled (s : SharedConn τ) : DecidablePred s.enabled
  | .loop a => inferInstanceAs (Decidable (controls a = true ∧ s.loop.enabled a))
  | .handleWrite _ => inferInstanceAs (Decidable (s.loop.phase = .handling))
  | .send _ _ | .shutdown => inferInstanceAs (Decidable (s.loop.phase.user = true))
  | .runNext _ => inferInstanceAs (Decidable (s.loop.enabled .runNext))
  | .sendCheck t _ | .shutdownCheck t => inferInstanceAs (Decidable (s.calls t = .idle ∧ s.loop.threads t = .idle))
  | .sendQueue t =>
      have : Decidable (∃ m, s.calls t = .sending m) :=
        match hc : s.calls t with
        | .sending m => isTrue ⟨m, rfl⟩
        | .idle | .stopping | .stopped => isFalse (by simp)
      inferInstanceAs (Decidable ((∃ m, s.calls t = .sending m) ∧ s.loop.threads t = .idle))
  | .shutdownSet t => inferInstanceAs (Decidable (s.calls t = .stopping))
  | .shutdownQueue t => inferInstanceAs (Decidable (s.calls t = .stopped ∧ s.loop.threads t = .idle))

/-- The message of the next accepted `send`. -/
def message (s : SharedConn τ) (data : Bytes) : Message := ⟨s.accepted.length, data⟩

/-- Run a functor. `sendInLoop` gets its message back as a `StringPiece`. -/
def runTask (s : SharedConn τ) (n : Nat) : ConnTask → Outcome (SharedConn τ)
  | .sendInLoop m => do
      let conn ← s.conn.sendInLoopPiece (StringPiece.ofString m.bytes) (.wrote n)
      .ok { s with conn, sent := s.sent ++ [m] }
  | .shutdownInLoop => .ok { s with conn := s.conn.shutdownInLoop }

variable [DecidableEq τ]

/-- Thread `t` goes on to `p`. -/
def setCall (s : SharedConn τ) (t : τ) (p : CallPoint) : SharedConn τ :=
  { s with calls := Function.update s.calls t p }

/-- The push of `queueInLoop`, on thread `t`. -/
def queue (s : SharedConn τ) (t : τ) (f : ConnTask) : Outcome (SharedConn τ) := do
  let loop ← s.loop.exec (.push t f)
  .ok { s with loop }

def exec (s : SharedConn τ) : SharedOp τ → Outcome (SharedConn τ)
  | .loop a => do
      let loop ← s.loop.exec a
      .ok { s with loop }
  | .handleWrite n => do
      let conn ← s.conn.handleWrite (.wrote n)
      .ok { s with conn }
  | .send data n => do
      let conn ← s.conn.send data (.wrote n)
      if s.conn.connected then
        .ok { s with conn, accepted := s.accepted ++ [s.message data], sent := s.sent ++ [s.message data] }
      else .ok { s with conn }
  | .shutdown => .ok { s with conn := s.conn.shutdown }
  | .runNext n => do
      let loop ← s.loop.exec .runNext
      match s.loop.functors with
      | [] => .ok s
      | f :: _ => runTask { s with loop } n f.cb
  | .sendCheck t data =>
      .ok (if s.conn.connected then
        { s.setCall t (.sending (s.message data)) with accepted := s.accepted ++ [s.message data] } else s)
  | .sendQueue t =>
      match s.calls t with
      | .sending m => (s.setCall t .idle).queue t (.sendInLoop m)
      | _ => .ok s
  | .shutdownCheck t => .ok (if s.conn.connected then s.setCall t .stopping else s)
  | .shutdownSet t => .ok { s.setCall t .stopped with conn := s.conn.setState .kDisconnecting }
  | .shutdownQueue t => (s.setCall t .idle).queue t .shutdownInLoop

/-- Any connection that is established and has sent nothing, on any loop whose queue is empty. -/
def sharedSystem (τ : Type) [DecidableEq τ] : System (SharedConn τ) (SharedOp τ) where
  init s := s.conn.state = .kConnected ∧ s.conn.outputBuffer = Buffer.new ∧
    s.conn.channel.isWriting = false ∧ s.conn.accepted = [] ∧ s.conn.shutdownWrites = 0 ∧
    (EventLoop.loopSystem τ ConnTask).Reachable s.loop ∧ s.loop.functors = [] ∧
    s.loop.pendingFunctors = [] ∧ (∀ t, s.calls t = .idle) ∧ s.accepted = [] ∧ s.sent = []
  enabled := enabled
  exec := exec

instance sharedSystem.decidableEnabled (s : SharedConn τ) :
    DecidablePred ((sharedSystem τ).enabled s) :=
  inferInstanceAs (DecidablePred s.enabled)

end SharedConn

end Muduo.Net
