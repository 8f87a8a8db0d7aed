import Muduo.Net.TcpClient

/-!
# `Net.ClientStop` — `TcpClient::stop()` from any thread

`stop()` clears `TcpClient::connect_` and `Connector::connect_` and hands `stopInLoop` to the loop. The loop thread
goes on meanwhile, so here every read or write of one of the two flags is a step of its own, on either thread.
What else the functions do is on the loop thread's own data and goes with the step next to it: most functions
look at a flag once and are one step; `connect()`, `removeConnection` with `restart`, and `startInLoop` with `retry`
are cut at their reads and writes.

A call of `stop()` on the loop thread itself is the case in which its steps come in a row.
-/

namespace Muduo.Net

open Lib

/-- Where the loop thread is. -/
inductive FlagPoint where
  | idle
  /-- In `removeConnection`, before `if (retry_ && connect_)`. -/
  | removing
  /-- In `Connector::restart`, before `connect_ = true`. -/
  | restarting
  /-- In `TcpClient::connect`, before the `connect_ = true` of `Connector::start`. -/
  | calling
  /-- In `startInLoop`, before `if (connect_)`. -/
  | starting
  /-- In `retry`, before `if (connect_)`. -/
  | retrying (sockfd : Nat)
deriving DecidableEq, Repr

/-- How far the call of `stop()` has come. -/
inductive StopPoint where
  | before
  /-- `TcpClient::connect_` is cleared. -/
  | cleared
  /-- `Connector::connect_` is cleared too. -/
  | stopped
  /-- `stopInLoop` is queued. -/
  | queued
  /-- `stopInLoop` was executed; these sockets had been passed to `newConnectionCallback_` by then. -/
  | executed (handed : List Nat)
deriving DecidableEq, Repr

structure ClientStop where
  client : TcpClient
  loop : FlagPoint
  stop : StopPoint
deriving DecidableEq, Repr

inductive StopAction where
  | connect
  | start
  | disconnect
  | enableRetry
  | removeConnection
  | testRetry
  | restart
  | handleTimer
  | startInLoop (e : ConnectErrno)
  | retry
  | handleEvent (d : Connector.Dispatch)
  | resetChannel
  /-- The steps of `stop()`, and its functor. -/
  | clearClient
  | clearConnector
  | queueInLoop
  | stopInLoop
deriving DecidableEq, Repr

namespace ClientStop

def enabled (s : ClientStop) : StopAction → Prop
  | .connect => s.loop = .idle ∧ ∀ handed, s.stop ≠ .executed handed
  | .start => s.loop = .calling
  | .disconnect | .enableRetry => s.loop = .idle
  | .removeConnection => s.loop = .idle ∧ s.client.connection.isSome = true
  | .testRetry => s.loop = .removing
  | .restart => s.loop = .restarting
  | .handleTimer => s.loop = .idle ∧ 0 < s.client.connector.timers
  | .startInLoop _ => s.loop = .starting
  | .retry => ∃ sockfd, s.loop = .retrying sockfd
  | .handleEvent _ => s.loop = .idle ∧ s.client.connector.channel.isSome = true
  | .resetChannel => s.loop = .idle ∧ 0 < s.client.connector.resets
  | .clearClient => s.stop = .before
  | .clearConnector => s.stop = .cleared
  | .queueInLoop => s.stop = .stopped
  | .stopInLoop => s.loop = .idle ∧ s.stop = .queued

def setConnector (s : ClientStop) (connector : Connector) : ClientStop :=
  { s with client := { s.client with connector } }

/-- `startInLoop` up to the read of `connect_` in `retry`, if it comes to that. -/
def runStartInLoop (s : ClientStop) (e : ConnectErrno) : Outcome ClientStop := do
  assert (s.client.connector.state = .kDisconnected)
  if s.client.connector.wanted then
    let (connector, again) ← s.client.connector.dial e
    match again with
    | none => .ok { s.setConnector connector with loop := .idle }
    | some sockfd => .ok { s.setConnector connector with loop := .retrying sockfd }
  else .ok { s with loop := .idle }

def exec (s : ClientStop) : StopAction → Outcome ClientStop
  | .connect => .ok { s with client := { s.client with wanted := true }, loop := .calling }
  | .start => .ok { s.setConnector { s.client.connector with wanted := true } with loop := .starting }
  | .disconnect => .ok { s with client := s.client.disconnect }
  | .enableRetry => .ok { s with client := s.client.enableRetry }
  | .removeConnection => .ok { s with client := { s.client with connection := none }, loop := .removing }
  | .testRetry =>
      .ok (if s.client.retry && s.client.wanted then
        { s.setConnector s.client.connector.rearm with loop := .restarting } else { s with loop := .idle })
  | .restart => .ok { s.setConnector { s.client.connector with wanted := true } with loop := .starting }
  | .handleTimer =>
      .ok { s.setConnector { s.client.connector with timers := s.client.connector.timers - 1 } with loop := .starting }
  | .startInLoop e => s.runStartInLoop e
  | .retry =>
      match s.loop with
      | .retrying sockfd => .ok { s.setConnector (s.client.connector.retry sockfd) with loop := .idle }
      | _ => .ok s
  | .handleEvent d => do
      let client ← s.client.handleEvent d
      .ok { s with client }
  | .resetChannel => .ok { s with client := s.client.resetChannel }
  | .clearClient => .ok { s with client := { s.client with wanted := false }, stop := .cleared }
  | .clearConnector => .ok { s.setConnector { s.client.connector with wanted := false } with stop := .stopped }
  | .queueInLoop => .ok { s with stop := .queued }
  | .stopInLoop => do
      let connector ← s.client.connector.stopInLoop
      .ok { s.setConnector connector with stop := .executed connector.handed }

end ClientStop

/-- A new client, on which `stop()` is called once; after `stopInLoop`, `connect()` is not called any more. -/
def stopSystem : System ClientStop StopAction where
  init s := s = ⟨TcpClient.new, .idle, .before⟩
  enabled := ClientStop.enabled
  exec := ClientStop.exec

end Muduo.Net
