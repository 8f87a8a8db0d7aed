import Muduo.Net.Connector

/-!
# `Net.TcpClient` — a client that connects, and reconnects

The functions of `TcpClient.cc`, as they run on the loop thread, over the `Connector`. What the connection does
once it is established is its own matter: here it may close at any time when its channel is polled.

`ClientLoop` puts the client on its loop. One turn of `EventLoop::loop` polls, handles the events and the
expired timers, and runs the functors that were queued by then; a `resetChannel` that is queued while these run
waits for the next turn.
-/

namespace Muduo.Net

open Lib

/-- What `newConnection` makes: the socket, and the number in the name. -/
structure ClientConnection where
  sockfd : Nat
  connId : Nat
deriving DecidableEq, Repr

/-- `class TcpClient`. -/
structure TcpClient where
  connector : Connector
  retry : Bool
  /-- `connect_`. -/
  wanted : Bool
  nextConnId : Nat
  connection : Option ClientConnection
deriving DecidableEq, Repr

namespace TcpClient

def new : TcpClient where
  connector := Connector.new
  retry := false
  wanted := true
  nextConnId := 1
  connection := none

def enableRetry (t : TcpClient) : TcpClient := { t with retry := true }

def connect (t : TcpClient) (e : ConnectErrno) : Outcome TcpClient := do
  let connector ← t.connector.start e
  .ok { t with wanted := true, connector }

/-- `disconnect()`; `connection_->shutdown()` is the connection's matter. -/
def disconnect (t : TcpClient) : TcpClient := { t with wanted := false }

def stop (t : TcpClient) : Outcome TcpClient := do
  let connector ← t.connector.stop
  .ok { t with wanted := false, connector }

def newConnection (t : TcpClient) (sockfd : Nat) : TcpClient :=
  { t with nextConnId := t.nextConnId + 1, connection := some ⟨sockfd, t.nextConnId⟩ }

/-- The connector's channel is dispatched. It calls `newConnectionCallback_` last, if at all. -/
def handleEvent (t : TcpClient) (d : Connector.Dispatch) : Outcome TcpClient := do
  let connector ← t.connector.handleEvent d
  .ok ((connector.handed.drop t.connector.handed.length).foldl newConnection { t with connector })

def handleTimer (t : TcpClient) (e : ConnectErrno) : Outcome TcpClient := do
  let connector ← t.connector.handleTimer e
  .ok { t with connector }

def resetChannel (t : TcpClient) : TcpClient := { t with connector := t.connector.resetChannel }

/-- `removeConnection`, the close callback of the connection; `e` is for the attempt that `restart` makes. -/
def removeConnection (t : TcpClient) (conn : ClientConnection) (e : ConnectErrno) : Outcome TcpClient := do
  assert (t.connection = some conn)
  let t := { t with connection := none }
  if t.retry && t.wanted then
    let connector ← t.connector.restart e
    .ok { t with connector }
  else .ok t

end TcpClient

/-! ## The client on its loop -/

/-- Where `EventLoop::loop` is: after `poll`, or in `doPendingFunctors`. -/
inductive ClientPhase where
  | handling
  | running
deriving DecidableEq, Repr

structure ClientLoop where
  client : TcpClient
  phase : ClientPhase
  /-- How many `resetChannel` functors are among those that are being run. -/
  batch : Nat
  /-- The channel of the connection was there when `poll` was called. -/
  polled : Bool
deriving DecidableEq, Repr

inductive ClientAction where
  | connect (e : ConnectErrno)
  | disconnect
  | stop
  | enableRetry
  | poll
  | handleEvent (d : Connector.Dispatch)
  | handleTimer (e : ConnectErrno)
  /-- The connection closes, and `removeConnection` is called. -/
  | closeConnection (e : ConnectErrno)
  | doPendingFunctors
  | resetChannel
deriving DecidableEq, Repr

namespace ClientLoop

/-- The calls of the user come at any time, also from functors and callbacks. -/
def enabled (s : ClientLoop) : ClientAction → Prop
  | .connect _ | .disconnect | .stop | .enableRetry => True
  | .poll => s.phase = .running ∧ s.batch = 0
  | .handleEvent _ => s.phase = .handling ∧ s.client.connector.channel.isSome = true
  | .handleTimer _ => s.phase = .handling ∧ 0 < s.client.connector.timers
  | .closeConnection _ => s.phase = .handling ∧ s.polled = true
  | .doPendingFunctors => s.phase = .handling
  | .resetChannel => s.phase = .running ∧ 0 < s.batch

def exec (s : ClientLoop) : ClientAction → Outcome ClientLoop
  | .connect e => do
      let client ← s.client.connect e
      .ok { s with client }
  | .disconnect => .ok { s with client := s.client.disconnect }
  | .stop => do
      let client ← s.client.stop
      .ok { s with client }
  | .enableRetry => .ok { s with client := s.client.enableRetry }
  | .poll => .ok { s with phase := .handling, polled := s.client.connection.isSome }
  | .handleEvent d => do
      let client ← s.client.handleEvent d
      .ok { s with client }
  | .handleTimer e => do
      let client ← s.client.handleTimer e
      .ok { s with client }
  | .closeConnection e =>
      match s.client.connection with
      | none => .error .badAccess
      | some conn => do
          let client ← s.client.removeConnection conn e
          .ok { s with client, polled := false }
  | .doPendingFunctors => .ok { s with phase := .running, batch := s.client.connector.resets }
  | .resetChannel => .ok { s with client := s.client.resetChannel, batch := s.batch - 1 }

end ClientLoop

/-- Every use of a new client, from before its loop is started. -/
def clientSystem : System ClientLoop ClientAction where
  init s := s = ⟨TcpClient.new, .running, 0, false⟩
  enabled := ClientLoop.enabled
  exec := ClientLoop.exec

end Muduo.Net
