import Muduo.Lib.System
import Muduo.Net.Channel

/-!
# `Net.Connector` — connecting to a server, with retries

The functions of `Connector.cc`, as they run on the loop thread. The sockets that `createNonblockingOrDie`
returns are numbered; what the kernel answers to `connect(2)`, `SO_ERROR` and the self-connect test is an
argument. What the connector does to its surroundings is recorded: the sockets closed, the sockets handed to
`newConnectionCallback_`, the `resetChannel` functors queued and the timers set with `runAfter`.

`retry` is the one place where `connect()` looks at `connect_`, so `connect` is cut in two there: `dial` is what
comes before.
-/

namespace Muduo.Net

open Lib

/-- `errno` of `connect(2)`; `success` stands for the result 0. -/
inductive ConnectErrno where
  | success | EINPROGRESS | EINTR | EISCONN
  | EAGAIN | EADDRINUSE | EADDRNOTAVAIL | ECONNREFUSED | ENETUNREACH
  | EACCES | EPERM | EAFNOSUPPORT | EALREADY | EBADF | EFAULT | ENOTSOCK
  | other (code : Nat)
deriving DecidableEq, Repr

/-- The cases of the `switch` in `connect()`. -/
inductive ConnectCase where
  | connecting
  | retry
  | fail
deriving DecidableEq, Repr

def ConnectErrno.case : ConnectErrno → ConnectCase
  | .success | .EINPROGRESS | .EINTR | .EISCONN => .connecting
  | .EAGAIN | .EADDRINUSE | .EADDRNOTAVAIL | .ECONNREFUSED | .ENETUNREACH => .retry
  | .EACCES | .EPERM | .EAFNOSUPPORT | .EALREADY | .EBADF | .EFAULT | .ENOTSOCK => .fail
  | .other _ => .fail -- "Unexpected error in Connector::startInLoop"

/-- `Connector::States`. -/
inductive ConnectorState where
  | kDisconnected
  | kConnecting
  | kConnected
deriving DecidableEq, Repr

/-- The channel of a connecting socket. -/
structure ConnectorChannel where
  fd : Nat
  channel : Channel
deriving DecidableEq, Repr

/-- `class Connector`. -/
structure Connector where
  /-- `connect_`. -/
  wanted : Bool
  state : ConnectorState
  channel : Option ConnectorChannel
  retryDelayMs : Nat
  /-- The number of sockets created; the next one gets this number. -/
  created : Nat
  /-- The sockets closed, oldest first. -/
  closed : List Nat
  /-- The sockets passed to `newConnectionCallback_`, oldest first. -/
  handed : List Nat
  /-- The `resetChannel` functors that are queued. -/
  resets : Nat
  /-- The timers that will run `startInLoop`. -/
  timers : Nat
deriving DecidableEq, Repr

namespace Connector

def kMaxRetryDelayMs : Nat := 30 * 1000
def kInitRetryDelayMs : Nat := 500

def new : Connector where
  wanted := false
  state := .kDisconnected
  channel := none
  retryDelayMs := kInitRetryDelayMs
  created := 0
  closed := []
  handed := []
  resets := 0
  timers := 0

def setState (c : Connector) (s : ConnectorState) : Connector := { c with state := s }

/-- `sockets::close`. -/
def close (c : Connector) (sockfd : Nat) : Connector := { c with closed := c.closed ++ [sockfd] }

/-- `newConnectionCallback_(sockfd)`. -/
def newConnectionCallback (c : Connector) (sockfd : Nat) : Connector :=
  { c with handed := c.handed ++ [sockfd] }

def retry (c : Connector) (sockfd : Nat) : Connector :=
  let c := (c.close sockfd).setState .kDisconnected
  if c.wanted then
    { c with timers := c.timers + 1, retryDelayMs := min (c.retryDelayMs * 2) kMaxRetryDelayMs }
  else c

def connecting (c : Connector) (sockfd : Nat) : Outcome Connector := do
  let c := c.setState .kConnecting
  assert (c.channel = none)
  .ok { c with channel := some ⟨sockfd, Channel.new.enableWriting⟩ }

/-- `connect()` up to the call of `retry`: the socket that is to be retried, if there is one. -/
def dial (c : Connector) (e : ConnectErrno) : Outcome (Connector × Option Nat) := do
  let sockfd := c.created
  let c := { c with created := c.created + 1 }
  match e.case with
  | .connecting =>
      let c ← c.connecting sockfd
      .ok (c, none)
  | .retry => .ok (c, some sockfd)
  | .fail => .ok (c.close sockfd, none)

/-- `connect()`; `e` is what `connect(2)` reports. -/
def connect (c : Connector) (e : ConnectErrno) : Outcome Connector := do
  let (c, again) ← c.dial e
  match again with
  | none => .ok c
  | some sockfd => .ok (c.retry sockfd)

def startInLoop (c : Connector) (e : ConnectErrno) : Outcome Connector := do
  assert (c.state = .kDisconnected)
  if c.wanted then c.connect e else .ok c

/-- `start()`, called on the loop thread. -/
def start (c : Connector) (e : ConnectErrno) : Outcome Connector := { c with wanted := true }.startInLoop e

/-- A timer set by `retry` runs `startInLoop`. -/
def handleTimer (c : Connector) (e : ConnectErrno) : Outcome Connector :=
  { c with timers := c.timers - 1 }.startInLoop e

/-- `restart()` up to the assignment `connect_ = true`. -/
def rearm (c : Connector) : Connector := { c.setState .kDisconnected with retryDelayMs := kInitRetryDelayMs }

def restart (c : Connector) (e : ConnectErrno) : Outcome Connector := { c.rearm with wanted := true }.startInLoop e

/-- `removeAndResetChannel()`: the socket, and the connector. -/
def removeAndResetChannel (c : Connector) : Outcome (Nat × Connector) :=
  match c.channel with
  | none => .error .badAccess
  | some ch => do
      let channel := ch.channel.disableAll
      channel.remove
      .ok (ch.fd, { c with channel := some { ch with channel }, resets := c.resets + 1 })

def resetChannel (c : Connector) : Connector := { c with channel := none, resets := c.resets - 1 }

def stopInLoop (c : Connector) : Outcome Connector :=
  if c.state = .kConnecting then do
    let (sockfd, c) ← (c.setState .kDisconnected).removeAndResetChannel
    .ok (c.retry sockfd)
  else .ok c

/-- `stop()`, called on the loop thread. -/
def stop (c : Connector) : Outcome Connector := { c with wanted := false }.stopInLoop

/-- `handleWrite`; `err` is `SO_ERROR`, `self` the result of `isSelfConnect`. -/
def handleWrite (c : Connector) (err : Nat) (self : Bool) : Outcome Connector :=
  if c.state = .kConnecting then do
    let (sockfd, c) ← c.removeAndResetChannel
    if err ≠ 0 then .ok (c.retry sockfd)
    else if self then .ok (c.retry sockfd)
    else
      let c := c.setState .kConnected
      .ok (if c.wanted then c.newConnectionCallback sockfd else c.close sockfd)
  else do
    -- what happened?
    assert (c.state = .kDisconnected)
    .ok c

def handleError (c : Connector) : Outcome Connector := do
  assert (c.state = .kConnecting)
  let (sockfd, c) ← c.removeAndResetChannel
  .ok (c.retry sockfd)

/-- What a dispatch of the channel finds: the mask, `SO_ERROR`, and whether the socket is connected to itself. -/
structure Dispatch where
  revents : EventMask
  err : Nat
  self : Bool
deriving DecidableEq, Repr

/-- `connecting` sets two callbacks; the other two stay empty. -/
def callbacks (d : Dispatch) : Channel.Callbacks Connector where
  closeCallback := .ok
  errorCallback := handleError
  readCallback := .ok
  writeCallback c := c.handleWrite d.err d.self

/-- `Channel::handleEvent` on the channel, which is not tied. -/
def handleEvent (c : Connector) (d : Dispatch) : Outcome Connector :=
  Channel.handleEventWithGuard d.revents (callbacks d) c

/-! ## A connector in use -/

/-- A connector, and the sockets it has handed out whose connection has not closed yet. -/
structure Run where
  connector : Connector
  alive : List Nat
deriving DecidableEq, Repr

inductive Action where
  | start (e : ConnectErrno)
  | stop
  | handleEvent (d : Dispatch)
  | handleTimer (e : ConnectErrno)
  /-- The functor that `removeAndResetChannel` has queued. -/
  | resetChannel
  /-- The connection on `sockfd` has closed, and its owner calls `restart`. -/
  | restart (sockfd : Nat) (e : ConnectErrno)
  /-- The connection on `sockfd` has closed; its owner does not reconnect. -/
  | closeConnection (sockfd : Nat)
deriving DecidableEq, Repr

namespace Run

def enabled (s : Run) : Action → Prop
  | .start _ | .stop => True
  | .handleEvent _ => s.connector.channel.isSome = true
  | .handleTimer _ => 0 < s.connector.timers
  | .resetChannel => 0 < s.connector.resets
  | .restart sockfd _ | .closeConnection sockfd => sockfd ∈ s.alive

/-- The call returned `c`: what it has handed out is alive. -/
def set (s : Run) (c : Connector) : Run :=
  ⟨c, s.alive ++ c.handed.drop s.connector.handed.length⟩

def exec (s : Run) : Action → Outcome Run
  | .start e => do
      let c ← s.connector.start e
      .ok (s.set c)
  | .stop => do
      let c ← s.connector.stop
      .ok (s.set c)
  | .handleEvent d => do
      let c ← s.connector.handleEvent d
      .ok (s.set c)
  | .handleTimer e => do
      let c ← s.connector.handleTimer e
      .ok (s.set c)
  | .resetChannel => .ok (s.set s.connector.resetChannel)
  | .restart sockfd e => do
      let c ← s.connector.restart e
      .ok ({ s with alive := s.alive.erase sockfd }.set c)
  | .closeConnection sockfd => .ok { s with alive := s.alive.erase sockfd }

end Run

/-- Every use of a new connector. -/
def connectorSystem : System Run Action where
  init s := s = ⟨new, []⟩
  enabled := Run.enabled
  exec := Run.exec

end Connector

end Muduo.Net
