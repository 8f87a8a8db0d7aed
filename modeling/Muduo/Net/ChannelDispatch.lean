import Muduo.Net.TcpClient
import Muduo.Net.TcpConnection

/-!
# `Net.ChannelDispatch` — channels that come and go while a loop handles events

One `EventLoop` with everything that has a channel on it: its own `wakeupChannel_` and the timer channel, the
acceptors, any number of clients with their connectors, and the connections of clients and servers. Of all these only
what registers a channel with the poller or removes it is kept; the clients are those of `Net.TcpClient`.

User callbacks are called by handlers and functors, on the loop thread. A callback is the sequence of calls it makes,
each an action of its own, while the channel that led to it is the current one. `send` and the timers do not change
which channels are registered: `send` at most enables writing, and the timers have one channel for all.

The assertion in `EventLoop::removeChannel` is recorded, not enforced, so that it can be said what happens in either
build: `failed` when it has failed, `stale` when `handleEvent` was called on a channel that is not registered. The
other assertions end the run.
-/

namespace Muduo.Net

open Lib

/-- A connection: that of a client, by its socket, or one of a server, by number. -/
inductive LoopConnection (κ : Type) where
  | client (k : κ) (sockfd : Nat)
  | server (n : Nat)
deriving DecidableEq, Repr

/-- The channels. That of a connector is named by its socket; a new attempt has a new one. -/
inductive LoopChannel (κ : Type) where
  | wakeup
  | timerfd
  | acceptor (n : Nat)
  | connector (k : κ) (sockfd : Nat)
  | connection (conn : LoopConnection κ)
deriving DecidableEq, Repr

/-- The functors that are queued. -/
inductive LoopFunctor (κ : Type) where
  | resetChannel (k : κ)
  | startInLoop (k : κ) (e : ConnectErrno)
  | stopInLoop (k : κ)
  | connectEstablished (conn : LoopConnection κ)
  | connectDestroyed (conn : LoopConnection κ)
deriving DecidableEq, Repr

/-- `class EventLoop`, and what is on it. -/
structure DispatchLoop (κ : Type) where
  clients : κ → TcpClient
  /-- `state_` of the connections. -/
  states : LoopConnection κ → StateE
  /-- The channels in the poller's `channels_`. -/
  registered : LoopChannel κ → Bool
  eventHandling : Bool
  activeChannels : List (LoopChannel κ)
  /-- What the iteration over `activeChannels_` has not come to. -/
  rest : List (LoopChannel κ)
  currentActiveChannel : Option (LoopChannel κ)
  pendingFunctors : List (LoopFunctor κ)
  /-- What `doPendingFunctors` has still to run. -/
  functors : List (LoopFunctor κ)
  /-- The handler of the current channel is in `handleClose`, before `closeCallback_`. -/
  closing : Bool
  /-- The number of connections that servers have made. -/
  accepted : Nat
  /-- The closed connections whose server, on another loop, has still to queue `connectDestroyed`. -/
  leaving : List Nat
  failed : Bool
  stale : Bool

namespace DispatchLoop

/-- The constructor registers the two channels of the loop. -/
def new (κ : Type) : DispatchLoop κ where
  clients _ := TcpClient.new
  states _ := .kConnecting
  registered
    | .wakeup | .timerfd => true
    | _ => false
  eventHandling := false
  activeChannels := []
  rest := []
  currentActiveChannel := none
  pendingFunctors := []
  functors := []
  closing := false
  accepted := 0
  leaving := []
  failed := false
  stale := false

variable {κ : Type} [DecidableEq κ]

def updateChannel (s : DispatchLoop κ) (ch : LoopChannel κ) : DispatchLoop κ :=
  { s with registered := Function.update s.registered ch true }

/-- The assertion in `removeChannel`. -/
def Removable (s : DispatchLoop κ) (ch : LoopChannel κ) : Prop :=
  s.eventHandling = true → s.currentActiveChannel = some ch ∨ ch ∉ s.activeChannels

instance (s : DispatchLoop κ) (ch : LoopChannel κ) : Decidable (s.Removable ch) :=
  inferInstanceAs (Decidable (_ → _))

def removeChannel (s : DispatchLoop κ) (ch : LoopChannel κ) : DispatchLoop κ :=
  { s with failed := s.failed || !decide (s.Removable ch), registered := Function.update s.registered ch false }

def queueInLoop (s : DispatchLoop κ) (f : LoopFunctor κ) : DispatchLoop κ :=
  { s with pendingFunctors := s.pendingFunctors ++ [f] }

/-! ## Connections -/

def setState (s : DispatchLoop κ) (conn : LoopConnection κ) (state : StateE) : DispatchLoop κ :=
  { s with states := Function.update s.states conn state }

/-- `connectEstablished`, on a connection that is new. -/
def established (s : DispatchLoop κ) (conn : LoopConnection κ) : DispatchLoop κ :=
  (s.setState conn .kConnected).updateChannel (.connection conn)

def connectEstablished (s : DispatchLoop κ) (conn : LoopConnection κ) : Outcome (DispatchLoop κ) := do
  assert (s.states conn = .kConnecting)
  .ok (s.established conn)

/-- `send`; `more` when the kernel does not take everything, and writing is enabled. -/
def send (s : DispatchLoop κ) (conn : LoopConnection κ) (more : Bool) : DispatchLoop κ :=
  if s.states conn = .kConnected ∧ more = true then s.updateChannel (.connection conn) else s

def shutdown (s : DispatchLoop κ) (conn : LoopConnection κ) : DispatchLoop κ :=
  if s.states conn = .kConnected then s.setState conn .kDisconnecting else s

/-- `handleClose` up to the call of `closeCallback_`. -/
def handleClose (s : DispatchLoop κ) (conn : LoopConnection κ) : Outcome (DispatchLoop κ) := do
  assert (s.states conn = .kConnected ∨ s.states conn = .kDisconnecting)
  .ok { (s.setState conn .kDisconnected).updateChannel (.connection conn) with closing := true }

def connectDestroyed (s : DispatchLoop κ) (conn : LoopConnection κ) : DispatchLoop κ :=
  let s := if s.states conn = .kConnected then
    (s.setState conn .kDisconnected).updateChannel (.connection conn) else s
  s.removeChannel (.connection conn)

/-! ## Clients -/

/-- A function of client `k` has returned with the client `t'`. If it came to `removeAndResetChannel`, which queues a
    functor each time, then the channel was removed; if to `connecting`, then there is a new channel; and each socket
    passed to `newConnectionCallback_` is a new connection. -/
def setClient (s : DispatchLoop κ) (k : κ) (t' : TcpClient) : DispatchLoop κ :=
  let c := (s.clients k).connector
  let c' := t'.connector
  let s := { s with clients := Function.update s.clients k t' }
  -- `channel_->remove()`, and `resetChannel` is queued
  let s := match c.channel with
    | some ch =>
        if c.resets < c'.resets then (s.removeChannel (.connector k ch.fd)).queueInLoop (.resetChannel k) else s
    | none => s
  -- `channel_.reset(new Channel(...))` and `enableWriting()`
  let s := match c.channel, c'.channel with
    | none, some ch => s.updateChannel (.connector k ch.fd)
    | _, _ => s
  (c'.handed.drop c.handed.length).foldl (fun s sockfd => s.established (.client k sockfd)) s

/-- `startInLoop` and `stopInLoop` as functors. -/
def runConnector (s : DispatchLoop κ) (k : κ) (c : Outcome Connector) : Outcome (DispatchLoop κ) := do
  let connector ← c
  .ok (s.setClient k { s.clients k with connector })

/-- `connect_` of client and connector, as `connect()` and `stop()` set them on another thread. -/
def setWanted (s : DispatchLoop κ) (k : κ) (wanted : Bool) : DispatchLoop κ :=
  let t := s.clients k
  { s with
    clients := Function.update s.clients k { t with wanted, connector := { t.connector with wanted } } }

/-- `disconnect()`. -/
def disconnect (s : DispatchLoop κ) (k : κ) : DispatchLoop κ :=
  let s' := s.setClient k (s.clients k).disconnect
  match (s.clients k).connection with
  | none => s'
  -- `shutdown()`, which does nothing if the connection is on its way down already
  | some conn => s'.shutdown (.client k conn.sockfd)

/-- The close callback of a connection: `TcpClient::removeConnection`, for which `e` is, or
    `TcpServer::removeConnection`, with `here` when the server's own loop is this one. -/
def closeCallback (s : DispatchLoop κ) (e : ConnectErrno) (here : Bool) :
    LoopConnection κ → Outcome (DispatchLoop κ)
  | .client k sockfd =>
      match (s.clients k).connection with
      | none => .error .assertion
      | some conn => do
          assert (conn.sockfd = sockfd)
          let t ← (s.clients k).removeConnection conn e
          .ok ((s.queueInLoop (.connectDestroyed (.client k sockfd))).setClient k t)
  | .server n =>
      .ok (if here then s.queueInLoop (.connectDestroyed (.server n)) else { s with leaving := n :: s.leaving })

def runFunctor (s : DispatchLoop κ) : LoopFunctor κ → Outcome (DispatchLoop κ)
  | .resetChannel k => .ok { s with clients := Function.update s.clients k (s.clients k).resetChannel }
  | .startInLoop k e => s.runConnector k ((s.clients k).connector.startInLoop e)
  | .stopInLoop k => s.runConnector k (s.clients k).connector.stopInLoop
  | .connectEstablished conn => s.connectEstablished conn
  | .connectDestroyed conn => .ok (s.connectDestroyed conn)

end DispatchLoop

/-! ## The loop -/

inductive DispatchAction (κ : Type) where
  /-- The steps of `EventLoop::loop`. `handleEvent` is called on the next channel; `d` is for that of a connector. -/
  | poll (activeChannels : List (LoopChannel κ))
  | handleEvent (d : Connector.Dispatch)
  | doPendingFunctors
  | runFunctor
  /-- The calls of the user. -/
  | connect (k : κ) (e : ConnectErrno)
  | disconnect (k : κ)
  | stop (k : κ)
  | enableRetry (k : κ)
  | send (conn : LoopConnection κ) (more : Bool)
  | shutdown (conn : LoopConnection κ)
  | listen (n : Nat)
  /-- What else the handler of the current channel does: a connection closes, a timer of `retry` expires, a connection
      is accepted. -/
  | handleClose
  | closeCallback (e : ConnectErrno) (here : Bool)
  | handleTimer (k : κ) (e : ConnectErrno)
  | accept
  /-- The calls of other threads, which queue a functor. -/
  | queueStart (k : κ) (e : ConnectErrno)
  | queueStop (k : κ)
  | queueEstablished
  | queueDestroyed (n : Nat)
deriving DecidableEq, Repr

namespace DispatchLoop

variable {κ : Type} [DecidableEq κ]

/-- A handler or a functor may be running. -/
def Calling (s : DispatchLoop κ) : Prop := s.eventHandling = true → s.currentActiveChannel.isSome = true

def enabled (s : DispatchLoop κ) : DispatchAction κ → Prop
  | .poll activeChannels => s.eventHandling = false ∧ s.functors = [] ∧ activeChannels.Nodup ∧
      ∀ ch ∈ activeChannels, s.registered ch = true
  | .handleEvent _ => s.eventHandling = true ∧ s.rest ≠ [] ∧ s.closing = false
  | .doPendingFunctors => s.eventHandling = true ∧ s.rest = [] ∧ s.closing = false
  | .runFunctor => s.eventHandling = false ∧ s.functors ≠ []
  | .connect _ _ | .disconnect _ | .stop _ | .enableRetry _ | .send _ _ | .shutdown _ | .listen _ => s.Calling
  | .handleClose => s.eventHandling = true ∧ s.closing = false ∧
      ∃ conn, s.currentActiveChannel = some (.connection conn)
  | .closeCallback _ _ => s.closing = true
  | .handleTimer k _ => s.eventHandling = true ∧ s.currentActiveChannel = some .timerfd ∧
      0 < (s.clients k).connector.timers
  | .accept => s.eventHandling = true ∧ ∃ n, s.currentActiveChannel = some (.acceptor n)
  | .queueStart _ _ | .queueStop _ | .queueEstablished => True
  | .queueDestroyed n => n ∈ s.leaving

def exec (s : DispatchLoop κ) : DispatchAction κ → Outcome (DispatchLoop κ)
  | .poll activeChannels =>
      .ok { s with activeChannels, rest := activeChannels, currentActiveChannel := none, eventHandling := true }
  | .handleEvent d =>
      match s.rest with
      | [] => .error .badAccess
      | ch :: rest => do
          -- the handler may remove this channel, but it is called in any case
          let s := { s with rest, currentActiveChannel := some ch, stale := s.stale || !s.registered ch }
          match ch with
          | .connector k _ => do
              let t ← (s.clients k).handleEvent d
              .ok (s.setClient k t)
          -- what the other handlers do are actions of their own
          | _ => .ok s
  | .doPendingFunctors =>
      .ok { s with
        currentActiveChannel := none
        eventHandling := false
        functors := s.pendingFunctors
        pendingFunctors := [] }
  | .runFunctor =>
      match s.functors with
      | [] => .error .badAccess
      | f :: functors => { s with functors }.runFunctor f
  | .connect k e => do
      let t ← (s.clients k).connect e
      .ok (s.setClient k t)
  | .disconnect k => .ok (s.disconnect k)
  | .stop k => do
      let t ← (s.clients k).stop
      .ok (s.setClient k t)
  | .enableRetry k => .ok (s.setClient k (s.clients k).enableRetry)
  | .send conn more => .ok (s.send conn more)
  | .shutdown conn => .ok (s.shutdown conn)
  | .listen n => .ok (s.updateChannel (.acceptor n))
  | .handleClose =>
      match s.currentActiveChannel with
      | some (.connection conn) => s.handleClose conn
      | _ => .error .badAccess
  | .closeCallback e here =>
      match s.currentActiveChannel with
      | some (.connection conn) => { s with closing := false }.closeCallback e here conn
      | _ => .error .badAccess
  | .handleTimer k e => do
      let t ← (s.clients k).handleTimer e
      .ok (s.setClient k t)
  | .accept => .ok ({ s with accepted := s.accepted + 1 }.established (.server s.accepted))
  | .queueStart k e => .ok ((s.setWanted k true).queueInLoop (.startInLoop k e))
  | .queueStop k => .ok ((s.setWanted k false).queueInLoop (.stopInLoop k))
  | .queueEstablished =>
      .ok ({ s with accepted := s.accepted + 1 }.queueInLoop (.connectEstablished (.server s.accepted)))
  | .queueDestroyed n =>
      .ok ({ s with leaving := s.leaving.erase n }.queueInLoop (.connectDestroyed (.server n)))

end DispatchLoop

/-- Every use of a loop. -/
def dispatchSystem (κ : Type) [DecidableEq κ] : System (DispatchLoop κ) (DispatchAction κ) where
  init s := s = DispatchLoop.new κ
  enabled := DispatchLoop.enabled
  exec := DispatchLoop.exec

end Muduo.Net
