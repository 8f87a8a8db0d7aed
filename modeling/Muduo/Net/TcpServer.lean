import Mathlib.Data.List.AList
import Muduo.Lib.Decimal
import Muduo.Lib.System
import Muduo.Net.TcpConnection

/-!
# `Net.TcpServer` — the server, its connections, and the loops they live on

The functions of `TcpServer.cc`, with the part of `EventLoopThreadPool`, `InetAddress` and `EventLoop` they
use. The server runs on the base loop. Each connection runs on the loop that `getNextLoop` chose for it, which
is the base loop itself when the pool has no threads. A call that has to run on another loop is a functor in
that loop's queue; a call that is already there is made at once.

A `TcpConnectionPtr` is the number `nextConnId_` had when the connection was created. `log` records which of
the life cycle functions ran, for which connection, and on which loop; the code does not read it.
-/

namespace Muduo.Net

open Lib

/-! ## Names -/

/-- The text that `snprintf` leaves in an array of `size` characters. -/
def snprintf (size : Nat) (text : List Char) : List Char := text.take (size - 1)

/-- `class InetAddress`: the octets of an IPv4 address, and the port. -/
structure InetAddress where
  octet₁ : UInt8
  octet₂ : UInt8
  octet₃ : UInt8
  octet₄ : UInt8
  port : UInt16
deriving DecidableEq, Repr

/-- `toIp`: the dotted quad of `inet_ntop`. -/
def InetAddress.toIp (a : InetAddress) : List Char :=
  decimal a.octet₁.toNat ++ '.' :: decimal a.octet₂.toNat ++ '.' :: decimal a.octet₃.toNat ++
    '.' :: decimal a.octet₄.toNat

/-- `toIpPort`: `"%s:%u"`. -/
def InetAddress.toIpPort (a : InetAddress) : List Char :=
  snprintf 32 (a.toIp ++ ':' :: decimal a.port.toNat)

/-! ## The thread pool -/

/-- An `EventLoop`, by its place. -/
inductive LoopId where
  /-- The loop the server was constructed with. -/
  | base
  /-- The loop of a thread of the pool. -/
  | io (i : Nat)
deriving DecidableEq, Repr

/-- `class EventLoopThreadPool`, started. -/
structure EventLoopThreadPool where
  loops : List LoopId
  next : Nat
deriving DecidableEq, Repr

/-- The pool that `start` leaves after `setThreadNum(numThreads)`. -/
def EventLoopThreadPool.start (numThreads : Nat) : EventLoopThreadPool where
  loops := (List.range numThreads).map .io
  next := 0

/-- `getNextLoop`: round-robin, or the base loop if there are no threads. -/
def EventLoopThreadPool.getNextLoop (p : EventLoopThreadPool) : Outcome (LoopId × EventLoopThreadPool) :=
  if p.loops.isEmpty then .ok (.base, p)
  else
    match p.loops[p.next]? with
    | none => .error .badAccess
    | some loop => .ok (loop, { p with next := if p.next + 1 ≥ p.loops.length then 0 else p.next + 1 })

/-! ## The server -/

/-- `class TcpServer`; `connections_` is a map from names to connections. -/
structure TcpServer where
  hostport : List Char
  name : List Char
  threadPool : EventLoopThreadPool
  /-- `writeCompleteCallback_` is set. -/
  writeCompleteCallback : Bool
  nextConnId : Nat
  connections : AList fun _ : List Char => Nat

namespace TcpServer

/-- The constructor, and `start`. -/
def new (listenAddr : InetAddress) (nameArg : List Char) (numThreads : Nat) (writeComplete : Bool) :
    TcpServer where
  hostport := listenAddr.toIpPort
  name := nameArg
  threadPool := EventLoopThreadPool.start numThreads
  writeCompleteCallback := writeComplete
  nextConnId := 1
  connections := ∅

/-- `name_ + buf`, where `buf` is `snprintf` of `":%s#%d"`. -/
def connName (sv : TcpServer) (id : Nat) : List Char :=
  sv.name ++ snprintf 32 (':' :: sv.hostport ++ '#' :: decimal id)

/-- What `newConnection` does to the server: `++nextConnId_`, and `connections_[connName] = conn`. -/
def addConnection (sv : TcpServer) : TcpServer :=
  { sv with
    nextConnId := sv.nextConnId + 1
    connections := sv.connections.insert (sv.connName sv.nextConnId) sv.nextConnId }

/-- `size_t n = connections_.erase(name); assert(n == 1)`. -/
def eraseConnection (sv : TcpServer) (name : List Char) : Outcome TcpServer := do
  let n := if name ∈ sv.connections then 1 else 0
  assert (n = 1)
  .ok { sv with connections := sv.connections.erase name }

end TcpServer

/-! ## All loops together -/

/-- What a functor about a connection does. -/
inductive ServerTask where
  | connectEstablished
  | removeConnectionInLoop
  | connectDestroyed
  /-- `writeCompleteCallback_` or `highWaterMarkCallback_`. -/
  | callback (f : ConnFunctor)
deriving DecidableEq, Repr

/-- A functor in a loop's queue, with the connection it is bound to. -/
structure ServerFunctor where
  id : Nat
  task : ServerTask
deriving DecidableEq, Repr

/-- The functions whose order matters; `handled` is a dispatch of the connection's channel. -/
inductive LifeEvent where
  | established
  | handled
  | closed
  | removed
  | destroyed
deriving DecidableEq, Repr

structure LogEntry where
  id : Nat
  loop : LoopId
  event : LifeEvent
deriving DecidableEq, Repr

/-- A `TcpConnection` with the members that `TcpConnection` here leaves out: `name_` and `loop_`. -/
structure ConnObject where
  name : List Char
  loop : LoopId
  conn : TcpConnection
deriving DecidableEq, Repr

/-- The server, the connections it has created, and the queue of every loop. -/
structure ServerRun where
  server : TcpServer
  objects : Nat → Option ConnObject
  queues : LoopId → List ServerFunctor
  log : List LogEntry

namespace ServerRun

def note (s : ServerRun) (loop : LoopId) (id : Nat) (event : LifeEvent) : ServerRun :=
  { s with log := s.log ++ [⟨id, loop, event⟩] }

def queueInLoop (s : ServerRun) (loop : LoopId) (fs : List ServerFunctor) : ServerRun :=
  { s with queues := Function.update s.queues loop (s.queues loop ++ fs) }

/-- `loop->runInLoop(f)`, called on loop `current`; `now` is what `f` does. -/
def runInLoop (s : ServerRun) (current loop : LoopId) (f : ServerFunctor)
    (now : ServerRun → Outcome ServerRun) : Outcome ServerRun :=
  if current = loop then now s else .ok (s.queueInLoop loop [f])

/-- The object behind a `TcpConnectionPtr`. -/
def deref (s : ServerRun) (id : Nat) : Outcome ConnObject :=
  match s.objects id with
  | none => .error .badAccess
  | some o => .ok o

def removeConnectionInLoop (s : ServerRun) (current : LoopId) (id : Nat) : Outcome ServerRun := do
  assert (current = .base) -- `loop_->assertInLoopThread()`
  let conn ← s.deref id
  let server ← s.server.eraseConnection conn.name
  .ok (({ s with server }.note current id .removed).queueInLoop conn.loop [⟨id, .connectDestroyed⟩])

def removeConnection (s : ServerRun) (current : LoopId) (id : Nat) : Outcome ServerRun :=
  s.runInLoop current .base ⟨id, .removeConnectionInLoop⟩ fun s => s.removeConnectionInLoop current id

/-- The end of a call into connection `id`, made on loop `current`, that left it as `conn`. What it queued
    goes to the queue of its loop; if it ran `closeCallback_`, that is `removeConnection` here, and the
    mark that `TcpConnection.closeCallback` leaves in its place is taken away. -/
def settle (s : ServerRun) (current : LoopId) (id : Nat) (o : ConnObject) (conn : TcpConnection) :
    Outcome ServerRun :=
  let flow := (conn.queued.filter (· ≠ .connectDestroyed)).map fun f => ⟨id, .callback f⟩
  let s := { s with objects := Function.update s.objects id (some { o with conn := { conn with queued := [] } }) }
  let s := s.queueInLoop o.loop flow
  if .connectDestroyed ∈ conn.queued then (s.note current id .closed).removeConnection current id else .ok s

/-- `conn->connectEstablished()`, on loop `current`. -/
def connectEstablished (s : ServerRun) (current : LoopId) (id : Nat) (us : List UserCall) :
    Outcome ServerRun := do
  let o ← s.deref id
  assert (current = o.loop)
  let conn ← o.conn.connectEstablished us
  (s.note current id .established).settle current id o conn

/-- `conn->connectDestroyed()`, on loop `current`. -/
def connectDestroyed (s : ServerRun) (current : LoopId) (id : Nat) (us : List UserCall) :
    Outcome ServerRun := do
  let o ← s.deref id
  assert (current = o.loop)
  let conn ← o.conn.connectDestroyed us
  (s.note current id .destroyed).settle current id o conn

/-- The poller of the connection's loop reports its channel. -/
def handleEvent (s : ServerRun) (id : Nat) (d : TcpConnection.Dispatch) : Outcome ServerRun := do
  let o ← s.deref id
  let conn ← o.conn.handleEvent d
  (s.note o.loop id .handled).settle o.loop id o conn

/-- User code calls a method of the connection, on the connection's loop. -/
def userCall (s : ServerRun) (id : Nat) (u : UserCall) : Outcome ServerRun := do
  let o ← s.deref id
  let conn ← o.conn.userCall u
  s.settle o.loop id o conn

/-- A functor that ends up in a user callback. -/
def runCallback (s : ServerRun) (current : LoopId) (id : Nat) (f : ConnFunctor) (us : List UserCall) :
    Outcome ServerRun := do
  let o ← s.deref id
  let conn ← o.conn.runFunctor f us
  s.settle current id o conn

/-- `newConnection`, on the base loop; `us` are the calls of the connection callback, if it runs now. -/
def newConnection (s : ServerRun) (us : List UserCall) : Outcome ServerRun := do
  let (ioLoop, threadPool) ← s.server.threadPool.getNextLoop
  let id := s.server.nextConnId
  let conn : ConnObject :=
    ⟨s.server.connName id, ioLoop, TcpConnection.new s.server.writeCompleteCallback false⟩
  let s := { s with
    server := { s.server.addConnection with threadPool }
    objects := Function.update s.objects id (some conn) }
  s.runInLoop .base ioLoop ⟨id, .connectEstablished⟩ fun s => s.connectEstablished .base id us

/-- Run a functor on loop `current`; `us` are the calls of the user callback it may end up in. -/
def runFunctor (s : ServerRun) (current : LoopId) (f : ServerFunctor) (us : List UserCall) :
    Outcome ServerRun :=
  match f.task with
  | .connectEstablished => s.connectEstablished current f.id us
  | .removeConnectionInLoop => s.removeConnectionInLoop current f.id
  | .connectDestroyed => s.connectDestroyed current f.id us
  | .callback g => s.runCallback current f.id g us

/-- The oldest functor of loop `l` is run. -/
def runNext (s : ServerRun) (l : LoopId) (us : List UserCall) : Outcome ServerRun :=
  match s.queues l with
  | [] => .ok s
  | f :: rest => { s with queues := Function.update s.queues l rest }.runFunctor l f us

/-- The steps of all loops. -/
inductive Action where
  | newConnection (us : List UserCall)
  | handleEvent (id : Nat) (d : TcpConnection.Dispatch)
  | userCall (id : Nat) (u : UserCall)
  | runNext (l : LoopId) (us : List UserCall)

def exec (s : ServerRun) : Action → Outcome ServerRun
  | .newConnection us => s.newConnection us
  | .handleEvent id d => s.handleEvent id d
  | .userCall id u => s.userCall id u
  | .runNext l us => s.runNext l us

end ServerRun

end Muduo.Net
