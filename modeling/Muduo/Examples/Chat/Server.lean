import Muduo.Lib.CopyOnWrite
import Muduo.Lib.OrderedSet
import Muduo.Lib.System

/-!
# `Examples.Chat.Server` — a broadcast to connections that come and go

`ChatServer` of `server_threaded_efficient.cc`. Connections come and go, and messages arrive, on several threads at
once. The set of connections is behind a `shared_ptr`: a broadcast holds a copy of the pointer while it goes over the
set without the mutex, and `onConnection` changes the set in place only if nobody does.

An action is what a thread does at one time: with the mutex locked, it does several things that other threads may come
between, as far as they do not need the mutex. What a broadcast passes to `codec_.send` is recorded.
-/

namespace Muduo.Examples

open Lib

/-- How far a thread is in `onConnection`. -/
inductive Phase where
  /-- Before `connections_.unique()` is called. -/
  | locked
  /-- The list is shared, and is to be copied. -/
  | shared
  /-- Before the list is changed. -/
  | ready
deriving DecidableEq, Repr

/-- A call of `onConnection` that has locked the mutex. -/
structure OnConnection (T Conn : Type) where
  thread : T
  conn : Conn
  connected : Bool
  phase : Phase

/-- The iterator of a broadcast. -/
inductive Position (Conn : Type) where
  | before
  | at (conn : Conn)
  | «end»

/-- The iterator at the first of the connections in `s`. -/
def Position.first {Conn : Type} [LinearOrder Conn] (s : Finset Conn) : Position Conn :=
  match OrderedSet.first s with
  | some conn => .at conn
  | none => .end

/-- A call of `onStringMessage` that holds the list. -/
structure OnStringMessage (Conn : Type) where
  message : List UInt8
  position : Position Conn

/-- `class ChatServer`, with its mutex and the calls its threads are in. -/
structure ChatServer (T Conn : Type) where
  connections : Shared T (Finset Conn)
  mutex : Option (OnConnection T Conn)
  running : T → Option (OnStringMessage Conn)
  /-- The calls of `codec_.send`, oldest first. -/
  sent : List (T × Conn × List UInt8)

/-- What a thread does next. -/
inductive ChatAction (T Conn : Type) where
  /-- `onConnection` is called, and locks the mutex. -/
  | lock (t : T) (conn : Conn) (connected : Bool)
  | checkUnique (t : T)
  | copy (t : T)
  /-- The list is changed, and the mutex unlocked. -/
  | change (t : T) (conn : Conn) (connected : Bool)
  /-- `onStringMessage` is called, and gets the list. -/
  | getConnectionList (t : T) (message : List UInt8)
  | begin (t : T)
  /-- The body of the loop, and `++it`. -/
  | send (t : T)
  /-- `onStringMessage` returns, and lets go of the list. -/
  | finish (t : T)

namespace ChatServer

variable {T Conn : Type} [Fintype T] [DecidableEq T] [LinearOrder Conn]

/-- `insert` or `erase`. -/
def update (conn : Conn) (connected : Bool) (s : Finset Conn) : Finset Conn :=
  if connected then insert conn s else s.erase conn

/-- The thread `t` has locked the mutex, and is in `phase`. -/
def holds (s : ChatServer T Conn) (t : T) (phase : Phase) : Prop :=
  ∃ call, s.mutex = some call ∧ call.thread = t ∧ call.phase = phase

def setPhase (s : ChatServer T Conn) (phase : Phase) : ChatServer T Conn :=
  { s with mutex := s.mutex.map fun call => { call with phase } }

/-- The broadcast of `t` has its iterator at `position`. -/
def setPosition (s : ChatServer T Conn) (t : T) (position : Position Conn) : ChatServer T Conn :=
  { s with running := Function.update s.running t ((s.running t).map fun call => { call with position }) }

/-- The loop of a broadcast, from its iterator. -/
def sendNext (s : ChatServer T Conn) (t : T) : Outcome (ChatServer T Conn) :=
  match s.running t, s.connections.deref t with
  | some ⟨message, .at conn⟩, some list =>
      if conn ∈ list then
        .ok ({ s with sent := s.sent ++ [(t, conn, message)] }.setPosition t (Position.first (list.filter (conn < ·))))
      else .error .badAccess -- the iterator has been invalidated
  | _, _ => .error .badAccess

def exec (s : ChatServer T Conn) : ChatAction T Conn → Outcome (ChatServer T Conn)
  | .lock t conn connected => .ok { s with mutex := some ⟨t, conn, connected, .locked⟩ }
  | .checkUnique _ => .ok (s.setPhase (if s.connections.unique then .ready else .shared))
  | .copy _ => do
      let connections ← s.connections.reset
      .ok ({ s with connections }.setPhase .ready)
  | .change _ conn connected => do
      let connections ← s.connections.modify (update conn connected)
      .ok { s with connections, mutex := none }
  | .getConnectionList t message =>
      .ok { s with
        connections := s.connections.acquire t
        running := Function.update s.running t (some ⟨message, .before⟩) }
  | .begin t =>
      match s.connections.deref t with
      | some list => .ok (s.setPosition t (Position.first list))
      | none => .error .badAccess
  | .send t => s.sendNext t
  | .finish t =>
      .ok { s with
        connections := s.connections.release t
        running := Function.update s.running t none }

/-- A thread is in one call at a time, and goes on from where it is in it. -/
def Enabled (s : ChatServer T Conn) : ChatAction T Conn → Prop
  | .lock t _ _ => s.mutex = none ∧ s.running t = none
  | .checkUnique t => s.holds t .locked
  | .copy t => s.holds t .shared
  | .change t conn connected => s.mutex = some ⟨t, conn, connected, .ready⟩
  | .getConnectionList t _ => s.mutex = none ∧ s.running t = none
  | .begin t => ∃ message, s.running t = some ⟨message, .before⟩
  | .send t => ∃ message conn, s.running t = some ⟨message, .at conn⟩
  | .finish t => ∃ message, s.running t = some ⟨message, .end⟩

/-- The constructor: no connections, and one list of them. -/
def new : ChatServer T Conn := ⟨.new ∅, none, fun _ => none, []⟩

/-- Any order in which the threads run. -/
def system (T Conn : Type) [Fintype T] [DecidableEq T] [LinearOrder Conn] :
    System (ChatServer T Conn) (ChatAction T Conn) where
  init s := s = new
  enabled := Enabled
  exec := exec

end ChatServer

end Muduo.Examples
