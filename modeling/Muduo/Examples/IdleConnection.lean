import Muduo.Base.BoundedBlockingQueue

/-!
# `Examples.IdleConnection` — an echo server that shuts down idle connections

`idleconnection/echo.h` and `echo.cc`. For each connection there is an `Entry` that the buckets share; when the last
bucket that holds it is gone, its destructor shuts the connection down, if there still is one. The oldest bucket goes
each time `onTimer` is called. Connections, and the entries they are the only ones of, are numbered.
-/

namespace Muduo

open Lib

namespace CircularBuffer

variable {T : Type}

/-- `resize(n)`, of an empty buffer. -/
def resized (n : Nat) (item : T) : CircularBuffer T where
  capacity := n
  elems := List.replicate n item
  bounded := by simp

/-- `back() = f(back())`. -/
def modifyBack (q : CircularBuffer T) (f : T → T) : Outcome (CircularBuffer T) :=
  match h : q.elems.getLast? with
  | none => .error .badAccess
  | some x => .ok ⟨q.capacity, q.elems.dropLast ++ [f x], by
      have hpos : q.elems ≠ [] := by
        rintro hnil
        simp [hnil] at h
      have := List.length_pos_iff.mpr hpos
      have := q.bounded
      simp only [List.length_append, List.length_dropLast, List.length_singleton]
      omega⟩

end CircularBuffer

namespace Examples

/-- `class EchoServer`, and the connections that there are. -/
structure EchoServer where
  connectionBuckets : CircularBuffer (Finset Nat)
  /-- The connections whose `TcpConnection` exists, for which a weak pointer can be locked. -/
  objects : Finset Nat
  /-- The connections whose context is set. -/
  contexts : Finset Nat
  /-- For each call of `onTimer`, the connections that destructors of entries shut down. -/
  shutdowns : List (Finset Nat)

namespace EchoServer

/-- The constructor. -/
def new (idleSeconds : Nat) : EchoServer := ⟨.resized idleSeconds ∅, ∅, ∅, []⟩

/-- Some bucket holds the entry, and a weak pointer to it can be locked. -/
def holds (s : EchoServer) (conn : Nat) : Bool := s.connectionBuckets.elems.any fun bucket => conn ∈ bucket

/-- `onConnection`, for a connection that is up. -/
def onConnectionUp (s : EchoServer) (conn : Nat) : Outcome EchoServer := do
  let connectionBuckets ← s.connectionBuckets.modifyBack (insert conn)
  .ok { s with connectionBuckets, objects := insert conn s.objects, contexts := insert conn s.contexts }

/-- `onConnection`, for a connection that is down. -/
def onConnectionDown (s : EchoServer) (conn : Nat) : Outcome EchoServer := do
  assert (conn ∈ s.contexts)
  .ok s

def onMessage (s : EchoServer) (conn : Nat) : Outcome EchoServer := do
  assert (conn ∈ s.contexts)
  if s.holds conn = true then do
    let connectionBuckets ← s.connectionBuckets.modifyBack (insert conn)
    .ok { s with connectionBuckets }
  else .ok s

/-- The entries that the buckets no longer hold, once `front` is overwritten. -/
def dying (front : Finset Nat) (rest : List (Finset Nat)) : Finset Nat :=
  front.filter fun conn => ∀ bucket ∈ rest, conn ∉ bucket

def onTimer (s : EchoServer) : EchoServer :=
  let connectionBuckets := s.connectionBuckets.pushBack ∅
  { s with
    connectionBuckets
    shutdowns := s.shutdowns ++ [dying (s.connectionBuckets.elems.headD ∅) connectionBuckets.elems ∩ s.objects] }

inductive Action where
  /-- A new connection is up. -/
  | up (conn : Nat)
  | message (conn : Nat)
  | down (conn : Nat)
  /-- The last shared pointer to a `TcpConnection` is gone. -/
  | release (conn : Nat)
  | timer

def enabled (s : EchoServer) : Action → Prop
  | .up conn => conn ∉ s.contexts
  | .message conn | .down conn | .release conn => conn ∈ s.objects
  | .timer => True

def exec (s : EchoServer) : Action → Outcome EchoServer
  | .up conn => s.onConnectionUp conn
  | .message conn => s.onMessage conn
  | .down conn => s.onConnectionDown conn
  | .release conn => .ok { s with objects := s.objects.erase conn }
  | .timer => .ok s.onTimer

def echoSystem (idleSeconds : Nat) : System EchoServer Action where
  init s := s = new idleSeconds
  enabled := enabled
  exec := exec

end EchoServer

end Examples

end Muduo
