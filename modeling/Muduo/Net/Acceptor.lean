import Muduo.Lib.Descriptors
import Muduo.Lib.System

/-!
# `Net.Acceptor` — the listening socket and its spare descriptor

`Acceptor.cc` over the descriptors of the process. When no descriptor is left, `handleRead` gives up `idleFd_`, accepts
a connection in its place, closes it, and opens `/dev/null` again. These are four system calls. The other threads of
the process may make and close descriptors of their own before and after each of them.

Connections are numbered in the order in which they come into the queue of the listening socket. They may leave it
unaccepted, when the peer gives up.
-/

namespace Muduo.Net

open Lib

/-- What `errno` is after `accept4` has failed. -/
inductive AcceptErrno where
  | EAGAIN
  | ECONNABORTED
  | EINTR
  | EPROTO
  | EPERM
  | EMFILE
  /-- `EBADF` and the others that `sockets::accept` does not expect. -/
  | unexpected (errno : Nat)
deriving DecidableEq, Repr

/-- Where `handleRead` is. -/
inductive AcceptPoint where
  | idle
  /-- `accept` has failed with `EMFILE`; it is to close `idleFd_`. -/
  | full
  /-- It is to accept a connection in its place. -/
  | accepting
  /-- It is to close what it accepted, the connection being this one. -/
  | closing (id : Option Nat)
  /-- It is to open `/dev/null`. -/
  | opening
deriving DecidableEq, Repr

/-- `class Acceptor`, the queue of its socket, and the descriptors of the process. -/
structure Acceptor where
  acceptSocket : Nat
  /-- `idleFd_`; `none` is -1. -/
  idleFd : Option Nat
  /-- Whether `newConnectionCallback_` is set. -/
  newConnectionCallback : Bool
  point : AcceptPoint
  fds : Descriptors
  /-- The descriptors that the rest of the process has. -/
  others : Finset Nat
  /-- The connections in the queue. -/
  backlog : List Nat
  /-- How many connections there were. -/
  arrived : Nat
  /-- The connections passed to `newConnectionCallback_`, in this order. -/
  handedOver : List Nat
  /-- The connections that were accepted and closed. -/
  closed : List Nat
  /-- The connections that left the queue unaccepted. -/
  gone : List Nat

namespace Acceptor

/-- The constructor, in a process that has the descriptors `fds` open. -/
def new (fds : Descriptors) (callback : Bool) : Outcome Acceptor :=
  match fds.alloc with
  | none => .error .assertion -- `createNonblockingOrDie`
  | some (acceptSocket, fds₁) =>
      match fds₁.alloc with
      | none => .error .assertion
      | some (idleFd, fds₂) =>
          .ok {
            acceptSocket
            idleFd := some idleFd
            newConnectionCallback := callback
            point := .idle
            fds := fds₂
            others := fds.used
            backlog := []
            arrived := 0
            handedOver := []
            closed := []
            gone := [] }

/-- `accept4` on the listening socket: the connection and its descriptor. If it could make one and there is a
    connection, it may still fail for another reason. -/
def accept4 (s : Acceptor) (reason : Option AcceptErrno) : Except AcceptErrno (Nat × Nat) × Acceptor :=
  match s.fds.alloc with
  | none => (.error .EMFILE, s)
  | some (fd, fds) =>
      match reason, s.backlog with
      | some e, _ => (.error e, s)
      | none, [] => (.error .EAGAIN, s)
      | none, id :: backlog => (.ok (id, fd), { s with fds, backlog })

/-- `sockets::accept`, which ends the process if it did not expect the error. -/
def accept (s : Acceptor) (reason : Option AcceptErrno) : Outcome (Except AcceptErrno (Nat × Nat) × Acceptor) :=
  match s.accept4 reason with
  | (.error (.unexpected _), _) => .error .assertion
  | r => .ok r

/-- `::close(fd)`. Closing a descriptor of somebody else is a defect that the system does not notice. -/
def close (s : Acceptor) (fd : Option Nat) : Outcome Acceptor :=
  match fd with
  | none => .ok s
  | some fd => if fd ∈ s.others then .error .badAccess else .ok { s with fds := s.fds.close fd }

/-- `handleRead`, up to the first system call for the error `EMFILE`. -/
def handleRead (s : Acceptor) (reason : Option AcceptErrno) : Outcome Acceptor := do
  let (connfd, s) ← s.accept reason
  match connfd with
  | .ok (id, fd) =>
      if s.newConnectionCallback = true then
        .ok { s with others := insert fd s.others, handedOver := s.handedOver ++ [id] }
      else do
        let s ← s.close (some fd)
        .ok { s with closed := s.closed ++ [id] }
  | .error .EMFILE => .ok { s with point := .full }
  | .error _ => .ok s

/-- The next system call of `handleRead` for the error `EMFILE`; `::accept` does not look at why it fails. -/
def next (s : Acceptor) (reason : Option AcceptErrno) : Outcome Acceptor :=
  match s.point with
  | .idle => .ok s
  | .full => do
      let s ← s.close s.idleFd
      .ok { s with point := .accepting }
  | .accepting =>
      match s.accept4 reason with
      | (.ok (id, fd), s) => .ok { s with idleFd := some fd, point := .closing (some id) }
      | (.error _, s) => .ok { s with idleFd := none, point := .closing none }
  | .closing id => do
      let s ← s.close s.idleFd
      .ok { s with point := .opening, closed := s.closed ++ id.toList }
  | .opening =>
      match s.fds.alloc with
      | none => .ok { s with idleFd := none, point := .idle }
      | some (fd, fds) => .ok { s with idleFd := some fd, fds, point := .idle }

/-- The destructor, and that of `acceptSocket_`. -/
def dtor (s : Acceptor) : Outcome Acceptor := do
  let s ← s.close s.idleFd
  s.close (some s.acceptSocket)

inductive Action where
  /-- A connection comes into the queue. -/
  | arrive
  /-- A connection leaves the queue unaccepted. -/
  | leave (id : Nat)
  /-- The socket is readable, and the loop calls `handleRead`. -/
  | handleRead (reason : Option AcceptErrno)
  /-- `handleRead` goes on. -/
  | next (reason : Option AcceptErrno)
  /-- Somebody else makes a descriptor. -/
  | open
  /-- Somebody else closes a descriptor. -/
  | close (fd : Nat)

/-- Why `accept4` fails, apart from a lack of connections or descriptors, and what `sockets::accept` expects. -/
def Expected : Option AcceptErrno → Prop
  | none | some .ECONNABORTED | some .EINTR | some .EPROTO | some .EPERM => True
  | some .EAGAIN | some .EMFILE | some (.unexpected _) => False

def enabled (s : Acceptor) : Action → Prop
  | .arrive | .open => True
  | .leave id => id ∈ s.backlog
  | .handleRead reason => s.point = .idle ∧ Expected reason
  | .next reason => s.point ≠ .idle ∧ Expected reason
  | .close fd => fd ∈ s.others

def exec (s : Acceptor) : Action → Outcome Acceptor
  | .arrive => .ok { s with backlog := s.backlog ++ [s.arrived], arrived := s.arrived + 1 }
  | .leave id => .ok { s with backlog := s.backlog.erase id, gone := s.gone ++ [id] }
  | .handleRead reason => s.handleRead reason
  | .next reason => s.next reason
  | .open =>
      match s.fds.alloc with
      | none => .ok s
      | some (fd, fds) => .ok { s with fds, others := insert fd s.others }
  | .close fd => .ok { s with fds := s.fds.close fd, others := s.others.erase fd }

def acceptorSystem : System Acceptor Action where
  init s := ∃ fds callback, new fds callback = .ok s
  enabled := enabled
  exec := exec

end Acceptor

end Muduo.Net
