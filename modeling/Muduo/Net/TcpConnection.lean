import Muduo.Net.Buffer
import Muduo.Net.Channel

/-!
# `Net.TcpConnection` — one connection on its loop thread

The functions of `TcpConnection.cc`, as they run on the loop thread. What the kernel answers is an argument:
a `WriteResult` for each `::write`, a `ReadResult` for each `readv`. What the connection does to its
surroundings is recorded in the state: the bytes the kernel has accepted, the `shutdown(SHUT_WR)` calls, the
functors handed to `queueInLoop`, the user callbacks called, and every value `state_` has had.

User callbacks may call back into the connection. A callback is therefore given as the list of calls it makes,
each with the kernel's answer to it; a theorem about all such lists is a theorem about all callbacks.
-/

namespace Muduo.Net

open Lib

/-- `enum StateE`. -/
inductive StateE where
  | kDisconnected
  | kConnecting
  | kConnected
  | kDisconnecting
deriving DecidableEq, Repr

/-- The values of `errno` that the code tells apart. -/
inductive Errno where
  | EWOULDBLOCK
  | EPIPE
  | other (code : Nat)
deriving DecidableEq, Repr

/-- What `::write` reports: a byte count, or an error. -/
inductive WriteResult where
  | wrote (n : Nat)
  | failed (errno : Errno)
deriving DecidableEq, Repr

/-- `::write` never takes more than it is offered. -/
def WriteResult.clip (count : Nat) : WriteResult → WriteResult
  | .wrote n => .wrote (min n count)
  | .failed e => .failed e

/-- What the connection hands to `loop_->queueInLoop`. -/
inductive ConnFunctor where
  | writeComplete
  | highWaterMark (size : Nat)
  | connectDestroyed
deriving DecidableEq, Repr

/-- A call of one of the callbacks set by the owner; for `connectionCallback_`, what `connected()` says. -/
inductive Callback where
  | connection (connected : Bool)
  | message
  | close
deriving DecidableEq, Repr

/-- `class TcpConnection`. -/
structure TcpConnection where
  state : StateE
  channel : Channel
  inputBuffer : Buffer
  outputBuffer : Buffer
  highWaterMark : Nat
  /-- `writeCompleteCallback_` is set. -/
  writeCompleteCallback : Bool
  /-- `highWaterMarkCallback_` is set. -/
  highWaterMarkCallback : Bool
  /-- The bytes `::write` has taken. -/
  accepted : List UInt8
  /-- The calls of `socket_->shutdownWrite()`. -/
  shutdownWrites : Nat
  /-- The functors queued and not yet run, oldest first. -/
  queued : List ConnFunctor
  /-- The callbacks called, oldest first. -/
  calls : List Callback
  /-- The values of `state_`, oldest first. -/
  states : List StateE
deriving DecidableEq, Repr

/-- One call that user code makes into the connection from the loop thread. -/
inductive UserCall where
  | send (data : Bytes) (r : WriteResult)
  | shutdown
  /-- `inputBuffer()->retrieve(n)`, for at most what there is. -/
  | retrieve (n : Nat)
deriving DecidableEq, Repr

namespace TcpConnection

/-- The constructor; the callbacks are set by the owner. -/
def new (writeComplete highWater : Bool) : TcpConnection where
  state := .kConnecting
  channel := Channel.new
  inputBuffer := Buffer.new
  outputBuffer := Buffer.new
  highWaterMark := 64 * 1024 * 1024
  writeCompleteCallback := writeComplete
  highWaterMarkCallback := highWater
  accepted := []
  shutdownWrites := 0
  queued := []
  calls := []
  states := [.kConnecting]

def connected (c : TcpConnection) : Bool := c.state == .kConnected

def setState (c : TcpConnection) (s : StateE) : TcpConnection :=
  { c with state := s, states := c.states ++ [s] }

def setHighWaterMarkCallback (c : TcpConnection) (mark : Nat) : TcpConnection :=
  { c with highWaterMarkCallback := true, highWaterMark := mark }

def queueInLoop (c : TcpConnection) (f : ConnFunctor) : TcpConnection :=
  { c with queued := c.queued ++ [f] }

/-- The kernel takes `d`. -/
def accept (c : TcpConnection) (d : List UInt8) : TcpConnection :=
  { c with accepted := c.accepted ++ d }

/-! ## Sending -/

/-- The condition under which `sendInLoop` tries to write directly. -/
def idle (c : TcpConnection) : Bool := !c.channel.isWriting && c.outputBuffer.readableBytes == 0

/-- Queue `writeCompleteCallback_`, if it is set. -/
def noteWriteComplete (c : TcpConnection) : TcpConnection :=
  if c.writeCompleteCallback then c.queueInLoop .writeComplete else c

/-- Queue `highWaterMarkCallback_`, if it is set and `remaining` more bytes reach the mark from below. -/
def noteHighWaterMark (c : TcpConnection) (remaining : Nat) : TcpConnection :=
  let oldLen := c.outputBuffer.readableBytes
  if SizeT.add oldLen remaining ≥ c.highWaterMark ∧ oldLen < c.highWaterMark ∧ c.highWaterMarkCallback then
    c.queueInLoop (.highWaterMark (SizeT.add oldLen remaining))
  else c

/-- The direct write of `sendInLoop`: `nwrote`, `error`, and the connection. -/
def writeDirectly (c : TcpConnection) (data : List UInt8) (len : Nat) (r : WriteResult) :
    Nat × Bool × TcpConnection :=
  match r.clip len with
  | .wrote n =>
      let c := c.accept (data.take n)
      (n, false, if len - n = 0 then c.noteWriteComplete else c)
  | .failed e => (0, e == .EPIPE, c)

/-- The second half of `sendInLoop`: what was not written goes to the output buffer. -/
def bufferRest (c : TcpConnection) (rest : List UInt8) (remaining : Nat) : Outcome TcpConnection := do
  let c := c.noteHighWaterMark remaining
  let outputBuffer ← c.outputBuffer.append rest remaining
  let c := { c with outputBuffer }
  .ok (if c.channel.isWriting then c else { c with channel := c.channel.enableWriting })

/-- `sendInLoop(const void* data, size_t len)`; `r` answers the direct write, if one is made. -/
def sendInLoop (c : TcpConnection) (data : List UInt8) (len : Nat) (r : WriteResult) :
    Outcome TcpConnection :=
  if c.state = .kDisconnected then .ok c -- "disconnected, give up writing"
  else do
    let (nwrote, error, c) := if c.idle then c.writeDirectly data len r else (0, false, c)
    let remaining := len - nwrote
    assert (remaining ≤ len)
    if !error ∧ 0 < remaining then c.bufferRest (data.drop nwrote) remaining else .ok c

/-- `sendInLoop(const StringPiece& message)`: the `int` length of the piece becomes a `size_t`. -/
def sendInLoopPiece (c : TcpConnection) (message : StringPiece) (r : WriteResult) : Outcome TcpConnection :=
  c.sendInLoop message.ptr (toSizeT message.length) r

/-- `send(const void* data, size_t len)`, called on the loop thread. -/
def send (c : TcpConnection) (data : Bytes) (r : WriteResult) : Outcome TcpConnection :=
  if c.state = .kConnected then c.sendInLoop data.data data.data.length r else .ok c

/-- `send(const StringPiece& message)`, called on the loop thread. -/
def sendPiece (c : TcpConnection) (message : StringPiece) (r : WriteResult) : Outcome TcpConnection :=
  if c.state = .kConnected then c.sendInLoopPiece message r else .ok c

/-- `send(Buffer* buf)`, called on the loop thread: the connection, and the buffer. -/
def sendBuffer (c : TcpConnection) (buf : Buffer) (r : WriteResult) : Outcome (TcpConnection × Buffer) :=
  if c.state = .kConnected then do
    let c ← c.sendInLoop buf.readable buf.readableBytes r
    .ok (c, buf.retrieveAll)
  else .ok (c, buf)

def shutdownInLoop (c : TcpConnection) : TcpConnection :=
  if c.channel.isWriting then c else { c with shutdownWrites := c.shutdownWrites + 1 }

/-- `shutdown`, called on the loop thread. -/
def shutdown (c : TcpConnection) : TcpConnection :=
  if c.state = .kConnected then (c.setState .kDisconnecting).shutdownInLoop else c

/-! ## User callbacks -/

def userCall (c : TcpConnection) : UserCall → Outcome TcpConnection
  | .send data r => c.send data r
  | .shutdown => .ok c.shutdown
  | .retrieve n => do
      let inputBuffer ← c.inputBuffer.retrieve (min n c.inputBuffer.readableBytes)
      .ok { c with inputBuffer }

/-- The calls a callback makes, in order. -/
def userCalls (c : TcpConnection) : List UserCall → Outcome TcpConnection
  | [] => .ok c
  | u :: us => do
      let c ← c.userCall u
      c.userCalls us

/-- Record that a callback is called. -/
def called (c : TcpConnection) (cb : Callback) : TcpConnection := { c with calls := c.calls ++ [cb] }

def connectionCallback (c : TcpConnection) (us : List UserCall) : Outcome TcpConnection :=
  (c.called (.connection c.connected)).userCalls us

def messageCallback (c : TcpConnection) (us : List UserCall) : Outcome TcpConnection :=
  (c.called .message).userCalls us

/-- `closeCallback_` is `removeConnection` of the owner, which queues `connectDestroyed`. -/
def closeCallback (c : TcpConnection) : TcpConnection :=
  (c.called .close).queueInLoop .connectDestroyed

/-! ## Life cycle and event handlers -/

def connectEstablished (c : TcpConnection) (us : List UserCall) : Outcome TcpConnection := do
  assert (c.state = .kConnecting)
  let c := c.setState .kConnected
  let c := { c with channel := c.channel.tie.enableReading }
  c.connectionCallback us

def connectDestroyed (c : TcpConnection) (us : List UserCall) : Outcome TcpConnection := do
  let c ← (if c.state = .kConnected then
    let c := c.setState .kDisconnected
    { c with channel := c.channel.disableAll }.connectionCallback us
  else .ok c)
  c.channel.remove
  .ok c

def handleClose (c : TcpConnection) (us : List UserCall) : Outcome TcpConnection := do
  assert (c.state = .kConnected ∨ c.state = .kDisconnecting)
  let c := c.setState .kDisconnected
  let c ← { c with channel := c.channel.disableAll }.connectionCallback us
  .ok c.closeCallback

/-- `handleError` only logs `SO_ERROR`. -/
def handleError (c : TcpConnection) : Outcome TcpConnection := .ok c

def handleRead (c : TcpConnection) (r : ReadResult) (us : List UserCall) : Outcome TcpConnection := do
  let (n, inputBuffer) ← c.inputBuffer.readFd r
  let c := { c with inputBuffer }
  if 0 < n then c.messageCallback us
  else if n = 0 then c.handleClose us
  else c.handleError

/-- What `handleWrite` does once `n > 0` bytes are written. -/
def afterWrite (c : TcpConnection) (n : Nat) : Outcome TcpConnection := do
  let outputBuffer ← c.outputBuffer.retrieve n
  let c := { c with outputBuffer }
  if outputBuffer.readableBytes = 0 then
    let c := { c with channel := c.channel.disableWriting }.noteWriteComplete
    .ok (if c.state = .kDisconnecting then c.shutdownInLoop else c)
  else .ok c

def handleWrite (c : TcpConnection) (r : WriteResult) : Outcome TcpConnection :=
  if c.channel.isWriting then
    match r.clip c.outputBuffer.readableBytes with
    | .wrote n => if 0 < n then (c.accept (c.outputBuffer.readable.take n)).afterWrite n else .ok c
    | .failed _ => .ok c
  else .ok c -- "is down, no more writing"

/-- What the environment supplies to one dispatch: the mask, the kernel's answers, the callbacks' calls. -/
structure Dispatch where
  revents : EventMask
  read : ReadResult
  write : WriteResult
  onClose : List UserCall
  onRead : List UserCall
deriving DecidableEq, Repr

/-- The channel callbacks the constructor installs. -/
def callbacks (d : Dispatch) : Channel.Callbacks TcpConnection where
  closeCallback c := c.handleClose d.onClose
  errorCallback c := c.handleError
  readCallback c := c.handleRead d.read d.onRead
  writeCallback c := c.handleWrite d.write

/-- `Channel::handleEvent` on this connection's channel; the owner is kept alive by its map or by a functor. -/
def handleEvent (c : TcpConnection) (d : Dispatch) : Outcome TcpConnection :=
  (c.channel.set_revents d.revents).handleEvent true (callbacks d)
    { c with channel := c.channel.set_revents d.revents }

/-- Run one queued functor; `us` are the calls of the user callback it ends up in. -/
def runFunctor (c : TcpConnection) (f : ConnFunctor) (us : List UserCall) : Outcome TcpConnection :=
  match f with
  | .writeComplete => c.userCalls us
  | .highWaterMark _ => c.userCalls us
  | .connectDestroyed => c.connectDestroyed us

end TcpConnection

end Muduo.Net
