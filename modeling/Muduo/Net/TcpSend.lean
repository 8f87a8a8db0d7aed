import Muduo.Net.TcpConnection

/-!
# `Net.TcpSend` — the ways of sending

`send` has three overloads, and each of them does one thing on the loop thread and another on any other thread:
there it copies the message into a string and binds `sendInLoop(const StringPiece&)` to it. All of them lead to
`sendInLoop(const void*, size_t)`; what they hand to it is modelled here for messages of any length a `size_t`
can hold. A pointer is the list of bytes that can be read from it, as in `Net.Buffer`.
-/

namespace Muduo

open Lib

/-- The constructor `string(data, len)`. -/
def newString (data : List UInt8) (len : Nat) : Outcome (List UInt8) :=
  if maxSize < len then .error .lengthError
  else if data.length < len then .error .badAccess
  else .ok (data.take len)

/-- `as_string()`: the `int` length becomes a `size_t`. -/
def StringPiece.asString (piece : StringPiece) : Outcome (List UInt8) :=
  newString piece.ptr (toSizeT piece.length)

namespace Net.TcpConnection

/-- What `send` leads to, once it has found `kConnected`. -/
inductive Sending where
  /-- A call of `sendInLoop(const void* data, size_t len)`. -/
  | sendInLoop (data : List UInt8) (len : Nat)
  /-- A call of `sendInLoop(const StringPiece& message)`. -/
  | sendInLoopPiece (message : StringPiece)
  /-- A functor for the loop: `sendInLoop(const StringPiece&)`, bound to a copy of the message. -/
  | functor (message : List UInt8)

/-- The arguments with which `sendInLoop(const void* data, size_t len)` is entered. -/
def Sending.arguments : Sending → List UInt8 × Nat
  | .sendInLoop data len => (data, len)
  | .sendInLoopPiece message => (message.ptr, toSizeT message.length)
  | .functor message => ((StringPiece.ofString message).ptr, toSizeT (StringPiece.ofString message).length)

/-- What the loop thread does, then or later. -/
def Sending.perform (c : TcpConnection) (r : WriteResult) : Sending → Outcome TcpConnection
  | .sendInLoop data len => c.sendInLoop data len r
  | .sendInLoopPiece message => c.sendInLoopPiece message r
  | .functor message => c.sendInLoopPiece (StringPiece.ofString message) r

/-- `send(const void* data, size_t len)`, on the loop thread or on another one. -/
def sendOn (inLoopThread : Bool) (c : TcpConnection) (data : List UInt8) (len : Nat) : Outcome (Option Sending) :=
  if c.state = .kConnected then
    if inLoopThread then .ok (some (.sendInLoop data len))
    else do
      let message ← newString data len
      .ok (some (.functor message))
  else .ok none

/-- `send(const StringPiece& message)`, on the loop thread or on another one. -/
def sendPieceOn (inLoopThread : Bool) (c : TcpConnection) (message : StringPiece) : Outcome (Option Sending) :=
  if c.state = .kConnected then
    if inLoopThread then .ok (some (.sendInLoopPiece message))
    else do
      let message ← message.asString
      .ok (some (.functor message))
  else .ok none

/-- `send(Buffer* buf)`, on the loop thread or on another one; with the buffer afterwards. -/
def sendBufferOn (inLoopThread : Bool) (c : TcpConnection) (buf : Buffer) : Outcome (Option Sending × Buffer) :=
  if c.state = .kConnected then
    if inLoopThread then .ok (some (.sendInLoop buf.readable buf.readableBytes), buf.retrieveAll)
    else do
      let (message, buf) ← buf.retrieveAllAsString
      .ok (some (.functor message), buf)
  else .ok (none, buf)

end Net.TcpConnection

end Muduo
