import Muduo.Lib.Loop
import Muduo.Net.TcpConnection

/-!
# `Examples.Chat.Codec` — strings behind their lengths

`LengthHeaderCodec` of `codec.h`: a message is a string with its length in front of it, as a 32-bit integer in
network byte order. The callback is given the connection and the message; the buffer is not its business.
-/

namespace Muduo.Examples

open Lib Net

/-- `class LengthHeaderCodec`. -/
structure LengthHeaderCodec where
  messageCallback : TcpConnection → List UInt8 → TcpConnection

/-- A connection, its input buffer, and the messages passed to the callback so far. -/
structure CodecSession where
  conn : TcpConnection
  buf : Buffer
  messages : List (List UInt8)

namespace LengthHeaderCodec

def kHeaderLen : Nat := 4

/-- The longest message that is accepted. -/
def kMaxLen : Int := 65536

/-- One iteration of the loop in `onMessage`, with the test of its condition. -/
def iterate (codec : LengthHeaderCodec) (s : CodecSession) : Outcome (Loop.Step CodecSession) :=
  if s.buf.readableBytes ≥ kHeaderLen then
    let len := networkToHost32 (s.buf.readable.take kHeaderLen)
    if len > kMaxLen ∨ len < 0 then .ok (.leave { s with conn := s.conn.shutdown })
    else if s.buf.readableBytes ≥ SizeT.add (toSizeT len) kHeaderLen then do
      let buf ← s.buf.retrieve kHeaderLen
      let message := buf.readable.take len.toNat
      let conn := codec.messageCallback s.conn message
      let buf ← buf.retrieve (toSizeT len)
      .ok (.again ⟨conn, buf, s.messages ++ [message]⟩)
    else .ok (.leave s)
  else .ok (.leave s)

/-- `onMessage(conn, buf, receiveTime)`, for at most `fuel` iterations. -/
def onMessage (codec : LengthHeaderCodec) (fuel : Nat) (s : CodecSession) : Option (Outcome CodecSession) :=
  Loop.run codec.iterate fuel s

/-- Bytes arrive: they are appended to the buffer, and `onMessage` is called. -/
def receive (codec : LengthHeaderCodec) (fuel : Nat) (s : CodecSession) (chunk : Bytes) :
    Option (Outcome CodecSession) :=
  Loop.andThen (some (s.buf.append chunk.data chunk.data.length)) fun buf => codec.onMessage fuel { s with buf }

/-- Several chunks, one after the other. -/
def receiveAll (codec : LengthHeaderCodec) (fuel : Nat) : CodecSession → List Bytes → Option (Outcome CodecSession)
  | s, [] => some (.ok s)
  | s, chunk :: chunks => Loop.andThen (codec.receive fuel s chunk) fun s => codec.receiveAll fuel s chunks

/-- The buffer that `send(conn, message)` hands to the connection. -/
def encode (message : StringPiece) : Outcome Buffer := do
  let buf ← Buffer.new.append message.ptr (toSizeT message.length)
  let len := toInt32 message.length
  buf.prepend (hostToNetwork32 len)

/-- `send(conn, message)`. -/
def send (conn : TcpConnection) (message : StringPiece) (r : WriteResult) : Outcome TcpConnection := do
  let buf ← encode message
  let (conn, _) ← conn.sendBuffer buf r
  .ok conn

end LengthHeaderCodec

end Muduo.Examples
