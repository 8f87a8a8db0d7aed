import Muduo.Lib.Loop
import Muduo.Net.TcpConnection

/-!
# `Net.Protorpc.RpcCodec` — RPC messages on the wire

```
Field     Length  Content
size      4-byte  N+8
"RPC0"    4-byte
payload   N-byte
checksum  4-byte  adler32 of "RPC0"+payload
```

The functions of `RpcCodec.cc`. Protobuf and zlib are the parameter `Wire`; nothing is assumed of them here. The
loop of `onMessage` is run with fuel, since what an iteration does after an error is up to `errorCallback_`, and
nothing in the loop itself makes it end.
-/

namespace Muduo.Net

open Lib

/-- What the codec uses of protobuf, for a type of messages, and of zlib. -/
structure Wire (RpcMessage : Type) where
  /-- `IsInitialized()`: all required fields are set. -/
  isInitialized : RpcMessage → Bool
  /-- `ByteSize()`, an `int`. -/
  byteSize : RpcMessage → Int
  /-- What `SerializeWithCachedSizesToArray` writes. -/
  serialize : RpcMessage → List UInt8
  /-- `ParseFromArray`; `none` if it returns false. -/
  parseFromArray : List UInt8 → Option RpcMessage
  /-- `adler32(adler, buf, len)`, of the `len` bytes. -/
  adler32 : Nat → List UInt8 → Nat

/-- `RpcCodec::ErrorCode`. -/
inductive ErrorCode where
  | kNoError
  | kInvalidLength
  | kCheckSumError
  | kInvalidNameLen
  | kUnknownMessageType
  | kParseError
deriving DecidableEq, Repr

/-- `class RpcCodec`: its two callbacks. Both are given the connection, and the error callback may also change
    the buffer. -/
structure RpcCodec (RpcMessage : Type) where
  messageCallback : TcpConnection → RpcMessage → TcpConnection
  errorCallback : TcpConnection → Buffer → ErrorCode → TcpConnection × Buffer

/-- A connection, its input buffer, and the calls of the two callbacks so far. -/
structure RpcSession (RpcMessage : Type) where
  conn : TcpConnection
  buf : Buffer
  messages : List RpcMessage
  errors : List ErrorCode

namespace RpcCodec

variable {RpcMessage : Type}

def kHeaderLen : Nat := 4

def kMinMessageLen : Nat := 2 * kHeaderLen

def kMaxMessageLen : Nat := 64 * 1024 * 1024

/-- `"RPC0"`. -/
def tag : List UInt8 := [0x52, 0x50, 0x43, 0x30]

/-! ## Sending -/

/-- `send(conn, message)`: the bytes handed to `conn->send`. -/
def send (w : Wire RpcMessage) (message : RpcMessage) : Outcome (List UInt8) := do
  let buf ← Buffer.new.append tag 4
  assert (w.isInitialized message)
  let byte_size := w.byteSize message
  let buf ← buf.ensureWritableBytes (toSizeT (toInt32 (byte_size + kHeaderLen)))
  let bytes := w.serialize message
  let buf ← buf.copyTo buf.writerIndex bytes
  -- else `ByteSizeConsistencyError`, which aborts
  assert ((bytes.length : Int) = byte_size)
  let buf := buf.hasWritten (toSizeT byte_size)
  let checkSum := toInt32 (w.adler32 1 (buf.readable.take (toUInt32 (toInt32 buf.readableBytes))))
  let buf ← buf.appendInt32 checkSum
  assert (buf.readableBytes = toSizeT (toInt32 (kHeaderLen + byte_size + kHeaderLen)))
  let len := hostToNetwork32 (toInt32 buf.readableBytes)
  let buf ← buf.prepend len
  .ok buf.readable

/-! ## Receiving -/

def asInt32 (buf : List UInt8) : Outcome Int :=
  if buf.length < 4 then .error .badAccess else .ok (networkToHost32 (buf.take 4))

/-- `parse(buf, len, &message)`, for `len` at least `kMinMessageLen`; `kNoError` comes with the message. -/
def parse (w : Wire RpcMessage) (buf : List UInt8) (len : Int) : Outcome (Except ErrorCode RpcMessage) := do
  let expectedCheckSum ← asInt32 (buf.drop (len - kHeaderLen).toNat)
  let checkSum := toInt32 (w.adler32 1 (buf.take (len - kHeaderLen).toNat))
  if checkSum = expectedCheckSum then
    if buf.take kHeaderLen = tag then
      let data := buf.drop kHeaderLen
      let dataLen := len - 2 * kHeaderLen
      match w.parseFromArray (data.take dataLen.toNat) with
      | some message => .ok (.ok message)
      | none => .ok (.error .kParseError)
    else .ok (.error .kUnknownMessageType)
  else .ok (.error .kCheckSumError)

/-- `messageCallback_(conn, message, receiveTime)`. -/
def deliver (codec : RpcCodec RpcMessage) (s : RpcSession RpcMessage) (message : RpcMessage) :
    RpcSession RpcMessage :=
  { s with conn := codec.messageCallback s.conn message, messages := s.messages ++ [message] }

/-- `errorCallback_(conn, buf, receiveTime, errorCode)`. -/
def fail (codec : RpcCodec RpcMessage) (s : RpcSession RpcMessage) (errorCode : ErrorCode) :
    RpcSession RpcMessage :=
  let (conn, buf) := codec.errorCallback s.conn s.buf errorCode
  { s with conn, buf, errors := s.errors ++ [errorCode] }

/-- One iteration of the loop in `onMessage`, with the test of its condition. -/
def iterate (codec : RpcCodec RpcMessage) (w : Wire RpcMessage) (s : RpcSession RpcMessage) :
    Outcome (Loop.Step (RpcSession RpcMessage)) :=
  if s.buf.readableBytes ≥ kMinMessageLen + kHeaderLen then do
    let len ← s.buf.peekInt32
    if len > kMaxMessageLen ∨ len < kMinMessageLen then
      .ok (.again (codec.fail s .kInvalidLength))
    else if s.buf.readableBytes ≥ toSizeT (len + kHeaderLen) then do
      match ← parse w (s.buf.readable.drop kHeaderLen) len with
      | .ok message =>
          let s := codec.deliver s message
          let buf ← s.buf.retrieve (toSizeT (kHeaderLen + len))
          .ok (.again { s with buf })
      | .error errorCode => .ok (.again (codec.fail s errorCode))
    else .ok (.leave s)
  else .ok (.leave s)

/-- `onMessage`, for at most `fuel` iterations. -/
def onMessage (codec : RpcCodec RpcMessage) (w : Wire RpcMessage) (fuel : Nat) (s : RpcSession RpcMessage) :
    Option (Outcome (RpcSession RpcMessage)) :=
  Loop.run (codec.iterate w) fuel s

/-- Bytes arrive: they are appended to the buffer, and `onMessage` is called. -/
def receive (codec : RpcCodec RpcMessage) (w : Wire RpcMessage) (fuel : Nat) (s : RpcSession RpcMessage)
    (chunk : Bytes) : Option (Outcome (RpcSession RpcMessage)) :=
  Loop.andThen (some (s.buf.append chunk.data chunk.data.length)) fun buf =>
    codec.onMessage w fuel { s with buf }

/-- Several chunks, one after the other. -/
def receiveAll (codec : RpcCodec RpcMessage) (w : Wire RpcMessage) (fuel : Nat) :
    RpcSession RpcMessage → List Bytes → Option (Outcome (RpcSession RpcMessage))
  | s, [] => some (.ok s)
  | s, chunk :: chunks =>
      Loop.andThen (codec.receive w fuel s chunk) fun s => codec.receiveAll w fuel s chunks

/-- What the constructor sets `errorCallback_` to: it logs the error, and shuts down. -/
def defaultErrorCallback (conn : TcpConnection) (buf : Buffer) (_ : ErrorCode) : TcpConnection × Buffer :=
  (if conn.connected then conn.shutdown else conn, buf)

/-- `explicit RpcCodec(const ProtobufMessageCallback& messageCb)`. -/
def new (messageCb : TcpConnection → RpcMessage → TcpConnection) : RpcCodec RpcMessage :=
  ⟨messageCb, defaultErrorCallback⟩

end RpcCodec

end Muduo.Net
