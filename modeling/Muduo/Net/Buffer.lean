import Muduo.Lib.Outcome
import Muduo.Lib.Search
import Muduo.Lib.Window
import Muduo.Net.Endian

/-!
# `Net.Buffer` — the growable byte buffer of `Buffer.h` and `Buffer.cc`

```
+-------------------+------------------+------------------+
| prependable bytes |  readable bytes  |  writable bytes  |
+-------------------+------------------+------------------+
0      <=      readerIndex   <=   writerIndex    <=     size
```

The functions below are those of the class, on the vector and its two indices. Pointers into the vector are
offsets from `begin()`; a pointer argument is the list of bytes that can be read from it. All index
arithmetic is `size_t` arithmetic, so a length near `2 ^ 64` wraps here exactly as it does there.
-/

namespace Muduo.Net

open Lib

/-- `class Buffer`. -/
structure Buffer where
  buffer : List UInt8
  readerIndex : Nat
  writerIndex : Nat
deriving DecidableEq, Repr

/-- What `readv(2)` reported: the bytes it delivered, in order, or an error. -/
inductive ReadResult where
  | data (bytes : List UInt8)
  | failed (errno : Nat)
deriving DecidableEq, Repr

namespace Buffer

def kCheapPrepend : Nat := 8

def kInitialSize : Nat := 1024

/-- `sizeof extrabuf` in `readFd`. -/
def kExtraBuf : Nat := 65536

/-- The default constructor. -/
def new : Buffer := ⟨List.replicate (kCheapPrepend + kInitialSize) 0, kCheapPrepend, kCheapPrepend⟩

def readableBytes (b : Buffer) : Nat := SizeT.sub b.writerIndex b.readerIndex

def writableBytes (b : Buffer) : Nat := SizeT.sub b.buffer.length b.writerIndex

def prependableBytes (b : Buffer) : Nat := b.readerIndex

/-- The readable content: the bytes from `peek()` to `beginWrite()`. -/
def readable (b : Buffer) : List UInt8 := window b.buffer b.readerIndex b.writerIndex

/-! ## Looking for a line -/

/-- `"\r\n"`. -/
def kCRLF : List UInt8 := [0x0d, 0x0a]

/-- `findCRLF()`, as an offset from `begin()`; `none` is the null pointer. -/
def findCRLF (b : Buffer) : Option Nat :=
  let crlf := b.readerIndex + search kCRLF b.readable
  if crlf = b.writerIndex then none else some crlf

/-- `findCRLF(const char* start)`. -/
def findCRLFFrom (b : Buffer) (start : Nat) : Outcome (Option Nat) := do
  assert (b.readerIndex ≤ start)
  assert (start ≤ b.writerIndex)
  let crlf := start + search kCRLF (window b.buffer start b.writerIndex)
  .ok (if crlf = b.writerIndex then none else some crlf)

/-! ## Consuming -/

def retrieveAll (b : Buffer) : Buffer :=
  { b with readerIndex := kCheapPrepend, writerIndex := kCheapPrepend }

def retrieve (b : Buffer) (len : Nat) : Outcome Buffer := do
  assert (len ≤ b.readableBytes)
  if len < b.readableBytes then
    .ok { b with readerIndex := SizeT.add b.readerIndex len }
  else
    .ok b.retrieveAll

/-- `retrieveUntil(end)`, with `end` given as an offset from `begin()`. -/
def retrieveUntil (b : Buffer) (e : Nat) : Outcome Buffer := do
  assert (b.readerIndex ≤ e)
  assert (e ≤ b.writerIndex)
  b.retrieve (e - b.readerIndex)

def retrieveAsString (b : Buffer) (len : Nat) : Outcome (List UInt8 × Buffer) := do
  assert (len ≤ b.readableBytes)
  let result := b.readable.take len
  let b ← b.retrieve len
  .ok (result, b)

def retrieveAllAsString (b : Buffer) : Outcome (List UInt8 × Buffer) :=
  b.retrieveAsString b.readableBytes

def toStringPiece (b : Buffer) : StringPiece := ⟨b.readable, toInt32 b.readableBytes⟩

/-! ## Growing and writing -/

/-- `buffer_.resize(n)`. -/
def resizeTo (b : Buffer) (n : Nat) : Outcome Buffer :=
  if n ≤ maxSize then .ok { b with buffer := resize b.buffer n 0 } else .error .lengthError

/-- `std::copy` of `d` to `begin() + i`. -/
def copyTo (b : Buffer) (i : Nat) (d : List UInt8) : Outcome Buffer :=
  if i + d.length ≤ b.buffer.length then .ok { b with buffer := overwrite b.buffer i d }
  else .error .badAccess

def makeSpace (b : Buffer) (len : Nat) : Outcome Buffer :=
  if SizeT.add b.writableBytes b.prependableBytes < SizeT.add len kCheapPrepend then
    b.resizeTo (SizeT.add b.writerIndex len)
  else do
    -- move readable data to the front, make space inside buffer
    assert (kCheapPrepend < b.readerIndex)
    let readable := b.readableBytes
    let b ← b.copyTo kCheapPrepend b.readable
    let b := { b with readerIndex := kCheapPrepend, writerIndex := SizeT.add kCheapPrepend readable }
    assert (readable = b.readableBytes)
    .ok b

def ensureWritableBytes (b : Buffer) (len : Nat) : Outcome Buffer := do
  let b ← (if b.writableBytes < len then b.makeSpace len else .ok b)
  assert (b.writableBytes ≥ len)
  .ok b

def hasWritten (b : Buffer) (len : Nat) : Buffer :=
  { b with writerIndex := SizeT.add b.writerIndex len }

/-- `append(const char* data, size_t len)`. -/
def append (b : Buffer) (data : List UInt8) (len : Nat) : Outcome Buffer := do
  let b ← b.ensureWritableBytes len
  if data.length < len then .error .badAccess else
  let b ← b.copyTo b.writerIndex (data.take len)
  .ok (b.hasWritten len)

/-- `append(const StringPiece& str)`. -/
def appendPiece (b : Buffer) (str : StringPiece) : Outcome Buffer :=
  b.append str.ptr (toSizeT str.length)

/-- `prepend(const void* data, size_t len)`, `len` being the length of `data`. -/
def prepend (b : Buffer) (data : List UInt8) : Outcome Buffer := do
  assert (data.length ≤ b.prependableBytes)
  let b := { b with readerIndex := SizeT.sub b.readerIndex data.length }
  b.copyTo b.readerIndex data

/-! ## Integers, in network byte order -/

/-- `appendInt32` and its siblings, for integers of `w` bytes. -/
def appendInt (b : Buffer) (w : Nat) (x : Int) : Outcome Buffer := b.append (hostToNetwork w x) w

def appendInt32 (b : Buffer) (x : Int) : Outcome Buffer := b.appendInt 4 x

def appendInt16 (b : Buffer) (x : Int) : Outcome Buffer := b.appendInt 2 x

/-- A single byte has no order. -/
def appendInt8 (b : Buffer) (x : Int) : Outcome Buffer := b.appendInt 1 x

/-- `peekInt32` and its siblings, for integers of `w` bytes. -/
def peekInt (b : Buffer) (w : Nat) : Outcome Int := do
  assert (b.readableBytes ≥ w)
  .ok (networkToHost w (b.readable.take w))

def peekInt32 (b : Buffer) : Outcome Int := b.peekInt 4

def peekInt16 (b : Buffer) : Outcome Int := b.peekInt 2

def peekInt8 (b : Buffer) : Outcome Int := b.peekInt 1

/-- `readInt32` and its siblings; `retrieveInt32` is `retrieve` of 4 bytes. -/
def readInt (b : Buffer) (w : Nat) : Outcome (Int × Buffer) := do
  let result ← b.peekInt w
  let b ← b.retrieve w
  .ok (result, b)

def readInt32 (b : Buffer) : Outcome (Int × Buffer) := b.readInt 4

def readInt16 (b : Buffer) : Outcome (Int × Buffer) := b.readInt 2

def readInt8 (b : Buffer) : Outcome (Int × Buffer) := b.readInt 1

/-- `prependInt32` and its siblings. -/
def prependInt (b : Buffer) (w : Nat) (x : Int) : Outcome Buffer := b.prepend (hostToNetwork w x)

def prependInt32 (b : Buffer) (x : Int) : Outcome Buffer := b.prependInt 4 x

def prependInt16 (b : Buffer) (x : Int) : Outcome Buffer := b.prependInt 2 x

def prependInt8 (b : Buffer) (x : Int) : Outcome Buffer := b.prependInt 1 x

/-! ## Whole buffers -/

/-- `swap(Buffer& rhs)`: the two buffers afterwards. -/
def swap (b rhs : Buffer) : Buffer × Buffer := (rhs, b)

def shrink (b : Buffer) (reserve : Nat) : Outcome Buffer := do
  let other ← Buffer.new.ensureWritableBytes (SizeT.add b.readableBytes reserve)
  let other ← other.appendPiece b.toStringPiece
  .ok (b.swap other).1

/-- `readFd`, given what `readv` delivered into the writable part and `extrabuf`: the value returned
    (negative on error) and the buffer. -/
def readFd (b : Buffer) (r : ReadResult) : Outcome (Int × Buffer) :=
  let writable := b.writableBytes
  match r with
  | .failed _ => .ok (-1, b)
  | .data bytes => do
      let n := bytes.length
      -- the kernel fills the writable part first
      let b ← b.copyTo b.writerIndex (bytes.take writable)
      if n ≤ writable then
        .ok (n, { b with writerIndex := SizeT.add b.writerIndex n })
      else
        let extrabuf := bytes.drop writable
        let b ← { b with writerIndex := b.buffer.length }.append extrabuf (SizeT.sub n writable)
        .ok (n, b)

end Buffer

end Muduo.Net
