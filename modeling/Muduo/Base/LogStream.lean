import Muduo.Base.Types
import Muduo.Lib.Numeral
import Muduo.Lib.Outcome
import Muduo.Lib.Window

/-!
# `Base.LogStream` — the stream that a log line is written into

`LogStream.h` and `LogStream.cc`. The buffer is an array and a write position, as it is there. Text gets in by
`append`, which copies what fits, or by a converter that writes at `current()` and is followed by `add`; every
write and every table lookup is checked here, so a write beyond the array is a fault and not a bigger array.

What `snprintf` prints for a `double` is taken as given.
-/

namespace Muduo

open Lib

/-! ## Integer types -/

/-- An integer type of at most 64 bits. -/
structure IntType where
  signed : Bool
  bits : Nat
  bits_pos : 0 < bits
  bits_le : bits ≤ 64

namespace IntType

/-- The values of the type. -/
def Holds (T : IntType) (v : Int) : Prop :=
  if T.signed = true then -2 ^ (T.bits - 1) ≤ v ∧ v < 2 ^ (T.bits - 1) else 0 ≤ v ∧ v < 2 ^ T.bits

instance (T : IntType) (v : Int) : Decidable (T.Holds v) :=
  inferInstanceAs (Decidable (if T.signed = true then -2 ^ (T.bits - 1) ≤ v ∧ v < 2 ^ (T.bits - 1)
    else 0 ≤ v ∧ v < 2 ^ T.bits))

structure Value (T : IntType) where
  val : Int
  holds : T.Holds val

def short : IntType := ⟨true, 16, by decide, by decide⟩

def unsignedShort : IntType := ⟨false, 16, by decide, by decide⟩

def int : IntType := ⟨true, 32, by decide, by decide⟩

def unsignedInt : IntType := ⟨false, 32, by decide, by decide⟩

def long : IntType := ⟨true, 64, by decide, by decide⟩

def unsignedLong : IntType := ⟨false, 64, by decide, by decide⟩

def longLong : IntType := ⟨true, 64, by decide, by decide⟩

def unsignedLongLong : IntType := ⟨false, 64, by decide, by decide⟩

/-- `static_cast<int>` of a `short`. -/
def shortToInt (v : short.Value) : int.Value := ⟨v.val, by
  have h := v.holds
  simp only [Holds, short, int, reduceIte] at h ⊢
  omega⟩

/-- `static_cast<unsigned int>` of an `unsigned short`. -/
def unsignedShortToUnsignedInt (v : unsignedShort.Value) : unsignedInt.Value := ⟨v.val, by
  have h := v.holds
  simp only [Holds, unsignedShort, unsignedInt, Bool.false_eq_true, reduceIte] at h ⊢
  omega⟩

end IntType

namespace Detail

/-! ## Numbers as text -/

/-- `0` to `9`. -/
def decimal : Alphabet UInt8 :=
  ⟨[0x30, 0x31, 0x32, 0x33, 0x34, 0x35, 0x36, 0x37, 0x38, 0x39], by decide, by decide⟩

/-- `0` to `9` and `A` to `F`. -/
def hexadecimal : Alphabet UInt8 :=
  ⟨[0x30, 0x31, 0x32, 0x33, 0x34, 0x35, 0x36, 0x37, 0x38, 0x39, 0x41, 0x42, 0x43, 0x44, 0x45, 0x46], by decide,
    by decide⟩

/-- `'-'`. -/
def minus : UInt8 := 0x2d

theorem minus_not_mem : minus ∉ decimal.symbols := by decide

/-! ## Converters

`buf` is an index into the array that the pointer points into. -/

/-- `*p = c`. -/
def store (data : List UInt8) (p : Nat) (c : UInt8) : Outcome (List UInt8) :=
  if p < data.length then .ok (overwrite data p [c]) else .error .badAccess

/-- `"9876543210123456789"`, with its NUL. -/
def digits : List UInt8 :=
  [0x39, 0x38, 0x37, 0x36, 0x35, 0x34, 0x33, 0x32, 0x31, 0x30, 0x31, 0x32, 0x33, 0x34, 0x35, 0x36, 0x37, 0x38, 0x39, 0]

/-- `zero[lsd]`, where `zero` is `digits + 9`. -/
def zero (lsd : Int) : Outcome UInt8 :=
  if 0 ≤ 9 + lsd then
    match digits[(9 + lsd).toNat]? with
    | some c => .ok c
    | none => .error .badAccess
  else .error .badAccess

/-- `"0123456789ABCDEF"`, with its NUL. -/
def digitsHex : List UInt8 :=
  [0x30, 0x31, 0x32, 0x33, 0x34, 0x35, 0x36, 0x37, 0x38, 0x39, 0x41, 0x42, 0x43, 0x44, 0x45, 0x46, 0]

/-- The loop of `convert`; it leaves `p` behind the digits, which stand in reverse order. The quotients of a value of `T`
    are values of `T`, so `i` is an integer here. -/
def convertLoop (data : List UInt8) (p : Nat) (i : Int) : Outcome (List UInt8 × Nat) := do
  let data ← store data p (← zero (i.tmod 10))
  if i.tdiv 10 ≠ 0 then convertLoop data (p + 1) (i.tdiv 10) else .ok (data, p + 1)
termination_by i.natAbs
decreasing_by
  rw [Int.natAbs_tdiv]
  have hi : i ≠ 0 := by
    rintro rfl
    contradiction
  exact Nat.div_lt_self (Int.natAbs_pos.mpr hi) (by decide)

/-- `convert(buf, value)`: the array it leaves, and what it returns. -/
def convert {T : IntType} (data : List UInt8) (buf : Nat) (value : T.Value) : Outcome (List UInt8 × Nat) := do
  let (data, p) ← convertLoop data buf value.val
  let (data, p) ←
    if value.val < 0 then do
      let data ← store data p minus
      .ok (data, p + 1)
    else .ok (data, p)
  let data ← store data p 0
  -- `std::reverse(buf, p)`
  .ok (overwrite data buf (window data buf p).reverse, p - buf)

/-- The loop of `convertHex`. -/
def convertHexLoop (data : List UInt8) (p : Nat) (i : UInt64) : Outcome (List UInt8 × Nat) :=
  match digitsHex[(i % 16).toNat]? with
  | none => .error .badAccess
  | some c => do
      let data ← store data p c
      if i / 16 ≠ 0 then convertHexLoop data (p + 1) (i / 16) else .ok (data, p + 1)
termination_by i.toNat
decreasing_by
  have hi : i ≠ 0 := by
    rintro rfl
    contradiction
  have hpos : 0 < i.toNat := Nat.pos_of_ne_zero fun h => hi (UInt64.toNat_inj.mp h)
  rw [UInt64.toNat_div]
  exact Nat.div_lt_self hpos (by decide)

/-- `convertHex(buf, value)`. -/
def convertHex (data : List UInt8) (buf : Nat) (value : UInt64) : Outcome (List UInt8 × Nat) := do
  let (data, p) ← convertHexLoop data buf value
  let data ← store data p 0
  .ok (overwrite data buf (window data buf p).reverse, p - buf)

/-! ## The buffer -/

/-- `FixedBuffer<SIZE>`, with `cur_` as an index into `data_`. -/
structure FixedBuffer (SIZE : Nat) where
  data : List UInt8
  cur : Nat

namespace FixedBuffer

variable {SIZE : Nat}

def avail (b : FixedBuffer SIZE) : Int := toInt32 ((SIZE : Int) - b.cur)

def length (b : FixedBuffer SIZE) : Int := toInt32 b.cur

/-- `memcpy(cur_, buf, len)`, of `len` of the bytes that can be read from `buf`. -/
def memcpy (b : FixedBuffer SIZE) (buf : List UInt8) (len : Nat) : Outcome (FixedBuffer SIZE) :=
  if len ≤ buf.length ∧ b.cur + len ≤ b.data.length then .ok { b with data := overwrite b.data b.cur (buf.take len) }
  else .error .badAccess

def add (b : FixedBuffer SIZE) (len : Nat) : FixedBuffer SIZE := { b with cur := b.cur + len }

def append (b : FixedBuffer SIZE) (buf : List UInt8) (len : Nat) : Outcome (FixedBuffer SIZE) :=
  if toSizeT b.avail > len then do
    let b ← b.memcpy buf len
    .ok (b.add len)
  else .ok b

/-- `string(data_, length())`. -/
def asString (b : FixedBuffer SIZE) : List UInt8 := b.data.take (toSizeT b.length)

end FixedBuffer

def kSmallBuffer : Nat := 4000

end Detail

open Detail

/-! ## The stream -/

/-- A string of C: its bytes up to the first NUL. -/
structure CString where
  chars : Bytes
  noNul : 0 ∉ chars.data

/-- A piece with an `int` length, as many bytes of which can be read. -/
def StringPiece.Readable (v : StringPiece) : Prop :=
  -2 ^ 31 ≤ v.length ∧ v.length < 2 ^ 31 ∧ v.length ≤ v.ptr.length

def kMaxNumericSize : Nat := 32

/-- What `"%.12g"` prints for a `double`. -/
structure DoubleText where
  text : List UInt8
  short : text.length < kMaxNumericSize

/-- What `<<` is called with. -/
inductive Operand where
  | bool (v : Bool)
  | char (v : UInt8)
  | cstring (v : CString)
  | string (v : Bytes)
  | piece (v : StringPiece) (h : v.Readable)
  | short (v : IntType.short.Value)
  | unsignedShort (v : IntType.unsignedShort.Value)
  | int (v : IntType.int.Value)
  | unsignedInt (v : IntType.unsignedInt.Value)
  | long (v : IntType.long.Value)
  | unsignedLong (v : IntType.unsignedLong.Value)
  | longLong (v : IntType.longLong.Value)
  | unsignedLongLong (v : IntType.unsignedLongLong.Value)
  | pointer (v : UInt64)
  | double (v : DoubleText)

/-- `class LogStream`. -/
structure LogStream where
  buffer : Detail.FixedBuffer kSmallBuffer

namespace LogStream

/-- A stream whose array holds `data` when it is made. -/
def new (data : List UInt8) : LogStream := ⟨⟨data, 0⟩⟩

/-- `buffer_.append(data, len)`, which `append` and the string operators are. -/
def append (s : LogStream) (data : List UInt8) (len : Nat) : Outcome LogStream := do
  let buffer ← s.buffer.append data len
  .ok ⟨buffer⟩

def formatInteger {T : IntType} (s : LogStream) (v : T.Value) : Outcome LogStream :=
  if s.buffer.avail ≥ kMaxNumericSize then do
    let (data, len) ← convert s.buffer.data s.buffer.cur v
    .ok ⟨{ s.buffer with data }.add len⟩
  else .ok s

/-- `operator<<(const void* p)`. -/
def formatPointer (s : LogStream) (v : UInt64) : Outcome LogStream :=
  if s.buffer.avail ≥ kMaxNumericSize then do
    let buf := s.buffer.cur
    let data ← store s.buffer.data buf 0x30
    let data ← store data (buf + 1) 0x78
    let (data, len) ← convertHex data (buf + 2) v
    .ok ⟨{ s.buffer with data }.add (len + 2)⟩
  else .ok s

/-- `operator<<(double v)`; `snprintf` writes the text and a NUL. -/
def formatDouble (s : LogStream) (v : DoubleText) : Outcome LogStream :=
  if s.buffer.avail ≥ kMaxNumericSize then do
    let buffer ← s.buffer.memcpy (v.text ++ [0]) (v.text.length + 1)
    .ok ⟨buffer.add v.text.length⟩
  else .ok s

/-- `operator<<`. -/
def insert (s : LogStream) : Operand → Outcome LogStream
  | .bool v => s.append [if v = true then 0x31 else 0x30] 1
  | .char v => s.append [v] 1
  | .cstring v => s.append v.chars.data v.chars.data.length
  | .string v => s.append v.data v.data.length
  | .piece v _ => s.append v.ptr (toSizeT v.length)
  | .short v => s.formatInteger (IntType.shortToInt v)
  | .unsignedShort v => s.formatInteger (IntType.unsignedShortToUnsignedInt v)
  | .int v => s.formatInteger v
  | .unsignedInt v => s.formatInteger v
  | .long v => s.formatInteger v
  | .unsignedLong v => s.formatInteger v
  | .longLong v => s.formatInteger v
  | .unsignedLongLong v => s.formatInteger v
  | .pointer v => s.formatPointer v
  | .double v => s.formatDouble v

/-- One `<<` after the other. -/
def insertAll (s : LogStream) : List Operand → Outcome LogStream
  | [] => .ok s
  | o :: os => do
      let s ← s.insert o
      s.insertAll os

end LogStream

end Muduo
