import Mathlib.Tactic

/-!
# `Base.Types` — the machine types the code computes with

Sizes are natural numbers and every `size_t` operation of the code that could leave the type's range is
written with its explicit reduction modulo `2 ^ 64`; signed integers are `Int`, reduced to two's complement
by `toInt32` / `toInt64` where the code narrows or may overflow.

`Bytes` is a byte string that exists in memory. Its bound is that of a 64-bit address space, of which a
process sees 47 bits, so a length computed from a `Bytes` never comes near the range of `size_t`.
-/

namespace Muduo

/-! ## `size_t` -/

/-- `a + b` in `size_t`. -/
def SizeT.add (a b : Nat) : Nat := (a + b) % 2 ^ 64

/-- `a - b` in `size_t`. -/
def SizeT.sub (a b : Nat) : Nat := (a + 2 ^ 64 - b) % 2 ^ 64

theorem SizeT.add_eq {a b : Nat} (h : a + b < 2 ^ 64) : SizeT.add a b = a + b := Nat.mod_eq_of_lt h

theorem SizeT.sub_eq {a b : Nat} (h : b ≤ a) (ha : a < 2 ^ 64) : SizeT.sub a b = a - b := by
  unfold SizeT.sub
  omega

/-- `std::vector<char>::max_size()`, which is `PTRDIFF_MAX`. -/
def maxSize : Nat := 2 ^ 63 - 1

/-! ## Signed conversions -/

/-- Conversion to `int32_t`. -/
def toInt32 (n : Int) : Int := n.bmod (2 ^ 32)

/-- Conversion to `int64_t`; also the value a wrapping 64-bit signed operation yields. -/
def toInt64 (n : Int) : Int := n.bmod (2 ^ 64)

/-- Conversion of a signed value to `size_t`. -/
def toSizeT (n : Int) : Nat := (n % 2 ^ 64).toNat

/-- Conversion of a signed value to `unsigned int`. -/
def toUInt32 (n : Int) : Nat := (n % 2 ^ 32).toNat

theorem toInt32_eq {n : Int} (h : -2 ^ 31 ≤ n) (h' : n < 2 ^ 31) : toInt32 n = n := by
  unfold toInt32
  exact Int.bmod_eq_of_le (by omega) (by omega)

theorem toInt32_range (n : Int) : -2 ^ 31 ≤ toInt32 n ∧ toInt32 n < 2 ^ 31 := by
  have hlo := Int.le_bmod (x := n) (m := 2 ^ 32) (by decide)
  have hhi := Int.bmod_lt (x := n) (m := 2 ^ 32) (by decide)
  unfold toInt32
  omega

theorem toInt64_eq {n : Int} (h : -2 ^ 63 ≤ n) (h' : n < 2 ^ 63) : toInt64 n = n := by
  unfold toInt64
  exact Int.bmod_eq_of_le (by omega) (by omega)

theorem toSizeT_natCast {n : Nat} (h : n < 2 ^ 64) : toSizeT n = n := by
  unfold toSizeT
  omega

/-- An `int` that is not negative converts to `size_t` as it is. -/
theorem toSizeT_toInt32 {n : Nat} (h : n < 2 ^ 31) : toSizeT (toInt32 n) = n := by
  rw [toInt32_eq (by omega) (by omega), toSizeT_natCast (by omega)]

/-- The upper half of the 32-bit numbers becomes negative. -/
theorem toInt32_of_ge {n : Nat} (h : 2 ^ 31 ≤ n) (h' : n < 2 ^ 32) : toInt32 n = (n : Int) - 2 ^ 32 := by
  have hmod : (n : Int) % ((2 ^ 32 : Nat) : Int) = n := Int.emod_eq_of_lt (by omega) (by omega)
  unfold toInt32 Int.bmod
  rw [hmod]
  dsimp only
  rw [if_neg (by omega)]
  omega

theorem toInt32_inj {m n : Nat} (hm : m < 2 ^ 32) (hn : n < 2 ^ 32) (h : toInt32 m = toInt32 n) : m = n := by
  unfold toInt32 at h
  have hmod := Int.bmod_emod (x := (m : Int)) (m := 2 ^ 32)
  rw [h, Int.bmod_emod] at hmod
  omega

/-- From `2 ^ 31` bytes on, no `size_t` made of an `int` is the length. -/
theorem toSizeT_toInt32_ne {n : Nat} (hlo : 2 ^ 31 ≤ n) (hhi : n ≤ maxSize) : toSizeT (toInt32 n) ≠ n := by
  obtain ⟨hmin, hmax⟩ := toInt32_range n
  unfold maxSize at hhi
  unfold toSizeT
  omega

theorem toUInt32_natCast {n : Nat} (h : n < 2 ^ 32) : toUInt32 n = n := by
  unfold toUInt32
  omega

/-! ## Byte strings in memory -/

/-- Every object of a process is smaller than its 47-bit address space. -/
def maxObject : Nat := 2 ^ 47

/-- A byte string held in memory. -/
structure Bytes where
  data : List UInt8
  fits : data.length < maxObject
deriving DecidableEq, Repr

/-- `StringPiece`: a pointer, here the bytes that can be read from it, and an `int` length. -/
structure StringPiece where
  ptr : List UInt8
  length : Int
deriving DecidableEq, Repr

/-- `StringPiece(const string& str)`. -/
def StringPiece.ofString (str : List UInt8) : StringPiece := ⟨str, toInt32 str.length⟩

end Muduo
