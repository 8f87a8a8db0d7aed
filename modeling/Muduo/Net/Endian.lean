import Muduo.Base.Types
import Muduo.Lib.BigEndian

/-!
# `Net.Endian` — integers in network byte order

The conversions of `Endian.h`, from a signed integer of `w` bytes to its bytes as they lie in memory and back.
-/

namespace Muduo.Net

open Lib

/-- The bytes of a `w`-byte integer, in network byte order. -/
def hostToNetwork (w : Nat) (x : Int) : List UInt8 := BigEndian.encode w (x % (256 ^ w : Nat)).toNat

/-- The signed integer with these `w` bytes. -/
def networkToHost (w : Nat) (bytes : List UInt8) : Int := (BigEndian.decode bytes : Int).bmod (256 ^ w)

def hostToNetwork32 (x : Int) : List UInt8 := hostToNetwork 4 x

def networkToHost32 (bytes : List UInt8) : Int := networkToHost 4 bytes

@[simp] theorem length_hostToNetwork (w : Nat) (x : Int) : (hostToNetwork w x).length = w :=
  BigEndian.length_encode _ _

theorem networkToHost_hostToNetwork {w : Nat} {x : Int} (hlo : -(256 ^ w : Nat) ≤ x * 2)
    (hhi : x * 2 < (256 ^ w : Nat)) : networkToHost w (hostToNetwork w x) = x := by
  have hpos : (0 : Int) < (256 ^ w : Nat) := by positivity
  unfold networkToHost hostToNetwork
  rw [BigEndian.decode_encode, Int.natCast_mod, Int.toNat_of_nonneg (Int.emod_nonneg _ hpos.ne'),
    Int.emod_emod_of_dvd _ (dvd_refl _), Int.emod_bmod, Int.bmod_eq_of_le_mul_two hlo hhi]

theorem hostToNetwork_networkToHost {w : Nat} {bytes : List UInt8} (h : bytes.length = w) :
    hostToNetwork w (networkToHost w bytes) = bytes := by
  have hlt : BigEndian.decode bytes < 256 ^ w := h ▸ BigEndian.decode_lt bytes
  unfold hostToNetwork networkToHost
  rw [Int.bmod_emod, ← Int.natCast_mod, Int.toNat_natCast, Nat.mod_eq_of_lt hlt, BigEndian.encode_decode h]

@[simp] theorem length_hostToNetwork32 (x : Int) : (hostToNetwork32 x).length = 4 := length_hostToNetwork 4 x

theorem networkToHost32_hostToNetwork32 {x : Int} (hlo : -2 ^ 31 ≤ x) (hhi : x < 2 ^ 31) :
    networkToHost32 (hostToNetwork32 x) = x :=
  networkToHost_hostToNetwork (by norm_num; omega) (by norm_num; omega)

theorem hostToNetwork32_networkToHost32 {bytes : List UInt8} (h : bytes.length = 4) :
    hostToNetwork32 (networkToHost32 bytes) = bytes :=
  hostToNetwork_networkToHost h

end Muduo.Net
