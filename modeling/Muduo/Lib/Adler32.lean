import Mathlib.Tactic

/-!
# `Lib.Adler32` — the Adler-32 checksum

Two sums modulo the prime 65521: the sum of the bytes, and the sum of these sums. `adler32 adler data` goes on
from the checksum `adler` of earlier data, as zlib's function does; a checksum of its own starts at 1. The first
sum, in the low half, alone tells two strings apart that differ in a single byte.
-/

namespace Lib.Adler32

/-- The largest prime below `2 ^ 16`. -/
def base : Nat := 65521

/-- One byte. -/
def step (s : Nat × Nat) (b : UInt8) : Nat × Nat :=
  ((s.1 + b.toNat) % base, (s.2 + (s.1 + b.toNat) % base) % base)

/-- The second sum is in the high half. -/
def adler32 (adler : Nat) (data : List UInt8) : Nat :=
  let s := data.foldl step (adler % 2 ^ 16, adler / 2 ^ 16)
  s.2 * 2 ^ 16 + s.1

variable {s : Nat × Nat} {adler : Nat} {x y : UInt8} {u v : List UInt8}

/-- Both sums are reduced. -/
theorem foldl_step_lt (h₁ : s.1 < base) (h₂ : s.2 < base) (data : List UInt8) :
    (data.foldl step s).1 < base ∧ (data.foldl step s).2 < base := by
  induction data generalizing s with
  | nil => exact ⟨h₁, h₂⟩
  | cons b data ih => exact ih (Nat.mod_lt _ (by decide)) (Nat.mod_lt _ (by decide))

/-- The first sum, up to multiples of the base. -/
theorem foldl_step_fst (s : Nat × Nat) (data : List UInt8) :
    (data.foldl step s).1 % base = (s.1 + (data.map UInt8.toNat).sum) % base := by
  induction data generalizing s with
  | nil => rfl
  | cons b data ih =>
      rw [List.foldl_cons, ih, List.map_cons, List.sum_cons, ← Nat.add_assoc]
      exact Nat.mod_add_mod _ _ _

/-- The low half is the first sum. -/
theorem adler32_mod (h₁ : adler % 2 ^ 16 < base) (h₂ : adler / 2 ^ 16 < base) (data : List UInt8) :
    adler32 adler data % 2 ^ 16 = (adler % 2 ^ 16 + (data.map UInt8.toNat).sum) % base := by
  have hlt := (foldl_step_lt (s := (adler % 2 ^ 16, adler / 2 ^ 16)) h₁ h₂ data).1
  have hsum := foldl_step_fst (adler % 2 ^ 16, adler / 2 ^ 16) data
  rw [Nat.mod_eq_of_lt hlt] at hsum
  unfold base at hlt
  unfold adler32
  dsimp only at hsum ⊢
  rw [← hsum]
  omega

theorem adler32_lt (h₁ : adler % 2 ^ 16 < base) (h₂ : adler / 2 ^ 16 < base) (data : List UInt8) :
    adler32 adler data < 2 ^ 32 := by
  obtain ⟨hlow, hhigh⟩ := foldl_step_lt (s := (adler % 2 ^ 16, adler / 2 ^ 16)) h₁ h₂ data
  unfold base at hlow hhigh
  unfold adler32
  dsimp only
  omega

/-- **Two strings that differ in one byte have different checksums.** -/
theorem adler32_ne (h₁ : adler % 2 ^ 16 < base) (h₂ : adler / 2 ^ 16 < base) (hne : x ≠ y) :
    adler32 adler (u ++ x :: v) ≠ adler32 adler (u ++ y :: v) := by
  intro heq
  have hx : x.toNat < 256 := x.toNat_lt
  have hy : y.toNat < 256 := y.toNat_lt
  have hnat : x.toNat ≠ y.toNat := fun h => hne (UInt8.toNat_inj.mp h)
  have hsum : adler32 adler (u ++ x :: v) % 2 ^ 16 = adler32 adler (u ++ y :: v) % 2 ^ 16 := by rw [heq]
  rw [adler32_mod h₁ h₂, adler32_mod h₁ h₂] at hsum
  simp only [List.map_append, List.map_cons, List.sum_append, List.sum_cons] at hsum
  -- the sums differ by less than the base
  unfold base at hsum
  omega

end Lib.Adler32
