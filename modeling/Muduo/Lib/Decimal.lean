import Mathlib.Tactic

/-!
# `Lib.Decimal` — numbers printed in decimal, and printed into too little room

A number printed into a field of `d` characters keeps its first `d` digits, and these are themselves the
text of a number: `leading d n`. Two numbers therefore print alike into such a field exactly when their
leading parts agree, and a number of at most `d` digits is its own leading part.
-/

namespace Lib

/-- The decimal text of `n`, most significant digit first. -/
def decimal (n : Nat) : List Char := Nat.toDigits 10 n

/-- The number that the first `d` digits of `n` stand for. -/
def leading (d n : Nat) : Nat := n / 10 ^ ((decimal n).length - d)

theorem decimal_injective : Function.Injective decimal := by
  intro m n h
  have hparse := congrArg (fun ds => Nat.ofDigitChars 10 ds 0) h
  simpa [decimal] using hparse

theorem length_decimal_le {d n : Nat} (hd : 0 < d) : (decimal n).length ≤ d ↔ n < 10 ^ d :=
  Nat.length_toDigits_le_iff (by decide) hd

/-- The last digit, set apart. -/
theorem decimal_of_ten_le {n : Nat} (h : 10 ≤ n) : ∃ c, decimal n = decimal (n / 10) ++ [c] :=
  ⟨_, Nat.toDigits_of_base_le (by decide) h⟩

/-- A number that fits is its own leading part. -/
theorem leading_of_lt {d n : Nat} (hd : 0 < d) (h : n < 10 ^ d) : leading d n = n := by
  unfold leading
  rw [Nat.sub_eq_zero_of_le ((length_decimal_le hd).mpr h), pow_zero, Nat.div_one]

/-- **A cut decimal text is a decimal text.** -/
theorem take_decimal {d : Nat} (hd : 0 < d) (n : Nat) : (decimal n).take d = decimal (leading d n) := by
  induction n using Nat.strong_induction_on with
  | _ n ih =>
    by_cases hle : (decimal n).length ≤ d
    · rw [List.take_of_length_le hle, leading_of_lt hd ((length_decimal_le hd).mp hle)]
    · -- the last digit is cut off, and the rest is the text of `n / 10`
      have hten : 10 ≤ n := by
        by_contra hlt
        have hone : (decimal n).length ≤ 1 := (length_decimal_le (by decide)).mpr (by omega)
        omega
      obtain ⟨c, hc⟩ := decimal_of_ten_le hten
      have hlen : (decimal n).length = (decimal (n / 10)).length + 1 := by
        rw [hc, List.length_append, List.length_singleton]
      have hcut : leading d n = leading d (n / 10) := by
        unfold leading
        rw [Nat.div_div_eq_div_mul, ← pow_succ', hlen]
        congr 2
        omega
      rw [hcut, ← ih (n / 10) (by omega), hc, List.take_append_of_le_length (by omega)]

/-- **Two numbers print alike into `d` characters exactly when their leading parts agree.** -/
theorem take_decimal_eq_iff {d : Nat} (hd : 0 < d) (m n : Nat) :
    (decimal m).take d = (decimal n).take d ↔ leading d m = leading d n := by
  rw [take_decimal hd, take_decimal hd]
  exact decimal_injective.eq_iff

end Lib
