import Muduo.Base.LogStream

/-!
# `Base.Correctness.Convert` — the integer converters write canonical numerals

Both loops emit the digits of the number least significant first, which is what one turn of a division does to a
numeral (`Alphabet.lsdFirst_eq`); the sign goes behind them, and reversing the whole puts everything in its place.
On a negative number the remainders are negative as well, and the table is laid out on both sides of its zero, so
nothing is ever negated.
-/

namespace Muduo.Detail

open Lib

/-! ## The two tables -/

/-- The table is the same on both sides. -/
theorem zero_eq {lsd : Int} (h : lsd.natAbs < 10) : zero lsd = .ok (decimal.symbol lsd.natAbs) := by
  have hall : ∀ d : Fin 10, zero (d.val : Int) = .ok (decimal.symbol d.val) ∧
      zero (-(d.val : Int)) = .ok (decimal.symbol d.val) := by decide
  obtain ⟨hpos, hneg⟩ := hall ⟨lsd.natAbs, h⟩
  rcases Int.natAbs_eq lsd with heq | heq
  · rw [heq]
    exact hpos
  · rw [heq, Int.natAbs_neg]
    exact hneg

theorem zero_tmod (i : Int) : zero (i.tmod 10) = .ok (decimal.symbol (i.natAbs % 10)) := by
  rw [zero_eq (by rw [Int.natAbs_tmod]; exact Nat.mod_lt _ (by decide)), Int.natAbs_tmod]
  rfl

theorem digitsHex_eq {d : Nat} (h : d < 16) : digitsHex[d]? = some (hexadecimal.symbol d) := by
  have hall : ∀ d : Fin 16, digitsHex[d.val]? = some (hexadecimal.symbol d.val) := by decide
  exact hall ⟨d, h⟩

/-! ## Writing into the array -/

section Array

variable {data : List UInt8} {buf p : Nat} {c : UInt8} {d e : List UInt8}

theorem store_ok (h : p < data.length) : store data p c = .ok (overwrite data p [c]) := if_pos h

/-- What is written behind a byte that was stored. -/
theorem overwrite_cons (h : p < data.length) :
    overwrite (overwrite data p [c]) (p + 1) e = overwrite data p (c :: e) :=
  overwrite_append (d := [c]) h

/-- A byte stored behind what was written. -/
theorem store_next (h : buf + d.length < data.length) :
    store (overwrite data buf d) (buf + d.length) c = .ok (overwrite data buf (d ++ [c])) := by
  rw [store_ok (by rwa [length_overwrite (by omega)]), overwrite_append (by omega)]

/-- **How both converters end**: a NUL, then `std::reverse` of what stands before it. -/
theorem reverse_written (h : buf + d.length < data.length) :
    (do
      let data ← store (overwrite data buf d) (buf + d.length) 0
      .ok (overwrite data buf (window data buf (buf + d.length)).reverse, buf + d.length - buf) :
        Outcome (List UInt8 × Nat)) = .ok (overwrite data buf (d.reverse ++ [0]), d.length) := by
  have hbuf : buf ≤ data.length := le_trans (Nat.le_add_right _ _) h.le
  have hwin : window (overwrite data buf (d ++ [0])) buf (buf + d.length) = d := by
    rw [← take_window (j := buf + (d ++ [0]).length) (by simp), window_overwrite_self hbuf, List.take_left' rfl]
  rw [store_next h, ok_bind, hwin, overwrite_prefix hbuf List.length_reverse, Nat.add_sub_cancel_left]

end Array

/-! ## The loops -/

/-- What a turn of either loop does: it stores the symbol of the remainder, and goes on unless the quotient is zero. -/
def TurnsLike {ι : Type} (A : Alphabet UInt8) (abs : ι → Nat) (quot : ι → ι)
    (loop : List UInt8 → Nat → ι → Outcome (List UInt8 × Nat)) : Prop :=
  ∀ data p i, p < data.length → loop data p i =
    if abs i / A.base ≠ 0 then loop (overwrite data p [A.symbol (abs i % A.base)]) (p + 1) (quot i)
    else .ok (overwrite data p [A.symbol (abs i % A.base)], p + 1)

/-- **A loop of such turns** writes the digits, the last one first. -/
theorem loop_eq {ι : Type} {A : Alphabet UInt8} {abs : ι → Nat} {quot : ι → ι}
    {loop : List UInt8 → Nat → ι → Outcome (List UInt8 × Nat)} (hquot : ∀ i, abs (quot i) = abs i / A.base)
    (hturn : TurnsLike A abs quot loop) (i : ι) {data : List UInt8} {p : Nat}
    (h : p + (A.lsdFirst (abs i)).length ≤ data.length) :
    loop data p i = .ok (overwrite data p (A.lsdFirst (abs i)), p + (A.lsdFirst (abs i)).length) := by
  induction hn : abs i using Nat.strong_induction_on generalizing i data p with
  | _ n ih =>
    subst hn
    rw [A.lsdFirst_eq] at h ⊢
    by_cases hzero : abs i / A.base = 0
    · rw [if_pos hzero] at h ⊢
      rw [hturn _ _ _ h, if_neg (not_not.mpr hzero)]
      rfl
    · rw [if_neg hzero, List.length_cons] at h
      rw [if_neg hzero]
      have hp : p < data.length := by omega
      have hlt : abs (quot i) < abs i := by
        rw [hquot]
        exact Nat.div_lt_self (Nat.pos_of_ne_zero fun h0 => hzero (by rw [h0, Nat.zero_div])) A.one_lt_base
      have hroom : p + 1 + (A.lsdFirst (abs (quot i))).length ≤
          (overwrite data p [A.symbol (abs i % A.base)]).length := by
        rw [length_overwrite (show _ ≤ _ from hp), hquot]
        omega
      rw [hturn _ _ _ hp, if_pos hzero, ih _ hlt (quot i) hroom rfl, hquot, overwrite_cons hp, List.length_cons,
        Nat.add_right_comm, Nat.add_assoc]

theorem convertLoop_turns : TurnsLike decimal Int.natAbs (fun i => i.tdiv 10) convertLoop := by
  intro data p i hp
  have hquot : (i.tdiv 10 ≠ 0) = (i.natAbs / decimal.base ≠ 0) := by
    rw [← Int.natAbs_ne_zero, Int.natAbs_tdiv]
    rfl
  rw [convertLoop, zero_tmod, ok_bind, store_ok hp, ok_bind]
  simp only [hquot]
  rfl

theorem convertHexLoop_turns : TurnsLike hexadecimal UInt64.toNat (fun i => i / 16) convertHexLoop := by
  intro data p i hp
  have hquot : (i / 16 ≠ 0) = (i.toNat / hexadecimal.base ≠ 0) := by
    rw [ne_eq, ← UInt64.toNat_inj, UInt64.toNat_div]
    rfl
  have hrem : (i % 16).toNat = i.toNat % 16 := UInt64.toNat_mod i 16
  rw [convertHexLoop, hrem, digitsHex_eq (Nat.mod_lt _ (by decide))]
  dsimp only
  rw [store_ok hp, ok_bind]
  simp only [hquot]
  rfl

theorem convertLoop_eq (i : Int) {data : List UInt8} {p : Nat}
    (h : p + (decimal.lsdFirst i.natAbs).length ≤ data.length) :
    convertLoop data p i =
      .ok (overwrite data p (decimal.lsdFirst i.natAbs), p + (decimal.lsdFirst i.natAbs).length) :=
  loop_eq (fun i => Int.natAbs_tdiv i 10) convertLoop_turns i h

theorem convertHexLoop_eq (i : UInt64) {data : List UInt8} {p : Nat}
    (h : p + (hexadecimal.lsdFirst i.toNat).length ≤ data.length) :
    convertHexLoop data p i =
      .ok (overwrite data p (hexadecimal.lsdFirst i.toNat), p + (hexadecimal.lsdFirst i.toNat).length) :=
  loop_eq (fun i => UInt64.toNat_div i 16) convertHexLoop_turns i h

/-! ## The converters -/

variable {data : List UInt8} {buf : Nat}

/-- **`convert` writes the text of the number**, and a NUL. -/
theorem convert_eq {T : IntType} (value : T.Value)
    (h : buf + (decimal.integer minus value.val).length < data.length) :
    convert data buf value =
      .ok (overwrite data buf (decimal.integer minus value.val ++ [0]), (decimal.integer minus value.val).length) := by
  unfold convert
  by_cases hneg : value.val < 0
  · have htext : decimal.integer minus value.val = (decimal.lsdFirst value.val.natAbs ++ [minus]).reverse := by
      rw [Alphabet.integer, if_pos hneg, List.reverse_append]
      rfl
    rw [htext, List.length_reverse] at h
    rw [List.length_append, List.length_singleton] at h
    rw [convertLoop_eq value.val (by omega), ok_bind]
    dsimp only
    rw [if_pos hneg, store_next (by omega)]
    simp only [ok_bind]
    have hend : buf + (decimal.lsdFirst value.val.natAbs).length + 1 =
        buf + (decimal.lsdFirst value.val.natAbs ++ [minus]).length := by
      rw [List.length_append, List.length_singleton, Nat.add_assoc]
    rw [hend, reverse_written (by rw [← hend]; omega), htext, List.length_reverse]
  · have htext : decimal.integer minus value.val = (decimal.lsdFirst value.val.natAbs).reverse := by
      rw [Alphabet.integer, if_neg hneg]
      rfl
    rw [htext, List.length_reverse] at h
    rw [convertLoop_eq value.val (by omega), ok_bind]
    dsimp only
    rw [if_neg hneg]
    simp only [ok_bind]
    rw [reverse_written h, htext, List.length_reverse]

/-- **`convertHex` writes the text of the number**, and a NUL. -/
theorem convertHex_eq (value : UInt64) (h : buf + (hexadecimal.numeral value.toNat).length < data.length) :
    convertHex data buf value =
      .ok (overwrite data buf (hexadecimal.numeral value.toNat ++ [0]), (hexadecimal.numeral value.toNat).length) := by
  rw [Alphabet.length_numeral] at h ⊢
  unfold convertHex
  rw [convertHexLoop_eq value (by omega), ok_bind]
  dsimp only
  rw [reverse_written h]
  rfl

/-! ## Lengths -/

/-- No value of the type has more than 20 characters. -/
theorem length_integer_le {T : IntType} (value : T.Value) : (decimal.integer minus value.val).length ≤ 20 := by
  have hholds := value.holds
  unfold IntType.Holds at hholds
  by_cases hneg : value.val < 0
  · -- a signed type, whose values have 19 digits at most
    have hsigned : T.signed = true := by
      by_contra hunsigned
      rw [if_neg hunsigned] at hholds
      omega
    rw [if_pos hsigned] at hholds
    have hpow : (2 : Int) ^ (T.bits - 1) ≤ 2 ^ 63 :=
      pow_le_pow_right₀ (by decide) (Nat.sub_le_sub_right T.bits_le 1)
    have hlt : value.val.natAbs < decimal.base ^ 19 := by
      rw [show decimal.base ^ 19 = 10 ^ 19 from rfl]
      omega
    have hlen : (decimal.integer minus value.val).length ≤ 19 + _ := decimal.length_integer_le (by decide) hlt
    rwa [if_pos hneg] at hlen
  · have hlt : value.val.natAbs < decimal.base ^ 20 := by
      rw [show decimal.base ^ 20 = 10 ^ 20 from rfl]
      split at hholds
      · have hpow : (2 : Int) ^ (T.bits - 1) ≤ 2 ^ 64 :=
          pow_le_pow_right₀ (by decide) (le_trans (Nat.sub_le _ _) T.bits_le)
        omega
      · have hpow : (2 : Int) ^ T.bits ≤ 2 ^ 64 := pow_le_pow_right₀ (by decide) T.bits_le
        omega
    have hlen : (decimal.integer minus value.val).length ≤ 20 + _ := decimal.length_integer_le (by decide) hlt
    rwa [if_neg hneg] at hlen

theorem length_pointer_le (value : UInt64) : (hexadecimal.numeral value.toNat).length ≤ 16 :=
  (hexadecimal.length_numeral_le_iff (by decide)).mpr value.toNat_lt

/-- **Integers are formatted exactly.** For every value of every integer type there is one text that is a canonical
    decimal and reads back as the value; it has at most 20 characters, and `convert` writes it and a NUL, and returns
    its length. Likewise `convertHex`, in upper-case hexadecimal with at most 16 digits. -/
theorem convert_correct (T : IntType) (value : T.Value) (pointer : UInt64) :
    (∃ text : List UInt8,
      (∀ t, decimal.CanonicalInteger minus t ∧ decimal.readInteger minus t = some value.val ↔ t = text) ∧
      text.length ≤ 20 ∧
      ∀ data buf, buf + text.length < data.length →
        convert data buf value = .ok (overwrite data buf (text ++ [0]), text.length)) ∧
    ∃ text : List UInt8,
      (∀ t, hexadecimal.Canonical t ∧ hexadecimal.read t = some pointer.toNat ↔ t = text) ∧ text.length ≤ 16 ∧
      ∀ data buf, buf + text.length < data.length →
        convertHex data buf pointer = .ok (overwrite data buf (text ++ [0]), text.length) :=
  ⟨⟨_, fun _ => decimal.canonicalInteger_iff minus_not_mem, length_integer_le value, fun _ _ h => convert_eq value h⟩,
    ⟨_, fun _ => hexadecimal.canonical_iff, length_pointer_le pointer, fun _ _ h => convertHex_eq pointer h⟩⟩

/-- `INT64_MIN` and `0xDEADBEEF`, at the beginning of an array of 32 bytes. -/
theorem convert_correct_min :
    convert (List.replicate 32 0) 0 (⟨-2 ^ 63, by decide⟩ : IntType.long.Value) =
      .ok (overwrite (List.replicate 32 0) 0
        [0x2d, 0x39, 0x32, 0x32, 0x33, 0x33, 0x37, 0x32, 0x30, 0x33, 0x36, 0x38, 0x35, 0x34, 0x37, 0x37, 0x35, 0x38,
          0x30, 0x38, 0], 20) ∧
    convertHex (List.replicate 32 0) 0 0xDEADBEEF =
      .ok (overwrite (List.replicate 32 0) 0 [0x44, 0x45, 0x41, 0x44, 0x42, 0x45, 0x45, 0x46, 0], 8) := by
  obtain ⟨⟨text, htext, -, hconvert⟩, hex, hhex, -, hconvertHex⟩ :=
    convert_correct IntType.long ⟨-2 ^ 63, by decide⟩ 0xDEADBEEF
  have hdecimal := (htext [0x2d, 0x39, 0x32, 0x32, 0x33, 0x33, 0x37, 0x32, 0x30, 0x33, 0x36, 0x38, 0x35, 0x34, 0x37,
    0x37, 0x35, 0x38, 0x30, 0x38]).mp
    ⟨.inr ⟨_, rfl, ⟨by decide, by decide +kernel, by decide⟩,
      fun h => absurd (congrArg List.length h) (by decide)⟩, by decide⟩
  have hhexadecimal := (hhex [0x44, 0x45, 0x41, 0x44, 0x42, 0x45, 0x45, 0x46]).mp
    ⟨⟨by decide, by decide +kernel, by decide⟩, by decide⟩
  rw [← hdecimal] at hconvert
  rw [← hhexadecimal] at hconvertHex
  exact ⟨hconvert _ 0 (by decide), hconvertHex _ 0 (by decide)⟩

end Muduo.Detail
