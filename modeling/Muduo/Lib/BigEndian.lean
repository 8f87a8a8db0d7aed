import Mathlib.Tactic

/-!
# `Lib.BigEndian` — natural numbers as byte strings, most significant byte first

`encode w n` is the `w` bytes of `n`, reduced modulo `256 ^ w`; `decode` reads any byte string. They are inverse
to each other on the numbers below `256 ^ w` and the byte strings of length `w`.
-/

namespace Lib.BigEndian

def encode : Nat → Nat → List UInt8
  | 0, _ => []
  | w + 1, n => encode w (n / 256) ++ [UInt8.ofNat n]

def decode (bs : List UInt8) : Nat := bs.foldl (fun n b => 256 * n + b.toNat) 0

@[simp] theorem length_encode (w n : Nat) : (encode w n).length = w := by
  induction w generalizing n with
  | zero => rfl
  | succ w ih => simp [encode, ih]

/-- The last byte is the least significant one. -/
theorem decode_concat (bs : List UInt8) (b : UInt8) : decode (bs ++ [b]) = 256 * decode bs + b.toNat := by
  unfold decode
  rw [List.foldl_append]
  rfl

theorem decode_encode (w n : Nat) : decode (encode w n) = n % 256 ^ w := by
  induction w generalizing n with
  | zero => simp [encode, decode, Nat.mod_one]
  | succ w ih =>
      rw [encode, decode_concat, ih, pow_succ', Nat.mod_mul, Nat.add_comm]
      rfl

theorem decode_lt (bs : List UInt8) : decode bs < 256 ^ bs.length := by
  induction bs using List.reverseRecOn with
  | nil => simp [decode]
  | append_singleton bs b ih =>
      have hb : b.toNat < 256 := b.toNat_lt
      rw [decode_concat, List.length_append, List.length_singleton, pow_succ]
      omega

theorem encode_decode {w : Nat} {bs : List UInt8} (h : bs.length = w) : encode w (decode bs) = bs := by
  induction bs using List.reverseRecOn generalizing w with
  | nil =>
      subst h
      rfl
  | append_singleton bs b ih =>
      have hb : b.toNat < 256 := b.toNat_lt
      subst h
      rw [List.length_append, List.length_singleton, decode_concat, encode]
      have hdiv : (256 * decode bs + b.toNat) / 256 = decode bs := by omega
      have hlast : UInt8.ofNat (256 * decode bs + b.toNat) = b := by
        apply UInt8.toNat_inj.mp
        rw [UInt8.toNat_ofNat']
        omega
      rw [hdiv, hlast, ih rfl]

end Lib.BigEndian
