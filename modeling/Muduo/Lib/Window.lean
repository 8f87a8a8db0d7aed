import Mathlib.Tactic

/-!
# `Lib.Window` — a contiguous vector and index windows into it

`std::vector` storage as a list, with the three primitives that code working on raw indices uses: the
elements between two indices (`window`), `std::copy` onto an index (`overwrite`) and `resize`. The lemmas
say which windows each primitive leaves alone and what the written window becomes, so that a client never
looks at `take` and `drop` again.
-/

namespace Lib

variable {α : Type*}

/-- The elements at positions `i, …, j - 1`. -/
def window (l : List α) (i j : Nat) : List α := (l.take j).drop i

/-- `l` with `d` written over it from position `i` on. -/
def overwrite (l : List α) (i : Nat) (d : List α) : List α :=
  l.take i ++ d ++ l.drop (i + d.length)

/-- `resize(n)`: cut off, or padded with `x`. -/
def resize (l : List α) (n : Nat) (x : α) : List α :=
  l.take n ++ List.replicate (n - l.length) x

/-! ## Lengths -/

theorem length_window {l : List α} {i j : Nat} (h : j ≤ l.length) : (window l i j).length = j - i := by
  simp [window, h]

theorem length_overwrite {l d : List α} {i : Nat} (h : i + d.length ≤ l.length) :
    (overwrite l i d).length = l.length := by
  simp only [overwrite, List.length_append, List.length_take, List.length_drop]
  omega

theorem length_resize {l : List α} {n : Nat} {x : α} : (resize l n x).length = n := by
  simp only [resize, List.length_append, List.length_take, List.length_replicate]
  omega

/-! ## Writing twice -/

/-- Writing on from where the last write ended. -/
theorem overwrite_append {l d e : List α} {i : Nat} (h : i + d.length ≤ l.length) :
    overwrite (overwrite l i d) (i + d.length) e = overwrite l i (d ++ e) := by
  have hlen : (l.take i ++ d).length = i + d.length := by
    rw [List.length_append, List.length_take]
    omega
  unfold overwrite
  rw [List.take_left' hlen, List.drop_append, hlen, List.drop_eq_nil_of_le (by omega), List.nil_append,
    List.drop_drop, List.length_append]
  simp only [List.append_assoc]
  congr 4
  omega

/-- Writing again over the beginning of what was written. -/
theorem overwrite_prefix {l d d' e : List α} {i : Nat} (h : i ≤ l.length) (hlen : d'.length = d.length) :
    overwrite (overwrite l i (d ++ e)) i d' = overwrite l i (d' ++ e) := by
  have htake : (l.take i).length = i := by rw [List.length_take, Nat.min_eq_left h]
  unfold overwrite
  rw [List.append_assoc (l.take i), List.take_left' htake, List.drop_append, htake, List.drop_eq_nil_of_le (by omega),
    List.nil_append, Nat.add_sub_cancel_left, hlen, List.append_assoc d, List.drop_left' rfl]
  simp only [List.append_assoc, List.length_append, hlen]

/-! ## Windows of one vector -/

@[simp] theorem window_self (l : List α) (i : Nat) : window l i i = [] :=
  List.drop_eq_nil_of_le (List.length_take_le i l)

theorem window_eq_take_drop (l : List α) (i j : Nat) : window l i j = (l.drop i).take (j - i) :=
  List.drop_take

/-- Two adjacent windows make up one. -/
theorem window_append {l : List α} {i j k : Nat} (hij : i ≤ j) (hjk : j ≤ k) :
    window l i j ++ window l j k = window l i k := by
  have hj : l.drop j = (l.drop i).drop (j - i) := by rw [List.drop_drop, Nat.add_sub_cancel' hij]
  have hk : k - i = (j - i) + (k - j) := by omega
  rw [window_eq_take_drop, window_eq_take_drop, window_eq_take_drop, hj, hk, List.take_add]

theorem take_window {l : List α} {i j n : Nat} (h : i + n ≤ j) : (window l i j).take n = window l i (i + n) := by
  rw [window_eq_take_drop, window_eq_take_drop, List.take_take, Nat.add_sub_cancel_left]
  congr 1
  omega

theorem drop_window (l : List α) (i j n : Nat) : (window l i j).drop n = window l (i + n) j := by
  simp [window, List.drop_drop]

/-! ## What the primitives do to a window -/

theorem window_overwrite_self {l d : List α} {i : Nat} (h : i ≤ l.length) :
    window (overwrite l i d) i (i + d.length) = d := by
  have hlen : (l.take i).length = i := by rw [List.length_take]; omega
  unfold window overwrite
  rw [List.append_assoc, List.take_append, hlen, Nat.add_sub_cancel_left, List.take_take]
  simp [hlen]

theorem window_overwrite_left {l d : List α} {i a b : Nat} (hi : i ≤ l.length) (hb : b ≤ i) :
    window (overwrite l i d) a b = window l a b := by
  have hlen : (l.take i).length = i := by rw [List.length_take]; omega
  unfold window overwrite
  rw [List.append_assoc, List.take_append_of_le_length (by omega), List.take_take, Nat.min_eq_left hb]

theorem window_overwrite_right {l d : List α} {i a b : Nat} (hi : i ≤ l.length)
    (ha : i + d.length ≤ a) : window (overwrite l i d) a b = window l a b := by
  have hlen : (l.take i ++ d).length = i + d.length := by
    rw [List.length_append, List.length_take]
    omega
  unfold window overwrite
  rw [List.drop_take, List.drop_take, List.drop_append, List.drop_eq_nil_of_le (by omega), hlen,
    List.drop_drop, List.nil_append, Nat.add_sub_cancel' ha]

theorem window_resize {l : List α} {n a b : Nat} {x : α} (hb : b ≤ l.length) (hn : b ≤ n) :
    window (resize l n x) a b = window l a b := by
  unfold window resize
  rw [List.take_append_of_le_length (by rw [List.length_take]; omega), List.take_take,
    Nat.min_eq_left hn]

end Lib
