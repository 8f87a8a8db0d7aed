import Mathlib.Tactic

/-!
# `Lib.Blocks` — a stream of blocks, cut anywhere

What has arrived of a stream that is the concatenation of `blocks` is some whole blocks and then a part of the
next one, and this part is a proper one.
-/

namespace Lib.Blocks

variable {α : Type*}

/-- `rest` is what has arrived of the first of the blocks `todo`, and not all of it. -/
inductive PartOf : List (List α) → List α → Prop where
  | nothing : PartOf [] []
  | first {block rest : List α} {todo : List (List α)} : rest <+: block → rest.length < block.length →
      PartOf (block :: todo) rest

theorem exists_cut {blocks : List (List α)} {r : List α} (h : r <+: blocks.flatten) :
    ∃ done todo rest, blocks = done ++ todo ∧ r = done.flatten ++ rest ∧ PartOf todo rest := by
  induction blocks generalizing r with
  | nil => exact ⟨[], [], [], rfl, by simpa using h, .nothing⟩
  | cons block blocks ih =>
      rw [List.flatten_cons] at h
      by_cases hlen : r.length < block.length
      · exact ⟨[], block :: blocks, r, rfl, rfl,
          .first (List.prefix_of_prefix_length_le h (List.prefix_append _ _) hlen.le) hlen⟩
      · obtain ⟨r', rfl⟩ := List.prefix_of_prefix_length_le (List.prefix_append _ _) h (not_lt.mp hlen)
        obtain ⟨done, todo, rest, rfl, rfl, hpart⟩ := ih ((List.prefix_append_right_inj block).mp h)
        exact ⟨block :: done, todo, rest, rfl, by simp, hpart⟩

/-- Once everything has arrived, no part is left. -/
theorem PartOf.eq_nil {done todo : List (List α)} {rest : List α} (h : PartOf todo rest)
    (hall : done.flatten ++ rest = (done ++ todo).flatten) : todo = [] ∧ rest = [] := by
  cases h with
  | nothing => exact ⟨rfl, rfl⟩
  | first hpre hlen =>
      have := congrArg List.length hall
      simp only [List.flatten_append, List.length_append, List.flatten_cons] at this
      omega

/-! ## Counting -/

/-- How many whole blocks the first `n` elements of the stream hold. -/
def wholes : List (List α) → Nat → Nat
  | [], _ => 0
  | block :: blocks, n => if block.length ≤ n then wholes blocks (n - block.length) + 1 else 0

variable {blocks done todo : List (List α)} {block : List α} {n m : Nat}

theorem wholes_le_length : wholes blocks n ≤ blocks.length := by
  induction blocks generalizing n with
  | nil => exact Nat.le_refl _
  | cons block blocks ih =>
      rw [wholes, List.length_cons]
      split
      · exact Nat.succ_le_succ ih
      · exact Nat.zero_le _

theorem wholes_mono (h : n ≤ m) : wholes blocks n ≤ wholes blocks m := by
  induction blocks generalizing n m with
  | nil => exact Nat.le_refl _
  | cons block blocks ih =>
      rw [wholes, wholes]
      by_cases hn : block.length ≤ n
      · rw [if_pos hn, if_pos (le_trans hn h)]
        exact Nat.succ_le_succ (ih (Nat.sub_le_sub_right h _))
      · rw [if_neg hn]
        exact Nat.zero_le _

/-- Blocks that have arrived as a whole count, and what follows them is counted by itself. -/
theorem wholes_append : wholes (done ++ todo) (done.flatten.length + n) = done.length + wholes todo n := by
  induction done with
  | nil => simp
  | cons block done ih =>
      rw [List.cons_append, wholes, List.flatten_cons, List.length_append, if_pos (by omega), List.length_cons,
        Nat.add_assoc, Nat.add_sub_cancel_left, ih]
      omega

/-- How many blocks are taken if at most one is taken each time more of the stream has arrived: `n` elements are
    there and `f` blocks taken before, and pieces of the lengths `cs` arrive. -/
def taken (blocks : List (List α)) (n f : Nat) : List Nat → Nat
  | [] => f
  | c :: cs => taken blocks (n + c) (if f < wholes blocks (n + c) then f + 1 else f) cs

/-- At least `k` blocks are taken in the end exactly if at no time more of them are missing than there are
    pieces to come. -/
theorem le_taken_iff {f k : Nat} {cs : List Nat} (h : f ≤ wholes blocks n) : k ≤ taken blocks n f cs ↔
    k ≤ f + cs.length ∧
    ∀ i < cs.length, k ≤ wholes blocks (n + (cs.take (i + 1)).sum) + (cs.length - (i + 1)) := by
  induction cs generalizing n f with
  | nil => simp [taken]
  | cons c cs ih =>
      have hmono : f ≤ wholes blocks (n + c) := h.trans (wholes_mono (Nat.le_add_right _ _))
      have hstep : (if f < wholes blocks (n + c) then f + 1 else f) = min (f + 1) (wholes blocks (n + c)) := by
        split <;> omega
      rw [taken, hstep, ih (min_le_right _ _), List.length_cons]
      have hsum : ∀ i, n + ((c :: cs).take (i + 1)).sum = n + c + (cs.take i).sum := by
        intro i
        rw [List.take_succ_cons, List.sum_cons, Nat.add_assoc]
      simp only [hsum]
      constructor
      · rintro ⟨hfirst, hrest⟩
        refine ⟨by omega, ?_⟩
        rintro (_ | i) hi
        · simp only [List.take_zero, List.sum_nil, Nat.add_zero]
          omega
        · have := hrest i (by omega)
          omega
      · rintro ⟨hall, hrest⟩
        have hfirst := hrest 0 (Nat.succ_pos _)
        simp only [List.take_zero, List.sum_nil, Nat.add_zero] at hfirst
        refine ⟨by omega, ?_⟩
        intro i hi
        have := hrest (i + 1) (by omega)
        omega

end Lib.Blocks
