import Mathlib.Data.List.Infix

/-!
# `Lib.Search` — the first occurrence of a pattern

`search pat l` is the position `std::search` returns: that of the first occurrence of `pat` in `l`, or the end
of `l`. A list that is cut at the pattern, with no earlier occurrence, is described by `FirstAt`: every list
either has no occurrence or is cut in this way, and neither what follows the pattern nor the moment at which
the pattern is complete changes the cut.
-/

namespace Lib

variable {α : Type*} [DecidableEq α]

/-- `std::search`. -/
def search (pat : List α) : List α → Nat
  | [] => 0
  | x :: xs => if pat <+: x :: xs then 0 else search pat xs + 1

/-- In `line` followed by `pat`, the first occurrence of `pat` is the one at the end. -/
def FirstAt (pat line : List α) : Prop := search pat (line ++ pat) = line.length

instance (pat line : List α) : Decidable (FirstAt pat line) :=
  inferInstanceAs (Decidable (search pat (line ++ pat) = line.length))

variable {pat line l r : List α} {x : α}

theorem search_cons_of_not (h : ¬ pat <+: x :: l) : search pat (x :: l) = search pat l + 1 := by
  rw [search, if_neg h]

/-- A list that is shorter than the pattern has no occurrence of it. -/
theorem search_of_short (h : l.length < pat.length) : search pat l = l.length := by
  induction l with
  | nil => rfl
  | cons y l ih =>
      have hnot : ¬ pat <+: y :: l := fun hpre => absurd hpre.length_le (not_le.mpr h)
      rw [search_cons_of_not hnot, ih (lt_of_le_of_lt (Nat.le_succ _) h), List.length_cons]

/-- An occurrence that is not at the front is one of the tail. -/
theorem firstAt_cons (h : FirstAt pat (x :: line)) : ¬ pat <+: x :: (line ++ pat) ∧ FirstAt pat line := by
  unfold FirstAt at h ⊢
  rw [List.cons_append, search] at h
  split at h
  · exact absurd h (Nat.succ_ne_zero _).symm
  · next hnot => exact ⟨hnot, Nat.succ.inj h⟩

/-- What follows the pattern does not matter. -/
theorem FirstAt.search_append (h : FirstAt pat line) (rest : List α) :
    search pat (line ++ pat ++ rest) = line.length := by
  induction line with
  | nil =>
      cases hp : pat with
      | nil =>
          rw [List.nil_append, List.nil_append]
          cases rest with
          | nil => rfl
          | cons y rest => rw [search, if_pos List.nil_prefix, List.length_nil]
      | cons y pat' =>
          rw [List.nil_append, List.cons_append, search, List.length_nil, ← List.cons_append]
          exact if_pos (List.prefix_append _ _)
  | cons y line ih =>
      obtain ⟨hnot, htail⟩ := firstAt_cons h
      have hnot' : ¬ pat <+: y :: (line ++ pat ++ rest) := by
        intro hpre
        refine hnot (List.prefix_of_prefix_length_le hpre (List.prefix_append (y :: (line ++ pat)) rest) ?_)
        rw [List.length_cons, List.length_append]
        omega
      rw [List.cons_append, List.cons_append, search_cons_of_not hnot', ih htail, List.length_cons]

/-- Before the pattern is complete, it is not found. -/
theorem FirstAt.search_part (h : FirstAt pat line) (hpre : r <+: line ++ pat)
    (hlen : r.length < (line ++ pat).length) : search pat r = r.length := by
  induction line generalizing r with
  | nil => exact search_of_short (by simpa using hlen)
  | cons y line ih =>
      cases r with
      | nil => rfl
      | cons z r =>
          obtain ⟨hnot, htail⟩ := firstAt_cons h
          rw [List.cons_append] at hpre
          obtain ⟨rfl, hpre'⟩ := List.cons_prefix_cons.mp hpre
          have hnot' : ¬ pat <+: z :: r := fun hp => hnot (hp.trans hpre)
          have hlen' : r.length < (line ++ pat).length := by
            rw [List.cons_append, List.length_cons, List.length_cons] at hlen
            omega
          rw [search_cons_of_not hnot', ih htail hpre' hlen', List.length_cons]

/-- A list in which the pattern is found is cut by its first occurrence. -/
theorem exists_firstAt (h : search pat l ≠ l.length) : ∃ line rest, l = line ++ pat ++ rest ∧ FirstAt pat line := by
  induction l with
  | nil => exact absurd rfl h
  | cons x l ih =>
      by_cases hpre : pat <+: x :: l
      · obtain ⟨rest, hrest⟩ := hpre
        refine ⟨[], rest, hrest.symm, ?_⟩
        unfold FirstAt
        cases pat with
        | nil => rfl
        | cons y pat => rw [List.nil_append, search, if_pos (List.prefix_refl _), List.length_nil]
      · rw [search_cons_of_not hpre, List.length_cons] at h
        obtain ⟨line, rest, rfl, hfirst⟩ := ih fun heq => h (congrArg Nat.succ heq)
        refine ⟨x :: line, rest, rfl, ?_⟩
        have hnot : ¬ pat <+: x :: (line ++ pat) := by
          intro hp
          exact hpre (hp.trans (List.prefix_append (x :: (line ++ pat)) rest))
        unfold FirstAt at hfirst ⊢
        rw [List.cons_append, search_cons_of_not hnot, hfirst, List.length_cons]

/-- The first occurrence is not behind any other. -/
theorem search_le (u v : List α) : search pat (u ++ pat ++ v) ≤ u.length := by
  induction u with
  | nil =>
      rw [List.nil_append]
      cases hl : pat ++ v with
      | nil => exact Nat.le_refl _
      | cons x l =>
          rw [search, if_pos (hl ▸ List.prefix_append pat v)]
          exact Nat.le_refl _
  | cons x u ih =>
      rw [List.cons_append, List.cons_append, search, List.length_cons]
      split
      · exact Nat.zero_le _
      · exact Nat.succ_le_succ ih

/-- A pattern of two different elements does not overlap with itself: it is first found at the end of `line`
    exactly if it does not occur in `line`. -/
theorem firstAt_pair_iff {a b : α} (hne : a ≠ b) : FirstAt [a, b] line ↔ ¬ [a, b] <:+: line := by
  constructor
  · rintro hfirst ⟨u, v, rfl⟩
    have hle : search [a, b] (u ++ [a, b] ++ (v ++ [a, b])) ≤ u.length := search_le u (v ++ [a, b])
    unfold FirstAt at hfirst
    rw [List.append_assoc] at hfirst
    rw [hfirst, List.length_append, List.length_append, List.length_cons] at hle
    omega
  · intro hnot
    induction line with
    | nil =>
        unfold FirstAt
        rw [List.nil_append, search, if_pos (List.prefix_refl _), List.length_nil]
    | cons x line ih =>
        have htail : ¬ [a, b] <:+: line := fun h => hnot (h.trans (List.suffix_cons x line).isInfix)
        have hhead : ¬ [a, b] <+: x :: (line ++ [a, b]) := by
          intro hpre
          obtain ⟨rfl, hpre'⟩ := List.cons_prefix_cons.mp hpre
          cases line with
          | nil => exact hne (List.cons_prefix_cons.mp hpre').1.symm
          | cons y line =>
              obtain ⟨rfl, -⟩ := List.cons_prefix_cons.mp hpre'
              exact hnot ⟨[], line, rfl⟩
        unfold FirstAt
        rw [List.cons_append, search_cons_of_not hhead, ih htail, List.length_cons]

omit [DecidableEq α] in
/-- A pair does not reach over an element that is in neither of its places. -/
theorem pair_infix_split {a b x : α} {u v : List α} (ha : x ≠ a) (hb : x ≠ b) (h : [a, b] <:+: u ++ x :: v) :
    [a, b] <:+: u ∨ [a, b] <:+: v := by
  induction u with
  | nil =>
      rcases List.infix_cons_iff.mp h with hpre | htail
      · exact absurd (List.cons_prefix_cons.mp hpre).1.symm ha
      · exact Or.inr htail
  | cons y u ih =>
      rcases List.infix_cons_iff.mp h with hpre | htail
      · obtain ⟨rfl, hpre'⟩ := List.cons_prefix_cons.mp hpre
        cases u with
        | nil => exact absurd (List.cons_prefix_cons.mp hpre').1.symm hb
        | cons z u =>
            obtain ⟨rfl, -⟩ := List.cons_prefix_cons.mp hpre'
            exact Or.inl ⟨[], u, rfl⟩
      · exact (ih htail).imp_left fun hu => hu.trans (List.suffix_cons y u).isInfix

end Lib
