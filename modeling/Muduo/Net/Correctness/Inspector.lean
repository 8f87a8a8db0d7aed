import Muduo.Lib.Components
import Muduo.Net.Inspector

/-!
# `Correctness.Inspector` — the path splitter

Before each `find` of the loop, `start` is behind a slash or at the beginning, and `result` holds the components
that end before it. So what the loop still adds, together with the last component that is handled behind it, are
the components of the rest of the string.
-/

namespace Muduo.Net.Inspector

open Lib

variable {str u v : List UInt8} {start pos : Nat} {result : List (List UInt8)}

/-! ## One turn of the loop -/

/-- A slash is found: the string is cut there. -/
theorem cut_of_find (h : find str start = some pos) : ∃ u v, str.drop start = u ++ slash :: v ∧ slash ∉ u ∧
    pos = start + u.length ∧ str.drop (pos + 1) = v ∧ substr str start (pos - start) = u := by
  obtain ⟨k, hk, rfl⟩ := Option.map_eq_some_iff.mp h
  obtain ⟨hlt, hget, hfirst⟩ := List.idxOf?_eq_some_iff.mp hk
  have hlen : ((str.drop start).take k).length = k := by
    rw [List.length_take]
    exact min_eq_left hlt.le
  refine ⟨(str.drop start).take k, (str.drop start).drop (k + 1), ?_, ?_, ?_, ?_, ?_⟩
  · rw [← hget, ← List.drop_eq_getElem_cons hlt, List.take_append_drop]
  · intro hmem
    obtain ⟨j, hj, hslash⟩ := List.mem_iff_getElem.mp hmem
    rw [hlen] at hj
    rw [List.getElem_take] at hslash
    exact hfirst j hj hslash
  · rw [hlen]
  · rw [List.drop_drop, Nat.add_assoc]
  · unfold substr
    rw [Nat.add_sub_cancel_left]

theorem not_mem_of_find (h : find str start = none) : slash ∉ str.drop start :=
  List.idxOf?_eq_none_iff.mp (Option.map_eq_none_iff.mp h)

theorem splitLoop_some (h : find str start = some pos) : splitLoop str start result =
    splitLoop str (pos + 1) (if pos > start then result ++ [substr str start (pos - start)] else result) := by
  rw [splitLoop]
  split
  · next pos' h' =>
      obtain rfl := Option.some.inj (h.symm.trans h')
      rfl
  · next h' => exact absurd (h.symm.trans h') (by simp)

theorem splitLoop_none (h : find str start = none) : splitLoop str start result = (start, result) := by
  rw [splitLoop]
  split
  · next pos' h' => exact absurd (h.symm.trans h') (by simp)
  · rfl

/-- What `split` returns, with the loop at `start`. -/
def finish (str : List UInt8) (s : Nat × List (List UInt8)) : List (List UInt8) :=
  if s.1 < str.length then s.2 ++ [str.drop s.1] else s.2

/-- **The loop, and the last component**: they add the components of the rest. -/
theorem finish_splitLoop (str : List UInt8) (start : Nat) (result : List (List UInt8)) :
    finish str (splitLoop str start result) = result ++ components slash (str.drop start) := by
  induction start, result using splitLoop.induct str with
  | case1 start result pos hfind ih =>
      obtain ⟨u, v, hcut, hu, hpos, hrest, hsub⟩ := cut_of_find hfind
      simp only [dite_eq_ite] at ih
      rw [splitLoop_some hfind, ih, hrest, hcut, components_append hu, hsub]
      by_cases hempty : u = []
      · have hnot : ¬ pos > start := by simp [hpos, hempty]
        rw [if_neg hnot, if_pos hempty, List.nil_append]
      · have hgt : pos > start := by
          have := List.length_pos_iff.mpr hempty
          omega
        rw [if_pos hgt, if_neg hempty, List.append_assoc]
  | case2 start result hfind =>
      rw [splitLoop_none hfind, components_of_not_mem (not_mem_of_find hfind)]
      unfold finish
      by_cases hend : start < str.length
      · have hne : str.drop start ≠ [] := fun h => absurd (List.drop_eq_nil_iff.mp h) (not_le.mpr hend)
        rw [if_pos hend, if_neg hne]
      · rw [if_neg hend, if_pos (List.drop_eq_nil_iff.mpr (not_lt.mp hend)), List.append_nil]

/-- `split` computes the components. -/
theorem split_eq (str : List UInt8) : split str = components slash str := by
  have h := finish_splitLoop str 0 []
  rwa [List.nil_append, List.drop_zero] at h

/-- **The splitter is correct.** It returns exactly the maximal parts of the string that are not empty and hold no
    slash, from left to right; and joining them with slashes and splitting again gives the same list. -/
theorem split_correct (str : List UInt8) :
    (∃ spans : List (Nat × Nat), split str = spans.map (fun s => window str s.1 s.2) ∧
      spans.Pairwise (fun s t => s.2 < t.1) ∧ ∀ i j, (i, j) ∈ spans ↔ IsComponent slash str i j) ∧
    split ([slash].intercalate (split str)) = split str := by
  rw [split_eq, split_eq]
  exact ⟨exists_spans slash str, components_join slash str⟩

/-! ## Paths -/

/-- **A command is found by its path**, however many slashes stand between the components. -/
theorem onRequest_added (s : Inspector) (method : Method) {module command : List UInt8} {args : List (List UInt8)}
    {path : List UInt8} (cb : InspectorCallback) (hpath : components slash path = module :: command :: args) :
    (s.add module command (some cb)).onRequest method path = .ok (cb method args) := by
  unfold onRequest add
  rw [split_eq, hpath]
  dsimp only
  rw [Function.update_self]
  dsimp only
  rw [Function.update_self]

end Muduo.Net.Inspector
