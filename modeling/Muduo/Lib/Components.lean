import Muduo.Lib.Window

/-!
# `Lib.Components` — the parts of a list between separators

A component is a window that is not empty, holds no separator, and cannot be made larger without taking one in;
what bounds it on each side is a separator or an end of the list. `components sep l` cuts `l` at its separators and
drops what is empty. These are the components, from left to right (`exists_spans`), and joining them with one
separator in between gives a list with the same components (`components_join`).
-/

namespace Lib

variable {α : Type*} {sep : α} {l u v : List α} {i j : Nat}

/-- The positions `i, …, j - 1` of `l` are a maximal part without a separator. -/
structure IsComponent (sep : α) (l : List α) (i j : Nat) : Prop where
  nonempty : i < j
  le_length : j ≤ l.length
  free : sep ∉ window l i j
  maximal : ∀ i' j', i' ≤ i → j ≤ j' → j' ≤ l.length → sep ∉ window l i' j' → i' = i ∧ j' = j

/-! ## Where a component ends -/

theorem mem_window {x : α} : x ∈ window l i j ↔ ∃ k, i ≤ k ∧ k < j ∧ l[k]? = some x := by
  rw [window_eq_take_drop, List.mem_iff_getElem?]
  constructor
  · rintro ⟨n, hn⟩
    rw [List.getElem?_take, List.getElem?_drop] at hn
    split at hn
    · exact ⟨i + n, Nat.le_add_right _ _, by omega, hn⟩
    · exact absurd hn (by simp)
  · rintro ⟨k, hik, hkj, hk⟩
    refine ⟨k - i, ?_⟩
    rw [List.getElem?_take, List.getElem?_drop, if_pos (by omega), Nat.add_sub_cancel' hik]
    exact hk

/-- **A component is bounded by separators** and the ends of the list. -/
theorem isComponent_iff : IsComponent sep l i j ↔ i < j ∧ j ≤ l.length ∧ sep ∉ window l i j ∧
    (i = 0 ∨ l[i - 1]? = some sep) ∧ (j = l.length ∨ l[j]? = some sep) := by
  constructor
  · intro h
    have hlt := h.nonempty
    have hle := h.le_length
    refine ⟨hlt, hle, h.free, ?_, ?_⟩
    · by_contra hleft
      push Not at hleft
      obtain ⟨hpos, hne⟩ := hleft
      have hfree : sep ∉ window l (i - 1) j := by
        rw [mem_window]
        rintro ⟨k, hik, hkj, hk⟩
        rcases Nat.eq_or_lt_of_le hik with rfl | hlt'
        · exact hne hk
        · exact h.free (mem_window.mpr ⟨k, by omega, hkj, hk⟩)
      have := (h.maximal (i - 1) j (Nat.sub_le _ _) le_rfl hle hfree).1
      omega
    · by_contra hright
      push Not at hright
      obtain ⟨hend, hne⟩ := hright
      have hfree : sep ∉ window l i (j + 1) := by
        rw [mem_window]
        rintro ⟨k, hik, hkj, hk⟩
        rcases Nat.eq_or_lt_of_le (Nat.le_of_lt_succ hkj) with rfl | hlt'
        · exact hne hk
        · exact h.free (mem_window.mpr ⟨k, hik, hlt', hk⟩)
      have := (h.maximal i (j + 1) le_rfl (Nat.le_succ _) (by omega) hfree).2
      omega
  · rintro ⟨hlt, hle, hfree, hleft, hright⟩
    refine ⟨hlt, hle, hfree, ?_⟩
    intro i' j' hi hj hle' hfree'
    constructor
    · by_contra hne
      have hsep := hleft.resolve_left (by omega)
      exact hfree' (mem_window.mpr ⟨i - 1, by omega, by omega, hsep⟩)
    · by_contra hne
      have hsep := hright.resolve_left (by omega)
      exact hfree' (mem_window.mpr ⟨j, by omega, by omega, hsep⟩)

/-- Without a separator, the whole list is the only component. -/
theorem isComponent_of_not_mem (h : sep ∉ l) : IsComponent sep l i j ↔ i = 0 ∧ j = l.length ∧ l ≠ [] := by
  have hno : ∀ k, l[k]? ≠ some sep := fun k hk => h (List.mem_of_getElem? hk)
  rw [isComponent_iff]
  constructor
  · rintro ⟨hlt, -, -, hleft, hright⟩
    obtain rfl := hleft.resolve_right (hno _)
    obtain rfl := hright.resolve_right (hno _)
    exact ⟨rfl, rfl, List.length_pos_iff.mp hlt⟩
  · rintro ⟨rfl, rfl, hne⟩
    refine ⟨List.length_pos_iff.mpr hne, le_rfl, ?_, Or.inl rfl, Or.inl rfl⟩
    rw [mem_window]
    rintro ⟨k, -, -, hk⟩
    exact hno k hk

/-- The windows behind a separator. -/
theorem window_behind (u : List α) (sep : α) (v : List α) (i j : Nat) :
    window (u ++ sep :: v) (i + (u.length + 1)) (j + (u.length + 1)) = window v i j := by
  have hcut : (u ++ sep :: v).drop (i + (u.length + 1)) = v.drop i := by
    rw [Nat.add_comm, ← List.drop_drop, ← List.drop_drop, List.drop_left, List.drop_one, List.tail_cons]
  rw [window_eq_take_drop, window_eq_take_drop, hcut, Nat.add_sub_add_right]

/-- What follows a separator has its components where it stands. -/
theorem isComponent_append (h : sep ∉ u) : IsComponent sep (u ++ sep :: v) i j ↔
    (i = 0 ∧ j = u.length ∧ u ≠ []) ∨
    ∃ i' j', i = i' + (u.length + 1) ∧ j = j' + (u.length + 1) ∧ IsComponent sep v i' j' := by
  have hu : ∀ k < u.length, (u ++ sep :: v)[k]? ≠ some sep := by
    intro k hk hsep
    rw [List.getElem?_append_left hk] at hsep
    exact h (List.mem_of_getElem? hsep)
  have hmid : (u ++ sep :: v)[u.length]? = some sep := by simp
  have hv : ∀ k, (u ++ sep :: v)[k + (u.length + 1)]? = v[k]? := by
    intro k
    rw [List.getElem?_append_right (by omega)]
    have hk : k + (u.length + 1) - u.length = k + 1 := by omega
    rw [hk, List.getElem?_cons_succ]
  have hlen : (u ++ sep :: v).length = v.length + (u.length + 1) := by
    rw [List.length_append, List.length_cons]
    omega
  rw [isComponent_iff]
  constructor
  · rintro ⟨hlt, hle, hfree, hleft, hright⟩
    by_cases hj : j ≤ u.length
    · -- before the separator
      left
      have hi : i = 0 := hleft.resolve_right (hu _ (by omega))
      have hj' : j = u.length := by
        by_contra hne
        rcases hright with hend | hsep
        · omega
        · exact hu j (by omega) hsep
      exact ⟨hi, hj', List.length_pos_iff.mp (by omega)⟩
    · right
      have hi : u.length < i := by
        by_contra hle'
        exact hfree (mem_window.mpr ⟨u.length, by omega, by omega, hmid⟩)
      obtain ⟨i', rfl⟩ := Nat.exists_eq_add_of_le' hi
      obtain ⟨j', rfl⟩ := Nat.exists_eq_add_of_le' (hi.trans hlt)
      refine ⟨i', j', rfl, rfl, isComponent_iff.mpr ⟨by omega, by omega, ?_, ?_, ?_⟩⟩
      · rwa [window_behind] at hfree
      · rcases Nat.eq_zero_or_pos i' with hzero | hpos
        · exact Or.inl hzero
        · have hsep := hleft.resolve_left (by omega)
          have hk : i' + (u.length + 1) - 1 = (i' - 1) + (u.length + 1) := by omega
          rw [hk, hv] at hsep
          exact Or.inr hsep
      · rw [hlen, hv] at hright
        exact hright.imp_left fun hend => by omega
  · rintro (⟨rfl, rfl, hne⟩ | ⟨i', j', rfl, rfl, hc⟩)
    · refine ⟨List.length_pos_iff.mpr hne, by omega, ?_, Or.inl rfl, Or.inr hmid⟩
      rw [mem_window]
      rintro ⟨k, -, hk, hsep⟩
      exact hu k hk hsep
    · obtain ⟨hlt, hle, hfree, hleft, hright⟩ := isComponent_iff.mp hc
      refine ⟨by omega, by omega, ?_, Or.inr ?_, ?_⟩
      · rwa [window_behind]
      · rcases Nat.eq_zero_or_pos i' with rfl | hpos
        · have hk : 0 + (u.length + 1) - 1 = u.length := by omega
          rw [hk]
          exact hmid
        · have hk : i' + (u.length + 1) - 1 = (i' - 1) + (u.length + 1) := by omega
          rw [hk, hv]
          exact hleft.resolve_left (by omega)
      · rw [hlen, hv]
        exact hright.imp_left fun hend => by omega

/-- What stands before the first separator. -/
theorem eq_of_append_sep {x y : List α} (hu : sep ∉ u) (hv : sep ∉ v) (h : u ++ sep :: x = v ++ sep :: y) : u = v := by
  induction u generalizing v with
  | nil =>
      cases v with
      | nil => rfl
      | cons c v => exact absurd (List.cons.inj h).1 (fun hc => hv (hc ▸ List.mem_cons_self))
  | cons c u ih =>
      cases v with
      | nil => exact absurd (List.cons.inj h).1 (fun hc => hu (hc ▸ List.mem_cons_self))
      | cons d v =>
          obtain ⟨rfl, hrest⟩ := List.cons.inj h
          rw [ih (fun hm => hu (List.mem_cons_of_mem _ hm)) (fun hm => hv (List.mem_cons_of_mem _ hm)) hrest]

/-! ## Cutting a list -/

section Cutting

variable [DecidableEq α]

/-- The parts between the separators that are not empty. -/
def components (sep : α) (l : List α) : List (List α) := (l.splitOn sep).filter (· ≠ [])

theorem components_of_not_mem (h : sep ∉ l) : components sep l = if l = [] then [] else [l] := by
  unfold components
  rw [List.splitOn_eq_singleton h]
  by_cases hl : l = []
  · simp [hl]
  · simp [hl]

theorem components_append (h : sep ∉ u) :
    components sep (u ++ sep :: v) = (if u = [] then [] else [u]) ++ components sep v := by
  unfold components
  rw [List.splitOn_append_cons_self_of_not_mem h]
  by_cases hu : u = []
  · simp [hu]
  · simp [hu]

/-- Every list has no separator, or is cut at the first one. -/
theorem not_mem_or_cut (sep : α) (l : List α) : sep ∉ l ∨ ∃ u v, l = u ++ sep :: v ∧ sep ∉ u := by
  by_cases h : sep ∈ l
  · exact Or.inr (List.eq_append_cons_of_mem h)
  · exact Or.inl h

/-- **What is cut out are the components**, from left to right. -/
theorem exists_spans (sep : α) (l : List α) : ∃ spans : List (Nat × Nat),
    components sep l = spans.map (fun s => window l s.1 s.2) ∧ spans.Pairwise (fun s t => s.2 < t.1) ∧
    ∀ i j, (i, j) ∈ spans ↔ IsComponent sep l i j := by
  induction hn : l.length using Nat.strong_induction_on generalizing l with
  | _ n ih =>
    rcases not_mem_or_cut sep l with h | ⟨u, v, rfl, h⟩
    · by_cases hl : l = []
      · refine ⟨[], ?_, .nil, ?_⟩
        · rw [components_of_not_mem h, if_pos hl]
          rfl
        · intro i j
          rw [isComponent_of_not_mem h]
          simp [hl]
      · refine ⟨[(0, l.length)], ?_, List.pairwise_singleton _ _, ?_⟩
        · rw [components_of_not_mem h, if_neg hl]
          simp [window]
        · intro i j
          rw [isComponent_of_not_mem h]
          simp [hl]
    · obtain ⟨spans, hspans, hsorted, hiff⟩ := ih v.length (by rw [← hn]; simp; omega) v rfl
      refine ⟨(if u = [] then [] else [(0, u.length)]) ++
        spans.map fun s => (s.1 + (u.length + 1), s.2 + (u.length + 1)), ?_, ?_, ?_⟩
      · rw [components_append h, hspans, List.map_append, List.map_map]
        congr 1
        · split
          · rfl
          · simp [window]
        · exact List.map_congr_left fun s _ => (window_behind u sep v s.1 s.2).symm
      · refine List.pairwise_append.mpr ⟨?_, hsorted.map _ fun s t hst => by dsimp only; omega, ?_⟩
        · split
          · exact .nil
          · exact List.pairwise_singleton _ _
        · intro s hs t ht
          obtain ⟨t', -, rfl⟩ := List.mem_map.mp ht
          split at hs
          · exact absurd hs List.not_mem_nil
          · obtain rfl := List.mem_singleton.mp hs
            dsimp only
            omega
      · intro i j
        rw [isComponent_append h, List.mem_append, List.mem_map]
        refine or_congr ?_ ⟨?_, ?_⟩
        · by_cases hu : u = []
          · simp [hu]
          · simp [hu]
        · rintro ⟨⟨i', j'⟩, hmem, heq⟩
          obtain ⟨rfl, rfl⟩ := Prod.mk.inj heq
          exact ⟨i', j', rfl, rfl, (hiff i' j').mp hmem⟩
        · rintro ⟨i', j', rfl, rfl, hc⟩
          exact ⟨(i', j'), (hiff i' j').mpr hc, rfl⟩

theorem of_mem_components {c : List α} (h : c ∈ components sep l) : c ≠ [] ∧ sep ∉ c := by
  obtain ⟨spans, hspans, -, hiff⟩ := exists_spans sep l
  rw [hspans] at h
  obtain ⟨⟨i, j⟩, hmem, rfl⟩ := List.mem_map.mp h
  have hc := (hiff i j).mp hmem
  refine ⟨fun hnil => ?_, hc.free⟩
  have hlen := length_window (i := i) hc.le_length
  rw [hnil, List.length_nil] at hlen
  have hlt := hc.nonempty
  omega

/-- **Joined by one separator each**, the components stay the same. -/
theorem components_join (sep : α) (l : List α) :
    components sep ([sep].intercalate (components sep l)) = components sep l := by
  by_cases hnil : components sep l = []
  · rw [hnil]
    exact components_of_not_mem List.not_mem_nil
  · have hjoin := List.splitOn_intercalate sep (fun c hc => (of_mem_components hc).2) hnil
    show (([sep].intercalate (components sep l)).splitOn sep).filter (· ≠ []) = _
    rw [hjoin]
    exact List.filter_eq_self.mpr fun c hc => by simpa using (of_mem_components hc).1

end Cutting

end Lib
