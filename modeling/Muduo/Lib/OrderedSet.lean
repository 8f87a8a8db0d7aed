import Mathlib.Data.Finset.Sort

/-!
# `Lib.OrderedSet` — finite sets with an order, as `std::set` has it

A `std::set` over a linear order is a `Finset`; what the order adds is a first element (`*begin()`) and the
split at a bound (`lower_bound`). `below s x` is the range `[begin(), lower_bound(x))` in iteration order, and
`removeBelow s x` what is left once that range is erased.
-/

namespace Lib.OrderedSet

variable {α : Type*} [LinearOrder α] {s : Finset α} {a x : α}

/-- `*begin()`, if there is one. -/
def first (s : Finset α) : Option α := s.sort.head?

/-- The elements, as an iterator passes them. -/
def elements (s : Finset α) : List α := s.sort

/-- The range `[begin(), lower_bound(x))`. -/
def below (s : Finset α) (x : α) : List α := (s.filter (· < x)).sort

/-- `erase(begin(), lower_bound(x))`. -/
def removeBelow (s : Finset α) (x : α) : Finset α := s.filter (x ≤ ·)

theorem first_eq_none : first s = none ↔ s = ∅ := by
  unfold first
  rw [List.head?_eq_none_iff, ← List.length_eq_zero_iff, Finset.length_sort, Finset.card_eq_zero]

theorem first_singleton : first {a} = some a := by
  unfold first
  rw [Finset.sort_singleton]
  rfl

theorem mem_of_first (h : first s = some a) : a ∈ s := by
  rw [← Finset.mem_sort (· ≤ ·)]
  exact List.mem_of_mem_head? h

/-- The first element is the least one. -/
theorem first_le (h : first s = some a) {b : α} (hb : b ∈ s) : a ≤ b := by
  unfold first at h
  have hb' : b ∈ s.sort := (Finset.mem_sort _).mpr hb
  have hsorted := Finset.pairwise_sort s (· ≤ ·)
  cases hl : s.sort with
  | nil => rw [hl] at hb'; exact absurd hb' List.not_mem_nil
  | cons c cs =>
      rw [hl] at h hb' hsorted
      obtain rfl : c = a := by simpa using h
      rcases List.mem_cons.mp hb' with rfl | hb'
      · exact le_refl _
      · exact (List.pairwise_cons.mp hsorted).1 b hb'

@[simp] theorem mem_below : a ∈ below s x ↔ a ∈ s ∧ a < x := by
  simp [below]

@[simp] theorem mem_removeBelow : a ∈ removeBelow s x ↔ a ∈ s ∧ x ≤ a := by
  simp [removeBelow]

@[simp] theorem mem_elements : a ∈ elements s ↔ a ∈ s := Finset.mem_sort _

theorem nodup_elements : (elements s).Nodup := Finset.sort_nodup _ _

@[simp] theorem elements_empty : elements (∅ : Finset α) = [] := Finset.sort_empty _

theorem nodup_below : (below s x).Nodup := Finset.sort_nodup _ _

theorem pairwise_below : (below s x).Pairwise (· ≤ ·) := Finset.pairwise_sort _ _

/-! ## Going over a set -/

theorem first_eq_some (h : first s = some a) : below s a = [] := by
  unfold below
  rw [← List.length_eq_zero_iff, Finset.length_sort, Finset.card_eq_zero, Finset.filter_eq_empty_iff]
  intro b hb
  exact not_lt.mpr (first_le h hb)

/-- The set in its order: what is below `x`, and what is not. -/
theorem sort_split (s : Finset α) (x : α) : s.sort = below s x ++ (removeBelow s x).sort := by
  have hset : (below s x ++ (removeBelow s x).sort).toFinset = s := by
    ext b
    simp only [List.mem_toFinset, List.mem_append, mem_below, Finset.mem_sort, mem_removeBelow]
    rw [← and_or_left]
    exact and_iff_left (lt_or_ge b x)
  have hlt : ∀ b ∈ below s x, ∀ c ∈ (removeBelow s x).sort, b < c := by
    intro b hb c hc
    exact (mem_below.mp hb).2.trans_le (mem_removeBelow.mp ((Finset.mem_sort _).mp hc)).2
  have hsorted : (below s x ++ (removeBelow s x).sort).Pairwise (· ≤ ·) :=
    List.pairwise_append.mpr ⟨pairwise_below, Finset.pairwise_sort _ _, fun b hb c hc => (hlt b hb c hc).le⟩
  have hnodup : (below s x ++ (removeBelow s x).sort).Nodup :=
    List.nodup_append.mpr ⟨nodup_below, Finset.sort_nodup _ _, fun b hb c hc => (hlt b hb c hc).ne⟩
  have hsort := (List.toFinset_sort (· ≤ ·) hnodup).mpr hsorted
  rwa [hset] at hsort

/-- The last element comes behind all others. -/
theorem sort_eq_concat (ha : a ∈ s) (hlast : ∀ b ∈ s, b ≤ a) : s.sort = below s a ++ [a] := by
  have hset : removeBelow s a = {a} := by
    ext b
    rw [mem_removeBelow, Finset.mem_singleton]
    constructor
    · rintro ⟨hb, hle⟩
      exact le_antisymm (hlast b hb) hle
    · rintro rfl
      exact ⟨ha, le_refl _⟩
  rw [sort_split s a, hset, Finset.sort_singleton]

/-- `++it`, at the last element. -/
theorem first_above_none (ha : a ∈ s) (h : first (s.filter (a < ·)) = none) : s.sort = below s a ++ [a] := by
  refine sort_eq_concat ha fun b hb => ?_
  have hempty := first_eq_none.mp h
  rw [Finset.filter_eq_empty_iff] at hempty
  exact not_lt.mp (hempty hb)

/-- `++it`, at another one. -/
theorem first_above_some {b : α} (ha : a ∈ s) (h : first (s.filter (a < ·)) = some b) :
    b ∈ s ∧ below s b = below s a ++ [a] := by
  obtain ⟨hb, hab⟩ := Finset.mem_filter.mp (mem_of_first h)
  refine ⟨hb, ?_⟩
  have hbelow : below (s.filter (· < b)) a = below s a := by
    unfold below
    rw [Finset.filter_filter]
    congr 1
    refine Finset.filter_congr fun c _ => ?_
    exact ⟨And.right, fun hc => ⟨hc.trans hab, hc⟩⟩
  rw [← hbelow]
  refine sort_eq_concat (Finset.mem_filter.mpr ⟨ha, hab⟩) fun c hc => ?_
  obtain ⟨hcs, hcb⟩ := Finset.mem_filter.mp hc
  by_contra hlt
  have hle := first_le h (Finset.mem_filter.mpr ⟨hcs, not_le.mp hlt⟩)
  exact absurd hcb (not_lt.mpr hle)

end Lib.OrderedSet
