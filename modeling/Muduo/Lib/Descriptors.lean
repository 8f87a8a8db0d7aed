import Mathlib.Data.Finset.Card
import Mathlib.Tactic

/-!
# `Lib.Descriptors` — the descriptor table of a process

A process may have `limit` descriptors. A call that makes one takes the lowest number that is free, and fails if
there is none (`alloc`). Whose a descriptor is the table does not know.
-/

namespace Lib

structure Descriptors where
  limit : Nat
  used : Finset Nat
  bounded : ∀ fd ∈ used, fd < limit

namespace Descriptors

/-- The lowest free descriptor. -/
def lowest (d : Descriptors) : Option Nat := (List.range d.limit).find? fun fd => fd ∉ d.used

theorem lowest_spec {d : Descriptors} {fd : Nat} (h : d.lowest = some fd) : fd < d.limit ∧ fd ∉ d.used := by
  refine ⟨List.mem_range.mp (List.mem_of_find?_eq_some h), ?_⟩
  simpa using List.find?_some h

/-- A new descriptor is made. -/
def alloc (d : Descriptors) : Option (Nat × Descriptors) :=
  match h : d.lowest with
  | none => none
  | some fd => some (fd, ⟨d.limit, insert fd d.used, by
      intro k hk
      rcases Finset.mem_insert.mp hk with rfl | hk
      · exact (lowest_spec h).1
      · exact d.bounded k hk⟩)

/-- A descriptor is closed; closing a number that is none does nothing. -/
def close (d : Descriptors) (fd : Nat) : Descriptors where
  limit := d.limit
  used := d.used.erase fd
  bounded k hk := d.bounded k (Finset.mem_of_mem_erase hk)

/-- No descriptor is free. -/
def Full (d : Descriptors) : Prop := d.alloc = none

variable {d d' : Descriptors} {fd : Nat}

@[simp] theorem close_used : (d.close fd).used = d.used.erase fd := rfl

@[simp] theorem close_limit : (d.close fd).limit = d.limit := rfl

theorem alloc_spec (h : d.alloc = some (fd, d')) :
    fd ∉ d.used ∧ d'.used = insert fd d.used ∧ d'.limit = d.limit := by
  unfold alloc at h
  split at h
  · cases h
  · next hlow =>
      obtain ⟨rfl, rfl⟩ := Prod.mk.inj (Option.some.inj h)
      exact ⟨(lowest_spec hlow).2, rfl, rfl⟩

theorem full_iff_lowest : d.Full ↔ d.lowest = none := by
  unfold Full alloc
  split <;> simp [*]

/-- The table is full when it holds as many descriptors as it may. -/
theorem full_iff : d.Full ↔ d.used.card = d.limit := by
  have hsub : d.used ⊆ Finset.range d.limit := fun fd hfd => Finset.mem_range.mpr (d.bounded fd hfd)
  rw [full_iff_lowest, lowest, List.find?_eq_none]
  constructor
  · intro h
    have hall : Finset.range d.limit ⊆ d.used := fun fd hfd => by
      simpa using h fd (List.mem_range.mpr (Finset.mem_range.mp hfd))
    rw [Finset.Subset.antisymm hsub hall, Finset.card_range]
  · intro h fd hfd
    have heq := Finset.eq_of_subset_of_card_le hsub (by rw [Finset.card_range, h])
    simp [heq, List.mem_range.mp hfd]

theorem card_le (d : Descriptors) : d.used.card ≤ d.limit := by
  have hsub : d.used ⊆ Finset.range d.limit := fun fd hfd => Finset.mem_range.mpr (d.bounded fd hfd)
  simpa using Finset.card_le_card hsub

/-- There is room exactly if a descriptor can be made. -/
theorem not_full_iff : ¬ d.Full ↔ d.used.card < d.limit := by
  rw [full_iff]
  have := d.card_le
  omega

theorem exists_alloc (h : d.used.card < d.limit) : ∃ fd d', d.alloc = some (fd, d') := by
  rcases hall : d.alloc with _ | ⟨fd, d'⟩
  · exact absurd hall (not_full_iff.mpr h)
  · exact ⟨fd, d', rfl⟩

theorem card_close_le : (d.close fd).used.card ≤ d.used.card := Finset.card_erase_le

/-- Closing makes room. -/
theorem card_close_lt (h : fd ∈ d.used) : (d.close fd).used.card < (d.close fd).limit := by
  have := Finset.card_erase_of_mem h
  have hle := d.card_le
  have hpos := Finset.card_pos.mpr ⟨fd, h⟩
  rw [close_used, close_limit]
  omega

end Descriptors

end Lib
