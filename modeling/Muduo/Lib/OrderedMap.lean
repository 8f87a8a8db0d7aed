import Mathlib.Data.List.Lex
import Mathlib.Tactic

/-!
# `Lib.OrderedMap` — `std::map` as a list of entries in the order of their keys

A map carries the proof that its keys are strictly ascending, so each key has one value. `insert` is `m[k] = v`.
Strings are compared byte by byte.
-/

namespace Lib

/-- Bytes in the order of their values, as `memcmp` compares them. -/
@[reducible] def byteOrder : LinearOrder UInt8 where
  le_refl := UInt8.le_refl
  le_trans _ _ _ := UInt8.le_trans
  le_antisymm _ _ := UInt8.le_antisymm
  le_total := UInt8.le_total
  lt_iff_le_not_ge a b := by
    rw [UInt8.lt_iff_toNat_lt, UInt8.le_iff_toNat_le, UInt8.le_iff_toNat_le]
    omega
  toDecidableLE := inferInstance
  toDecidableEq := inferInstance
  toDecidableLT := inferInstance

/-- Strings in the order of `std::string`. -/
@[reducible] def stringOrder : LinearOrder (List UInt8) :=
  letI := byteOrder
  inferInstance

/-- `std::map`, as it is iterated over. -/
structure OrderedMap (κ ν : Type*) [LinearOrder κ] where
  entries : List (κ × ν)
  ascending : entries.Pairwise fun a b => a.1 < b.1

namespace OrderedMap

variable {κ ν : Type*} [LinearOrder κ]

def empty : OrderedMap κ ν := ⟨[], List.Pairwise.nil⟩

/-- One pass that replaces the value at `k`, or puts it where it belongs. -/
def insertEntry (k : κ) (v : ν) : List (κ × ν) → List (κ × ν)
  | [] => [(k, v)]
  | (k', v') :: rest =>
      if k < k' then (k, v) :: (k', v') :: rest
      else if k = k' then (k, v) :: rest
      else (k', v') :: insertEntry k v rest

theorem mem_insertEntry {k : κ} {v : ν} {es : List (κ × ν)} {e : κ × ν} (h : e ∈ insertEntry k v es) :
    e = (k, v) ∨ e ∈ es := by
  induction es with
  | nil => simpa [insertEntry] using h
  | cons e' rest ih =>
      obtain ⟨k', v'⟩ := e'
      rw [insertEntry] at h
      split_ifs at h with hlt heq
      · simpa using h
      · rcases List.mem_cons.mp h with rfl | h
        · exact Or.inl rfl
        · exact Or.inr (List.mem_cons_of_mem _ h)
      · rcases List.mem_cons.mp h with rfl | h
        · exact Or.inr (List.mem_cons_self ..)
        · exact (ih h).imp_right (List.mem_cons_of_mem _)

theorem ascending_insertEntry {k : κ} {v : ν} {es : List (κ × ν)} (h : es.Pairwise fun a b => a.1 < b.1) :
    (insertEntry k v es).Pairwise fun a b => a.1 < b.1 := by
  induction es with
  | nil => exact List.pairwise_singleton _ _
  | cons e rest ih =>
      obtain ⟨k', v'⟩ := e
      obtain ⟨hhead, hrest⟩ := List.pairwise_cons.mp h
      rw [insertEntry]
      split_ifs with hlt heq
      · refine List.pairwise_cons.mpr ⟨fun e he => ?_, h⟩
        rcases List.mem_cons.mp he with rfl | he
        · exact hlt
        · exact hlt.trans (hhead e he)
      · subst heq
        exact List.pairwise_cons.mpr ⟨hhead, hrest⟩
      · refine List.pairwise_cons.mpr ⟨fun e he => ?_, ih hrest⟩
        rcases mem_insertEntry he with rfl | he
        · exact lt_of_le_of_ne (not_lt.mp hlt) (Ne.symm heq)
        · exact hhead e he

/-- `m[k] = v`. -/
def insert (m : OrderedMap κ ν) (k : κ) (v : ν) : OrderedMap κ ν :=
  ⟨insertEntry k v m.entries, ascending_insertEntry m.ascending⟩

end OrderedMap

end Lib
