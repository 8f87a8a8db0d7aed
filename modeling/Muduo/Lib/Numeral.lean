import Mathlib.Tactic

/-!
# `Lib.Numeral` — numerals over an alphabet of digits

A number written in the base that the alphabet has symbols for, most significant digit first. A text is
*canonical* when it is made of digits only and begins with a zero only if it is that zero; each number has
exactly one canonical text (`canonical_iff`), and so has each integer when a minus sign is added
(`canonicalInteger_iff`). A program that divides finds the digits the other way round, which is what
`lsdFirst` and its recursion are for.
-/

namespace Lib

/-- The symbols of the digits, zero first. -/
structure Alphabet (α : Type*) where
  symbols : List α
  two_le : 2 ≤ symbols.length
  nodup : symbols.Nodup

namespace Alphabet

variable {α : Type*} (A : Alphabet α)

def base : Nat := A.symbols.length

theorem one_lt_base : 1 < A.base := A.two_le

theorem base_pos : 0 < A.base := Nat.zero_lt_of_lt A.one_lt_base

/-- The symbol of a digit. -/
def symbol (d : Nat) : α := A.symbols.get ⟨d % A.base, Nat.mod_lt d A.base_pos⟩

/-- The digits of a number, least significant first. -/
def digits (n : Nat) : List Nat := if n = 0 then [0] else Nat.digits A.base n

/-- The symbols of the digits of a number, least significant first. -/
def lsdFirst (n : Nat) : List α := (A.digits n).map A.symbol

/-- The text of a number. -/
def numeral (n : Nat) : List α := (A.lsdFirst n).reverse

/-- Made of digits only, with no superfluous zero in front. -/
structure Canonical (text : List α) : Prop where
  ne_nil : text ≠ []
  mem_symbols : ∀ c ∈ text, c ∈ A.symbols
  leading : text.head? = some (A.symbol 0) → text.length = 1

/-! ## Symbols -/

theorem symbol_mem (d : Nat) : A.symbol d ∈ A.symbols := List.get_mem _ _

variable {A} in
theorem symbol_inj {d e : Nat} (hd : d < A.base) (he : e < A.base) (h : A.symbol d = A.symbol e) : d = e := by
  have h' := (List.nodup_iff_injective_get.mp A.nodup) h
  rw [Fin.ext_iff] at h'
  dsimp only at h'
  rwa [Nat.mod_eq_of_lt hd, Nat.mod_eq_of_lt he] at h'

/-! ## The digits -/

variable {A} in
theorem digits_lt {n d : Nat} (h : d ∈ A.digits n) : d < A.base := by
  unfold digits at h
  split at h
  · rw [List.mem_singleton] at h
    exact h ▸ A.base_pos
  · exact Nat.digits_lt_base A.one_lt_base h

theorem digits_ne_nil (n : Nat) : A.digits n ≠ [] := by
  unfold digits
  split
  · exact List.cons_ne_nil _ _
  · next h => exact Nat.digits_ne_nil_iff_ne_zero.mpr h

/-- The last digit, and those of the quotient. -/
theorem digits_eq (n : Nat) :
    A.digits n = n % A.base :: if n / A.base = 0 then [] else A.digits (n / A.base) := by
  unfold digits
  split
  · next h => simp [h]
  · next h =>
      rw [Nat.digits_def' A.one_lt_base (Nat.pos_of_ne_zero h)]
      split
      · next hq => rw [hq, Nat.digits_zero]
      · rfl

theorem ofDigits_digits (n : Nat) : Nat.ofDigits A.base (A.digits n) = n := by
  unfold digits
  split
  · next h => rw [h, Nat.ofDigits_singleton]
  · exact Nat.ofDigits_digits A.base n

/-- The most significant digit is zero only if the number is. -/
theorem getLast_digits {n : Nat} (h : (A.digits n).getLast? = some 0) : n = 0 := by
  by_contra hn
  unfold digits at h
  rw [if_neg hn, List.getLast?_eq_getLast_of_ne_nil (Nat.digits_ne_nil_iff_ne_zero.mpr hn), Option.some.injEq] at h
  exact Nat.getLast_digit_ne_zero A.base hn h

/-- **Digits are unique.** A list of digits whose last is not a superfluous zero is that of the number. -/
theorem digits_ofDigits {ds : List Nat} (hne : ds ≠ []) (hlt : ∀ d ∈ ds, d < A.base)
    (hlast : ds.getLast? = some 0 → ds.length = 1) : A.digits (Nat.ofDigits A.base ds) = ds := by
  by_cases hzero : ds.getLast? = some 0
  · obtain ⟨d, rfl⟩ := List.length_eq_one_iff.mp (hlast hzero)
    rw [List.getLast?_singleton, Option.some.injEq] at hzero
    rw [hzero, Nat.ofDigits_singleton]
    exact if_pos rfl
  · have hlast' : ∀ h : ds ≠ [], ds.getLast h ≠ 0 := by
      intro h hl
      exact hzero (hl ▸ List.getLast?_eq_getLast_of_ne_nil h)
    have hdigits := Nat.digits_ofDigits A.base A.one_lt_base ds hlt hlast'
    have hn : Nat.ofDigits A.base ds ≠ 0 := by
      intro h0
      rw [h0, Nat.digits_zero] at hdigits
      exact hne hdigits.symm
    unfold digits
    rw [if_neg hn, hdigits]

/-! ## Texts -/

/-- **One turn of the division**: the symbol of the remainder, then the quotient unless it is zero. -/
theorem lsdFirst_eq (n : Nat) :
    A.lsdFirst n = A.symbol (n % A.base) :: if n / A.base = 0 then [] else A.lsdFirst (n / A.base) := by
  unfold lsdFirst
  rw [A.digits_eq n, List.map_cons, apply_ite (List.map A.symbol), List.map_nil]

theorem length_numeral (n : Nat) : (A.numeral n).length = (A.lsdFirst n).length := List.length_reverse

theorem length_numeral_le_iff {n k : Nat} (hk : 0 < k) : (A.numeral n).length ≤ k ↔ n < A.base ^ k := by
  rw [length_numeral, lsdFirst, List.length_map, digits]
  split
  · next h =>
      have hpow : 0 < A.base ^ k := Nat.pow_pos A.base_pos
      simp only [h, List.length_singleton, hpow, iff_true]
      exact hk
  · exact Nat.digits_length_le_iff A.one_lt_base n

theorem canonical_numeral (n : Nat) : A.Canonical (A.numeral n) where
  ne_nil := by simp [numeral, lsdFirst, A.digits_ne_nil n]
  mem_symbols := by
    intro c hc
    obtain ⟨d, _, rfl⟩ := List.mem_map.mp (List.mem_reverse.mp hc)
    exact A.symbol_mem d
  leading := by
    intro h
    unfold numeral lsdFirst at h
    rw [List.head?_reverse, List.getLast?_map, Option.map_eq_some_iff] at h
    obtain ⟨d, hlast, hd⟩ := h
    have hlt := digits_lt (List.mem_of_getLast? hlast)
    rw [symbol_inj hlt A.base_pos hd] at hlast
    rw [A.getLast_digits hlast]
    rfl

section Reading

variable [DecidableEq α]

/-- The number that a text of digits stands for. -/
def value (text : List α) : Nat := Nat.ofDigits A.base (text.reverse.map A.symbols.idxOf)

/-- Reading a number: there is at least one character, and all of them are digits. -/
def read (text : List α) : Option Nat :=
  if text ≠ [] ∧ ∀ c ∈ text, c ∈ A.symbols then some (A.value text) else none

theorem idxOf_symbol {d : Nat} (h : d < A.base) : A.symbols.idxOf (A.symbol d) = d := by
  unfold symbol
  rw [List.get_eq_getElem, A.nodup.idxOf_getElem]
  exact Nat.mod_eq_of_lt h

theorem symbol_idxOf {c : α} (h : c ∈ A.symbols) : A.symbol (A.symbols.idxOf c) = c := by
  have hlt : A.symbols.idxOf c < A.base := List.idxOf_lt_length_of_mem h
  unfold symbol
  simp only [Nat.mod_eq_of_lt hlt, List.get_eq_getElem]
  exact List.getElem_idxOf hlt

theorem value_numeral (n : Nat) : A.value (A.numeral n) = n := by
  unfold value numeral lsdFirst
  rw [List.reverse_reverse, List.map_map]
  have hmap : (A.digits n).map ((fun c => A.symbols.idxOf c) ∘ A.symbol) = A.digits n :=
    (List.map_congr_left fun d hd => A.idxOf_symbol (digits_lt hd)).trans (List.map_id _)
  rw [hmap, ofDigits_digits]

/-- A canonical text is that of the number it stands for. -/
theorem Canonical.eq_numeral {A : Alphabet α} {text : List α} (h : A.Canonical text) :
    text = A.numeral (A.value text) := by
  have hsymbol : (text.reverse.map A.symbols.idxOf).map A.symbol = text.reverse := by
    rw [List.map_map]
    refine (List.map_congr_left fun c hc => ?_).trans (List.map_id _)
    exact A.symbol_idxOf (h.mem_symbols c (List.mem_reverse.mp hc))
  have hdigits : A.digits (A.value text) = text.reverse.map A.symbols.idxOf := by
    apply A.digits_ofDigits
    · simpa using h.ne_nil
    · intro d hd
      obtain ⟨c, hc, rfl⟩ := List.mem_map.mp hd
      exact List.idxOf_lt_length_of_mem (h.mem_symbols c (List.mem_reverse.mp hc))
    · intro hlast
      rw [List.getLast?_map, List.getLast?_reverse, Option.map_eq_some_iff] at hlast
      obtain ⟨c, hhead, hc⟩ := hlast
      have hmem := h.mem_symbols c (List.mem_of_head? hhead)
      rw [← A.symbol_idxOf hmem, hc] at hhead
      rw [List.length_map, List.length_reverse]
      exact h.leading hhead
  unfold numeral lsdFirst
  rw [hdigits, hsymbol, List.reverse_reverse]

/-- **Each number has one canonical text.** -/
theorem canonical_iff {text : List α} {n : Nat} :
    A.Canonical text ∧ A.read text = some n ↔ text = A.numeral n := by
  constructor
  · rintro ⟨hcan, hread⟩
    unfold read at hread
    rw [if_pos ⟨hcan.ne_nil, hcan.mem_symbols⟩, Option.some.injEq] at hread
    rw [← hread]
    exact hcan.eq_numeral
  · rintro rfl
    have hcan := A.canonical_numeral n
    refine ⟨hcan, ?_⟩
    unfold read
    rw [if_pos ⟨hcan.ne_nil, hcan.mem_symbols⟩, value_numeral]

end Reading

/-! ## Integers -/

/-- The text of an integer. -/
def integer (minus : α) (v : Int) : List α :=
  if v < 0 then minus :: A.numeral v.natAbs else A.numeral v.natAbs

/-- A canonical number, or a minus sign and a canonical number other than zero. -/
def CanonicalInteger (minus : α) (text : List α) : Prop :=
  A.Canonical text ∨ ∃ ds, text = minus :: ds ∧ A.Canonical ds ∧ ds ≠ A.numeral 0

theorem length_integer_le {minus : α} {v : Int} {k : Nat} (hk : 0 < k) (h : v.natAbs < A.base ^ k) :
    (A.integer minus v).length ≤ k + if v < 0 then 1 else 0 := by
  have hlen := (A.length_numeral_le_iff hk).mpr h
  unfold integer
  split <;> simp [hlen]

variable [DecidableEq α]

/-- Reading an integer: a number, with or without a minus sign in front. -/
def readInteger (minus : α) (text : List α) : Option Int :=
  if text.head? = some minus then (A.read text.tail).map fun (n : Nat) => -(n : Int)
  else (A.read text).map fun (n : Nat) => (n : Int)

variable {minus : α} {text : List α} {v : Int}

theorem readInteger_minus (ds : List α) :
    A.readInteger minus (minus :: ds) = (A.read ds).map fun (n : Nat) => -(n : Int) := if_pos rfl

variable {A} in
theorem readInteger_of_canonical (hminus : minus ∉ A.symbols) (h : A.Canonical text) :
    A.readInteger minus text = (A.read text).map fun (n : Nat) => (n : Int) := by
  apply if_neg
  intro hhead
  exact hminus (h.mem_symbols minus (List.mem_of_head? hhead))

/-- **Each integer has one canonical text.** -/
theorem canonicalInteger_iff (hminus : minus ∉ A.symbols) :
    A.CanonicalInteger minus text ∧ A.readInteger minus text = some v ↔ text = A.integer minus v := by
  constructor
  · rintro ⟨hcan | ⟨ds, rfl, hcan, hpos⟩, hread⟩
    · rw [readInteger_of_canonical hminus hcan, Option.map_eq_some_iff] at hread
      obtain ⟨n, hn, rfl⟩ := hread
      rw [integer, if_neg (by omega)]
      exact A.canonical_iff.mp ⟨hcan, hn⟩
    · rw [readInteger_minus, Option.map_eq_some_iff] at hread
      obtain ⟨n, hn, rfl⟩ := hread
      have hds := A.canonical_iff.mp ⟨hcan, hn⟩
      have hn0 : n ≠ 0 := by
        rintro rfl
        exact hpos hds
      rw [integer, if_pos (by omega), Int.natAbs_neg, Int.natAbs_natCast, hds]
  · rintro rfl
    obtain ⟨hcan, hread⟩ := A.canonical_iff.mpr (rfl : A.numeral v.natAbs = A.numeral v.natAbs)
    by_cases hneg : v < 0
    · rw [integer, if_pos hneg]
      refine ⟨.inr ⟨_, rfl, hcan, ?_⟩, ?_⟩
      · intro h0
        have h := congrArg A.value h0
        rw [value_numeral, value_numeral] at h
        omega
      · rw [readInteger_minus, hread, Option.map_some]
        congr 1
        omega
    · rw [integer, if_neg hneg]
      refine ⟨.inl hcan, ?_⟩
      rw [readInteger_of_canonical hminus hcan, hread, Option.map_some]
      congr 1
      omega

end Alphabet

end Lib
