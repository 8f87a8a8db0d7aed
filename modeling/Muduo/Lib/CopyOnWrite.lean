import Mathlib.Data.Fintype.Card
import Mathlib.Tactic
import Muduo.Lib.Outcome

/-!
# `Lib.CopyOnWrite` — values behind a shared pointer, copied when somebody holds them

A value is on the heap, behind a pointer that counts its holders. Each reader may hold a copy of the pointer; the
writer changes the value in place if nobody does, and puts a copy of it in its place first if somebody does. A value
is freed with its last pointer.

`Sees` says what this is for: there is a current value, and each reader that holds a pointer sees the value that was
current when it took it, whatever has been written since. No pointer is left dangling, and no value is left behind.
-/

namespace Lib

/-- The heap, the pointer to the current value, the next address, and the pointers that readers hold. -/
structure Shared (ρ V : Type) where
  heap : Nat → Option V
  current : Nat
  fresh : Nat
  readers : ρ → Option Nat

namespace Shared

variable {ρ V : Type} [Fintype ρ] {s s' : Shared ρ V} {p : Nat} {r : ρ} {value : V} {snapshots : ρ → Option V}

/-- One value, held by nobody else. -/
def new (v : V) : Shared ρ V := ⟨Function.update (fun _ => none) 0 (some v), 0, 1, fun _ => none⟩

/-- `use_count()` of a pointer to address `p`. -/
def useCount (s : Shared ρ V) (p : Nat) : Nat :=
  (Finset.univ.filter fun r => s.readers r = some p).card + if s.current = p then 1 else 0

/-- `unique()` of the pointer to the current value. -/
def unique (s : Shared ρ V) : Prop := s.useCount s.current = 1

instance (s : Shared ρ V) : Decidable s.unique := inferInstanceAs (Decidable (_ = 1))

theorem useCount_eq_zero : s.useCount p = 0 ↔ s.current ≠ p ∧ ∀ r, s.readers r ≠ some p := by
  unfold useCount
  rw [Nat.add_eq_zero_iff, Finset.card_eq_zero, Finset.filter_eq_empty_iff]
  by_cases hp : s.current = p <;> simp [hp]

theorem unique_iff : s.unique ↔ ∀ r, s.readers r ≠ some s.current := by
  unfold unique useCount
  rw [if_pos rfl, Nat.add_eq_right, Finset.card_eq_zero, Finset.filter_eq_empty_iff]
  simp

/-- A pointer to `p` is gone: the value goes with the last of them. -/
def freed (s : Shared ρ V) (p : Nat) : Shared ρ V :=
  if s.useCount p = 0 then { s with heap := Function.update s.heap p none } else s

/-- `current.reset(new V(*current))`. -/
def reset (s : Shared ρ V) : Outcome (Shared ρ V) :=
  match s.heap s.current with
  | none => .error .badAccess
  | some v =>
      .ok ({ s with
        heap := Function.update s.heap s.fresh (some v)
        current := s.fresh
        fresh := s.fresh + 1 }.freed s.current)

/-- The current value is changed in place. -/
def modify (s : Shared ρ V) (f : V → V) : Outcome (Shared ρ V) := do
  assert s.unique
  match s.heap s.current with
  | none => .error .badAccess
  | some v => .ok { s with heap := Function.update s.heap s.current (some (f v)) }

/-- What a reader finds behind its pointer. -/
def deref (s : Shared ρ V) (r : ρ) : Option V := (s.readers r).bind s.heap

/-- **What the readers see**: `value` is current, and each of them has the snapshot it took. -/
structure Sees (s : Shared ρ V) (value : V) (snapshots : ρ → Option V) : Prop where
  current : s.heap s.current = some value
  deref : ∀ r, s.deref r = snapshots r
  held : ∀ r, (s.readers r).isSome = (snapshots r).isSome
  /-- Nothing is dangling, and nothing is left behind. -/
  live : ∀ p, (s.heap p).isSome ↔ s.useCount p ≠ 0
  fresh : ∀ p, s.fresh ≤ p → s.heap p = none

theorem sees_new (v : V) : (new v : Shared ρ V).Sees v fun _ => none where
  current := by
    show Function.update (fun _ => none) 0 (some v) 0 = some v
    exact Function.update_self ..
  deref _ := rfl
  held _ := rfl
  live p := by
    rw [ne_eq, useCount_eq_zero]
    by_cases hp : p = 0
    · subst hp
      simp [new]
    · simp [new, hp, Ne.symm hp]
  fresh p hp := by
    have hne : p ≠ 0 := Nat.one_le_iff_ne_zero.mp hp
    show Function.update (fun _ => none) 0 (some v) p = none
    exact Function.update_of_ne hne _ _

/-- **Freeing** a value that nobody points to changes nothing for anybody. -/
theorem freed_sees (hcurrent : s.heap s.current = some value) (hderef : ∀ r, s.deref r = snapshots r)
    (hheld : ∀ r, (s.readers r).isSome = (snapshots r).isSome)
    (hlive : ∀ q, q ≠ p → ((s.heap q).isSome ↔ s.useCount q ≠ 0)) (hp : s.useCount p ≠ 0 → (s.heap p).isSome)
    (hfresh : ∀ q, s.fresh ≤ q → s.heap q = none) : (s.freed p).Sees value snapshots := by
  unfold freed
  by_cases hzero : s.useCount p = 0
  · rw [if_pos hzero]
    obtain ⟨hcur, hreaders⟩ := useCount_eq_zero.mp hzero
    refine ⟨?_, fun r => ?_, hheld, fun q => ?_, fun q hq => ?_⟩
    · show Function.update s.heap p none s.current = _
      rw [Function.update_of_ne hcur, hcurrent]
    · rw [← hderef r]
      unfold deref
      cases hr : s.readers r with
      | none => rfl
      | some q =>
          have hne : q ≠ p := fun heq => hreaders r (heq ▸ hr)
          show Function.update s.heap p none q = s.heap q
          rw [Function.update_of_ne hne]
    · show (Function.update s.heap p none q).isSome ↔ s.useCount q ≠ 0
      by_cases hq : q = p
      · subst hq
        simp [hzero]
      · rw [Function.update_of_ne hq]
        exact hlive q hq
    · show Function.update s.heap p none q = none
      by_cases hqp : q = p
      · rw [hqp, Function.update_self]
      · rw [Function.update_of_ne hqp]
        exact hfresh q hq
  · rw [if_neg hzero]
    refine ⟨hcurrent, hderef, hheld, fun q => ?_, hfresh⟩
    by_cases hq : q = p
    · subst hq
      exact ⟨fun _ => hzero, hp⟩
    · exact hlive q hq

/-- **A copy is put in its place**: nobody but the writer holds it. -/
theorem reset_sees (h : s.Sees value snapshots) : ∃ s', s.reset = .ok s' ∧ s'.Sees value snapshots ∧ s'.unique ∧
    s'.readers = s.readers := by
  have hcurrent : s.current < s.fresh := by
    by_contra hge
    have hnone := h.fresh _ (not_lt.mp hge)
    rw [h.current] at hnone
    cases hnone
  have hreader : ∀ {r p}, s.readers r = some p → p < s.fresh := by
    intro r p hr
    by_contra hge
    have hzero := (h.live p).mpr.mt (by rw [h.fresh _ (not_lt.mp hge)]; simp)
    rw [ne_eq, not_not, useCount_eq_zero] at hzero
    exact hzero.2 r hr
  unfold reset
  rw [h.current]
  refine ⟨_, rfl, freed_sees ?_ (fun r => ?_) h.held (fun q hq => ?_) (fun _ => ?_) (fun q hq => ?_), ?_, ?_⟩
  · exact Function.update_self ..
  · rw [← h.deref r]
    unfold deref
    dsimp only
    cases hr : s.readers r with
    | none => rfl
    | some p => exact Function.update_of_ne (hreader hr).ne _ _
  · dsimp only
    by_cases hfresh : q = s.fresh
    · subst hfresh
      rw [Function.update_self, ne_eq, useCount_eq_zero]
      simp
    · rw [Function.update_of_ne hfresh, h.live q, ne_eq, ne_eq, useCount_eq_zero, useCount_eq_zero]
      refine not_congr ⟨fun hzero => ⟨Ne.symm hfresh, hzero.2⟩, fun hzero => ⟨Ne.symm hq, hzero.2⟩⟩
  · dsimp only
    rw [Function.update_of_ne hcurrent.ne, h.current]
    rfl
  · dsimp only at hq ⊢
    rw [Function.update_of_ne (show q ≠ s.fresh by omega)]
    exact h.fresh q (by omega)
  · rw [unique_iff]
    intro r hr
    unfold freed at hr
    split at hr <;> exact absurd (hreader hr) (lt_irrefl _)
  · unfold freed
    split <;> rfl

/-- **A change in place** is seen by nobody who holds a pointer. -/
theorem modify_sees (h : s.Sees value snapshots) (hunique : s.unique) (f : V → V) :
    ∃ s', s.modify f = .ok s' ∧ s'.Sees (f value) snapshots ∧ s'.readers = s.readers := by
  have hreaders := unique_iff.mp hunique
  unfold modify
  rw [assert_pos hunique, ok_bind, h.current]
  refine ⟨_, rfl, ⟨Function.update_self .., fun r => ?_, h.held, fun q => ?_, fun q hq => ?_⟩, rfl⟩
  · rw [← h.deref r]
    unfold deref
    dsimp only
    cases hr : s.readers r with
    | none => rfl
    | some p => exact Function.update_of_ne (fun heq => hreaders r (by rw [hr, heq])) _ _
  · refine Iff.trans ?_ (h.live q)
    dsimp only
    by_cases hq : q = s.current
    · rw [hq, Function.update_self, h.current]
      rfl
    · rw [Function.update_of_ne hq]
  · dsimp only
    rw [Function.update_of_ne]
    · exact h.fresh q hq
    · rintro rfl
      have hnone := h.fresh _ hq
      rw [h.current] at hnone
      cases hnone

/-! ## Readers -/

variable [DecidableEq ρ]

/-- A reader copies the pointer. -/
def acquire (s : Shared ρ V) (r : ρ) : Shared ρ V := { s with readers := Function.update s.readers r (some s.current) }

/-- A reader lets go of what it holds. -/
def release (s : Shared ρ V) (r : ρ) : Shared ρ V :=
  match s.readers r with
  | none => s
  | some p => { s with readers := Function.update s.readers r none }.freed p

/-- **A reader that takes the pointer** sees the current value. -/
theorem acquire_sees (h : s.Sees value snapshots) (hr : s.readers r = none) :
    (s.acquire r).Sees value (Function.update snapshots r (some value)) := by
  have hcount : ∀ q, (s.acquire r).useCount q ≠ 0 ↔ s.useCount q ≠ 0 := by
    intro q
    rw [ne_eq, ne_eq, useCount_eq_zero, useCount_eq_zero]
    refine not_congr ⟨fun hq => ⟨hq.1, fun r' => ?_⟩, fun hq => ⟨hq.1, fun r' => ?_⟩⟩
    · by_cases hr' : r' = r
      · rw [hr', hr]
        exact Option.some_ne_none q |>.symm
      · have hreaders := hq.2 r'
        unfold acquire at hreaders
        dsimp only at hreaders
        rwa [Function.update_of_ne hr'] at hreaders
    · unfold acquire
      dsimp only
      by_cases hr' : r' = r
      · rw [hr', Function.update_self]
        exact fun heq => hq.1 (Option.some.inj heq)
      · rw [Function.update_of_ne hr']
        exact hq.2 r'
  refine ⟨h.current, fun r' => ?_, fun r' => ?_, fun q => (h.live q).trans (hcount q).symm, h.fresh⟩
  · unfold deref acquire
    dsimp only
    by_cases hr' : r' = r
    · rw [hr', Function.update_self, Function.update_self, Option.bind_some, h.current]
    · rw [Function.update_of_ne hr', Function.update_of_ne hr']
      exact h.deref r'
  · unfold acquire
    dsimp only
    by_cases hr' : r' = r
    · rw [hr', Function.update_self, Function.update_self]
      rfl
    · rw [Function.update_of_ne hr', Function.update_of_ne hr']
      exact h.held r'

/-- **A reader that lets go** leaves the others their snapshots. -/
theorem release_sees (h : s.Sees value snapshots) (r : ρ) :
    (s.release r).Sees value (Function.update snapshots r none) := by
  unfold release
  cases hr : s.readers r with
  | none =>
      have hnone : snapshots r = none := by
        have hheld := h.held r
        rw [hr] at hheld
        exact Option.isNone_iff_eq_none.mp (by rw [← Option.not_isSome, ← hheld]; rfl)
      rw [← hnone, Function.update_eq_self]
      exact h
  | some p =>
      have hreaders : ∀ {q r'}, Function.update s.readers r none r' = some q → s.readers r' = some q := by
        intro q r' hq
        by_cases hr' : r' = r
        · rw [hr', Function.update_self] at hq
          cases hq
        · rwa [Function.update_of_ne hr'] at hq
      refine freed_sees h.current (fun r' => ?_) (fun r' => ?_) (fun q hq => ?_) (fun hp => ?_) h.fresh
      · unfold deref
        dsimp only
        by_cases hr' : r' = r
        · rw [hr', Function.update_self, Function.update_self]
          rfl
        · rw [Function.update_of_ne hr', Function.update_of_ne hr']
          exact h.deref r'
      · dsimp only
        by_cases hr' : r' = r
        · rw [hr', Function.update_self, Function.update_self]
          rfl
        · rw [Function.update_of_ne hr', Function.update_of_ne hr']
          exact h.held r'
      · dsimp only
        rw [h.live q, ne_eq, ne_eq, useCount_eq_zero, useCount_eq_zero]
        refine not_congr ⟨fun hzero => ⟨hzero.1, fun r' hr' => hzero.2 r' (hreaders hr')⟩,
          fun hzero => ⟨hzero.1, fun r' hr' => ?_⟩⟩
        by_cases heq : r' = r
        · rw [heq, hr] at hr'
          exact hq (Option.some.inj hr').symm
        · refine hzero.2 r' ?_
          dsimp only
          rwa [Function.update_of_ne heq]
      · refine (h.live p).mpr ?_
        rw [ne_eq, useCount_eq_zero]
        exact fun hzero => hzero.2 r hr

/-- Readers that let go leave the writer alone with its value. -/
theorem release_unique (h : s.unique) (r : ρ) : (s.release r).unique := by
  rw [unique_iff] at h ⊢
  intro r' hr'
  unfold release at hr'
  cases hr : s.readers r with
  | none =>
      rw [hr] at hr'
      exact h r' hr'
  | some p =>
      rw [hr] at hr'
      have hreaders : Function.update s.readers r none r' = some s.current := by
        unfold freed at hr'
        dsimp only at hr'
        split at hr' <;> exact hr'
      by_cases heq : r' = r
      · rw [heq, Function.update_self] at hreaders
        cases hreaders
      · rw [Function.update_of_ne heq] at hreaders
        exact h r' hreaders

end Shared

end Lib
