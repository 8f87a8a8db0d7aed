import Mathlib.Tactic

/-!
# `Lib.Idle` — keys that expire when nothing happens to them

Each key that is watched has an age, the ticks since something happened to it. At the tick with which the age would
reach `n` the key expires: it is not watched any more. A `wheel` is a list of sets, newest first, into which a key is
put each time something happens to it; `ageIn` is the age it shows, and to add an empty set in front and drop the
oldest one is a tick (`ageIn_turn`).
-/

namespace Lib.Idle

variable {κ : Type*}

/-- The ages of the keys that are watched. -/
abbrev Ages (κ : Type*) := κ → Option Nat

/-- Something happens to `k`. -/
def touch [DecidableEq κ] (w : Ages κ) (k : κ) : Ages κ := Function.update w k (some 0)

def tick (n : Nat) (w : Ages κ) : Ages κ := fun k => (w k).bind fun d => if d + 1 < n then some (d + 1) else none

/-- The next tick is the `n`-th since something happened to `k`. -/
def Expires (n : Nat) (w : Ages κ) (k : κ) : Prop := ∃ d, w k = some d ∧ n ≤ d + 1

variable {n d : Nat} {w : Ages κ} {k : κ}

theorem tick_none (h : w k = none) : tick n w k = none := by
  simp [tick, h]

theorem tick_some (h : w k = some d) : tick n w k = if d + 1 < n then some (d + 1) else none := by
  simp [tick, h]

theorem expires_iff (h : w k = some d) : Expires n w k ↔ n ≤ d + 1 := by
  simp [Expires, h]

theorem not_expires (h : w k = none) : ¬ Expires n w k := by
  simp [Expires, h]

/-! ## Wheels -/

variable [DecidableEq κ]

/-- The newest set that holds `k`. -/
def ageIn (wheel : List (Finset κ)) : Ages κ := fun k => wheel.findIdx? fun bucket => k ∈ bucket

theorem ageIn_isSome {wheel : List (Finset κ)} : (ageIn wheel k).isSome ↔ ∃ bucket ∈ wheel, k ∈ bucket := by
  simp [ageIn, List.findIdx?_isSome]

theorem ageIn_insert (bucket : Finset κ) (wheel : List (Finset κ)) (k : κ) :
    ageIn (insert k bucket :: wheel) = touch (ageIn (bucket :: wheel)) k := by
  funext j
  by_cases hj : j = k
  · subst hj
    simp [ageIn, touch, List.findIdx?_cons]
  · simp [ageIn, touch, List.findIdx?_cons, hj]

/-- **A turn of the wheel is a tick.** -/
theorem ageIn_turn (wheel : List (Finset κ)) : ageIn (∅ :: wheel.dropLast) = tick wheel.length (ageIn wheel) := by
  funext k
  have hlast : wheel.dropLast.findIdx? (fun bucket => decide (k ∈ bucket)) =
      (wheel.findIdx? fun bucket => decide (k ∈ bucket)).bind
        (Option.guard fun j => decide (j < wheel.length - 1)) := by
    rw [List.dropLast_eq_take, List.findIdx?_take]
  simp only [ageIn, tick, List.findIdx?_cons, Finset.notMem_empty, decide_false, Bool.false_eq_true, if_false, hlast]
  cases wheel.findIdx? fun bucket => decide (k ∈ bucket) with
  | none => rfl
  | some d =>
      by_cases hd : d + 1 < wheel.length
      · have hd' : d < wheel.length - 1 := by omega
        simp [Option.guard, hd, hd']
      · have hd' : ¬ d < wheel.length - 1 := by omega
        simp [Option.guard, hd, hd']

/-- What only the oldest set holds expires at the next tick. -/
theorem expires_wheel {wheel : List (Finset κ)} :
    Expires wheel.length (ageIn wheel) k ↔
      (ageIn wheel k).isSome ∧ ageIn (∅ :: wheel.dropLast) k = none := by
  rw [ageIn_turn]
  cases hk : ageIn wheel k with
  | none => simp [not_expires hk]
  | some d =>
      rw [expires_iff hk, tick_some hk]
      by_cases hd : d + 1 < wheel.length
      · simp [hd]
      · simp [hd, not_lt.mp hd]

end Lib.Idle
