import Muduo.Base.CountDownLatch

/-!
# `Base.Correctness.CountDownLatch` — the latch opens for everybody, and not before

While the count is positive nobody returns; the last `countDown` notifies whoever waits, and afterwards nobody begins
to wait. A latch that was made with a count that is not positive is open from the beginning.
-/

namespace Muduo

open Lib

namespace CountDownLatch

variable {τ : Type} {s : CountDownLatch τ} {n : Int} {t : τ}

/-- What the count says, of a latch made with `n`. -/
structure Counts (n : Int) (s : CountDownLatch τ) : Prop where
  counted : s.count = n - s.countDowns
  /-- Whoever returned did so when the latch was open. -/
  gated : s.returned ≠ [] → s.count ≤ 0
  /-- Nobody waits un-notified at an open latch. -/
  released : s.count ≤ 0 → s.condition.waiting = ∅

/-- The count has not gone below the least `int`. -/
def InRange (n : Int) (s : CountDownLatch τ) : Prop := -2 ^ 31 ≤ n - s.countDowns

structure Inv (n : Int) (s : CountDownLatch τ) : Prop where
  counts : s.InRange n → s.Counts n
  parked : ∀ t, s.condition.Mem t → s.threads t = .waiting

variable [DecidableEq τ]

/-- `t` goes elsewhere, and the others stay where they are. -/
theorem Inv.parked_update (h : s.Inv n) {c : Condition τ} (p : LatchPoint)
    (hmem : ∀ u, c.Mem u → s.condition.Mem u) (ht : ¬ c.Mem t) (u : τ) (hu : c.Mem u) :
    Function.update s.threads t p u = .waiting := by
  have hne : u ≠ t := by
    rintro rfl
    exact ht hu
  rw [Function.update_of_ne hne]
  exact h.parked u (hmem u hu)

/-- A turn of the loop in `wait`, by a thread that is not at the condition variable. -/
theorem Inv.wait (h : s.Inv n) (ht : ¬ s.condition.Mem t) : (s.wait t).Inv n := by
  unfold CountDownLatch.wait
  by_cases hopen : s.count > 0
  · rw [if_pos hopen]
    refine ⟨fun hr => ?_, ?_⟩
    · have hs := h.counts hr
      exact ⟨hs.counted, hs.gated, fun hle => absurd hopen (not_lt.mpr hle)⟩
    · intro u hu
      by_cases hut : u = t
      · subst hut
        exact Function.update_self _ _ _
      · show Function.update s.threads t .waiting u = .waiting
        rw [Function.update_of_ne hut]
        exact h.parked u ((Condition.mem_wait.mp hu).resolve_left hut)
  · rw [if_neg hopen]
    refine ⟨fun hr => ?_, h.parked_update _ (fun _ => id) ht⟩
    have hs := h.counts hr
    exact ⟨hs.counted, fun _ => not_lt.mp hopen, hs.released⟩

theorem Inv.countDown (hn : n < 2 ^ 31) (h : s.Inv n) : s.countDown.Inv n := by
  have hdowns : s.countDown.countDowns = s.countDowns + 1 := by
    unfold CountDownLatch.countDown
    dsimp only
    split <;> rfl
  refine ⟨fun hr => ?_, ?_⟩
  · unfold InRange at hr
    rw [hdowns, Nat.cast_add, Nat.cast_one] at hr
    have hs := h.counts (show -2 ^ 31 ≤ n - s.countDowns by omega)
    have hcounted := hs.counted
    have hnext : toInt32 (s.count - 1) = s.count - 1 := toInt32_eq (by omega) (by omega)
    unfold CountDownLatch.countDown
    by_cases hzero : s.count - 1 = 0
    · -- the last one: everybody is notified
      have hlast : toInt32 (s.count - 1) = 0 := hnext.trans hzero
      simp only [hlast, if_true]
      refine ⟨?_, fun _ => le_refl _, fun _ => rfl⟩
      push_cast
      omega
    · simp only [hnext, hzero, if_false]
      refine ⟨?_, fun hret => ?_, fun hle => ?_⟩
      · push_cast
        omega
      · have hle : s.count ≤ 0 := hs.gated hret
        show s.count - 1 ≤ 0
        omega
      · -- it was open before, as the count does not skip 0
        have hle : s.count - 1 ≤ 0 := hle
        exact hs.released (by omega)
  · unfold CountDownLatch.countDown
    dsimp only
    split
    · exact fun u hu => h.parked u (Condition.mem_notifyAll.mp hu)
    · exact h.parked

theorem Inv.exec (hn : n < 2 ^ 31) (h : s.Inv n) {a : LatchAction τ} (ha : s.enabled a) : Safe (s.exec a) (Inv n) := by
  cases a with
  | wait t =>
      refine Safe.ok (h.wait fun hmem => ?_)
      have hidle : s.threads t = .idle := ha
      rw [h.parked t hmem] at hidle
      cases hidle
  | countDown t => exact Safe.ok (h.countDown hn)
  | spurious t =>
      refine Safe.ok ⟨fun hr => ?_, fun u hu => h.parked u hu.of_spurious⟩
      have hs := h.counts hr
      refine ⟨hs.counted, hs.gated, fun hle => ?_⟩
      show s.condition.waiting.erase t = ∅
      rw [hs.released hle, Finset.erase_empty]
  | resume t =>
      have hresumed : Inv n { s with condition := s.condition.resume t } := by
        refine ⟨fun hr => ?_, fun u hu => h.parked u ((Condition.mem_resume ha.2).mp hu).2⟩
        have hs := h.counts hr
        exact ⟨hs.counted, hs.gated, hs.released⟩
      exact Safe.ok (hresumed.wait fun hmem => ((Condition.mem_resume ha.2).mp hmem).1 rfl)

theorem latchSystem_inv (hn : n < 2 ^ 31) (h : (latchSystem τ n).Reachable s) : s.Inv n := by
  refine System.inv (S := latchSystem τ n) ?_ (fun _ _ hs ha => hs.exec hn ha) h
  rintro s rfl
  exact ⟨fun _ => ⟨by simp, fun hret => absurd rfl hret, fun _ => rfl⟩,
    fun t ht => absurd ht (Condition.not_mem_empty t)⟩

/-- **The latch opens for everybody, and not before.** For every initial count that is an `int`, any threads and every
    interleaving in which the calls of `countDown` do not take the count below the least `int`: `getCount` is the
    initial count less the calls of `countDown`; a thread returned from `wait` only if there were as many of these as
    the count; and once there are, each thread that is still in `wait` may resume, which makes it return, and no thread
    that calls `wait` waits. -/
theorem opens_for_all (hn : n < 2 ^ 31) (h : (latchSystem τ n).Reachable s) (hr : -2 ^ 31 ≤ n - s.countDowns) :
    s.getCount = n - s.countDowns ∧ (s.returned ≠ [] → n ≤ s.countDowns) ∧
      (n ≤ s.countDowns →
        (∀ t, s.threads t = .waiting → s.enabled (.resume t) ∧
          ∃ s', s.exec (.resume t) = .ok s' ∧ s'.returned = s.returned ++ [t] ∧ s'.threads t = .idle) ∧
        ∀ t, s.threads t = .idle →
          ∃ s', s.exec (.wait t) = .ok s' ∧ s'.returned = s.returned ++ [t] ∧ s'.threads = s.threads) := by
  have hinv := (latchSystem_inv hn h).counts hr
  have hcounted := hinv.counted
  refine ⟨hcounted, fun hret => ?_, fun hle => ?_⟩
  · have := hinv.gated hret
    omega
  · have hopen : ¬ s.count > 0 := by omega
    have hnobody := hinv.released (not_lt.mp hopen)
    refine ⟨fun t ht => ⟨⟨ht, by simp [hnobody]⟩, _, rfl, ?_⟩, fun t ht => ⟨_, rfl, ?_⟩⟩
    · unfold CountDownLatch.wait
      rw [if_neg hopen]
      exact ⟨rfl, Function.update_self _ _ _⟩
    · unfold CountDownLatch.wait
      rw [if_neg hopen]
      refine ⟨rfl, ?_⟩
      show Function.update s.threads t .idle = s.threads
      rw [← ht, Function.update_eq_self]

/-- Two threads wait; the last of two calls of `countDown` releases both. -/
theorem opens_for_all_two : ∃ s : CountDownLatch (Fin 3), s.returned = [1, 0] ∧ s.getCount = 2 - s.countDowns := by
  have h := (System.Reachable.init (S := latchSystem (Fin 3) 2) rfl)
    |>.next (.wait 0) rfl rfl
    |>.next (.countDown 2) rfl rfl
    |>.next (.wait 1) rfl rfl
    |>.next (.countDown 2) rfl rfl
    |>.next (.resume 1) ⟨rfl, by decide⟩ rfl
    |>.next (.resume 0) ⟨rfl, by decide⟩ rfl
  exact ⟨_, rfl, (opens_for_all (by decide) h (by decide)).1⟩

end CountDownLatch

end Muduo
