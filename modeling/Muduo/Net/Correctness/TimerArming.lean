import Muduo.Net.Correctness.TimerRuns

/-!
# `Correctness.TimerArming` — the timer descriptor is armed for the earliest timer

The descriptor is set when a new timer comes first, and at the end of `reset` if the first timestamp is
`valid()`; cancelling never sets it. `Suits fd when` says that the descriptor will report a timer for `when` in
time, and is inherited by every later timer. Between the steps of `handleRead` a timer may also rely on the
`resetTimerfd` at the end of `reset`, for which its timestamp must be positive; `Timely` is the invariant that
each timer in `timers_` has one of the two.

Two computations on timestamps may leave the range of `int64_t`: `when - now` in `howMuchTimeFromNow`, for a
timer so far in the past that the difference wraps to a far future, and `now + interval` in `restart`.
-/

namespace Muduo.Net.TimerQueue

open Lib OrderedSet

variable {q q' : TimerQueue} {p : Nat} {t : Timer} {fd : Timerfd} {when when' now : Timestamp}

/-! ## The descriptor -/

/-- `microseconds` is split into seconds and nanoseconds without loss. -/
theorem micros_howMuchTimeFromNow (h : IsInt64 (when - now)) :
    (howMuchTimeFromNow when now).micros = max 100 (when - now) := by
  unfold howMuchTimeFromNow Timespec.micros Timestamp.kMicroSecondsPerSecond
  rw [toInt64_eq h.1 h.2]
  dsimp only
  split <;> rw [Int.tdiv_eq_ediv_of_nonneg (by omega), Int.tmod_eq_emod_of_nonneg (by omega)] <;> omega

/-- The descriptor will report a timer for `when` in time. -/
structure Suits (fd : Timerfd) (when : Timestamp) : Prop where
  set : fd.armed = some fd.deadline ∨ fd.unread = true
  early : fd.deadline ≤ max when (fd.armedAt + 100)

theorem Suits.mono (h : Suits fd when) (hle : when ≤ when') : Suits fd when' :=
  ⟨h.set, h.early.trans (max_le_max_right _ hle)⟩

theorem suits_resetTimerfd (h : IsInt64 (when - now)) : Suits (resetTimerfd when now) when := by
  refine ⟨Or.inl rfl, ?_⟩
  show now + (howMuchTimeFromNow when now).micros ≤ max when (now + 100)
  rw [micros_howMuchTimeFromNow h, ← max_add_add_left, add_sub_cancel, max_comm]

theorem Suits.expire (h : Suits fd when) : Suits { fd with armed := none, unread := true } when :=
  ⟨Or.inr rfl, h.early⟩

/-! ## The invariant -/

/-- `howMuchTimeFromNow` and `restart` stay in the range of `int64_t`. -/
def InRange (q : TimerQueue) : TimerOp → Prop
  | .addTimer _ when _ => q.earliestChanged when → -2 ^ 63 ≤ when - q.clock
  | .runFunctor => ∀ p ps t, q.queued = p :: ps → q.heap p = some t → q.earliestChanged t.expiration →
      -2 ^ 63 ≤ t.expiration - q.clock
  | .resetNext => ∀ now e rest t i, q.point = .resetting now (e :: rest) → q.heap e.timer = some t →
      t.interval = some i → (⟨e.timer, t.sequence⟩ : ActiveTimer) ∉ q.cancelingTimers → now + i.delta < 2 ^ 63
  | _ => True

/-- The time `handleRead` took when it started. -/
def TimerPoint.now? : TimerPoint → Option Timestamp
  | .idle => none
  | .calling now _ _ => some now
  | .resetting now _ => some now

/-- Every timer in `timers_` is served by the descriptor as it is set now or, in `handleRead`, by the
    `resetTimerfd` at its end. -/
structure Timely (q : TimerQueue) : Prop where
  clock : 0 < q.clock ∧ q.clock < 2 ^ 63
  now : ∀ now ∈ TimerPoint.now? q.point, 0 < now
  range : ∀ p t, q.heap p = some t → IsInt64 t.expiration
  covered : ∀ e ∈ q.timers, Suits q.timerfd e.when ∨ (0 < e.when ∧ q.point ≠ .idle)

/-- A timer is inserted, and the descriptor is set if it is the first. -/
theorem Timely.addedAndArmed (h : Timely q) (hp : q.heap p = some t)
    (hin : q.earliestChanged t.expiration → -2 ^ 63 ≤ t.expiration - q.clock) :
    Timely (q.addedAndArmed p t) := by
  refine ⟨h.clock, h.now, h.range, ?_⟩
  intro e he
  show Suits (if q.earliestChanged t.expiration then resetTimerfd t.expiration q.clock else q.timerfd) e.when ∨
    (0 < e.when ∧ q.point ≠ .idle)
  by_cases hfirst : q.earliestChanged t.expiration = true
  · rw [if_pos hfirst]
    have hsuits : Suits (resetTimerfd t.expiration q.clock) t.expiration := by
      refine suits_resetTimerfd ⟨hin hfirst, ?_⟩
      exact lt_of_le_of_lt (sub_le_self _ h.clock.1.le) (h.range p t hp).2
    -- the descriptor waits for this timer, and the others expire later
    rcases Finset.mem_insert.mp he with rfl | he
    · exact Or.inl hsuits
    · exact Or.inl (hsuits.mono (earliestChanged_iff.mp hfirst e he).le)
  · rw [if_neg hfirst]
    rcases Finset.mem_insert.mp he with rfl | he
    · -- some other timer expires no later, and what serves that one serves this one
      rw [earliestChanged_iff] at hfirst
      push Not at hfirst
      obtain ⟨e₀, he₀, hle⟩ := hfirst
      refine (h.covered e₀ he₀).imp (fun hs => hs.mono hle) fun hpos => ⟨?_, hpos.2⟩
      exact lt_of_lt_of_le hpos.1 hle
    · exact h.covered e he

theorem Timely.newTimer (h : Timely q) (hw : IsInt64 when) (i : Option Interval) :
    Timely (q.newTimer p when i) := by
  refine ⟨h.clock, h.now, ?_, h.covered⟩
  intro p' t' ht'
  rcases newTimer_heap ht' with ⟨-, rfl⟩ | ⟨-, ht'⟩
  · exact hw
  · exact h.range p' t' ht'

/-- What `Timely` depends on, the timers apart. -/
def timing (q : TimerQueue) : Timestamp × TimerPoint × Timerfd := (q.clock, q.point, q.timerfd)

/-- Fewer timers need no other setting. -/
theorem Timely.fewer (h : Timely q) (heq : q'.timing = q.timing)
    (hheap : ∀ p t, q'.heap p = some t → q.heap p = some t) (htimers : q'.timers ⊆ q.timers) : Timely q' := by
  obtain ⟨hclock, hpoint, hfd⟩ : q'.clock = q.clock ∧ q'.point = q.point ∧ q'.timerfd = q.timerfd := by
    simpa [timing] using heq
  refine ⟨hclock ▸ h.clock, hpoint ▸ h.now, ?_, ?_⟩
  · intro p t ht
    exact h.range p t (hheap p t ht)
  · intro e he
    rw [hfd, hpoint]
    exact h.covered e (htimers he)

theorem Timely.congr (h : Timely q) (heq : (q'.timing, q'.heap, q'.timers) = (q.timing, q.heap, q.timers)) :
    Timely q' := by
  obtain ⟨htiming, hheap, htimers⟩ : q'.timing = q.timing ∧ q'.heap = q.heap ∧ q'.timers = q.timers := by
    simpa using heq
  refine h.fewer htiming ?_ (htimers ▸ Finset.Subset.refl _)
  rw [hheap]
  exact fun p t ht => ht

/-- `handleRead` goes on to its next part. -/
theorem Timely.moved (h : Timely q) (hclock : q'.clock = q.clock) (hheap : q'.heap = q.heap)
    (htimers : q'.timers = q.timers) (hfd : q'.timerfd = q.timerfd)
    (hnow : TimerPoint.now? q'.point = TimerPoint.now? q.point) (hpoint : q'.point ≠ .idle) : Timely q' := by
  refine ⟨hclock ▸ h.clock, hnow ▸ h.now, hheap ▸ h.range, ?_⟩
  intro e he
  rw [htimers] at he
  rw [hfd]
  exact (h.covered e he).imp_right fun hpos => ⟨hpos.1, hpoint⟩

theorem Timely.cancel (h : Timely q) (id : ActiveTimer) : Timely ((q.cancelled id).noteCancel id q) := by
  have hcancelled : Timely (q.cancelled id) := by
    unfold cancelled
    split
    · split
      · exact h.fewer rfl (fun p t ht => (heap_of_update_none ht).2) (Finset.erase_subset _ _)
      · exact h
    · split
      · exact h.congr rfl
      · exact h
  unfold noteCancel
  split
  · split
    · exact hcancelled.congr rfl
    · exact hcancelled
  · exact hcancelled

/-- What is left after `getExpired` expires after `now`. -/
theorem Timely.handleRead (h : Timely q) (howned : Owned q q.outside) : Timely (q.calling q.clock) := by
  refine ⟨h.clock, ?_, h.range, fun e he => Or.inr ⟨?_, TimerPoint.noConfusion⟩⟩
  · rintro _ ⟨⟩
    exact h.clock.1
  · obtain ⟨hmem, hle⟩ := mem_removeBelow.mp he
    obtain ⟨t, ht, -⟩ := howned.inStep.entries e hmem
    have hlt := mt (lt_sentry_iff (howned.address _ t ht)).mpr (not_lt.mpr hle)
    exact h.clock.1.trans (not_le.mp hlt)

theorem restart_isInt64 (t : Timer) (now : Timestamp) : IsInt64 (t.restart now).expiration := by
  unfold Timer.restart
  split
  · exact toInt64_isInt64 _
  · show IsInt64 Timestamp.invalid
    exact ⟨by decide, by decide⟩

theorem restart_pos {i : Interval} (hi : t.interval = some i) (hnow : 0 < now)
    (hrange : now + i.delta < 2 ^ 63) : 0 < (t.restart now).expiration := by
  have hpos : (0 : Int) < now + i.delta := Int.add_pos_of_pos_of_nonneg hnow (Int.natCast_nonneg _)
  unfold Timer.restart
  rw [hi]
  show 0 < toInt64 (now + i.delta)
  rw [toInt64_eq (by omega) hrange]
  exact hpos

/-- A repeated timer goes back into the set, and waits for the end of `reset`. -/
theorem Timely.resetNext (h : Timely q) {rest : List Entry} {e : Entry} (ht : q.heap e.timer = some t)
    (hpt : q.point = .resetting now (e :: rest)) (hin : q.InRange .resetNext) :
    Timely (q.resetStep now e t rest) := by
  have hnow : 0 < now := h.now now (by rw [hpt]; rfl)
  have hcovered : ∀ e' ∈ q.timers, Suits q.timerfd e'.when ∨
      (0 < e'.when ∧ TimerPoint.resetting now rest ≠ .idle) :=
    fun e' he' => (h.covered e' he').imp_right fun hpos => ⟨hpos.1, TimerPoint.noConfusion⟩
  unfold resetStep
  split
  · next hrep =>
      obtain ⟨i, hi⟩ := Option.isSome_iff_exists.mp hrep.1
      refine ⟨h.clock, by rintro _ ⟨⟩; exact hnow, ?_, ?_⟩
      · intro p' t' ht'
        rcases heap_of_update_some ht' with ⟨-, rfl⟩ | ⟨-, ht'⟩
        · exact restart_isInt64 t now
        · exact h.range p' t' ht'
      · intro e' he'
        rcases Finset.mem_insert.mp he' with rfl | he'
        · -- not served yet, but valid, so the end of `reset` waits for it
          exact Or.inr ⟨restart_pos hi hnow (hin now e rest t i hpt ht hi hrep.2), TimerPoint.noConfusion⟩
        · exact hcovered e' he'
  · refine ⟨h.clock, by rintro _ ⟨⟩; exact hnow, ?_, hcovered⟩
    intro p' t' ht'
    exact h.range p' t' (heap_of_update_none ht').2

/-- The end of `reset`: afterwards every timer is served by the descriptor. -/
theorem Timely.rearmed (h : Timely q) (hstep : InStep q) : Timely { q.rearmed with point := .idle } := by
  unfold TimerQueue.rearmed
  split
  · next hf =>
      refine ⟨h.clock, by rintro _ ⟨⟩, h.range, ?_⟩
      intro e he
      have he' : e ∈ q.timers := he
      rw [first_eq_none.mp hf] at he'
      exact absurd he' (Finset.notMem_empty e)
  · next e₀ hf =>
      have hle := fun e he => first_when_le (e := e) hf he
      split
      · next hvalid =>
          obtain ⟨t, ht, hw, -⟩ := hstep.entries e₀ (mem_of_first hf)
          have hsuits : Suits (resetTimerfd e₀.when q.clock) e₀.when :=
            suits_resetTimerfd (isInt64_sub (of_decide_eq_true hvalid) (hw ▸ (h.range _ t ht).2) h.clock.1
              h.clock.2)
          exact ⟨h.clock, by rintro _ ⟨⟩, h.range, fun e he => Or.inl (hsuits.mono (hle e he))⟩
      · next hvalid =>
          -- an invalid timestamp is not waited for, but is served already
          refine ⟨h.clock, by rintro _ ⟨⟩, h.range, fun e he => Or.inl ?_⟩
          have hsuits := (h.covered e₀ (mem_of_first hf)).resolve_right
            fun hpos => hvalid (decide_eq_true hpos.1)
          exact hsuits.mono (hle e he)

theorem Timely.exec (h : Timely q) (hinv : q.Inv) {a : TimerOp} (ha : q.enabled a) (hin : q.InRange a)
    (hq' : q.exec a = .ok q') : Timely q' := by
  cases hinv.does ha hq' with
  | @addTimer p when i _ _ hwhen =>
      exact (h.newTimer hwhen i).addedAndArmed (newTimer_heap_self q p when i) hin
  | @addTimerElsewhere p when i _ hwhen => exact (h.newTimer (p := p) hwhen i).congr rfl
  | @runFunctor p ps t _ hps ht =>
      have hrest : Timely { q with queued := ps } :=
        h.congr rfl
      exact hrest.addedAndArmed ht (hin p ps t hps ht)
  | @cancel id _ => exact h.cancel id
  | handleRead _ => exact h.handleRead hinv.owned
  | runNext hpt _ _ => exact h.moved rfl rfl rfl rfl (by rw [hpt]; rfl) TimerPoint.noConfusion
  | endCalls hpt => exact h.moved rfl rfl rfl rfl (by rw [hpt]; rfl) TimerPoint.noConfusion
  | resetNext hpt ht => exact h.resetNext ht hpt hin
  | resetDone _ => exact h.rearmed hinv.owned.inStep
  | expire => exact ⟨h.clock, h.now, h.range, fun e he => (h.covered e he).imp_left Suits.expire⟩
  | tick hle hlt => exact ⟨⟨lt_of_lt_of_le h.clock.1 hle, hlt⟩, h.now, h.range, h.covered⟩
  | createdElsewhere => exact h.congr rfl

theorem new_timely {n : Nat} (hpos : 0 < now) (hlt : now < 2 ^ 63) : Timely (TimerQueue.new now n) :=
  ⟨⟨hpos, hlt⟩, by rintro _ ⟨⟩, fun p t ht => absurd ht (by simp [TimerQueue.new]),
    fun e he => absurd he (Finset.notMem_empty e)⟩

/-- **No timer is stranded.** In every run in which `howMuchTimeFromNow` and `restart` stay in the range of
    `int64_t`: whenever the loop is not in `handleRead` and there are timers, the descriptor is armed or has an
    unread expiration, and it was last armed for a time no later than the earliest timer, or than 100
    microseconds after it was armed. -/
theorem no_timer_stranded (h : (timerSystem.when InRange).Reachable q) (hidle : q.point = .idle)
    (hne : q.timers ≠ ∅) : (q.timerfd.armed = some q.timerfd.deadline ∨ q.timerfd.unread = true) ∧
      ∃ e, first q.timers = some e ∧ q.timerfd.deadline ≤ max e.when (q.timerfd.armedAt + 100) := by
  have htimely : Timely q := by
    refine inv_of_when ?_ ?_ h
    · intro now n hpos hlt
      exact new_timely hpos hlt
    · intro q a q' hinv hq ha hin hexec
      exact hq.exec hinv ha hin hexec
  obtain ⟨e, he⟩ := Option.ne_none_iff_exists'.mp (mt first_eq_none.mp hne)
  have hsuits := (htimely.covered e (mem_of_first he)).resolve_right fun hpos => hpos.2 hidle
  exact ⟨hsuits.set, e, he, hsuits.early⟩

/-- A timer that is late already is reported after 100 microseconds. -/
theorem no_timer_stranded_late : ∃ q : TimerQueue, q.timers = {⟨500, 16⟩} ∧
    (q.timerfd.armed = some q.timerfd.deadline ∨ q.timerfd.unread = true) ∧
    ∃ e, first q.timers = some e ∧ q.timerfd.deadline ≤ max e.when (q.timerfd.armedAt + 100) := by
  have hfree : (TimerQueue.new 1000 0).free 16 := ⟨rfl, by decide, by decide⟩
  have hadded := System.Reachable.next (S := timerSystem.when InRange)
    (.init ⟨1000, 0, rfl, by decide, by decide⟩) (.addTimer 16 500 none)
    ⟨⟨trivial, hfree, by decide, by decide⟩, fun _ => by decide⟩ (exec_addTimer (new_inv 1000 0).owned hfree)
  exact ⟨_, rfl, no_timer_stranded hadded rfl (Finset.singleton_ne_empty (⟨500, 16⟩ : Entry))⟩

/-- The least `Timestamp`, at time 1000: `when - now` wraps, and the timer is reported 292,000 years late. -/
theorem least_timestamp_stranded : ∃ q : TimerQueue, timerSystem.Reachable q ∧ q.point = .idle ∧
    first q.timers = some ⟨-2 ^ 63, 16⟩ ∧ q.timerfd.armedAt = 1000 ∧ q.timerfd.deadline = 2 ^ 63 ∧
    ¬ q.timerfd.deadline ≤ max (-2 ^ 63) (q.timerfd.armedAt + 100) := by
  have hfree : (TimerQueue.new 1000 0).free 16 := ⟨rfl, by decide, by decide⟩
  have hadded := System.Reachable.next (S := timerSystem) (.init ⟨1000, 0, rfl, by decide, by decide⟩)
    (.addTimer 16 (-2 ^ 63) none) ⟨trivial, hfree, by decide, by decide⟩
    (exec_addTimer (new_inv 1000 0).owned hfree)
  have hfd : (if (TimerQueue.new 1000 0).earliestChanged (-2 ^ 63) then resetTimerfd (-2 ^ 63) 1000
      else (TimerQueue.new 1000 0).timerfd) = ⟨some (2 ^ 63), false, 2 ^ 63, 1000⟩ := by
    rw [if_pos (earliestChanged_iff.mpr (by simp [TimerQueue.new]))]
    decide
  have hlate : ∀ fd : Timerfd, fd = ⟨some (2 ^ 63), false, 2 ^ 63, 1000⟩ → fd.armedAt = 1000 ∧
      fd.deadline = 2 ^ 63 ∧ ¬ fd.deadline ≤ max (-2 ^ 63) (fd.armedAt + 100) := by
    rintro _ rfl
    decide
  exact ⟨_, hadded, rfl, first_singleton, hlate _ hfd⟩

end Muduo.Net.TimerQueue
