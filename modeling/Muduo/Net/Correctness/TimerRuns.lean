import Muduo.Net.Correctness.TimerQueue

/-!
# `Correctness.TimerRuns` — every timer has one owner, in every run

The timers outside the two sets are those of the queued functors and those of the expired batch. With this
list, `outside`, ownership is an invariant of every step: it gives the result of each step without fault
(the `exec_` lemmas, which the other timer proofs start from), and the history of each timer (`Logged`), in
which nothing follows the deletion.
-/

namespace Muduo.Net.TimerQueue

open Lib OrderedSet

variable {q q' : TimerQueue} {p : Nat} {t : Timer}

/-- The expired batch being processed by `handleRead`, less what `reset` is done with. -/
def batch (q : TimerQueue) : List Entry :=
  match q.point with
  | .idle => []
  | .calling _ expired _ => expired
  | .resetting _ rest => rest

/-- The timers that are in neither set. -/
def outside (q : TimerQueue) : List Nat := q.queued ++ q.batch.map Entry.timer

theorem outside_of_idle (hpt : q.point = .idle) : q.outside = q.queued := by
  unfold outside batch
  rw [hpt]
  exact List.append_nil _

theorem outside_of_calling {now : Timestamp} {expired todo : List Entry}
    (hpt : q.point = .calling now expired todo) : q.outside = q.queued ++ expired.map Entry.timer := by
  unfold outside batch
  rw [hpt]

theorem outside_of_resetting {now : Timestamp} {rest : List Entry} (hpt : q.point = .resetting now rest) :
    q.outside = q.queued ++ rest.map Entry.timer := by
  unfold outside batch
  rw [hpt]

/-! ## What a step returns -/

theorem exec_addTimer (h : Owned q q.outside) {when : Timestamp} {i : Option Interval} (hp : q.free p) :
    q.exec (.addTimer p when i)
      = .ok ((q.newTimer p when i).addedAndArmed p ⟨when, i, q.numCreated + 1⟩) := by
  have hnew := h.newTimer hp when i
  exact addTimerInLoop_spec hnew.inStep (Function.update_self _ _ _) (hnew.outside p List.mem_cons_self).2

theorem exec_runFunctor (h : Owned q q.outside) {ps : List Nat} (hq : q.queued = p :: ps) :
    ∃ t, q.heap p = some t ∧ q.exec .runFunctor = .ok ({ q with queued := ps }.addedAndArmed p t) := by
  have hmem : p ∈ q.outside := by
    unfold outside
    rw [hq]
    exact List.mem_append_left _ List.mem_cons_self
  obtain ⟨⟨t, ht⟩, hfree⟩ := h.outside p hmem
  refine ⟨t, ht, ?_⟩
  unfold exec
  dsimp only
  rw [hq]
  exact addTimerInLoop_spec (q := { q with queued := ps }) ⟨h.inStep.entries, h.inStep.active⟩ ht hfree

/-- The state in which the callbacks of the timers expired at `now` are about to be called. -/
def calling (q : TimerQueue) (now : Timestamp) : TimerQueue :=
  { q.taken now with
    timerfd := { q.timerfd with unread := false }
    callingExpiredTimers := true
    cancelingTimers := ∅
    point := .calling now (q.expiredAt now) (q.expiredAt now) }

theorem exec_handleRead (h : Owned q q.outside) : q.exec .handleRead = .ok (q.calling q.clock) := by
  have haddr : ∀ e ∈ q.timers, e.timer < UINTPTR_MAX := by
    intro e he
    obtain ⟨t, ht, -⟩ := h.inStep.entries e he
    exact h.address _ t ht
  show TimerQueue.getExpired { q with timerfd := { q.timerfd with unread := false } } q.clock >>= _ = _
  rw [getExpired_spec (q := { q with timerfd := { q.timerfd with unread := false } })
    ⟨h.inStep.entries, h.inStep.active⟩ haddr, ok_bind]
  rfl

theorem exec_runNext (h : Owned q q.outside) {now : Timestamp} {expired todo : List Entry} {e : Entry}
    (hpt : q.point = .calling now expired (e :: todo)) (he : e ∈ expired) :
    ∃ t, q.heap e.timer = some t ∧
      q.exec .runNext = .ok { q.record (.started t.serial) with point := .calling now expired todo } := by
  have hmem : e.timer ∈ q.outside := by
    rw [outside_of_calling hpt]
    exact List.mem_append_right _ (List.mem_map_of_mem he)
  obtain ⟨⟨t, ht⟩, -⟩ := h.outside _ hmem
  refine ⟨t, ht, ?_⟩
  unfold exec
  dsimp only
  rw [hpt]
  show TimerQueue.run q e >>= _ = _
  unfold run
  rw [deref_eq ht, ok_bind, ok_bind]

/-- `q` after one iteration of the loop in `reset`, for the timer `t` of the entry `e`. -/
def resetStep (q : TimerQueue) (now : Timestamp) (e : Entry) (t : Timer) (rest : List Entry) : TimerQueue :=
  { (if t.repeats = true ∧ (⟨e.timer, t.sequence⟩ : ActiveTimer) ∉ q.cancelingTimers then
      (q.restarted e.timer t now).added e.timer (t.restart now)
    else (q.store e.timer none).record (.deleted t.serial)) with point := .resetting now rest }

theorem exec_resetNext (h : Owned q q.outside) {now : Timestamp} {rest : List Entry} {e : Entry}
    (hpt : q.point = .resetting now (e :: rest)) :
    ∃ t, q.heap e.timer = some t ∧ q.exec .resetNext = .ok (q.resetStep now e t rest) := by
  have hmem : e.timer ∈ q.outside := by
    rw [outside_of_resetting hpt]
    exact List.mem_append_right _ List.mem_cons_self
  obtain ⟨⟨t, ht⟩, hfree⟩ := h.outside _ hmem
  refine ⟨t, ht, ?_⟩
  unfold exec
  dsimp only
  rw [hpt]
  show TimerQueue.resetOne q now e >>= _ = _
  unfold resetStep
  split
  · next hrep => rw [resetOne_restart h.inStep ht hfree hrep, ok_bind]
  · next hrep => rw [resetOne_delete ht hrep, ok_bind]

theorem exec_resetDone (h : Owned q q.outside) :
    q.exec .resetDone = .ok { q.rearmed with point := .idle } := by
  show TimerQueue.rearm q >>= _ = _
  rw [rearm_spec h.inStep, ok_bind]

/-- `q` after `cancelInLoop(id)`. -/
def cancelled (q : TimerQueue) (id : ActiveTimer) : TimerQueue :=
  if id ∈ q.activeTimers then
    match q.heap id.timer with
    | some t => q.removed id t
    | none => q
  else if q.callingExpiredTimers then { q with cancelingTimers := Insert.insert id q.cancelingTimers } else q

theorem exec_cancel (h : Owned q q.outside) (id : ActiveTimer) :
    q.exec (.cancel id) = .ok ((q.cancelled id).noteCancel id q) := by
  show TimerQueue.cancelInLoop q id >>= _ = _
  unfold cancelled
  by_cases hid : id ∈ q.activeTimers
  · obtain ⟨t, ht, -, -, hc⟩ := cancelInLoop_active h.inStep hid
    rw [if_pos hid, ht, hc, ok_bind]
  · rw [if_neg hid, cancelInLoop_inactive h.inStep hid, ok_bind]

/-- A timer that is in the sets is deleted. -/
theorem noteCancel_active {id : ActiveTimer} (hid : id ∈ q.activeTimers) (ht : q.heap id.timer = some t)
    (hs : t.sequence = id.sequence) :
    (q.cancelled id).noteCancel id q = (q.removed id t).record (.cancelled t.serial) := by
  unfold cancelled noteCancel
  rw [if_pos hid, ht]
  dsimp only
  rw [if_pos hs]

/-- A timer that is not in the sets is noted while callbacks are called. -/
theorem noteCancel_noted {id : ActiveTimer} (hid : id ∉ q.activeTimers) (hcalling : q.callingExpiredTimers = true)
    (ht : q.heap id.timer = some t) (hs : t.sequence = id.sequence) : (q.cancelled id).noteCancel id q
      = { q.record (.cancelled t.serial) with cancelingTimers := Insert.insert id q.cancelingTimers } := by
  unfold cancelled noteCancel
  rw [if_neg hid, if_pos hcalling, ht]
  dsimp only
  rw [if_pos hs]
  rfl

/-- An id whose timer is gone is noted too. -/
theorem noteCancel_stale {id : ActiveTimer} (hid : id ∉ q.activeTimers) (hcalling : q.callingExpiredTimers = true)
    (hgone : ∀ t, q.heap id.timer = some t → t.sequence ≠ id.sequence) : (q.cancelled id).noteCancel id q
      = { q with cancelingTimers := Insert.insert id q.cancelingTimers } := by
  unfold cancelled noteCancel
  rw [if_neg hid, if_pos hcalling]
  split
  · next t ht => rw [if_neg (hgone t ht)]
  · rfl

theorem exec_endCalls {now : Timestamp} {expired : List Entry} (hpt : q.point = .calling now expired []) :
    q.exec .endCalls = .ok { q with callingExpiredTimers := false, point := .resetting now expired } := by
  unfold exec
  dsimp only
  rw [hpt]

/-- What a step does between states in which every timer has its owner. -/
inductive Does (q : TimerQueue) : TimerOp → TimerQueue → Prop where
  | addTimer {p : Nat} {when : Timestamp} {i : Option Interval} : q.userCode → q.free p → IsInt64 when →
      Does q (.addTimer p when i) ((q.newTimer p when i).addedAndArmed p ⟨when, i, q.numCreated + 1⟩)
  | addTimerElsewhere {p : Nat} {when : Timestamp} {i : Option Interval} : q.free p → IsInt64 when →
      Does q (.addTimerElsewhere p when i) { q.newTimer p when i with queued := q.queued ++ [p] }
  | runFunctor {p : Nat} {ps : List Nat} {t : Timer} : q.point = .idle → q.queued = p :: ps → q.heap p = some t →
      Does q .runFunctor ({ q with queued := ps }.addedAndArmed p t)
  | cancel {id : ActiveTimer} : q.userCode → Does q (.cancel id) ((q.cancelled id).noteCancel id q)
  | handleRead : q.point = .idle → Does q .handleRead (q.calling q.clock)
  | runNext {now : Timestamp} {expired todo : List Entry} {e : Entry} {t : Timer} :
      q.point = .calling now expired (e :: todo) → e ∈ expired → q.heap e.timer = some t →
      Does q .runNext { q.record (.started t.serial) with point := .calling now expired todo }
  | endCalls {now : Timestamp} {expired : List Entry} : q.point = .calling now expired [] →
      Does q .endCalls { q with callingExpiredTimers := false, point := .resetting now expired }
  | resetNext {now : Timestamp} {rest : List Entry} {e : Entry} {t : Timer} :
      q.point = .resetting now (e :: rest) → q.heap e.timer = some t →
      Does q .resetNext (q.resetStep now e t rest)
  | resetDone {now : Timestamp} : q.point = .resetting now [] → Does q .resetDone { q.rearmed with point := .idle }
  | expire : Does q .expire { q with timerfd := { q.timerfd with armed := none, unread := true } }
  | tick {now : Timestamp} : q.clock ≤ now → now < 2 ^ 63 → Does q (.tick now) { q with clock := now }
  | createdElsewhere : Does q .createdElsewhere { q with numCreated := q.numCreated + 1 }

/-- **Every step returns**, and does what `Does` says. -/
theorem Owned.does (h : Owned q q.outside)
    (htodo : ∀ now expired todo, q.point = .calling now expired todo → todo <:+ expired) {a : TimerOp}
    (ha : q.enabled a) : ∃ q', q.exec a = .ok q' ∧ Does q a q' := by
  cases a with
  | addTimer p when i => exact ⟨_, exec_addTimer h ha.2.1, .addTimer ha.1 ha.2.1 ha.2.2⟩
  | addTimerElsewhere p when i => exact ⟨_, rfl, .addTimerElsewhere ha.1 ha.2⟩
  | runFunctor =>
      obtain ⟨p, ps, hps⟩ := List.exists_cons_of_ne_nil ha.2
      obtain ⟨t, ht, hexec⟩ := exec_runFunctor h hps
      exact ⟨_, hexec, .runFunctor ha.1 hps ht⟩
  | cancel id => exact ⟨_, exec_cancel h id, .cancel ha⟩
  | handleRead => exact ⟨_, exec_handleRead h, .handleRead ha⟩
  | runNext =>
      obtain ⟨now, expired, e, todo, hpt⟩ := ha
      have he : e ∈ expired := (htodo now expired _ hpt).subset List.mem_cons_self
      obtain ⟨t, ht, hexec⟩ := exec_runNext h hpt he
      exact ⟨_, hexec, .runNext hpt he ht⟩
  | endCalls =>
      obtain ⟨now, expired, hpt⟩ := ha
      exact ⟨_, exec_endCalls hpt, .endCalls hpt⟩
  | resetNext =>
      obtain ⟨now, e, rest, hpt⟩ := ha
      obtain ⟨t, ht, hexec⟩ := exec_resetNext h hpt
      exact ⟨_, hexec, .resetNext hpt ht⟩
  | resetDone =>
      obtain ⟨now, hpt⟩ := ha
      exact ⟨_, exec_resetDone h, .resetDone hpt⟩
  | expire => exact ⟨_, rfl, .expire⟩
  | tick now => exact ⟨_, rfl, .tick ha.1 ha.2⟩
  | createdElsewhere => exact ⟨_, rfl, .createdElsewhere⟩

/-! ## The history of each timer -/

/-- The timer an event concerns, if the event needs the timer to exist. -/
def uses : TimerEvent → Option Nat
  | .cancelled _ => none
  | .created k | .inserted k | .started k | .restarted k | .deleted k => some k

/-- Serial numbers tell timers apart, a timer that exists has not been deleted, and in `log` nothing that needs
    a timer to exist follows its deletion. -/
structure Logged (q : TimerQueue) : Prop where
  created : ∀ p t, q.heap p = some t → t.serial ≤ q.numCreated
  unique : ∀ p p' t t', q.heap p = some t → q.heap p' = some t' → t.serial = t'.serial → p = p'
  alive : ∀ p t, q.heap p = some t → TimerEvent.deleted t.serial ∉ q.log
  past : ∀ ev ∈ q.log, ev.serial ≤ q.numCreated
  order : q.log.Pairwise fun a b => ∀ k, a = .deleted k → uses b ≠ some k

/-- What `Logged` depends on. -/
def history (q : TimerQueue) : (Nat → Option Timer) × Nat × List TimerEvent := (q.heap, q.numCreated, q.log)

theorem Logged.congr (h : Logged q) (heq : q'.history = q.history) : Logged q' := by
  obtain ⟨hh, hn, hl⟩ : q'.heap = q.heap ∧ q'.numCreated = q.numCreated ∧ q'.log = q.log := by
    simpa [history] using heq
  refine ⟨?_, ?_, ?_, ?_, ?_⟩
  · rw [hh, hn]; exact h.created
  · rw [hh]; exact h.unique
  · rw [hh, hl]; exact h.alive
  · rw [hl, hn]; exact h.past
  · rw [hl]; exact h.order

/-- An event that leaves the heap alone. -/
theorem Logged.record (h : Logged q) {ev : TimerEvent} (hle : ev.serial ≤ q.numCreated)
    (hdel : ∀ k, ev ≠ .deleted k) (huse : ∀ k, uses ev = some k → TimerEvent.deleted k ∉ q.log) :
    Logged (q.record ev) where
  created := h.created
  unique := h.unique
  alive := by
    intro p t ht hmem
    rcases List.mem_append.mp hmem with hmem | hmem
    · exact h.alive p t ht hmem
    · exact hdel t.serial (List.mem_singleton.mp hmem).symm
  past := by
    intro ev' hev'
    rcases List.mem_append.mp hev' with hev' | hev'
    · exact h.past ev' hev'
    · obtain rfl : ev' = ev := by simpa using hev'
      exact hle
  order := by
    refine List.pairwise_append.mpr ⟨h.order, List.pairwise_singleton _ _, ?_⟩
    rintro a ha b hb k rfl
    obtain rfl : b = ev := by simpa using hb
    exact fun hk => huse k hk ha

/-- An event about a timer that exists. -/
theorem Logged.recordLive (h : Logged q) (hp : q.heap p = some t) (ev : TimerEvent)
    (hserial : ev.serial = t.serial) (hdel : ∀ k, ev ≠ .deleted k) : Logged (q.record ev) := by
  refine h.record (hserial ▸ h.created p t hp) hdel ?_
  intro k hk
  have hk' : k = t.serial := by
    rw [← hserial]
    cases ev <;> simp_all [uses, TimerEvent.serial]
  rw [hk']
  exact h.alive p t hp

/-- A timer changes its state but not its identity. -/
theorem Logged.store (h : Logged q) (hp : q.heap p = some t) {t' : Timer} (hs : t'.serial = t.serial) :
    Logged (q.store p (some t')) := by
  have hserial : ∀ p₁ t₁, (q.store p (some t')).heap p₁ = some t₁ →
      ∃ t₂, q.heap p₁ = some t₂ ∧ t₂.serial = t₁.serial := by
    intro p₁ t₁ ht₁
    rcases heap_of_update_some ht₁ with ⟨rfl, rfl⟩ | ⟨-, ht₁⟩
    · exact ⟨t, hp, hs.symm⟩
    · exact ⟨t₁, ht₁, rfl⟩
  refine ⟨?_, ?_, ?_, h.past, h.order⟩
  · intro p₁ t₁ ht₁
    obtain ⟨t₂, ht₂, heq⟩ := hserial p₁ t₁ ht₁
    exact heq ▸ h.created p₁ t₂ ht₂
  · intro p₁ p₂ t₁ t₂ ht₁ ht₂ heq
    obtain ⟨t₃, ht₃, h₃⟩ := hserial p₁ t₁ ht₁
    obtain ⟨t₄, ht₄, h₄⟩ := hserial p₂ t₂ ht₂
    exact h.unique p₁ p₂ t₃ t₄ ht₃ ht₄ (h₃.trans (heq.trans h₄.symm))
  · intro p₁ t₁ ht₁
    obtain ⟨t₂, ht₂, heq⟩ := hserial p₁ t₁ ht₁
    exact heq ▸ h.alive p₁ t₂ ht₂

/-- A timer is deleted, and was not before. -/
theorem Logged.deleted (h : Logged q) (hp : q.heap p = some t) :
    Logged ((q.store p none).record (.deleted t.serial)) := by
  have hlive : ∀ p₁ t₁, (q.store p none).heap p₁ = some t₁ → p₁ ≠ p ∧ q.heap p₁ = some t₁ :=
    fun p₁ t₁ ht₁ => heap_of_update_none ht₁
  refine ⟨fun p₁ t₁ ht₁ => h.created p₁ t₁ (hlive p₁ t₁ ht₁).2, ?_, ?_, ?_, ?_⟩
  · intro p₁ p₂ t₁ t₂ ht₁ ht₂
    exact h.unique p₁ p₂ t₁ t₂ (hlive p₁ t₁ ht₁).2 (hlive p₂ t₂ ht₂).2
  · intro p₁ t₁ ht₁ hmem
    obtain ⟨hne, ht₁⟩ := hlive p₁ t₁ ht₁
    rcases List.mem_append.mp hmem with hmem | hmem
    · exact h.alive p₁ t₁ ht₁ hmem
    · -- no other timer has this serial number
      exact hne (h.unique p₁ p t₁ t ht₁ hp (by simpa using hmem))
  · intro ev hev
    rcases List.mem_append.mp hev with hev | hev
    · exact h.past ev hev
    · obtain rfl : ev = .deleted t.serial := by simpa using hev
      exact h.created p t hp
  · refine List.pairwise_append.mpr ⟨h.order, List.pairwise_singleton _ _, ?_⟩
    rintro a ha b hb k rfl
    obtain rfl : b = .deleted t.serial := by simpa using hb
    intro hk
    obtain rfl : t.serial = k := by simpa [uses] using hk
    exact h.alive p t hp ha

theorem Logged.newTimer (h : Logged q) (when : Timestamp) (i : Option Interval) :
    Logged (q.newTimer p when i) := by
  have hheap : ∀ p₁ t₁, (q.newTimer p when i).heap p₁ = some t₁ →
      (p₁ = p ∧ t₁.serial = q.numCreated + 1) ∨ (q.heap p₁ = some t₁ ∧ t₁.serial ≤ q.numCreated) := by
    intro p₁ t₁ ht₁
    rcases newTimer_heap ht₁ with ⟨hp₁, rfl⟩ | ⟨-, ht₁⟩
    · exact Or.inl ⟨hp₁, rfl⟩
    · exact Or.inr ⟨ht₁, h.created p₁ t₁ ht₁⟩
  -- the serial number is new, so no event in the log is about this timer
  have hfresh : ∀ ev ∈ q.log, ev.serial ≠ q.numCreated + 1 := by
    intro ev hev heq
    have := h.past ev hev
    omega
  refine ⟨?_, ?_, ?_, ?_, ?_⟩
  · intro p₁ t₁ ht₁
    show t₁.serial ≤ q.numCreated + 1
    rcases hheap p₁ t₁ ht₁ with ⟨-, hs⟩ | ⟨-, hs⟩ <;> omega
  · intro p₁ p₂ t₁ t₂ ht₁ ht₂ heq
    rcases hheap p₁ t₁ ht₁ with ⟨rfl, hs₁⟩ | ⟨ht₁, hs₁⟩ <;> rcases hheap p₂ t₂ ht₂ with ⟨rfl, hs₂⟩ | ⟨ht₂, hs₂⟩
    · rfl
    · omega
    · omega
    · exact h.unique p₁ p₂ t₁ t₂ ht₁ ht₂ heq
  · intro p₁ t₁ ht₁ hmem
    rcases List.mem_append.mp hmem with hmem | hmem
    · rcases hheap p₁ t₁ ht₁ with ⟨-, hs⟩ | ⟨ht₁, -⟩
      · exact hfresh _ hmem hs
      · exact h.alive p₁ t₁ ht₁ hmem
    · exact absurd hmem (by simp)
  · intro ev hev
    show ev.serial ≤ q.numCreated + 1
    rcases List.mem_append.mp hev with hev | hev
    · exact Nat.le_succ_of_le (h.past ev hev)
    · obtain rfl : ev = .created (q.numCreated + 1) := by simpa using hev
      exact Nat.le_refl _
  · refine List.pairwise_append.mpr ⟨h.order, List.pairwise_singleton _ _, ?_⟩
    rintro a ha b hb k rfl
    obtain rfl : b = .created (q.numCreated + 1) := by simpa using hb
    intro hk
    obtain rfl : q.numCreated + 1 = k := by simpa [uses] using hk
    exact hfresh _ ha rfl

/-! ## Every run -/

/-- What holds between any two steps. -/
structure Inv (q : TimerQueue) : Prop where
  owned : Owned q q.outside
  logged : Logged q
  /-- Callbacks are called in the order of the batch. -/
  todo : ∀ now expired todo, q.point = .calling now expired todo → todo <:+ expired
  flag : q.callingExpiredTimers = true ↔ ∃ now expired todo, q.point = .calling now expired todo

/-- What `Owned` depends on. -/
def sets (q : TimerQueue) : (Nat → Option Timer) × Finset Entry × Finset ActiveTimer :=
  (q.heap, q.timers, q.activeTimers)

theorem Owned.congr {L : List Nat} (h : Owned q L) (heq : q'.sets = q.sets) : Owned q' L := by
  obtain ⟨hh, ht, ha⟩ : q'.heap = q.heap ∧ q'.timers = q.timers ∧ q'.activeTimers = q.activeTimers := by
    simpa [sets] using heq
  refine ⟨⟨?_, ?_⟩, h.nodup, ?_, ?_, ?_⟩
  · rw [hh, ht, ha]; exact h.inStep.entries
  · rw [hh, ht, ha]; exact h.inStep.active
  · rw [hh, ht]; exact h.outside
  · rw [hh, ht]; exact h.located
  · rw [hh]; exact h.address

/-- A change that concerns neither the timers nor the batch. -/
theorem Inv.congr (h : q.Inv) (hsets : q'.sets = q.sets) (hhist : q'.history = q.history)
    (hq : q'.queued = q.queued) (hp : q'.point = q.point)
    (hc : q'.callingExpiredTimers = q.callingExpiredTimers) : q'.Inv := by
  have hout : q'.outside = q.outside := by
    unfold outside batch
    rw [hq, hp]
  refine ⟨?_, h.logged.congr hhist, ?_, ?_⟩
  · rw [hout]
    exact h.owned.congr hsets
  · rw [hp]
    exact h.todo
  · rw [hc, hp]
    exact h.flag

/-- `reset` starts after the flag was cleared. -/
theorem Inv.not_calling (h : q.Inv) {now : Timestamp} {rest : List Entry} (hpt : q.point = .resetting now rest) :
    q.callingExpiredTimers = false := by
  rw [← Bool.not_eq_true, h.flag, hpt]
  simp

theorem Inv.record (h : q.Inv) {ev : TimerEvent} (hlog : Logged (q.record ev)) : (q.record ev).Inv :=
  ⟨h.owned.congr rfl, hlog, h.todo, h.flag⟩

theorem Logged.added (h : Logged q) (hp : q.heap p = some t) : Logged (q.added p t) :=
  (h.recordLive hp (.inserted t.serial) rfl (by simp)).congr rfl

/-- `addTimerInLoop` on a timer that was outside the sets. -/
theorem Inv.addTimerInLoop {L : List Nat} (hq : q.outside = L) (howned : Owned q (p :: L)) (hlog : Logged q)
    (htodo : ∀ now expired todo, q.point = .calling now expired todo → todo <:+ expired)
    (hflag : q.callingExpiredTimers = true ↔ ∃ now expired todo, q.point = .calling now expired todo)
    (hp : q.heap p = some t) : (q.addedAndArmed p t).Inv := by
  refine ⟨?_, (hlog.added hp).congr rfl, htodo, hflag⟩
  have hout : (q.addedAndArmed p t).outside = L := hq
  rw [hout]
  exact (howned.added hp).congr rfl

theorem Inv.cancel (h : q.Inv) (id : ActiveTimer) : ((q.cancelled id).noteCancel id q).Inv := by
  have hcancelled : (q.cancelled id).Inv := by
    unfold cancelled
    split
    · next hid =>
        obtain ⟨t, ht, -, -⟩ := h.owned.inStep.active id hid
        rw [ht]
        exact ⟨h.owned.removed hid ht, (h.logged.deleted ht).congr rfl, h.todo, h.flag⟩
    · split
      · exact h.congr rfl rfl rfl rfl rfl
      · exact h
  have hnum : (q.cancelled id).numCreated = q.numCreated := by
    unfold cancelled
    split
    · split <;> rfl
    · split <;> rfl
  unfold noteCancel
  split
  · next t ht =>
      split
      · refine hcancelled.record (hcancelled.logged.record ?_ (by simp) (by simp [uses]))
        rw [hnum]
        exact h.logged.created _ t ht
      · exact hcancelled
  · exact hcancelled

theorem Inv.handleRead (h : q.Inv) (hp : q.point = .idle) : (q.calling q.clock).Inv := by
  refine ⟨?_, h.logged.congr rfl, ?_, by simp [calling]⟩
  · have htaken := h.owned.taken q.clock
    rw [outside_of_idle hp] at htaken
    exact htaken.congr rfl
  · intro now expired todo hpt
    obtain ⟨-, rfl, rfl⟩ : _ ∧ _ = expired ∧ _ = todo := by simpa [calling] using hpt
    exact List.suffix_refl _

theorem restart_serial (t : Timer) (now : Timestamp) : (t.restart now).serial = t.serial := by
  unfold Timer.restart
  split <;> rfl

theorem Inv.resetNext (h : q.Inv) {now : Timestamp} {rest : List Entry} {e : Entry}
    (hpt : q.point = .resetting now (e :: rest)) (ht : q.heap e.timer = some t) :
    (q.resetStep now e t rest).Inv := by
  have hperm : q.outside.Perm (e.timer :: (q.queued ++ rest.map Entry.timer)) := by
    rw [outside_of_resetting hpt]
    exact List.perm_middle
  have hcons := h.owned.perm hperm
  have hflag := h.not_calling hpt
  have hserial := restart_serial t now
  unfold resetStep
  split
  · have hself := restarted_heap_self q e.timer t now
    have howned : Owned (q.restarted e.timer t now) (e.timer :: (q.queued ++ rest.map Entry.timer)) :=
      (hcons.restored (t.restart now)).congr rfl
    have hlog : Logged (q.restarted e.timer t now) :=
      (h.logged.store ht hserial).recordLive (store_heap_self _ _ _) _ hserial.symm (by simp)
    exact ⟨(howned.added hself).congr rfl, (hlog.added hself).congr rfl, by simp,
      by simp [TimerQueue.added, restarted, TimerQueue.record, TimerQueue.store, hflag]⟩
  · exact ⟨hcons.deleted.congr rfl, (h.logged.deleted ht).congr rfl, by simp,
      by simp [TimerQueue.record, TimerQueue.store, hflag]⟩

theorem Inv.exec (h : q.Inv) {a : TimerOp} (ha : q.enabled a) : ∃ q', q.exec a = .ok q' ∧ q'.Inv := by
  obtain ⟨q', hexec, hdoes⟩ := h.owned.does h.todo ha
  refine ⟨q', hexec, ?_⟩
  cases hdoes with
  | @addTimer p when i _ hp _ =>
      exact Inv.addTimerInLoop rfl (h.owned.newTimer hp when i) (h.logged.newTimer when i) h.todo h.flag
        (newTimer_heap_self q p when i)
  | @addTimerElsewhere p when i hp _ =>
      have hperm : (p :: q.outside).Perm (q.queued ++ [p] ++ q.batch.map Entry.timer) := by
        unfold outside
        rw [List.append_assoc]
        exact List.perm_middle.symm
      exact ⟨((h.owned.newTimer hp when i).perm hperm).congr rfl, (h.logged.newTimer when i).congr rfl, h.todo,
        h.flag⟩
  | @runFunctor p ps t _ hps ht =>
      -- the functor owned the timer, and the sets own it now
      have hout : q.outside = p :: outside { q with queued := ps } := by
        unfold outside
        rw [hps]
        rfl
      exact Inv.addTimerInLoop rfl (hout ▸ h.owned.congr rfl) (h.logged.congr rfl) h.todo h.flag ht
  | @cancel id _ => exact h.cancel id
  | handleRead hpt => exact h.handleRead hpt
  | @runNext now expired todo e t hpt he ht =>
      refine ⟨?_, (h.logged.recordLive ht _ rfl (by simp)).congr rfl, ?_, ?_⟩
      · exact (outside_of_calling hpt ▸ h.owned).congr rfl
      · intro now' expired' todo' hpt'
        obtain ⟨-, rfl, rfl⟩ : _ ∧ _ = expired' ∧ _ = todo' := by simpa using hpt'
        exact (List.suffix_cons e todo).trans (h.todo now expired _ hpt)
      · simpa [TimerQueue.record] using h.flag.mpr ⟨now, expired, _, hpt⟩
  | endCalls hpt =>
      exact ⟨(outside_of_calling hpt ▸ h.owned).congr rfl, h.logged.congr rfl, by simp, by simp⟩
  | resetNext hpt ht => exact h.resetNext hpt ht
  | resetDone hpt =>
      have howned := outside_of_resetting hpt ▸ h.owned
      have hflag := h.not_calling hpt
      unfold rearmed
      split
      · exact ⟨howned.congr rfl, h.logged.congr rfl, by simp, by simp [hflag]⟩
      · split
        · exact ⟨howned.congr rfl, h.logged.congr rfl, by simp, by simp [hflag]⟩
        · exact ⟨howned.congr rfl, h.logged.congr rfl, by simp, by simp [hflag]⟩
  | expire => exact h.congr rfl rfl rfl rfl rfl
  | tick _ _ => exact h.congr rfl rfl rfl rfl rfl
  | createdElsewhere =>
      refine ⟨h.owned.congr rfl, ⟨?_, h.logged.unique, h.logged.alive, ?_, h.logged.order⟩, h.todo, h.flag⟩
      · exact fun p t ht => Nat.le_succ_of_le (h.logged.created p t ht)
      · exact fun ev hev => Nat.le_succ_of_le (h.logged.past ev hev)

/-- A step that has returned. -/
theorem Inv.does (h : q.Inv) {a : TimerOp} (ha : q.enabled a) (hq' : q.exec a = .ok q') : Does q a q' := by
  obtain ⟨r, hexec, hdoes⟩ := h.owned.does h.todo ha
  obtain rfl : r = q' := by simpa using hexec.symm.trans hq'
  exact hdoes

theorem new_inv (now : Timestamp) (n : Nat) : (TimerQueue.new now n).Inv := by
  refine ⟨⟨⟨?_, ?_⟩, List.nodup_nil, ?_, ?_, ?_⟩, ⟨?_, ?_, ?_, ?_, List.Pairwise.nil⟩, ?_, ?_⟩ <;>
    simp [TimerQueue.new, outside, batch]

theorem reachable_inv (h : timerSystem.Reachable q) : q.Inv := by
  refine System.inv (S := timerSystem) ?_ ?_ h
  · rintro _ ⟨now, n, rfl, -⟩
    exact new_inv now n
  · intro q a hq ha
    obtain ⟨q', hexec, hinv⟩ := hq.exec ha
    show Safe (q.exec a) Inv
    rw [hexec]
    exact Safe.ok hinv

/-- A further invariant, of the runs whose steps meet `C`. -/
theorem inv_of_when {C : TimerQueue → TimerOp → Prop} {X : TimerQueue → Prop}
    (hnew : ∀ now n, 0 < now → now < 2 ^ 63 → X (TimerQueue.new now n))
    (hstep : ∀ q a q', q.Inv → X q → q.enabled a → C q a → q.exec a = .ok q' → X q')
    (h : (timerSystem.when C).Reachable q) : X q := by
  have hboth : q.Inv ∧ X q := by
    refine System.inv (S := timerSystem.when C) (I := fun q => q.Inv ∧ X q) ?_ ?_ h
    · rintro _ ⟨now, n, rfl, hpos, hlt⟩
      exact ⟨new_inv now n, hnew now n hpos hlt⟩
    · rintro q a ⟨hinv, hX⟩ ⟨ha, hC⟩
      obtain ⟨q', hexec, hinv'⟩ := hinv.exec ha
      show Safe (q.exec a) _
      rw [hexec]
      exact Safe.ok ⟨hinv', hstep q a q' hinv hX ha hC hexec⟩
  exact hboth.2

/-- **Every timer has one owner.** In every run, with callbacks that add and cancel any timers and with an
    allocator that may reuse addresses: the two sets hold the same timers under their current keys; every timer
    that exists is referred to exactly once, by a queued functor, by the sets or by the expired batch, and no
    other address is; nothing is deleted twice, and nothing deleted is run, restarted or inserted; and every
    step returns, so no assertion fails and no pointer dangles. -/
theorem timers_have_one_owner (h : timerSystem.Reachable q) :
    q.timers.image Entry.timer = q.activeTimers.image ActiveTimer.timer ∧
    (∀ e ∈ q.timers, ∃ t, q.heap e.timer = some t ∧ t.expiration = e.when) ∧
    (∀ a ∈ q.activeTimers, ∃ t, q.heap a.timer = some t ∧ t.sequence = a.sequence) ∧
    (∀ p, q.queued.count p + (q.batch.map Entry.timer).count p + (q.timers.filter (·.timer = p)).card
      = if (q.heap p).isSome then 1 else 0) ∧
    (q.log.Pairwise fun a b => ∀ k, a = .deleted k →
      b ≠ .deleted k ∧ b ≠ .started k ∧ b ≠ .restarted k ∧ b ≠ .inserted k) ∧
    ∀ a, timerSystem.enabled q a → ∃ q', timerSystem.exec q a = .ok q' := by
  have hinv := reachable_inv h
  refine ⟨hinv.owned.inStep.image_eq, ?_, ?_, ?_, ?_, ?_⟩
  · intro e he
    obtain ⟨t, ht, hw, -⟩ := hinv.owned.inStep.entries e he
    exact ⟨t, ht, hw⟩
  · intro a ha
    obtain ⟨t, ht, hs, -⟩ := hinv.owned.inStep.active a ha
    exact ⟨t, ht, hs⟩
  · intro p
    rw [← hinv.owned.places_eq p]
    unfold places outside
    rw [List.count_append]
  · refine hinv.logged.order.imp ?_
    intro a b hab k hk
    have huse := hab k hk
    refine ⟨?_, ?_, ?_, ?_⟩ <;> rintro rfl <;> exact huse rfl
  · intro a ha
    obtain ⟨q', hexec, -⟩ := hinv.exec ha
    exact ⟨q', hexec⟩

/-- A timer for 500 has been added at time 1000. -/
def lateTimer : TimerQueue := ((new 1000 0).newTimer 16 500 none).addedAndArmed 16 ⟨500, none, 1⟩

/-- And a timer for 600. -/
def lateTimers : TimerQueue := (lateTimer.newTimer 32 600 none).addedAndArmed 32 ⟨600, none, 2⟩

theorem free_sixteen : (new 1000 0).free 16 := ⟨rfl, by decide, by decide⟩

theorem exec_lateTimer : (new 1000 0).exec (.addTimer 16 500 none) = .ok lateTimer :=
  exec_addTimer (new_inv 1000 0).owned free_sixteen

theorem new_reachable : timerSystem.Reachable (new 1000 0) := .init ⟨1000, 0, rfl, by decide, by decide⟩

theorem lateTimer_reachable : timerSystem.Reachable lateTimer :=
  new_reachable.next (.addTimer 16 500 none) ⟨trivial, free_sixteen, by decide, by decide⟩ exec_lateTimer

theorem lateTimer_expiredAt : lateTimer.expiredAt 1000 = [⟨500, 16⟩] := by
  have hset : lateTimer.timers.filter (· < (⟨1000, UINTPTR_MAX⟩ : Entry)) = {⟨500, 16⟩} := by decide
  show Finset.sort (lateTimer.timers.filter (· < (⟨1000, UINTPTR_MAX⟩ : Entry))) _ = _
  rw [hset, Finset.sort_singleton]

theorem free_thirtyTwo : lateTimer.free 32 := ⟨rfl, by decide, by decide⟩

theorem lateTimers_reachable : timerSystem.Reachable lateTimers :=
  lateTimer_reachable.next (.addTimer 32 600 none) ⟨trivial, free_thirtyTwo, by decide, by decide⟩
    (exec_addTimer (reachable_inv lateTimer_reachable).owned free_thirtyTwo)

theorem lateTimers_expiredAt : lateTimers.expiredAt 1000 = [⟨500, 16⟩, ⟨600, 32⟩] := by
  have hle : (⟨500, 16⟩ : Entry) ≤ ⟨600, 32⟩ := by decide
  have hset : lateTimers.timers.filter (· < (⟨1000, UINTPTR_MAX⟩ : Entry)) = {⟨500, 16⟩, ⟨600, 32⟩} := by
    decide
  show Finset.sort (lateTimers.timers.filter (· < (⟨1000, UINTPTR_MAX⟩ : Entry))) _ = _
  rw [hset, Finset.sort_insert, Finset.sort_singleton]
  · simpa using hle
  · decide

/-- And another thread has created a timer, which is on its way. -/
def mixedTimers : TimerQueue := { lateTimers.newTimer 48 700 (some ⟨5, by decide⟩) with queued := [48] }

theorem mixedTimers_reachable : timerSystem.Reachable mixedTimers :=
  lateTimers_reachable.next (.addTimerElsewhere 48 700 (some ⟨5, by decide⟩))
    ⟨⟨rfl, by decide, by decide⟩, by decide, by decide⟩ rfl

/-- Two timers have expired and a third is on its way from another thread, when the callback of the first adds a
    fourth. -/
theorem timers_have_one_owner_batch : ∃ q : TimerQueue, q.queued = [48] ∧ q.batch = [⟨500, 16⟩, ⟨600, 32⟩] ∧
    ⟨2000, 64⟩ ∈ q.timers ∧ q.timers.image Entry.timer = q.activeTimers.image ActiveTimer.timer ∧
    (∀ p, q.queued.count p + (q.batch.map Entry.timer).count p + (q.timers.filter (·.timer = p)).card
      = if (q.heap p).isSome then 1 else 0) ∧
    ∃ q', timerSystem.exec q .runNext = .ok q' := by
  have hread := mixedTimers_reachable.next .handleRead rfl (exec_handleRead (reachable_inv mixedTimers_reachable).owned)
  have hpoint : (mixedTimers.calling mixedTimers.clock).point
      = .calling 1000 [⟨500, 16⟩, ⟨600, 32⟩] [⟨500, 16⟩, ⟨600, 32⟩] := by
    show TimerPoint.calling 1000 (lateTimers.expiredAt 1000) (lateTimers.expiredAt 1000) = _
    rw [lateTimers_expiredAt]
  obtain ⟨t, -, hexec⟩ := exec_runNext (reachable_inv hread).owned hpoint List.mem_cons_self
  have hrun := hread.next .runNext ⟨_, _, _, _, hpoint⟩ hexec
  have hadded := hrun.next (.addTimer 64 2000 none)
    ⟨Nat.lt_succ_self 1, ⟨rfl, by decide, by decide⟩, by decide, by decide⟩
    (exec_addTimer (reachable_inv hrun).owned ⟨rfl, by decide, by decide⟩)
  obtain ⟨himage, -, -, hcount, -, hreturns⟩ := timers_have_one_owner hadded
  exact ⟨_, rfl, rfl, Finset.mem_insert_self _ _, himage, hcount, hreturns .runNext ⟨_, _, _, _, rfl⟩⟩

end Muduo.Net.TimerQueue
