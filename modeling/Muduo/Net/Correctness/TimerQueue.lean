import Muduo.Net.TimerQueue

/-!
# `Correctness.TimerQueue` — what each operation does to the timers and their owner

`timers_` and `activeTimers_` index the same timers by different keys; `InStep` says so. Every other timer that
exists is outside of both, in a queued functor or in the expired batch; `Owned q L` says that the timers outside
are exactly those of the list `L`, each once. Every function of `TimerQueue.cc` is described by one lemma: it
returns, the state it leaves is written out, and `InStep` is kept. How the list `L` changes is then a matter
of the sets alone.
-/

namespace Muduo.Net.TimerQueue

open Lib OrderedSet

variable {q q' : TimerQueue} {p : Nat} {t : Timer}

/-! ## The two indexes -/

/-- `timers_` and `activeTimers_` hold the same timers, under their current keys. -/
structure InStep (q : TimerQueue) : Prop where
  entries : ∀ e ∈ q.timers, ∃ t, q.heap e.timer = some t ∧ t.expiration = e.when ∧
    (⟨e.timer, t.sequence⟩ : ActiveTimer) ∈ q.activeTimers
  active : ∀ a ∈ q.activeTimers, ∃ t, q.heap a.timer = some t ∧ t.sequence = a.sequence ∧
    (⟨t.expiration, a.timer⟩ : Entry) ∈ q.timers

theorem InStep.entry_eq (h : InStep q) {e e' : Entry} (he : e ∈ q.timers) (he' : e' ∈ q.timers)
    (heq : e.timer = e'.timer) : e = e' := by
  obtain ⟨t, ht, hw, -⟩ := h.entries e he
  obtain ⟨t', ht', hw', -⟩ := h.entries e' he'
  rw [heq, ht'] at ht
  obtain rfl : t' = t := by simpa using ht
  cases e
  cases e'
  simp_all

theorem InStep.active_eq (h : InStep q) {a a' : ActiveTimer} (ha : a ∈ q.activeTimers)
    (ha' : a' ∈ q.activeTimers) (heq : a.timer = a'.timer) : a = a' := by
  obtain ⟨t, ht, hs, -⟩ := h.active a ha
  obtain ⟨t', ht', hs', -⟩ := h.active a' ha'
  rw [heq, ht'] at ht
  obtain rfl : t' = t := by simpa using ht
  cases a
  cases a'
  simp_all

/-- The two sets hold the same timers. -/
theorem InStep.image_eq (h : InStep q) :
    q.timers.image Entry.timer = q.activeTimers.image ActiveTimer.timer := by
  ext p
  simp only [Finset.mem_image]
  constructor
  · rintro ⟨e, he, rfl⟩
    obtain ⟨t, -, -, ha⟩ := h.entries e he
    exact ⟨_, ha, rfl⟩
  · rintro ⟨a, ha, rfl⟩
    obtain ⟨t, -, -, he⟩ := h.active a ha
    exact ⟨_, he, rfl⟩

theorem InStep.card_eq (h : InStep q) : q.timers.card = q.activeTimers.card := by
  have hentries : (q.timers.image Entry.timer).card = q.timers.card :=
    Finset.card_image_of_injOn fun e he e' he' heq => h.entry_eq he he' heq
  have hactive : (q.activeTimers.image ActiveTimer.timer).card = q.activeTimers.card :=
    Finset.card_image_of_injOn fun a ha a' ha' heq => h.active_eq ha ha' heq
  rw [← hentries, ← hactive, h.image_eq]

theorem InStep.assertSizes (h : InStep q) : q.assertSizes = .ok () := assert_pos h.card_eq

theorem deref_eq (hp : q.heap p = some t) : q.deref p = .ok t := by
  unfold deref
  rw [hp]

/-! ## One address of the heap -/

@[simp] theorem store_heap_self (q : TimerQueue) (p : Nat) (t : Option Timer) : (q.store p t).heap p = t :=
  Function.update_self _ _ _

theorem store_heap_of_ne (t : Option Timer) {p' : Nat} (hne : p' ≠ p) : (q.store p t).heap p' = q.heap p' :=
  Function.update_of_ne hne _ _

/-- What is in the heap once `t` is at `p`. -/
theorem heap_of_update_some {p' : Nat} {t' : Timer} (h : Function.update q.heap p (some t) p' = some t') :
    (p' = p ∧ t' = t) ∨ (p' ≠ p ∧ q.heap p' = some t') := by
  by_cases hne : p' = p
  · rw [hne, Function.update_self] at h
    exact Or.inl ⟨hne, by simpa using h.symm⟩
  · rw [Function.update_of_ne hne] at h
    exact Or.inr ⟨hne, h⟩

/-- What is left in the heap once `p` is deleted. -/
theorem heap_of_update_none {p' : Nat} {t' : Timer} (h : Function.update q.heap p none p' = some t') :
    p' ≠ p ∧ q.heap p' = some t' := by
  by_cases hne : p' = p
  · rw [hne, Function.update_self] at h
    exact absurd h (by simp)
  · rw [Function.update_of_ne hne] at h
    exact ⟨hne, h⟩

/-- The heap may change at an address that neither set refers to. -/
theorem InStep.store (h : InStep q) (hfree : ∀ e ∈ q.timers, e.timer ≠ p) (t : Option Timer) :
    InStep (q.store p t) := by
  refine ⟨?_, ?_⟩
  · intro e he
    rw [store_heap_of_ne t (hfree e he)]
    exact h.entries e he
  · intro a ha
    obtain ⟨t', ht', hs, he⟩ := h.active a ha
    rw [store_heap_of_ne t (hfree _ he)]
    exact ⟨t', ht', hs, he⟩

/-! ## `insert` -/

/-- `q` after `insert(p)`, where `p` points to `t`. -/
def added (q : TimerQueue) (p : Nat) (t : Timer) : TimerQueue :=
  { q with
    timers := Insert.insert ⟨t.expiration, p⟩ q.timers
    activeTimers := Insert.insert ⟨p, t.sequence⟩ q.activeTimers
    log := q.log ++ [.inserted t.serial] }

theorem InStep.added (h : InStep q) (hp : q.heap p = some t) : InStep (q.added p t) := by
  refine ⟨?_, ?_⟩
  · intro e he
    rcases Finset.mem_insert.mp he with rfl | he
    · exact ⟨t, hp, rfl, Finset.mem_insert_self _ _⟩
    · obtain ⟨t', ht', hw, ha⟩ := h.entries e he
      exact ⟨t', ht', hw, Finset.mem_insert_of_mem ha⟩
  · intro a ha
    rcases Finset.mem_insert.mp ha with rfl | ha
    · exact ⟨t, hp, by simp only, Finset.mem_insert_self _ _⟩
    · obtain ⟨t', ht', hs, he⟩ := h.active a ha
      exact ⟨t', ht', hs, Finset.mem_insert_of_mem he⟩

/-- **`insert` adds the timer to both sets**; none of its five assertions fails. -/
theorem insert_spec (h : InStep q) (hp : q.heap p = some t) (hfree : ∀ e ∈ q.timers, e.timer ≠ p) :
    q.insert p = .ok (q.earliestChanged t.expiration, q.added p t) := by
  have hentry : (⟨t.expiration, p⟩ : Entry) ∉ q.timers := fun he => hfree _ he rfl
  have hactive : (⟨p, t.sequence⟩ : ActiveTimer) ∉ q.activeTimers := by
    intro ha
    obtain ⟨t', -, -, he⟩ := h.active _ ha
    exact hfree _ he rfl
  have hsizes := (h.added hp).assertSizes
  unfold insert
  rw [h.assertSizes, ok_bind, deref_eq hp, ok_bind]
  dsimp only
  rw [assert_pos hentry, ok_bind, assert_pos hactive, ok_bind]
  unfold TimerQueue.assertSizes at hsizes ⊢
  unfold TimerQueue.added at hsizes
  rw [hsizes, ok_bind]
  rfl

/-- The first entry is the one that expires first. -/
theorem first_when_le {e₀ e : Entry} (hf : first q.timers = some e₀) (he : e ∈ q.timers) : e₀.when ≤ e.when := by
  have hle : e₀.key ≤ e.key := first_le hf he
  rcases Prod.Lex.le_iff.mp hle with hlt | ⟨heq, -⟩
  · exact le_of_lt hlt
  · exact le_of_eq heq

/-- The new timer is the earliest exactly when it expires before all others. -/
theorem earliestChanged_iff {when : Timestamp} :
    q.earliestChanged when = true ↔ ∀ e ∈ q.timers, when < e.when := by
  unfold earliestChanged
  cases hf : first q.timers with
  | none =>
      rw [first_eq_none] at hf
      simp [hf]
  | some e₀ =>
      simp only [decide_eq_true_eq]
      exact ⟨fun hlt e he => lt_of_lt_of_le hlt (first_when_le hf he), fun hall => hall e₀ (mem_of_first hf)⟩

/-! ## `cancelInLoop` -/

/-- `q` after `cancelInLoop` has deleted the timer `t` at `id.timer`. -/
def removed (q : TimerQueue) (id : ActiveTimer) (t : Timer) : TimerQueue :=
  { q with
    heap := Function.update q.heap id.timer none
    timers := q.timers.erase ⟨t.expiration, id.timer⟩
    activeTimers := q.activeTimers.erase id
    log := q.log ++ [.deleted t.serial] }

theorem InStep.removed (h : InStep q) {id : ActiveTimer} (hid : id ∈ q.activeTimers)
    (hp : q.heap id.timer = some t) : InStep (q.removed id t) := by
  obtain ⟨t', ht', hs, hentry⟩ := h.active id hid
  obtain rfl : t' = t := by simpa using ht'.symm.trans hp
  have hsame : ∀ p ≠ id.timer, (q.removed id t').heap p = q.heap p :=
    fun p hne => Function.update_of_ne hne _ _
  refine ⟨?_, ?_⟩
  · intro e he
    obtain ⟨hne, he⟩ := Finset.mem_erase.mp he
    have htimer : e.timer ≠ id.timer := fun heq => hne (h.entry_eq he hentry heq)
    obtain ⟨t₁, ht₁, hw, ha⟩ := h.entries e he
    rw [hsame _ htimer]
    refine ⟨t₁, ht₁, hw, Finset.mem_erase.mpr ⟨fun heq => htimer ?_, ha⟩⟩
    rw [← heq]
  · intro a ha
    obtain ⟨hne, ha⟩ := Finset.mem_erase.mp ha
    have htimer : a.timer ≠ id.timer := fun heq => hne (h.active_eq ha hid heq)
    obtain ⟨t₁, ht₁, hs₁, he⟩ := h.active a ha
    rw [hsame _ htimer]
    refine ⟨t₁, ht₁, hs₁, Finset.mem_erase.mpr ⟨fun heq => htimer ?_, he⟩⟩
    injection heq

/-- **Cancelling a timer that is in the sets removes and deletes it.** -/
theorem cancelInLoop_active (h : InStep q) {id : ActiveTimer} (hid : id ∈ q.activeTimers) :
    ∃ t, q.heap id.timer = some t ∧ t.sequence = id.sequence ∧ ⟨t.expiration, id.timer⟩ ∈ q.timers ∧
      q.cancelInLoop id = .ok (q.removed id t) := by
  obtain ⟨t, ht, hs, he⟩ := h.active id hid
  refine ⟨t, ht, hs, he, ?_⟩
  have hsizes := (h.removed hid ht).assertSizes
  have hdel : TimerQueue.delete { q with timers := q.timers.erase ⟨t.expiration, id.timer⟩ } id.timer
      = .ok { q.removed id t with activeTimers := q.activeTimers } := by
    unfold TimerQueue.delete
    rw [deref_eq (q := { q with timers := q.timers.erase ⟨t.expiration, id.timer⟩ }) ht, ok_bind]
    rfl
  unfold cancelInLoop
  rw [h.assertSizes, ok_bind, if_pos hid, deref_eq ht, ok_bind, assert_pos he, ok_bind]
  dsimp only
  rw [hdel, ok_bind, ok_bind]
  show TimerQueue.assertSizes (q.removed id t) >>= _ = _
  rw [hsizes, ok_bind]
  rfl

/-- Cancelling a timer that is not in the sets: it is noted while callbacks run, and ignored otherwise. -/
theorem cancelInLoop_inactive (h : InStep q) {id : ActiveTimer} (hid : id ∉ q.activeTimers) :
    q.cancelInLoop id = .ok (if q.callingExpiredTimers then
      { q with cancelingTimers := Insert.insert id q.cancelingTimers } else q) := by
  unfold cancelInLoop
  rw [h.assertSizes, ok_bind, if_neg hid]
  split
  · rw [ok_bind]
    show TimerQueue.assertSizes q >>= _ = _
    rw [h.assertSizes, ok_bind]
  · rw [ok_bind, h.assertSizes, ok_bind]

/-! ## `getExpired` -/

/-- The sentry separates the entries that have expired at `now` from the others. -/
theorem lt_sentry_iff {e : Entry} {now : Timestamp} (he : e.timer < UINTPTR_MAX) :
    e < ⟨now, UINTPTR_MAX⟩ ↔ e.when ≤ now := by
  -- pairs are compared lexicographically, and no timer is at the address of the sentry
  show e.key < Entry.key ⟨now, UINTPTR_MAX⟩ ↔ _
  rw [Prod.Lex.lt_iff]
  show e.when < now ∨ e.when = now ∧ e.timer < UINTPTR_MAX ↔ e.when ≤ now
  rw [le_iff_lt_or_eq]
  simp [he]

/-- The timers of these entries leave `activeTimers_`. -/
theorem eraseActive_spec {es : List Entry} (hactive : ∀ a ∈ q.activeTimers, ∃ t, q.heap a.timer = some t ∧
      t.sequence = a.sequence) (hnodup : (es.map Entry.timer).Nodup)
    (hes : ∀ e ∈ es, ∃ t, q.heap e.timer = some t ∧ (⟨e.timer, t.sequence⟩ : ActiveTimer) ∈ q.activeTimers) :
    q.eraseActive es = .ok { q with
      activeTimers := q.activeTimers.filter (fun a => a.timer ∉ es.map Entry.timer) } := by
  induction es generalizing q with
  | nil => simp [eraseActive]
  | cons e es ih =>
      obtain ⟨t, ht, ha⟩ := hes e List.mem_cons_self
      obtain ⟨hnotin, hnodup⟩ := List.nodup_cons.mp hnodup
      -- a timer has one active entry, so erasing that one erases everything at its address
      have herase : q.activeTimers.erase ⟨e.timer, t.sequence⟩
          = q.activeTimers.filter (fun a => a.timer ≠ e.timer) := by
        ext a
        simp only [Finset.mem_erase, Finset.mem_filter]
        rw [and_comm]
        refine and_congr_right fun hmem => not_congr ⟨fun heq => by rw [heq], ?_⟩
        intro heq
        obtain ⟨t', ht', hs⟩ := hactive a hmem
        rw [heq, ht] at ht'
        obtain rfl : t = t' := by simpa using ht'
        cases a
        simp_all
      unfold eraseActive
      rw [deref_eq ht, ok_bind, assert_pos ha, ok_bind]
      rw [herase, ih (q := { q with activeTimers := q.activeTimers.filter (fun a => a.timer ≠ e.timer) })
        ?_ hnodup ?_]
      · congr 2
        rw [Finset.filter_filter]
        simp
      · intro a ha'
        exact hactive a (Finset.mem_filter.mp ha').1
      · intro e' he'
        obtain ⟨t', ht', ha'⟩ := hes e' (List.mem_cons_of_mem _ he')
        refine ⟨t', ht', Finset.mem_filter.mpr ⟨ha', fun heq => hnotin ?_⟩⟩
        have heq' : e'.timer = e.timer := heq
        rw [← heq']
        exact List.mem_map_of_mem he'

/-- The entries that have expired at `now`, in order. -/
def expiredAt (q : TimerQueue) (now : Timestamp) : List Entry := below q.timers ⟨now, UINTPTR_MAX⟩

/-- `q` after `getExpired(now)`. -/
def taken (q : TimerQueue) (now : Timestamp) : TimerQueue :=
  { q with
    timers := removeBelow q.timers ⟨now, UINTPTR_MAX⟩
    activeTimers := q.activeTimers.filter (fun a => a.timer ∉ (q.expiredAt now).map Entry.timer) }

theorem InStep.nodup_expiredAt (h : InStep q) (now : Timestamp) :
    ((q.expiredAt now).map Entry.timer).Nodup := by
  refine (List.nodup_map_iff_inj_on nodup_below).mpr ?_
  intro e he e' he' heq
  exact h.entry_eq (mem_below.mp he).1 (mem_below.mp he').1 heq

theorem InStep.taken (h : InStep q) (now : Timestamp) : InStep (q.taken now) := by
  refine ⟨?_, ?_⟩
  · intro e he
    obtain ⟨he, hle⟩ := mem_removeBelow.mp he
    obtain ⟨t, ht, hw, ha⟩ := h.entries e he
    refine ⟨t, ht, hw, Finset.mem_filter.mpr ⟨ha, ?_⟩⟩
    intro hmem
    obtain ⟨e', he', heq⟩ := List.mem_map.mp hmem
    obtain ⟨he'', hlt⟩ := mem_below.mp he'
    have heq' : e' = e := h.entry_eq he'' he heq
    rw [heq'] at hlt
    exact absurd hlt (not_lt.mpr hle)
  · intro a ha
    obtain ⟨ha, hnot⟩ := Finset.mem_filter.mp ha
    obtain ⟨t, ht, hs, he⟩ := h.active a ha
    refine ⟨t, ht, hs, mem_removeBelow.mpr ⟨he, not_lt.mp fun hlt => hnot ?_⟩⟩
    exact List.mem_map.mpr ⟨_, mem_below.mpr ⟨he, hlt⟩, rfl⟩

/-- **`getExpired` moves the timers that have expired out of both sets**; none of its assertions fails. -/
theorem getExpired_spec (h : InStep q) (haddr : ∀ e ∈ q.timers, e.timer < UINTPTR_MAX) (now : Timestamp) :
    q.getExpired now = .ok (q.expiredAt now, q.taken now) := by
  have hend : ∀ e ∈ first (removeBelow q.timers ⟨now, UINTPTR_MAX⟩), now < e.when := by
    intro e he
    obtain ⟨hmem, hle⟩ := mem_removeBelow.mp (mem_of_first he)
    by_contra hnot
    exact absurd ((lt_sentry_iff (haddr e hmem)).mpr (not_lt.mp hnot)) (not_lt.mpr hle)
  have herase : TimerQueue.eraseActive { q with timers := removeBelow q.timers ⟨now, UINTPTR_MAX⟩ }
      (q.expiredAt now) = .ok (q.taken now) := by
    refine eraseActive_spec ?_ (h.nodup_expiredAt now) ?_
    · intro a ha
      obtain ⟨t, ht, hs, -⟩ := h.active a ha
      exact ⟨t, ht, hs⟩
    · intro e he
      obtain ⟨t, ht, -, ha⟩ := h.entries e (mem_below.mp he).1
      exact ⟨t, ht, ha⟩
  unfold getExpired
  rw [h.assertSizes, ok_bind]
  dsimp only
  rw [assert_pos hend, ok_bind]
  show TimerQueue.eraseActive { q with timers := removeBelow q.timers ⟨now, UINTPTR_MAX⟩ }
    (q.expiredAt now) >>= _ = _
  rw [herase, ok_bind, (h.taken now).assertSizes, ok_bind]
  rfl

/-! ## Ownership -/

/-- The timers that exist are those of the sets and those of `L`, and each is in one place. -/
structure Owned (q : TimerQueue) (L : List Nat) : Prop where
  inStep : InStep q
  nodup : L.Nodup
  outside : ∀ p ∈ L, (∃ t, q.heap p = some t) ∧ ∀ e ∈ q.timers, e.timer ≠ p
  located : ∀ p t, q.heap p = some t → p ∈ L ∨ ∃ e ∈ q.timers, e.timer = p
  address : ∀ p t, q.heap p = some t → p < UINTPTR_MAX

variable {L L' : List Nat}

theorem Owned.perm (h : Owned q L) (hL : L.Perm L') : Owned q L' :=
  ⟨h.inStep, hL.nodup_iff.mp h.nodup, fun p hp => h.outside p (hL.mem_iff.mpr hp),
    fun p t ht => (h.located p t ht).imp_left hL.mem_iff.mp, h.address⟩

theorem Owned.not_mem (h : Owned q L) (hp : q.heap p = none) : p ∉ L ∧ ∀ e ∈ q.timers, e.timer ≠ p := by
  refine ⟨?_, ?_⟩
  · intro hmem
    obtain ⟨⟨t, ht⟩, -⟩ := h.outside p hmem
    rw [hp] at ht
    exact absurd ht (by simp)
  · intro e he heq
    obtain ⟨t, ht, -⟩ := h.inStep.entries e he
    rw [heq, hp] at ht
    exact absurd ht (by simp)

theorem newTimer_heap {when : Timestamp} {i : Option Interval} {p' : Nat} {t' : Timer}
    (h : (q.newTimer p when i).heap p' = some t') :
    (p' = p ∧ t' = ⟨when, i, q.numCreated + 1⟩) ∨ (p' ≠ p ∧ q.heap p' = some t') :=
  heap_of_update_some h

theorem newTimer_heap_self (q : TimerQueue) (p : Nat) (when : Timestamp) (i : Option Interval) :
    (q.newTimer p when i).heap p = some ⟨when, i, q.numCreated + 1⟩ := Function.update_self _ _ _

/-- A new timer starts outside the sets. -/
theorem Owned.newTimer (h : Owned q L) (hp : q.free p) (when : Timestamp) (i : Option Interval) :
    Owned (q.newTimer p when i) (p :: L) := by
  obtain ⟨hnotL, hfree⟩ := h.not_mem hp.1
  have hsame : ∀ p' ≠ p, (q.newTimer p when i).heap p' = q.heap p' :=
    fun p' hne => Function.update_of_ne hne _ _
  refine ⟨⟨(h.inStep.store hfree _).entries, (h.inStep.store hfree _).active⟩,
    List.nodup_cons.mpr ⟨hnotL, h.nodup⟩, ?_, ?_, ?_⟩
  · intro p' hp'
    rcases List.mem_cons.mp hp' with rfl | hp'
    · exact ⟨⟨_, newTimer_heap_self q p' when i⟩, hfree⟩
    · have hne : p' ≠ p := fun heq => hnotL (heq ▸ hp')
      rw [hsame p' hne]
      exact h.outside p' hp'
  · intro p' t' ht'
    rcases newTimer_heap ht' with ⟨rfl, -⟩ | ⟨-, ht'⟩
    · exact Or.inl List.mem_cons_self
    · exact (h.located p' t' ht').imp_left (List.mem_cons_of_mem _)
  · intro p' t' ht'
    rcases newTimer_heap ht' with ⟨rfl, -⟩ | ⟨-, ht'⟩
    · exact hp.2.2
    · exact h.address p' t' ht'

/-- A timer enters the sets. -/
theorem Owned.added (h : Owned q (p :: L)) (hp : q.heap p = some t) : Owned (q.added p t) L := by
  obtain ⟨hnotL, hnodup⟩ := List.nodup_cons.mp h.nodup
  refine ⟨h.inStep.added hp, hnodup, ?_, ?_, h.address⟩
  · intro p' hp'
    obtain ⟨ht', hfree⟩ := h.outside p' (List.mem_cons_of_mem _ hp')
    refine ⟨ht', ?_⟩
    intro e he
    rcases Finset.mem_insert.mp he with rfl | he
    · exact fun heq : p = p' => hnotL (heq ▸ hp')
    · exact hfree e he
  · intro p' t' ht'
    rcases h.located p' t' ht' with hmem | ⟨e, he, heq⟩
    · rcases List.mem_cons.mp hmem with rfl | hmem
      · exact Or.inr ⟨_, Finset.mem_insert_self _ _, rfl⟩
      · exact Or.inl hmem
    · exact Or.inr ⟨e, Finset.mem_insert_of_mem he, heq⟩

/-- A timer that is in the sets is removed and deleted. -/
theorem Owned.removed (h : Owned q L) {id : ActiveTimer} (hid : id ∈ q.activeTimers)
    (hp : q.heap id.timer = some t) : Owned (q.removed id t) L := by
  obtain ⟨t', ht', -, hentry⟩ := h.inStep.active id hid
  obtain rfl : t' = t := by simpa using ht'.symm.trans hp
  have hsame : ∀ p ≠ id.timer, (q.removed id t').heap p = q.heap p :=
    fun p hne => Function.update_of_ne hne _ _
  have hlive : ∀ p t, (q.removed id t').heap p = some t → p ≠ id.timer ∧ q.heap p = some t :=
    fun p t ht => heap_of_update_none ht
  refine ⟨h.inStep.removed hid hp, h.nodup, ?_, ?_, fun p t ht => h.address p t (hlive p t ht).2⟩
  · intro p hpL
    obtain ⟨ht, hfree⟩ := h.outside p hpL
    have hne : p ≠ id.timer := fun heq => hfree _ hentry heq.symm
    rw [hsame p hne]
    exact ⟨ht, fun e he => hfree e (Finset.mem_of_mem_erase he)⟩
  · intro p t ht
    obtain ⟨hne, ht⟩ := hlive p t ht
    rcases h.located p t ht with hmem | ⟨e, he, heq⟩
    · exact Or.inl hmem
    · refine Or.inr ⟨e, Finset.mem_erase.mpr ⟨fun heq' => hne ?_, he⟩, heq⟩
      rw [← heq, heq']

/-- The expired timers leave the sets. -/
theorem Owned.taken (h : Owned q L) (now : Timestamp) :
    Owned (q.taken now) (L ++ (q.expiredAt now).map Entry.timer) := by
  have hexp : ∀ p ∈ (q.expiredAt now).map Entry.timer,
      ∃ e ∈ q.timers, e < ⟨now, UINTPTR_MAX⟩ ∧ e.timer = p := by
    intro p hp
    obtain ⟨e, he, heq⟩ := List.mem_map.mp hp
    exact ⟨e, (mem_below.mp he).1, (mem_below.mp he).2, heq⟩
  refine ⟨h.inStep.taken now, ?_, ?_, ?_, h.address⟩
  · refine List.nodup_append.mpr ⟨h.nodup, h.inStep.nodup_expiredAt now, ?_⟩
    rintro p hp p' hp' rfl
    obtain ⟨e, he, -, heq⟩ := hexp p hp'
    exact (h.outside p hp).2 e he heq
  · intro p hp
    rcases List.mem_append.mp hp with hp | hp
    · obtain ⟨ht, hfree⟩ := h.outside p hp
      exact ⟨ht, fun e he => hfree e (mem_removeBelow.mp he).1⟩
    · -- its only entry was below the sentry, so it is gone
      obtain ⟨e, he, hlt, rfl⟩ := hexp p hp
      obtain ⟨t, ht, -⟩ := h.inStep.entries e he
      refine ⟨⟨t, ht⟩, ?_⟩
      intro e' he' heq
      obtain ⟨hmem, hle⟩ := mem_removeBelow.mp he'
      rw [h.inStep.entry_eq hmem he heq] at hle
      exact absurd hlt (not_lt.mpr hle)
  · intro p t ht
    rcases h.located p t ht with hmem | ⟨e, he, heq⟩
    · exact Or.inl (List.mem_append_left _ hmem)
    · by_cases hlt : e < ⟨now, UINTPTR_MAX⟩
      · exact Or.inl (List.mem_append_right _ (List.mem_map.mpr ⟨e, mem_below.mpr ⟨he, hlt⟩, heq⟩))
      · exact Or.inr ⟨e, mem_removeBelow.mpr ⟨he, not_lt.mp hlt⟩, heq⟩

/-- A timer outside the sets changes its state, or is deleted. -/
theorem Owned.restored (h : Owned q (p :: L)) (t : Timer) : Owned (q.store p (some t)) (p :: L) := by
  obtain ⟨⟨t₀, ht₀⟩, hfree⟩ := h.outside p List.mem_cons_self
  have hlive : ∀ p' t', (q.store p (some t)).heap p' = some t' → ∃ t'', q.heap p' = some t'' := by
    intro p' t' ht'
    rcases heap_of_update_some ht' with ⟨rfl, -⟩ | ⟨-, ht'⟩
    · exact ⟨t₀, ht₀⟩
    · exact ⟨t', ht'⟩
  refine ⟨h.inStep.store hfree _, h.nodup, ?_, ?_, ?_⟩
  · intro p' hp'
    refine ⟨?_, (h.outside p' hp').2⟩
    by_cases hne : p' = p
    · exact ⟨t, hne ▸ store_heap_self q p (some t)⟩
    · rw [store_heap_of_ne _ hne]
      exact (h.outside p' hp').1
  · intro p' t' ht'
    obtain ⟨t'', ht''⟩ := hlive p' t' ht'
    exact h.located p' t'' ht''
  · intro p' t' ht'
    obtain ⟨t'', ht''⟩ := hlive p' t' ht'
    exact h.address p' t'' ht''

theorem Owned.deleted (h : Owned q (p :: L)) : Owned (q.store p none) L := by
  obtain ⟨-, hfree⟩ := h.outside p List.mem_cons_self
  obtain ⟨hnotL, hnodup⟩ := List.nodup_cons.mp h.nodup
  have hlive : ∀ p' t', (q.store p none).heap p' = some t' → p' ≠ p ∧ q.heap p' = some t' :=
    fun p' t' ht' => heap_of_update_none ht'
  refine ⟨h.inStep.store hfree _, hnodup, ?_, ?_, fun p' t' ht' => h.address p' t' (hlive p' t' ht').2⟩
  · intro p' hp'
    have hne : p' ≠ p := fun heq => hnotL (heq ▸ hp')
    rw [store_heap_of_ne _ hne]
    exact h.outside p' (List.mem_cons_of_mem _ hp')
  · intro p' t' ht'
    obtain ⟨hne, ht'⟩ := hlive p' t' ht'
    refine (h.located p' t' ht').imp_left ?_
    intro hmem
    exact (List.mem_cons.mp hmem).resolve_left hne

/-- How often the timer at `p` is referred to. -/
def places (q : TimerQueue) (L : List Nat) (p : Nat) : Nat :=
  L.count p + (q.timers.filter (·.timer = p)).card

/-- Every timer that exists is in exactly one place, and no other address is in any. -/
theorem Owned.places_eq (h : Owned q L) (p : Nat) :
    q.places L p = if (q.heap p).isSome then 1 else 0 := by
  have hzero : (∀ e ∈ q.timers, e.timer ≠ p) → (q.timers.filter (·.timer = p)).card = 0 := by
    intro hfree
    rw [Finset.card_eq_zero, Finset.filter_eq_empty_iff]
    exact hfree
  unfold places
  cases hp : q.heap p with
  | none =>
      obtain ⟨hnotL, hfree⟩ := h.not_mem hp
      rw [hzero hfree, List.count_eq_zero_of_not_mem hnotL]
      rfl
  | some t =>
      rw [if_pos Option.isSome_some]
      rcases h.located p t hp with hmem | ⟨e, he, rfl⟩
      · rw [hzero (h.outside p hmem).2, List.count_eq_one_of_mem h.nodup hmem]
      · have hnotL : e.timer ∉ L := fun hmem => (h.outside _ hmem).2 e he rfl
        have hone : q.timers.filter (·.timer = e.timer) = {e} := by
          ext e'
          simp only [Finset.mem_filter, Finset.mem_singleton]
          refine ⟨fun ⟨he', heq⟩ => h.inStep.entry_eq he' he heq, ?_⟩
          rintro rfl
          exact ⟨he, rfl⟩
        rw [hone, List.count_eq_zero_of_not_mem hnotL]
        rfl

/-! ## The functions built on these -/

/-- `q` after `addTimerInLoop(p)`. -/
def addedAndArmed (q : TimerQueue) (p : Nat) (t : Timer) : TimerQueue :=
  { q.added p t with
    timerfd := if q.earliestChanged t.expiration then resetTimerfd t.expiration q.clock else q.timerfd }

theorem addTimerInLoop_spec (h : InStep q) (hp : q.heap p = some t) (hfree : ∀ e ∈ q.timers, e.timer ≠ p) :
    q.addTimerInLoop p = .ok (q.addedAndArmed p t) := by
  unfold addTimerInLoop addedAndArmed
  rw [insert_spec h hp hfree, ok_bind]
  dsimp only
  split
  · rw [deref_eq (q := q.added p t) hp, ok_bind]
    rfl
  · rfl

theorem delete_eq (hp : q.heap p = some t) : q.delete p = .ok ((q.store p none).record (.deleted t.serial)) := by
  unfold delete
  rw [deref_eq hp, ok_bind]

/-- `q` with the timer `t` at `p` restarted. -/
def restarted (q : TimerQueue) (p : Nat) (t : Timer) (now : Timestamp) : TimerQueue :=
  (q.store p (some (t.restart now))).record (.restarted t.serial)

theorem restarted_heap_self (q : TimerQueue) (p : Nat) (t : Timer) (now : Timestamp) :
    (q.restarted p t now).heap p = some (t.restart now) := store_heap_self _ _ _

theorem resetOne_restart (h : InStep q) {e : Entry} {now : Timestamp} (hp : q.heap e.timer = some t)
    (hfree : ∀ e' ∈ q.timers, e'.timer ≠ e.timer)
    (hrep : t.repeats = true ∧ ⟨e.timer, t.sequence⟩ ∉ q.cancelingTimers) :
    q.resetOne now e = .ok ((q.restarted e.timer t now).added e.timer (t.restart now)) := by
  have hstep : InStep (q.restarted e.timer t now) :=
    ⟨(h.store hfree _).entries, (h.store hfree _).active⟩
  unfold resetOne
  rw [deref_eq hp, ok_bind, if_pos hrep]
  dsimp only
  show TimerQueue.insert (q.restarted e.timer t now) e.timer >>= _ = _
  rw [insert_spec hstep (t := t.restart now) (restarted_heap_self _ _ _ _) hfree, ok_bind]

theorem resetOne_delete {e : Entry} {now : Timestamp} (hp : q.heap e.timer = some t)
    (hrep : ¬ (t.repeats = true ∧ ⟨e.timer, t.sequence⟩ ∉ q.cancelingTimers)) :
    q.resetOne now e = .ok ((q.store e.timer none).record (.deleted t.serial)) := by
  unfold resetOne
  rw [deref_eq hp, ok_bind, if_neg hrep, delete_eq hp]

/-- `q` at the end of `reset`. -/
def rearmed (q : TimerQueue) : TimerQueue :=
  match first q.timers with
  | none => q
  | some e => if e.when.valid then { q with timerfd := resetTimerfd e.when q.clock } else q

theorem rearm_spec (h : InStep q) : q.rearm = .ok q.rearmed := by
  unfold rearm rearmed
  cases hf : first q.timers with
  | none => rfl
  | some e =>
      obtain ⟨t, ht, hw, -⟩ := h.entries e (mem_of_first hf)
      dsimp only
      rw [deref_eq ht, ok_bind, ok_bind, hw]

end Muduo.Net.TimerQueue
