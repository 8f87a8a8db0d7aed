import Muduo.Net.Correctness.TimerTick
import Muduo.Net.TimerId

/-!
# `Correctness.TimerId` — whom a `TimerId` names

An id is an address and a sequence number, and the address of a deleted timer may come back. Two ids are the same
only if the sequence number was read from the wrong timer, which `addTimer` can do on another thread, or if the
64-bit numbers have come round; `Distinct` rules out both. Then an id names its own timer and no other for ever
(`Named`), and the id that a late `cancel` leaves in `cancelingTimers_` matches nothing: the run goes on as it
would have without the call (`Alike`).
-/

namespace Muduo.Net.TimerQueue

open Lib OrderedSet

variable {q q' r : TimerQueue} {a : TimerOp} {id : ActiveTimer}

/-! ## No timer comes back -/

/-- What the step from `q` to `q'` may do to the heap: a timer that exists afterwards existed before, or is new. -/
structure Onward (q : TimerQueue) (a : TimerOp) (q' : TimerQueue) : Prop where
  created : q.numCreated ≤ q'.numCreated
  heap : ∀ p t', q'.heap p = some t' → (∃ t, q.heap p = some t ∧ t.serial = t'.serial) ∨
    (t'.serial = q.numCreated + 1 ∧ ∃ when i, a = .addTimer p when i ∨ a = .addTimerElsewhere p when i)

/-- A step that creates no timer. -/
theorem Onward.of_heap (hcreated : q.numCreated ≤ q'.numCreated)
    (hheap : ∀ p t', q'.heap p = some t' → ∃ t, q.heap p = some t ∧ t.serial = t'.serial) : Onward q a q' :=
  ⟨hcreated, fun p t' ht' => Or.inl (hheap p t' ht')⟩

theorem Onward.newTimer {p : Nat} {when : Timestamp} {i : Option Interval}
    (ha : a = .addTimer p when i ∨ a = .addTimerElsewhere p when i) : Onward q a (q.newTimer p when i) := by
  refine ⟨Nat.le_succ _, ?_⟩
  intro p' t' ht'
  rcases newTimer_heap ht' with ⟨rfl, rfl⟩ | ⟨-, ht⟩
  · exact Or.inr ⟨rfl, when, i, ha⟩
  · exact Or.inl ⟨t', ht, rfl⟩

theorem Onward.cancel : Onward q a ((q.cancelled id).noteCancel id q) := by
  have hnote : ((q.cancelled id).noteCancel id q).heap = (q.cancelled id).heap ∧
      ((q.cancelled id).noteCancel id q).numCreated = (q.cancelled id).numCreated := by
    unfold noteCancel
    split
    · split <;> exact ⟨rfl, rfl⟩
    · exact ⟨rfl, rfl⟩
  have hcancelled : Onward q a (q.cancelled id) := by
    unfold cancelled
    split
    · split
      · exact .of_heap le_rfl fun p t' ht' => ⟨t', (heap_of_update_none ht').2, rfl⟩
      · exact .of_heap le_rfl fun p t' ht' => ⟨t', ht', rfl⟩
    · split <;> exact .of_heap le_rfl fun p t' ht' => ⟨t', ht', rfl⟩
  refine ⟨hnote.2 ▸ hcancelled.created, ?_⟩
  rw [hnote.1]
  exact hcancelled.heap

theorem Onward.resetNext {now : Timestamp} {e : Entry} {t : Timer} {rest : List Entry}
    (ht : q.heap e.timer = some t) : Onward q a (q.resetStep now e t rest) := by
  unfold resetStep
  split
  · refine .of_heap le_rfl fun p t' ht' => ?_
    rcases heap_of_update_some ht' with ⟨rfl, rfl⟩ | ⟨-, ht'⟩
    · exact ⟨t, ht, (restart_serial t now).symm⟩
    · exact ⟨t', ht', rfl⟩
  · exact .of_heap le_rfl fun p t' ht' => ⟨t', (heap_of_update_none ht').2, rfl⟩

theorem Inv.onward (h : q.Inv) (ha : q.enabled a) (hq' : q.exec a = .ok q') : Onward q a q' := by
  have hsame : ∀ {a : TimerOp} {r : TimerQueue}, q.numCreated ≤ r.numCreated → r.heap = q.heap → Onward q a r :=
    fun hcreated hheap => .of_heap hcreated fun p t' ht' => ⟨t', hheap ▸ ht', rfl⟩
  cases h.does ha hq' with
  | @addTimer p when i _ _ _ =>
      have hnew : Onward q (.addTimer p when i) (q.newTimer p when i) := .newTimer (Or.inl rfl)
      exact ⟨hnew.created, hnew.heap⟩
  | @addTimerElsewhere p when i _ _ =>
      have hnew : Onward q (.addTimerElsewhere p when i) (q.newTimer p when i) := .newTimer (Or.inr rfl)
      exact ⟨hnew.created, hnew.heap⟩
  | runFunctor _ _ _ => exact hsame le_rfl rfl
  | cancel _ => exact .cancel
  | handleRead _ => exact hsame le_rfl rfl
  | runNext _ _ _ => exact hsame le_rfl rfl
  | endCalls _ => exact hsame le_rfl rfl
  | resetNext _ ht => exact .resetNext ht
  | resetDone _ =>
      unfold rearmed
      split
      · exact hsame le_rfl rfl
      · split <;> exact hsame le_rfl rfl
  | expire => exact hsame le_rfl rfl
  | tick _ _ => exact hsame le_rfl rfl
  | createdElsewhere => exact hsame (Nat.le_succ _) rfl

/-! ## An id that matches nothing -/

/-- The two states differ at most in whether `id` is in `cancelingTimers_`. -/
def Alike (id : ActiveTimer) (q q' : TimerQueue) : Prop :=
  ∃ c, q' = { q with cancelingTimers := c } ∧ ∀ a, a ≠ id → (a ∈ c ↔ a ∈ q.cancelingTimers)

theorem Alike.symm (h : Alike id q q') : Alike id q' q := by
  obtain ⟨c, rfl, hc⟩ := h
  exact ⟨q.cancelingTimers, rfl, fun a ha => (hc a ha).symm⟩

/-- No timer has this id. -/
def Stale (q : TimerQueue) (id : ActiveTimer) : Prop := ∀ t, q.heap id.timer = some t → t.sequence ≠ id.sequence

theorem Stale.ne (h : q.Stale id) {p : Nat} {t : Timer} (ht : q.heap p = some t) :
    (⟨p, t.sequence⟩ : ActiveTimer) ≠ id := by
  intro heq
  have htimer : p = id.timer := congrArg ActiveTimer.timer heq
  have hs : t.sequence = id.sequence := by rw [← heq]
  exact h t (htimer ▸ ht) hs

/-- A stale id is in no set. -/
theorem Stale.not_mem (h : q.Stale id) (hinv : q.Inv) : id ∉ q.activeTimers := by
  intro hmem
  obtain ⟨t, ht, hs, -⟩ := hinv.owned.inStep.active id hmem
  exact h t ht hs

/-- **Cancelling with a stale id**: nothing happens but that the id is noted while callbacks run. -/
theorem Stale.alike_cancel (h : q.Stale id) (hinv : q.Inv) : Alike id q ((q.cancelled id).noteCancel id q) := by
  have hid := h.not_mem hinv
  by_cases hcalling : q.callingExpiredTimers = true
  · rw [noteCancel_stale hid hcalling h]
    refine ⟨_, rfl, fun a ha => ?_⟩
    rw [Finset.mem_insert, or_iff_right ha]
  · have hsame : (q.cancelled id).noteCancel id q = q := by
      unfold cancelled noteCancel
      rw [if_neg hid, if_neg hcalling]
      split
      · next t ht => rw [if_neg (h t ht)]
      · rfl
    rw [hsame]
    exact ⟨q.cancelingTimers, rfl, fun a _ => Iff.rfl⟩

theorem Alike.noteCancel {b b' : TimerQueue} (h : Alike id q q') (hb : b'.heap = b.heap) (id' : ActiveTimer) :
    Alike id (q.noteCancel id' b) (q'.noteCancel id' b') := by
  obtain ⟨c, rfl, hc⟩ := h
  unfold TimerQueue.noteCancel
  rw [hb]
  split
  · split
    · exact ⟨c, rfl, hc⟩
    · exact ⟨c, rfl, hc⟩
  · exact ⟨c, rfl, hc⟩

theorem Alike.cancelled (h : Alike id q q') (id' : ActiveTimer) : Alike id (q.cancelled id') (q'.cancelled id') := by
  obtain ⟨c, rfl, hc⟩ := h
  unfold TimerQueue.cancelled
  dsimp only
  split
  · split
    · exact ⟨c, rfl, hc⟩
    · exact ⟨c, rfl, hc⟩
  · split
    · refine ⟨_, rfl, fun a ha => ?_⟩
      rw [Finset.mem_insert, Finset.mem_insert, hc a ha]
    · exact ⟨c, rfl, hc⟩

/-- `reset` asks about timers that exist. -/
theorem Alike.resetStep (h : Alike id q q') (hstale : q.Stale id) {now : Timestamp} {e : Entry} {t : Timer}
    {rest : List Entry} (ht : q.heap e.timer = some t) :
    Alike id (q.resetStep now e t rest) (q'.resetStep now e t rest) := by
  obtain ⟨c, rfl, hc⟩ := h
  have hiff := hc ⟨e.timer, t.sequence⟩ (hstale.ne ht)
  unfold TimerQueue.resetStep
  by_cases hrep : t.repeats = true ∧ (⟨e.timer, t.sequence⟩ : ActiveTimer) ∉ q.cancelingTimers
  · rw [if_pos hrep, if_pos ⟨hrep.1, fun hmem => hrep.2 (hiff.mp hmem)⟩]
    exact ⟨c, rfl, hc⟩
  · rw [if_neg hrep, if_neg fun hmem => hrep ⟨hmem.1, fun hmem' => hmem.2 (hiff.mpr hmem')⟩]
    exact ⟨c, rfl, hc⟩

theorem Alike.rearmed (h : Alike id q q') : Alike id q.rearmed q'.rearmed := by
  obtain ⟨c, rfl, hc⟩ := h
  unfold TimerQueue.rearmed
  dsimp only
  split
  · exact ⟨c, rfl, hc⟩
  · split
    · exact ⟨c, rfl, hc⟩
    · exact ⟨c, rfl, hc⟩

/-- **States that differ in a stale id take the same steps**, to states that differ in it. -/
theorem Alike.exec (h : Alike id q q') (hstale : q.Stale id) (hinv : q.Inv) (ha : q.enabled a)
    (hr : q.exec a = .ok r) : q'.enabled a ∧ ∃ r', q'.exec a = .ok r' ∧ Alike id r r' := by
  have halike := h
  obtain ⟨c, rfl, hc⟩ := halike
  have hinv' : Inv { q with cancelingTimers := c } := hinv.congr rfl rfl rfl rfl rfl
  have ha' : enabled { q with cancelingTimers := c } a := by cases a <;> exact ha
  obtain ⟨r', hr', hdoes'⟩ := hinv'.owned.does hinv'.todo ha'
  refine ⟨ha', r', hr', ?_⟩
  -- the timers that the step concerns are the same in both
  cases hinv.does ha hr with
  | addTimer _ _ _ => cases hdoes'; exact ⟨c, rfl, hc⟩
  | addTimerElsewhere _ _ => cases hdoes'; exact ⟨c, rfl, hc⟩
  | runFunctor _ hps ht =>
      cases hdoes' with
      | runFunctor _ hps' ht' =>
          obtain ⟨rfl, rfl⟩ := List.cons.inj (hps.symm.trans hps')
          obtain rfl := Option.some.inj (ht.symm.trans ht')
          exact ⟨c, rfl, hc⟩
  | @cancel id' _ => cases hdoes'; exact (h.cancelled id').noteCancel rfl id'
  | handleRead _ => cases hdoes'; exact ⟨∅, rfl, fun _ _ => Iff.rfl⟩
  | runNext hpt _ ht =>
      cases hdoes' with
      | runNext hpt' _ ht' =>
          obtain ⟨rfl, rfl, hcons⟩ := TimerPoint.calling.inj (hpt.symm.trans hpt')
          obtain ⟨rfl, rfl⟩ := List.cons.inj hcons
          obtain rfl := Option.some.inj (ht.symm.trans ht')
          exact ⟨c, rfl, hc⟩
  | endCalls hpt =>
      cases hdoes' with
      | endCalls hpt' =>
          obtain ⟨rfl, rfl, -⟩ := TimerPoint.calling.inj (hpt.symm.trans hpt')
          exact ⟨c, rfl, hc⟩
  | resetNext hpt ht =>
      cases hdoes' with
      | resetNext hpt' ht' =>
          obtain ⟨rfl, hcons⟩ := TimerPoint.resetting.inj (hpt.symm.trans hpt')
          obtain ⟨rfl, rfl⟩ := List.cons.inj hcons
          obtain rfl := Option.some.inj (ht.symm.trans ht')
          exact h.resetStep hstale ht
  | resetDone _ =>
      cases hdoes'
      obtain ⟨c', hc', hiff⟩ := h.rearmed
      refine ⟨c', ?_, hiff⟩
      rw [hc']
  | expire => cases hdoes'; exact ⟨c, rfl, hc⟩
  | tick _ _ => cases hdoes'; exact ⟨c, rfl, hc⟩
  | createdElsewhere => cases hdoes'; exact ⟨c, rfl, hc⟩

/-! ## What `cancel` does to the sets -/

/-- What `cancel` reads and changes, the log apart. -/
theorem noteCancel_sets (q b : TimerQueue) (id : ActiveTimer) : (q.noteCancel id b).timers = q.timers ∧
    (q.noteCancel id b).activeTimers = q.activeTimers ∧
    (q.noteCancel id b).cancelingTimers = q.cancelingTimers := by
  unfold TimerQueue.noteCancel
  split
  · split <;> exact ⟨rfl, rfl, rfl⟩
  · exact ⟨rfl, rfl, rfl⟩

/-- `cancel` removes the timer with the id, or it leaves both sets alone and may note the id. -/
theorem Inv.cancel_cases (h : q.Inv) (hq' : q.exec (.cancel id) = .ok q') :
    (∃ t, q.heap id.timer = some t ∧ t.sequence = id.sequence ∧
      q'.timers = q.timers.erase ⟨t.expiration, id.timer⟩ ∧ q'.activeTimers = q.activeTimers.erase id ∧
      q'.cancelingTimers = q.cancelingTimers) ∨
    (q'.timers = q.timers ∧ q'.activeTimers = q.activeTimers ∧
      (q'.cancelingTimers = q.cancelingTimers ∨ q'.cancelingTimers = Insert.insert id q.cancelingTimers)) := by
  rw [exec_cancel h.owned id] at hq'
  cases hq'
  obtain ⟨htimers, hactive, hcanceling⟩ := noteCancel_sets (q.cancelled id) q id
  rw [htimers, hactive, hcanceling]
  unfold TimerQueue.cancelled
  by_cases hid : id ∈ q.activeTimers
  · obtain ⟨t, ht, hs, -⟩ := h.owned.inStep.active id hid
    rw [if_pos hid, ht]
    exact Or.inl ⟨t, rfl, hs, rfl, rfl, rfl⟩
  · rw [if_neg hid]
    right
    split
    · exact ⟨rfl, rfl, Or.inr rfl⟩
    · exact ⟨rfl, rfl, Or.inl rfl⟩

end Muduo.Net.TimerQueue

namespace Muduo.Net.TimerClients

open Lib TimerQueue

variable {s s' u : TimerClients} {a : TimerOp} {op : ClientOp} {q : TimerQueue} {p k : Nat} {t : Timer}
  {id : ActiveTimer}

/-! ## What each step does -/

theorem of_timerId (h : timerId q p = .ok id) : ∃ t, q.heap p = some t ∧ id = ⟨p, t.sequence⟩ := by
  obtain ⟨t, ht, hid⟩ := bind_eq_ok.mp h
  cases hid
  refine ⟨t, ?_, rfl⟩
  unfold deref at ht
  split at ht
  · next t' ht' =>
      cases ht
      exact ht'
  · cases ht

/-- What a step of the queue does to the calls of `addTimer`. -/
theorem exec_step (hs' : s.exec (.step a) = .ok s') : ∃ q, s.queue.exec a = .ok q ∧
    ((∃ p when i t, a = .addTimer p when i ∧ q.heap p = some t ∧
        s' = { s with queue := q, ids := s.ids ++ [(s.queue.numCreated + 1, ⟨p, t.sequence⟩)] }) ∨
      (∃ p when i, a = .addTimerElsewhere p when i ∧
        s' = { s with queue := q, pending := s.pending ++ [(p, s.queue.numCreated + 1)] }) ∨
      s' = { s with queue := q }) := by
  obtain ⟨q, hq, hs'⟩ := bind_eq_ok.mp hs'
  refine ⟨q, hq, ?_⟩
  cases a with
  | addTimer p when i =>
      obtain ⟨id, hid, hs'⟩ := bind_eq_ok.mp hs'
      obtain ⟨t, ht, rfl⟩ := of_timerId hid
      cases hs'
      exact Or.inl ⟨p, when, i, t, rfl, ht, rfl⟩
  | addTimerElsewhere p when i =>
      cases hs'
      exact Or.inr (Or.inl ⟨p, when, i, rfl, rfl⟩)
  | runFunctor | cancel | handleRead | runNext | endCalls | resetNext | resetDone | expire | tick
  | createdElsewhere =>
      cases hs'
      exact Or.inr (Or.inr rfl)

/-- A call that returns has read the sequence number of the timer now at its address. -/
theorem exec_returns {n : Nat} (hn : s.enabled (.returns n)) (hs' : s.exec (.returns n) = .ok s') :
    ∃ p k t, s.pending[n]? = some (p, k) ∧ s.queue.heap p = some t ∧
      s' = { s with pending := s.pending.eraseIdx n, ids := s.ids ++ [(k, ⟨p, t.sequence⟩)] } := by
  obtain ⟨⟨p, k⟩, hget⟩ : ∃ c, s.pending[n]? = some c := ⟨_, List.getElem?_eq_getElem hn⟩
  unfold exec at hs'
  dsimp only at hs'
  rw [hget] at hs'
  obtain ⟨id, hid, hs'⟩ := bind_eq_ok.mp hs'
  obtain ⟨t, ht, rfl⟩ := of_timerId hid
  cases hs'
  exact ⟨p, k, t, hget, ht, rfl⟩

/-! ## Ids that name their timers -/

/-- The step gives out no id twice: a call that returns finds its timer still in place, and no new timer gets the
    address and the sequence number of an id that was returned. -/
def Distinct (s : TimerClients) : ClientOp → Prop
  | .step (.addTimer p when i) => ∀ k, (k, ⟨p, (⟨when, i, s.queue.numCreated + 1⟩ : Timer).sequence⟩) ∉ s.ids
  | .step (.addTimerElsewhere p when i) =>
      ∀ k, (k, ⟨p, (⟨when, i, s.queue.numCreated + 1⟩ : Timer).sequence⟩) ∉ s.ids
  | .step _ => True
  | .returns n => ∀ p k, s.pending[n]? = some (p, k) → ∃ t, s.queue.heap p = some t ∧ t.serial = k

/-- Every id was returned for a timer, and no other timer has it. -/
structure Named (s : TimerClients) : Prop where
  inv : s.queue.Inv
  known : ∀ k id, (k, id) ∈ s.ids → k ≤ s.queue.numCreated
  own : ∀ k id, (k, id) ∈ s.ids → ∀ t, s.queue.heap id.timer = some t → t.sequence = id.sequence → t.serial = k

theorem sequence_eq {t t' : Timer} (h : t.serial = t'.serial) : t.sequence = t'.sequence := by
  unfold Timer.sequence
  rw [h]

/-- The queue takes a step. -/
theorem Named.queue (h : Named s) (ha : s.queue.enabled a) (hd : s.Distinct (.step a))
    (hq : s.queue.exec a = .ok q) : Named { s with queue := q } := by
  have honward := h.inv.onward ha hq
  obtain ⟨q', hq', hinv'⟩ := h.inv.exec ha
  obtain rfl : q' = q := by simpa using hq'.symm.trans hq
  refine ⟨hinv', fun k id hid => (h.known k id hid).trans honward.created, ?_⟩
  intro k id hid t ht hs
  rcases honward.heap _ t ht with ⟨t₀, ht₀, hserial⟩ | ⟨hserial, when, i, ha⟩
  · rw [← hserial]
    exact h.own k id hid t₀ ht₀ ((sequence_eq hserial).trans hs)
  · -- the id would be the one of the new timer
    have hid' : id = ⟨id.timer, (⟨when, i, s.queue.numCreated + 1⟩ : Timer).sequence⟩ := by
      rw [← sequence_eq hserial, hs]
    rw [hid'] at hid
    rcases ha with rfl | rfl
    · exact absurd hid (hd k)
    · exact absurd hid (hd k)

/-- A call returns, and its timer is the one at the address. -/
theorem Named.returned (h : Named s) (ht : s.queue.heap p = some t) (hk : t.serial = k) :
    Named { s with ids := s.ids ++ [(k, ⟨p, t.sequence⟩)] } := by
  refine ⟨h.inv, ?_, ?_⟩
  · intro k' id hid
    rcases List.mem_append.mp hid with hid | hid
    · exact h.known k' id hid
    · obtain ⟨rfl, -⟩ : k' = k ∧ id = ⟨p, t.sequence⟩ := by simpa using hid
      rw [← hk]
      exact h.inv.logged.created p t ht
  · intro k' id hid t' ht' hs
    rcases List.mem_append.mp hid with hid | hid
    · exact h.own k' id hid t' ht' hs
    · obtain ⟨rfl, rfl⟩ : k' = k ∧ id = ⟨p, t.sequence⟩ := by simpa using hid
      obtain rfl : t = t' := by simpa using ht.symm.trans ht'
      exact hk

theorem Named.exec (h : Named s) (ha : s.enabled op) (hd : s.Distinct op) (hs' : s.exec op = .ok s') : Named s' := by
  cases op with
  | step a =>
      obtain ⟨q, hq, hcases⟩ := exec_step hs'
      have hnamed := h.queue ha hd hq
      rcases hcases with ⟨p, when, i, t, rfl, ht, rfl⟩ | ⟨p, when, i, rfl, rfl⟩ | rfl
      · refine hnamed.returned ht ?_
        rw [exec_addTimer h.inv.owned ha.2.1] at hq
        cases hq
        obtain rfl : ⟨when, i, s.queue.numCreated + 1⟩ = t := by
          simpa using (newTimer_heap_self s.queue p when i).symm.trans ht
        rfl
      · exact ⟨hnamed.inv, hnamed.known, hnamed.own⟩
      · exact hnamed
  | returns n =>
      obtain ⟨p, k, t, hget, ht, rfl⟩ := exec_returns ha hs'
      obtain ⟨t', ht', hk⟩ := hd p k hget
      obtain rfl : t = t' := by simpa using ht.symm.trans ht'
      have hnamed := h.returned ht hk
      exact ⟨hnamed.inv, hnamed.known, hnamed.own⟩

theorem reachable_named (h : (clientSystem.when Distinct).Reachable s) : Named s := by
  refine System.keeps (S := clientSystem.when Distinct) ?_ ?_ h
  · rintro s ⟨⟨now, n, hnew, -⟩, -, hids⟩
    refine ⟨hnew ▸ new_inv now n, ?_, ?_⟩ <;> simp [hids]
  · intro s op s' hs ha hs'
    exact hs.exec ha.1 ha.2 hs'

/-! ## Late cancels -/

/-- The timer with this serial number no longer exists. -/
def Gone (s : TimerClients) (k : Nat) : Prop := ∀ p t, s.queue.heap p = some t → t.serial ≠ k

theorem Gone.queue (h : s.Gone k) (hk : k ≤ s.queue.numCreated) (hstep : Onward s.queue a q) {p : Nat} {t : Timer}
    (ht : q.heap p = some t) : t.serial ≠ k := by
  rcases hstep.heap p t ht with ⟨t₀, ht₀, hserial⟩ | ⟨hserial, -⟩
  · rw [← hserial]
    exact h p t₀ ht₀
  · omega

theorem Gone.step (h : s.Gone k) (hnamed : Named s) (hk : k ≤ s.queue.numCreated)
    (hs' : (clientSystem.when Distinct).Step s op s') : s'.Gone k := by
  obtain ⟨⟨ha, -⟩, hs'⟩ := hs'
  cases op with
  | step a =>
      obtain ⟨q, hq, hcases⟩ := exec_step hs'
      have hgone : ∀ p t, q.heap p = some t → t.serial ≠ k :=
        fun p t ht => h.queue hk (hnamed.inv.onward ha hq) ht
      rcases hcases with ⟨p, when, i, t, -, -, rfl⟩ | ⟨p, when, i, -, rfl⟩ | rfl <;> exact hgone
  | returns n =>
      obtain ⟨p, k', t, -, -, rfl⟩ := exec_returns ha hs'
      exact h

/-- The id of a timer that is gone is no timer's id. -/
theorem Named.stale (h : Named s) (hid : (k, id) ∈ s.ids) (hgone : s.Gone k) : s.queue.Stale id :=
  fun t ht hs => hgone _ t ht (h.own k id hid t ht hs)

/-- The two states differ at most in whether `id` is in `cancelingTimers_`. -/
def Alike (id : ActiveTimer) (s s' : TimerClients) : Prop :=
  s.queue.Alike id s'.queue ∧ s'.pending = s.pending ∧ s'.ids = s.ids

theorem Alike.symm (h : Alike id s s') : Alike id s' s := ⟨h.1.symm, h.2.1.symm, h.2.2.symm⟩

theorem timerId_eq (ht : q.heap p = some t) : timerId q p = .ok ⟨p, t.sequence⟩ := by
  unfold timerId
  rw [deref_eq ht, ok_bind]

/-- What `addTimer` reads and writes is the same in both. -/
theorem Alike.reads (h : Alike id s u) : u.queue.numCreated = s.queue.numCreated ∧ u.queue.heap = s.queue.heap := by
  obtain ⟨c, hc, -⟩ := h.1
  rw [hc]
  exact ⟨rfl, rfl⟩

theorem Alike.distinct (h : Alike id s u) (hd : s.Distinct op) : u.Distinct op := by
  obtain ⟨hnum, hheap⟩ := h.reads
  unfold Distinct at hd ⊢
  rw [h.2.1, h.2.2, hheap, hnum]
  exact hd

theorem Alike.handedOver (h : Alike id s u) {q' : TimerQueue} (hq : q.Alike id q') (hs' : s.handedOver q a = .ok s') :
    ∃ u', u.handedOver q' a = .ok u' ∧ Alike id s' u' := by
  obtain ⟨hnum, -⟩ := h.reads
  cases a with
  | addTimer p when i =>
      obtain ⟨id', hid, hs'⟩ := bind_eq_ok.mp hs'
      obtain ⟨t, ht, rfl⟩ := of_timerId hid
      have ht' : q'.heap p = some t := by
        obtain ⟨c, rfl, -⟩ := hq
        exact ht
      cases hs'
      refine ⟨_, bind_eq_ok.mpr ⟨_, timerId_eq ht', rfl⟩, hq, h.2.1, ?_⟩
      show u.ids ++ [(u.queue.numCreated + 1, _)] = _
      rw [h.2.2, hnum]
  | addTimerElsewhere p when i =>
      cases hs'
      refine ⟨_, rfl, hq, ?_, h.2.2⟩
      show u.pending ++ [(p, u.queue.numCreated + 1)] = _
      rw [h.2.1, hnum]
  | runFunctor | cancel | handleRead | runNext | endCalls | resetNext | resetDone | expire | tick
  | createdElsewhere =>
      cases hs'
      exact ⟨_, rfl, hq, h.2.1, h.2.2⟩

theorem Alike.returns (h : Alike id s u) {n : Nat} (ha : s.enabled (.returns n))
    (hs' : s.exec (.returns n) = .ok s') :
    u.enabled (.returns n) ∧ ∃ u', u.exec (.returns n) = .ok u' ∧ Alike id s' u' := by
  obtain ⟨p, k, t, hget, ht, rfl⟩ := exec_returns ha hs'
  refine ⟨?_, { u with pending := u.pending.eraseIdx n, ids := u.ids ++ [(k, ⟨p, t.sequence⟩)] }, ?_, h.1, ?_, ?_⟩
  · show n < u.pending.length
    rw [h.2.1]
    exact ha
  · unfold TimerClients.exec
    dsimp only
    rw [h.2.1, hget]
    dsimp only
    rw [timerId_eq (h.reads.2 ▸ ht), ok_bind]
  · show u.pending.eraseIdx n = _
    rw [h.2.1]
  · show u.ids ++ _ = _
    rw [h.2.2]

/-- **States that differ in a stale id take the same steps.** -/
theorem Alike.step (h : Alike id s u) (hstale : s.queue.Stale id) (hnamed : Named s)
    (hs' : (clientSystem.when Distinct).Step s op s') :
    ∃ u', (clientSystem.when Distinct).Step u op u' ∧ Alike id s' u' := by
  obtain ⟨⟨ha, hd⟩, hs'⟩ := hs'
  cases op with
  | step a =>
      obtain ⟨q, hq, hs'⟩ := bind_eq_ok.mp hs'
      obtain ⟨ha', q', hq', hafter⟩ := h.1.exec hstale hnamed.inv ha hq
      obtain ⟨u', hu', halike⟩ := h.handedOver hafter hs'
      exact ⟨u', ⟨⟨ha', h.distinct hd⟩, bind_eq_ok.mpr ⟨q', hq', hu'⟩⟩, halike⟩
  | returns n =>
      obtain ⟨ha', u', hu', halike⟩ := h.returns ha hs'
      exact ⟨u', ⟨⟨ha', h.distinct hd⟩, hu'⟩, halike⟩

theorem ids_kept (hs' : (clientSystem.when Distinct).Step s op s') (hid : (k, id) ∈ s.ids) : (k, id) ∈ s'.ids := by
  obtain ⟨⟨ha, -⟩, hs'⟩ := hs'
  cases op with
  | step a =>
      obtain ⟨q, -, ⟨p, when, i, t, -, -, rfl⟩ | ⟨p, when, i, -, rfl⟩ | rfl⟩ := exec_step hs'
      · exact List.mem_append_left _ hid
      · exact hid
      · exact hid
  | returns n =>
      obtain ⟨p, k', t, -, -, rfl⟩ := exec_returns ha hs'
      exact List.mem_append_left _ hid

/-- **A stale id makes no difference to a run.** -/
theorem Alike.path {ops : List ClientOp} (h : Alike id s u) (hs : (clientSystem.when Distinct).Reachable s)
    (hid : (k, id) ∈ s.ids) (hgone : s.Gone k) (hpath : (clientSystem.when Distinct).Path s ops s') :
    ∃ u', (clientSystem.when Distinct).Path u ops u' ∧ Alike id s' u' := by
  have hall : (∃ u', (clientSystem.when Distinct).Path u ops u' ∧ Alike id s' u') ∧ (k, id) ∈ s'.ids ∧ s'.Gone k := by
    induction hpath with
    | nil => exact ⟨⟨u, .nil, h⟩, hid, hgone⟩
    | snoc hpath hstep ih =>
        obtain ⟨⟨u', hpath', halike⟩, hid', hgone'⟩ := ih
        have hnamed := reachable_named (hs.path hpath)
        obtain ⟨u'', hstep', halike'⟩ := halike.step (hnamed.stale hid' hgone') hnamed hstep
        exact ⟨⟨u'', hpath'.snoc hstep', halike'⟩, ids_kept hstep hid',
          hgone'.step hnamed (hnamed.known k id hid') hstep⟩
  exact hall.1

theorem ids_kept_path {ops : List ClientOp} (hid : (k, id) ∈ s.ids)
    (hpath : (clientSystem.when Distinct).Path s ops s') : (k, id) ∈ s'.ids := by
  induction hpath with
  | nil => exact hid
  | snoc _ hstep ih => exact ids_kept hstep ih

/-- **A stale id never hits another timer.** In every run in which each `addTimer` reads the sequence number of
    its timer while that exists, and no new timer gets the address and the sequence number of an id that was
    returned: `cancel(id)` takes no timer out of the sets but the one that `id` was returned for; what it adds to
    `cancelingTimers_` matches no other timer, now or later; and if that timer no longer exists, both sets stay
    as they are, and the runs with the call and without it are the same, step by step. -/
theorem cancel_hits_own_timer (h : (clientSystem.when Distinct).Reachable s) (hid : (k, id) ∈ s.ids)
    (hs' : (clientSystem.when Distinct).Step s (.step (.cancel id)) s') :
    (s'.queue.timers ⊆ s.queue.timers ∧ ∀ e ∈ s.queue.timers, e ∉ s'.queue.timers →
      ∃ t, s.queue.heap e.timer = some t ∧ t.serial = k) ∧
    (s'.queue.activeTimers ⊆ s.queue.activeTimers ∧ ∀ a ∈ s.queue.activeTimers, a ∉ s'.queue.activeTimers →
      ∃ t, s.queue.heap a.timer = some t ∧ t.serial = k) ∧
    (∀ a, a ≠ id → (a ∈ s'.queue.cancelingTimers ↔ a ∈ s.queue.cancelingTimers)) ∧
    (∀ ops u, (clientSystem.when Distinct).Path s' ops u → ∀ p t, u.queue.heap p = some t →
      ⟨p, t.sequence⟩ = id → t.serial = k) ∧
    (s.Gone k → s'.queue.timers = s.queue.timers ∧ s'.queue.activeTimers = s.queue.activeTimers ∧
      ∀ ops, (∀ u, (clientSystem.when Distinct).Path s ops u →
          ∃ u', (clientSystem.when Distinct).Path s' ops u' ∧ Alike id u u') ∧
        ∀ u', (clientSystem.when Distinct).Path s' ops u' →
          ∃ u, (clientSystem.when Distinct).Path s ops u ∧ Alike id u u') := by
  have hnamed := reachable_named h
  have hid' := ids_kept hs' hid
  obtain ⟨q, hq, hcases⟩ := exec_step hs'.2
  obtain rfl : s' = { s with queue := q } := by
    rcases hcases with ⟨p, when, i, t, heq, -⟩ | ⟨p, when, i, heq, -⟩ | hcases
    · exact absurd heq (by simp)
    · exact absurd heq (by simp)
    · exact hcases
  have hcancel := hnamed.inv.cancel_cases hq
  refine ⟨?_, ?_, ?_, ?_, ?_⟩
  · rcases hcancel with ⟨t, ht, hs, htimers, -⟩ | ⟨htimers, -⟩
    · refine ⟨htimers ▸ Finset.erase_subset _ _, fun e he hnot => ?_⟩
      have he' : e = ⟨t.expiration, id.timer⟩ := by
        by_contra hne
        exact hnot (htimers ▸ Finset.mem_erase.mpr ⟨hne, he⟩)
      exact ⟨t, he' ▸ ht, hnamed.own k id hid t ht hs⟩
    · exact ⟨htimers.le, fun e he hnot => absurd (htimers ▸ he) hnot⟩
  · rcases hcancel with ⟨t, ht, hs, -, hactive, -⟩ | ⟨-, hactive, -⟩
    · refine ⟨hactive ▸ Finset.erase_subset _ _, fun a ha hnot => ?_⟩
      have ha' : a = id := by
        by_contra hne
        exact hnot (hactive ▸ Finset.mem_erase.mpr ⟨hne, ha⟩)
      exact ⟨t, ha' ▸ ht, hnamed.own k id hid t ht hs⟩
    · exact ⟨hactive.le, fun a ha hnot => absurd (hactive ▸ ha) hnot⟩
  · intro a ha
    rcases hcancel with ⟨-, -, -, -, -, hcanceling⟩ | ⟨-, -, hcanceling | hcanceling⟩
    · exact hcanceling ▸ Iff.rfl
    · exact hcanceling ▸ Iff.rfl
    · show a ∈ q.cancelingTimers ↔ _
      rw [hcanceling, Finset.mem_insert, or_iff_right ha]
  · intro ops u hpath p t ht heq
    have hu := reachable_named ((h.step hs').path hpath)
    refine hu.own k id (ids_kept_path hid' hpath) t ?_ ?_
    · rw [← heq]
      exact ht
    · rw [← heq]
  · intro hgone
    have hstale := hnamed.stale hid hgone
    have halike : Alike id s { s with queue := q } := by
      rw [exec_cancel hnamed.inv.owned id] at hq
      cases hq
      exact ⟨hstale.alike_cancel hnamed.inv, rfl, rfl⟩
    have hgone' := hgone.step hnamed (hnamed.known k id hid) hs'
    refine ⟨?_, ?_, fun ops => ⟨fun u hpath => halike.path h hid hgone hpath, fun u' hpath => ?_⟩⟩
    · obtain ⟨c, hc, -⟩ := halike.1
      rw [hc]
    · obtain ⟨c, hc, -⟩ := halike.1
      rw [hc]
    · obtain ⟨u, hu, hback⟩ := halike.symm.path (h.step hs') hid' hgone' hpath
      exact ⟨u, hu, hback.symm⟩

/-- A queue at time 1000, before any call. -/
def unused : TimerClients := ⟨TimerQueue.new 1000 0, [], []⟩

theorem unused_init : clientSystem.init unused := ⟨⟨1000, 0, rfl, by decide, by decide⟩, rfl, rfl⟩

/-- Any step of the queue but those of `addTimer`. -/
theorem queue_step (hq : s.queue.exec a = .ok q) (ha : ∀ u : TimerClients, u.handedOver q a = .ok { u with queue := q }) :
    s.exec (.step a) = .ok { s with queue := q } :=
  bind_eq_ok.mpr ⟨q, hq, ha s⟩

/-- The id of the timer of `lateTimer`. -/
def lateId : ActiveTimer := ⟨16, (⟨500, none, 1⟩ : Timer).sequence⟩

/-- `lateTimer` once its timer was cancelled. -/
def droppedTimer : TimerQueue := (lateTimer.removed lateId ⟨500, none, 1⟩).record (.cancelled 1)

theorem exec_droppedTimer : lateTimer.exec (.cancel lateId) = .ok droppedTimer := by
  rw [exec_cancel (reachable_inv lateTimer_reachable).owned]
  exact congrArg _ (noteCancel_active (Finset.mem_insert_self _ _) rfl rfl)

/-- And a timer for 700 has been added at the same address. -/
def reusedTimer : TimerQueue := (droppedTimer.newTimer 16 700 none).addedAndArmed 16 ⟨700, none, 2⟩

theorem free_dropped : droppedTimer.free 16 := ⟨rfl, by decide, by decide⟩

theorem reusedTimer_timers : reusedTimer.timers = {⟨700, 16⟩} := by decide

theorem lateTimer_named : (clientSystem.when Distinct).Reachable ⟨lateTimer, [], [(1, lateId)]⟩ :=
  System.Reachable.next (.init unused_init) (.step (.addTimer 16 500 none))
    ⟨⟨trivial, free_sixteen, by decide, by decide⟩, fun k => List.not_mem_nil⟩
    (bind_eq_ok.mpr ⟨lateTimer, exec_lateTimer, bind_eq_ok.mpr ⟨_, timerId_eq rfl, rfl⟩⟩)

/-- The calls that led to `reusedTimer`. -/
def reusedClients : TimerClients :=
  ⟨reusedTimer, [], [(1, lateId), (2, ⟨16, (⟨700, none, 2⟩ : Timer).sequence⟩)]⟩

theorem reusedClients_reachable : (clientSystem.when Distinct).Reachable reusedClients := by
  have hdropped : (clientSystem.when Distinct).Reachable ⟨droppedTimer, [], [(1, lateId)]⟩ :=
    lateTimer_named.next (.step (.cancel lateId)) ⟨trivial, trivial⟩ (queue_step exec_droppedTimer fun _ => rfl)
  have hdistinct : lateId ≠ ⟨16, (⟨700, none, 2⟩ : Timer).sequence⟩ := by decide
  have hexec : droppedTimer.exec (.addTimer 16 700 none) = .ok reusedTimer :=
    exec_addTimer (reachable_named hdropped).inv.owned free_dropped
  have hself : reusedTimer.heap 16 = some ⟨700, none, 2⟩ := newTimer_heap_self droppedTimer 16 700 none
  refine hdropped.next (.step (.addTimer 16 700 none)) ⟨⟨trivial, free_dropped, by decide, by decide⟩, ?_⟩
    (bind_eq_ok.mpr ⟨reusedTimer, hexec, bind_eq_ok.mpr ⟨_, timerId_eq hself, rfl⟩⟩)
  intro k hk
  exact hdistinct (congrArg Prod.snd (List.mem_singleton.mp hk)).symm

/-- The only timer is the second. -/
theorem reusedClients_gone : reusedClients.Gone 1 := by
  intro p t ht
  rcases newTimer_heap (q := droppedTimer) ht with ⟨-, rfl⟩ | ⟨hne, ht⟩
  · decide
  · rcases newTimer_heap (q := TimerQueue.new 1000 0) (heap_of_update_none ht).2 with ⟨rfl, -⟩ | ⟨-, ht⟩
    · exact absurd rfl hne
    · exact absurd ht (by simp [TimerQueue.new])

/-- A timer was cancelled, another was added at its address, and the first is cancelled again. -/
theorem cancel_hits_own_timer_reused : ∃ s : TimerClients, (1, lateId) ∈ reusedClients.ids ∧
    (clientSystem.when Distinct).Step reusedClients (.step (.cancel lateId)) s ∧
    reusedClients.queue.timers = {⟨700, 16⟩} ∧ s.queue.timers = {⟨700, 16⟩} := by
  obtain ⟨q, hq, -⟩ := (reachable_named reusedClients_reachable).inv.exec (a := .cancel lateId) trivial
  have hstep : (clientSystem.when Distinct).Step reusedClients (.step (.cancel lateId)) _ :=
    ⟨⟨trivial, trivial⟩, queue_step hq fun _ => rfl⟩
  obtain ⟨-, -, -, -, hstale⟩ := cancel_hits_own_timer reusedClients_reachable List.mem_cons_self hstep
  exact ⟨_, List.mem_cons_self, hstep, reusedTimer_timers, (hstale reusedClients_gone).1.trans reusedTimer_timers⟩

/-- Without `Distinct`, every step of the queue still returns. -/
theorem reachable_queue (h : clientSystem.Reachable s) : s.queue.Inv := by
  refine System.keeps (S := clientSystem) (I := fun s => s.queue.Inv) ?_ ?_ h
  · rintro s ⟨⟨now, n, hnew, -⟩, -⟩
    exact hnew ▸ new_inv now n
  · intro s op s' hs ha hs'
    cases op with
    | step a =>
        obtain ⟨q, hq, hcases⟩ := exec_step hs'
        obtain ⟨q', hq', hinv'⟩ := hs.exec ha
        obtain rfl : q' = q := by simpa using hq'.symm.trans hq
        rcases hcases with ⟨p, when, i, t, -, -, rfl⟩ | ⟨p, when, i, -, rfl⟩ | rfl <;> exact hinv'
    | returns n =>
        obtain ⟨p, k, t, -, -, rfl⟩ := exec_returns ha hs'
        exact hs

theorem endCalls_step {now : Timestamp} {expired : List Entry} (hpt : s.queue.point = .calling now expired []) :
    clientSystem.Step s (.step .endCalls)
      { s with queue := { s.queue with callingExpiredTimers := false, point := .resetting now expired } } :=
  ⟨⟨_, _, hpt⟩, queue_step (exec_endCalls hpt) fun _ => rfl⟩

/-- The timer that another thread has added fires and is deleted before its call of `addTimer` goes on. -/
theorem fired_before_return : ∃ q : TimerQueue, clientSystem.Reachable ⟨q, [(16, 1)], []⟩ ∧ q.point = .idle ∧
    q.numCreated = 1 ∧ q.timers = ∅ ∧ ∀ p, q.heap p = none := by
  have hcreated := System.Reachable.next (.init unused_init) (.step (.addTimerElsewhere 16 500 none))
    ⟨free_sixteen, by decide, by decide⟩ (bind_eq_ok.mpr ⟨_, rfl, rfl⟩)
  obtain ⟨t₁, ht₁, hexec₁⟩ := exec_runFunctor (reachable_queue hcreated).owned (rfl : _ = [16])
  obtain rfl : t₁ = ⟨500, none, 1⟩ := by
    have : some t₁ = some ⟨500, none, 1⟩ := ht₁.symm.trans rfl
    simpa using this
  have hadded : clientSystem.Reachable ⟨lateTimer, [(16, 1)], []⟩ :=
    hcreated.next (.step .runFunctor) ⟨rfl, List.cons_ne_nil _ _⟩ (queue_step hexec₁ fun _ => rfl)
  have hread : clientSystem.Reachable ⟨lateTimer.calling 1000, [(16, 1)], []⟩ :=
    hadded.next (.step .handleRead) rfl (queue_step (exec_handleRead (reachable_queue hadded).owned) fun _ => rfl)
  have hpoint : (lateTimer.calling 1000).point = .calling 1000 [⟨500, 16⟩] [⟨500, 16⟩] := by
    show TimerPoint.calling 1000 (lateTimer.expiredAt 1000) (lateTimer.expiredAt 1000) = _
    rw [lateTimer_expiredAt]
  obtain ⟨t₂, ht₂, hexec₂⟩ := exec_runNext (reachable_queue hread).owned hpoint List.mem_cons_self
  have hrun := hread.next (.step .runNext) ⟨_, _, _, _, hpoint⟩ (queue_step hexec₂ fun _ => rfl)
  have hcalled := hrun.step (endCalls_step rfl)
  obtain ⟨t₃, ht₃, hexec₃⟩ := exec_resetNext (reachable_queue hcalled).owned
    (rfl : _ = TimerPoint.resetting 1000 [⟨500, 16⟩])
  obtain rfl : t₃ = ⟨500, none, 1⟩ := by
    have : some t₃ = some ⟨500, none, 1⟩ := ht₃.symm.trans rfl
    simpa using this
  have hreset := hcalled.next (.step .resetNext) ⟨_, _, _, rfl⟩ (queue_step hexec₃ fun _ => rfl)
  have hlast := exec_resetDone (reachable_queue hreset).owned
  have hdone := hreset.next (.step .resetDone) ⟨1000, rfl⟩ (queue_step hlast fun _ => rfl)
  obtain ⟨hheap, hnum, htimers, -⟩ := (reachable_queue hreset).resetDone hlast
  have hrearmed : (lateTimer.calling 1000).timers = ∅ := by decide
  refine ⟨_, hdone, rfl, hnum.trans rfl, htimers.trans hrearmed, ?_⟩
  intro p
  rw [hheap]
  cases hp : Function.update lateTimer.heap 16 none p with
  | none => exact hp
  | some t =>
      rcases newTimer_heap (q := TimerQueue.new 1000 0) (heap_of_update_none hp).2 with ⟨rfl, -⟩ | ⟨-, ht⟩
      · exact absurd rfl (heap_of_update_none hp).1
      · exact absurd ht (by simp [TimerQueue.new])

/-- Another thread adds a timer for 500 at time 1000. Before its call of `addTimer` reads the sequence number, the
    timer fires and is deleted, and a timer for 5000 is added at its address. The id returned for the first timer
    is then the one of the second, which a `cancel` of the first removes. -/
theorem cancel_hits_other_timer : ∃ s s' : TimerClients, ∃ id, clientSystem.Reachable s ∧ (1, id) ∈ s.ids ∧
    s.Gone 1 ∧ clientSystem.Step s (.step (.cancel id)) s' ∧ s.queue.timers = {⟨5000, 16⟩} ∧
    s'.queue.timers = ∅ := by
  obtain ⟨q, hfired, hpoint, hnum, htimers, hheap⟩ := fired_before_return
  have hinv := reachable_queue hfired
  have hfree : q.free 16 := ⟨hheap 16, by decide, by decide⟩
  have huser : q.userCode := by
    unfold userCode
    rw [hpoint]
    trivial
  -- the second timer, whose sequence number the first call then reads
  obtain ⟨r, hr⟩ : ∃ r, r = (q.newTimer 16 5000 none).addedAndArmed 16 ⟨5000, none, q.numCreated + 1⟩ := ⟨_, rfl⟩
  have hexec : q.exec (.addTimer 16 5000 none) = .ok r := hr ▸ exec_addTimer hinv.owned hfree
  have hself : r.heap 16 = some ⟨5000, none, q.numCreated + 1⟩ := hr ▸ newTimer_heap_self q 16 5000 none
  have htimers' : r.timers = {⟨5000, 16⟩} := by
    rw [hr]
    show Insert.insert _ q.timers = _
    rw [htimers]
    rfl
  have hadded := hfired.next (.step (.addTimer 16 5000 none)) ⟨huser, hfree, by decide, by decide⟩
    (bind_eq_ok.mpr ⟨r, hexec, bind_eq_ok.mpr ⟨_, timerId_eq hself, rfl⟩⟩)
  have hreturned := hadded.next (.returns 0) Nat.zero_lt_one (bind_eq_ok.mpr ⟨_, timerId_eq hself, rfl⟩)
  have hactive : ⟨16, (⟨5000, none, q.numCreated + 1⟩ : Timer).sequence⟩ ∈ r.activeTimers := by
    rw [hr]
    exact Finset.mem_insert_self _ _
  have hcancel := exec_cancel (reachable_queue hreturned).owned
    ⟨16, (⟨5000, none, q.numCreated + 1⟩ : Timer).sequence⟩
  refine ⟨_, _, _, hreturned, List.mem_append_right _ (List.mem_singleton_self _), ?_,
    ⟨?_, queue_step hcancel fun _ => rfl⟩, htimers', ?_⟩
  · intro p t ht
    rw [hr] at ht
    rcases newTimer_heap (q := q) ht with ⟨-, rfl⟩ | ⟨-, ht⟩
    · simp [hnum]
    · rw [hheap] at ht
      exact absurd ht (by simp)
  · rw [hr]
    exact huser
  · have hs : (⟨5000, none, q.numCreated + 1⟩ : Timer).sequence
        = (⟨16, (⟨5000, none, q.numCreated + 1⟩ : Timer).sequence⟩ : ActiveTimer).sequence := by dsimp only
    show ((r.cancelled _).noteCancel _ r).timers = ∅
    rw [noteCancel_active hactive hself hs]
    show r.timers.erase ⟨5000, 16⟩ = ∅
    rw [htimers', Finset.erase_singleton]

end Muduo.Net.TimerClients
