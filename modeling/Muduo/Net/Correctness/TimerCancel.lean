import Muduo.Net.Correctness.TimerRuns

/-!
# `Correctness.TimerCancel` — when `cancel` takes effect at once

Whether `cancel` stops a timer depends on where the timer is. In the sets, it is removed and deleted. In the
expired batch, it is noted in `cancelingTimers_`, which `reset` consults but the loop over the callbacks does not:
if its turn is still to come, its callback is started all the same. In a queued `addTimerInLoop` functor, it is
not found at all.

`Heeded` is what is left of a cancelled timer otherwise: it has had its turn in the batch, and is noted.
-/

namespace Muduo.Net.TimerQueue

open Lib OrderedSet

variable {q q' : TimerQueue} {p : Nat} {t : Timer}

/-- The part of the expired batch whose callbacks have not been started. -/
def unrun (q : TimerQueue) : List Entry :=
  match q.point with
  | .idle => []
  | .calling _ _ todo => todo
  | .resetting _ _ => []

theorem unrun_of_calling {now : Timestamp} {expired todo : List Entry} (hpt : q.point = .calling now expired todo) :
    q.unrun = todo := by
  unfold unrun
  rw [hpt]

theorem unrun_of_resetting {now : Timestamp} {rest : List Entry} (hpt : q.point = .resetting now rest) :
    q.unrun = [] := by
  unfold unrun
  rw [hpt]

/-- A `cancel` of a timer that exists finds it neither in a queued functor nor in the part of the expired
    batch that is still to be run. -/
def InTime (q : TimerQueue) : TimerOp → Prop
  | .cancel id => ∀ t, q.heap id.timer = some t → t.sequence = id.sequence →
      id.timer ∉ q.queued ∧ id.timer ∉ q.unrun.map Entry.timer
  | _ => True

/-- No callback is started after it was cancelled; and a cancelled timer that still exists has had its turn in
    the expired batch and will not be inserted again. -/
structure Heeded (q : TimerQueue) : Prop where
  order : q.log.Pairwise fun a b => ∀ k, a = .cancelled k → b ≠ .started k
  parked : ∀ p t, q.heap p = some t → TimerEvent.cancelled t.serial ∈ q.log →
    p ∉ q.queued ∧ p ∉ q.unrun.map Entry.timer ∧ (∀ e ∈ q.timers, e.timer ≠ p) ∧
    (⟨p, t.sequence⟩ : ActiveTimer) ∈ q.cancelingTimers

theorem order_append {log : List TimerEvent} {ev : TimerEvent}
    (h : log.Pairwise fun a b => ∀ k, a = TimerEvent.cancelled k → b ≠ .started k)
    (hev : ∀ k, ev = .started k → TimerEvent.cancelled k ∉ log) :
    (log ++ [ev]).Pairwise fun a b => ∀ k, a = TimerEvent.cancelled k → b ≠ .started k := by
  refine List.pairwise_append.mpr ⟨h, List.pairwise_singleton _ _, ?_⟩
  rintro a ha b hb k rfl hk
  obtain rfl : b = ev := by simpa using hb
  exact hev k hk ha

theorem mem_of_mem_append {log : List TimerEvent} {ev : TimerEvent} {k : Nat}
    (h : TimerEvent.cancelled k ∈ log ++ [ev]) (hev : ev ≠ .cancelled k) : TimerEvent.cancelled k ∈ log := by
  rcases List.mem_append.mp h with h | h
  · exact h
  · exact absurd (List.mem_singleton.mp h).symm hev

/-- Events other than starts and cancellations, on a change that brings no timer back. -/
theorem Heeded.keep (h : Heeded q) (ev : TimerEvent) (hstart : ∀ k, ev ≠ .started k)
    (hcancel : ∀ k, ev ≠ .cancelled k) (hlog : q'.log = q.log ++ [ev])
    (hheap : ∀ p t', q'.heap p = some t' → TimerEvent.cancelled t'.serial ∈ q.log →
      ∃ t, q.heap p = some t ∧ t.serial = t'.serial ∧
        (p ∉ q.queued → p ∉ q.unrun.map Entry.timer → (∀ e ∈ q.timers, e.timer ≠ p) →
          (⟨p, t.sequence⟩ : ActiveTimer) ∈ q.cancelingTimers →
          p ∉ q'.queued ∧ p ∉ q'.unrun.map Entry.timer ∧ (∀ e ∈ q'.timers, e.timer ≠ p) ∧
          (⟨p, t'.sequence⟩ : ActiveTimer) ∈ q'.cancelingTimers)) : Heeded q' := by
  refine ⟨?_, ?_⟩
  · rw [hlog]
    exact order_append h.order fun k hk => absurd hk (hstart k)
  · intro p t' ht' hmem
    rw [hlog] at hmem
    have hmem' := mem_of_mem_append hmem (hcancel _)
    obtain ⟨t, ht, hserial, hkeep⟩ := hheap p t' ht' hmem'
    obtain ⟨h₁, h₂, h₃, h₄⟩ := h.parked p t ht (hserial ▸ hmem')
    exact hkeep h₁ h₂ h₃ h₄

/-- What `Heeded` depends on, the batch apart. -/
def marks (q : TimerQueue) :
    List TimerEvent × (Nat → Option Timer) × List Nat × Finset Entry × Finset ActiveTimer :=
  (q.log, q.heap, q.queued, q.timers, q.cancelingTimers)

theorem Heeded.congr (h : Heeded q) (heq : q'.marks = q.marks) (hunrun : q'.unrun = q.unrun) : Heeded q' := by
  obtain ⟨hlog, hheap, hqueued, htimers, hcanceling⟩ : q'.log = q.log ∧ q'.heap = q.heap ∧
      q'.queued = q.queued ∧ q'.timers = q.timers ∧ q'.cancelingTimers = q.cancelingTimers := by
    simpa [marks] using heq
  refine ⟨by rw [hlog]; exact h.order, ?_⟩
  rw [hlog, hheap, hqueued, hunrun, htimers, hcanceling]
  exact h.parked

/-- A serial number that has not been given out has not been cancelled. -/
theorem Inv.not_cancelled (h : q.Inv) {k : Nat} (hk : q.numCreated < k) : TimerEvent.cancelled k ∉ q.log := by
  intro hmem
  have hle : k ≤ q.numCreated := h.logged.past _ hmem
  omega

/-- A new timer has not been cancelled. -/
theorem Heeded.newTimer (h : Heeded q) (hinv : q.Inv) (when : Timestamp) (i : Option Interval) :
    Heeded (q.newTimer p when i) ∧ ∀ p' t', (q.newTimer p when i).heap p' = some t' →
      TimerEvent.cancelled t'.serial ∈ (q.newTimer p when i).log → p' ≠ p := by
  have hmem : ∀ k, TimerEvent.cancelled k ∈ (q.newTimer p when i).log → TimerEvent.cancelled k ∈ q.log :=
    fun k hk => mem_of_mem_append hk (by simp)
  have hold : ∀ p' t', (q.newTimer p when i).heap p' = some t' → TimerEvent.cancelled t'.serial ∈ q.log →
      p' ≠ p ∧ q.heap p' = some t' := by
    intro p' t' ht' hk
    rcases newTimer_heap ht' with ⟨-, rfl⟩ | hold
    · exact absurd hk (hinv.not_cancelled (Nat.lt_succ_self _))
    · exact hold
  refine ⟨h.keep (.created (q.numCreated + 1)) (by simp) (by simp) rfl fun p' t' ht' hk => ?_,
    fun p' t' ht' hk => (hold p' t' ht' (hmem _ hk)).1⟩
  exact ⟨t', (hold p' t' ht' hk).2, rfl, fun h₁ h₂ h₃ h₄ => ⟨h₁, h₂, h₃, h₄⟩⟩

/-- A timer that has not been cancelled enters the sets. -/
theorem Heeded.added (h : Heeded q) (hp : q.heap p = some t) (hlive : TimerEvent.cancelled t.serial ∉ q.log) :
    Heeded (q.added p t) := by
  refine h.keep (.inserted t.serial) (by simp) (by simp) rfl ?_
  intro p' t' ht' hk
  have hne : p' ≠ p := by
    rintro rfl
    obtain rfl : t = t' := by simpa using hp.symm.trans ht'
    exact hlive hk
  refine ⟨t', ht', rfl, fun h₁ h₂ h₃ h₄ => ⟨h₁, h₂, ?_, h₄⟩⟩
  intro e he
  rcases Finset.mem_insert.mp he with rfl | he
  · exact fun heq : p = p' => hne heq.symm
  · exact h₃ e he

/-- A timer is deleted. -/
theorem Heeded.deleted (h : Heeded q) : Heeded ((q.store p none).record (.deleted t.serial)) := by
  refine h.keep (.deleted t.serial) (by simp) (by simp) rfl ?_
  intro p' t' ht' _
  exact ⟨t', (heap_of_update_none ht').2, rfl, fun h₁ h₂ h₃ h₄ => ⟨h₁, h₂, h₃, h₄⟩⟩

/-! ## `cancel` -/

/-- The timer is in the sets: it is deleted. -/
theorem Heeded.cancel_active (h : Heeded q) (hinv : q.Inv) {id : ActiveTimer}
    (hp : q.heap id.timer = some t) : Heeded ((q.removed id t).record (.cancelled t.serial)) := by
  have hheap : ∀ p' t', (q.removed id t).heap p' = some t' → p' ≠ id.timer ∧ q.heap p' = some t' :=
    fun p' t' ht' => heap_of_update_none ht'
  have hremoved : Heeded (q.removed id t) := by
    refine h.keep (.deleted t.serial) (by simp) (by simp) rfl ?_
    intro p' t' ht' _
    refine ⟨t', (hheap p' t' ht').2, rfl, fun h₁ h₂ h₃ h₄ => ⟨h₁, h₂, ?_, h₄⟩⟩
    intro e he
    exact h₃ e (Finset.mem_of_mem_erase he)
  refine ⟨order_append hremoved.order (by simp), ?_⟩
  intro p' t' ht' hmem
  rcases List.mem_append.mp hmem with hmem | hmem
  · exact hremoved.parked p' t' ht' hmem
  · obtain ⟨hne, ht''⟩ := hheap p' t' ht'
    exact absurd (hinv.logged.unique p' id.timer t' t ht'' hp (by simpa using hmem)) hne

/-- A timer that is neither in the sets nor in a queued functor is in the batch, and user code is called from
    there. -/
theorem Inv.calling_of_cancel (hinv : q.Inv) (huser : q.userCode) {id : ActiveTimer}
    (hid : id ∉ q.activeTimers) (hp : q.heap id.timer = some t) (hs : t.sequence = id.sequence)
    (hqueued : id.timer ∉ q.queued) :
    q.callingExpiredTimers = true ∧ ∀ e ∈ q.timers, e.timer ≠ id.timer := by
  have hfree : ∀ e ∈ q.timers, e.timer ≠ id.timer := by
    intro e he heq
    obtain ⟨t', ht', -, ha⟩ := hinv.owned.inStep.entries e he
    rw [heq, hp] at ht'
    obtain rfl : t = t' := by simpa using ht'
    rw [heq, hs] at ha
    exact hid ha
  refine ⟨?_, hfree⟩
  rcases hinv.owned.located _ t hp with hout | ⟨e, he, heq⟩
  · have hbatch := (List.mem_append.mp hout).resolve_left hqueued
    unfold batch at hbatch
    unfold userCode at huser
    cases hpt : q.point with
    | idle => rw [hpt] at hbatch; exact absurd hbatch (by simp)
    | calling now expired todo => exact hinv.flag.mpr ⟨now, expired, todo, hpt⟩
    | resetting now rest => rw [hpt] at huser; exact huser.elim
  · exact absurd heq (hfree e he)

theorem Heeded.note (h : Heeded q) (id : ActiveTimer) :
    Heeded { q with cancelingTimers := Insert.insert id q.cancelingTimers } := by
  refine ⟨h.order, ?_⟩
  intro p t ht hmem
  obtain ⟨h₁, h₂, h₃, h₄⟩ := h.parked p t ht hmem
  exact ⟨h₁, h₂, h₃, Finset.mem_insert_of_mem h₄⟩

/-- The timer has had its turn in the batch: it is noted, and will be deleted. -/
theorem Heeded.cancel_noted (h : Heeded q) (hinv : q.Inv) {id : ActiveTimer} (ht : q.heap id.timer = some t)
    (hs : t.sequence = id.sequence) (hqueued : id.timer ∉ q.queued)
    (hunrun : id.timer ∉ q.unrun.map Entry.timer) (hfree : ∀ e ∈ q.timers, e.timer ≠ id.timer) :
    Heeded { q.record (.cancelled t.serial) with
      cancelingTimers := Insert.insert id q.cancelingTimers } := by
  have hnote := h.note id
  refine ⟨order_append hnote.order (by simp), ?_⟩
  intro p' t' ht' hmem
  rcases List.mem_append.mp hmem with hmem | hmem
  · exact hnote.parked p' t' ht' hmem
  · obtain rfl : p' = id.timer := hinv.logged.unique p' id.timer t' t ht' ht (by simpa using hmem)
    obtain rfl : t = t' := by simpa using ht.symm.trans ht'
    refine ⟨hqueued, hunrun, hfree, Finset.mem_insert.mpr (Or.inl ?_)⟩
    rw [hs]

theorem Heeded.cancel (h : Heeded q) (hinv : q.Inv) (huser : q.userCode) {id : ActiveTimer}
    (hin : q.InTime (.cancel id)) : Heeded ((q.cancelled id).noteCancel id q) := by
  by_cases hid : id ∈ q.activeTimers
  · -- in the sets: deleted on the spot
    obtain ⟨t, ht, hs, -⟩ := hinv.owned.inStep.active id hid
    rw [noteCancel_active hid ht hs]
    exact h.cancel_active hinv ht
  · by_cases hlive : ∃ t, q.heap id.timer = some t ∧ t.sequence = id.sequence
    · -- in the batch, and `hin` says that its turn is over
      obtain ⟨t, ht, hs⟩ := hlive
      obtain ⟨hqueued, hunrun⟩ := hin t ht hs
      obtain ⟨hcalling, hfree⟩ := hinv.calling_of_cancel huser hid ht hs hqueued
      rw [noteCancel_noted hid hcalling ht hs]
      exact h.cancel_noted hinv ht hs hqueued hunrun hfree
    · -- the timer with this id is gone, so nothing was cancelled
      have hnone : (q.cancelled id).noteCancel id q = q.cancelled id := by
        unfold noteCancel
        split
        · next t ht => exact if_neg fun hs => hlive ⟨t, ht, hs⟩
        · rfl
      rw [hnone]
      unfold cancelled
      rw [if_neg hid]
      split
      · exact h.note id
      · exact h

/-! ## Every run -/

theorem Heeded.runNext (h : Heeded q) {now : Timestamp} {expired todo : List Entry} {e : Entry}
    (hpt : q.point = .calling now expired (e :: todo)) (ht : q.heap e.timer = some t) :
    Heeded { q.record (.started t.serial) with point := .calling now expired todo } := by
  have hunrun := unrun_of_calling hpt
  refine ⟨order_append h.order ?_, ?_⟩
  · intro k hk hmem
    -- a cancelled timer is not among those still to be run, but `e` is
    obtain rfl : t.serial = k := by simpa using hk
    obtain ⟨-, hnot, -⟩ := h.parked e.timer t ht hmem
    rw [hunrun] at hnot
    exact hnot List.mem_cons_self
  · intro p' t' ht' hmem
    obtain ⟨h₁, h₂, h₃, h₄⟩ := h.parked p' t' ht' (mem_of_mem_append hmem (by simp))
    rw [hunrun] at h₂
    exact ⟨h₁, fun hmem' => h₂ (List.mem_cons_of_mem _ hmem'), h₃, h₄⟩

/-- `handleRead` starts when nothing that was cancelled is left. -/
theorem Heeded.handleRead (h : Heeded q) (hinv : q.Inv) (hpt : q.point = .idle) :
    Heeded (q.calling q.clock) := by
  refine ⟨h.order, ?_⟩
  intro p t ht hmem
  obtain ⟨h₁, -, h₃, -⟩ := h.parked p t ht hmem
  -- with no batch, the timer would be queued or in the sets, and a cancelled one is in neither
  rcases hinv.owned.located p t ht with hout | ⟨e, he, heq⟩
  · rw [outside_of_idle hpt] at hout
    exact absurd hout h₁
  · exact absurd heq (h₃ e he)

theorem Heeded.restarted (h : Heeded q) (hp : q.heap p = some t) (now : Timestamp) :
    Heeded (q.restarted p t now) := by
  refine h.keep (.restarted t.serial) (by simp) (by simp) rfl ?_
  intro p' t' ht' _
  rcases heap_of_update_some ht' with ⟨rfl, rfl⟩ | ⟨-, ht'⟩
  · refine ⟨t, hp, (restart_serial t now).symm, fun h₁ h₂ h₃ h₄ => ⟨h₁, h₂, h₃, ?_⟩⟩
    unfold Timer.sequence at h₄ ⊢
    rw [restart_serial]
    exact h₄
  · exact ⟨t', ht', rfl, fun h₁ h₂ h₃ h₄ => ⟨h₁, h₂, h₃, h₄⟩⟩

/-- `reset` inserts a timer again only if it was not cancelled. -/
theorem Heeded.resetNext (h : Heeded q) {now : Timestamp} {rest : List Entry} {e : Entry}
    (ht : q.heap e.timer = some t) (hpt : q.point = .resetting now (e :: rest)) :
    Heeded (q.resetStep now e t rest) := by
  unfold resetStep
  split
  · next hrep =>
      have hlive : TimerEvent.cancelled t.serial ∉ q.log := fun hmem => hrep.2 (h.parked _ t ht hmem).2.2.2
      have hrestarted := h.restarted ht now
      have hself := restarted_heap_self q e.timer t now
      refine (hrestarted.added hself fun hmem => hlive ?_).congr rfl (unrun_of_resetting hpt).symm
      rw [restart_serial] at hmem
      exact mem_of_mem_append hmem (by simp)
  · exact (h.deleted (p := e.timer) (t := t)).congr rfl (unrun_of_resetting hpt).symm

theorem Heeded.exec (h : Heeded q) (hinv : q.Inv) {a : TimerOp} (ha : q.enabled a) (hin : q.InTime a)
    (hq' : q.exec a = .ok q') : Heeded q' := by
  cases hinv.does ha hq' with
  | @addTimer p when i _ _ _ =>
      obtain ⟨hnew, hne⟩ := h.newTimer (p := p) hinv when i
      have hself := newTimer_heap_self q p when i
      exact (hnew.added hself fun hmem => hne p _ hself hmem rfl).congr rfl rfl
  | @addTimerElsewhere p when i _ _ =>
      obtain ⟨hnew, hne⟩ := h.newTimer (p := p) hinv when i
      refine ⟨hnew.order, ?_⟩
      intro p' t' ht' hmem
      obtain ⟨h₁, h₂, h₃, h₄⟩ := hnew.parked p' t' ht' hmem
      refine ⟨?_, h₂, h₃, h₄⟩
      intro hmem'
      rcases List.mem_append.mp hmem' with hmem' | hmem'
      · exact h₁ hmem'
      · exact hne p' t' ht' hmem (List.mem_singleton.mp hmem')
  | @runFunctor p ps t _ hps ht =>
      have hlive : TimerEvent.cancelled t.serial ∉ q.log := by
        intro hmem
        obtain ⟨hnot, -⟩ := h.parked p t ht hmem
        rw [hps] at hnot
        exact hnot List.mem_cons_self
      have hrest : Heeded { q with queued := ps } := by
        refine ⟨h.order, ?_⟩
        intro p' t' ht' hmem
        obtain ⟨h₁, h₂, h₃, h₄⟩ := h.parked p' t' ht' hmem
        rw [hps] at h₁
        exact ⟨fun hmem' => h₁ (List.mem_cons_of_mem _ hmem'), h₂, h₃, h₄⟩
      exact (hrest.added ht hlive).congr rfl rfl
  | cancel huser => exact h.cancel hinv huser hin
  | handleRead hpt => exact h.handleRead hinv hpt
  | runNext hpt _ ht => exact h.runNext hpt ht
  | endCalls hpt => exact h.congr rfl (unrun_of_calling hpt).symm
  | resetNext hpt ht => exact h.resetNext ht hpt
  | resetDone hpt =>
      unfold rearmed
      split
      · exact h.congr rfl (unrun_of_resetting hpt).symm
      · split <;> exact h.congr rfl (unrun_of_resetting hpt).symm
  | expire => exact h.congr rfl rfl
  | tick _ _ => exact h.congr rfl rfl
  | createdElsewhere => exact h.congr rfl rfl

theorem new_heeded (now : Timestamp) (n : Nat) : Heeded (TimerQueue.new now n) :=
  ⟨List.Pairwise.nil, fun p t ht => absurd ht (by simp [TimerQueue.new])⟩

/-- **A cancellation in time is final.** In every run in which every `cancel` of an existing timer finds it
    neither in a queued functor nor in the part of the expired batch that is still to be run, no callback is
    started after a `cancel` of its timer has returned. -/
theorem no_start_after_cancel (h : (timerSystem.when InTime).Reachable q) :
    q.log.Pairwise fun a b => ∀ k, a = .cancelled k → b ≠ .started k := by
  have hheeded : Heeded q := by
    refine inv_of_when ?_ ?_ h
    · intro now n _ _
      exact new_heeded now n
    · intro q a q' hinv hq ha hin hexec
      exact hq.exec hinv ha hin hexec
  exact hheeded.order

/-- Cancelled while it is in the sets, a timer is deleted. -/
theorem no_start_after_cancel_set : ∃ q : TimerQueue,
    q.log = [.created 1, .inserted 1, .deleted 1, .cancelled 1] ∧
    q.log.Pairwise fun a b => ∀ k, a = .cancelled k → b ≠ .started k := by
  have hadded : (timerSystem.when InTime).Reachable lateTimer :=
    System.Reachable.next (.init ⟨1000, 0, rfl, by decide, by decide⟩) (.addTimer 16 500 none)
      ⟨⟨trivial, free_sixteen, by decide, by decide⟩, trivial⟩ exec_lateTimer
  have hin : lateTimer.InTime (.cancel ⟨16, 1⟩) := fun t _ _ => ⟨List.not_mem_nil, List.not_mem_nil⟩
  have hcancelled := hadded.next (.cancel ⟨16, 1⟩) ⟨trivial, hin⟩
    (exec_cancel (reachable_inv lateTimer_reachable).owned _)
  exact ⟨_, rfl, no_start_after_cancel hcancelled⟩

/-- Both timers have expired, and the callback of the first cancels the second. -/
theorem cancel_in_batch_ignored : ∃ q : TimerQueue, timerSystem.Reachable q ∧
    q.log = [.created 1, .inserted 1, .created 2, .inserted 2, .started 1, .cancelled 2, .started 2] ∧
    ¬ q.log.Pairwise fun a b => ∀ k, a = .cancelled k → b ≠ .started k := by
  have hread := lateTimers_reachable.next .handleRead rfl
    (exec_handleRead (reachable_inv lateTimers_reachable).owned)
  have hpoint : (lateTimers.calling lateTimers.clock).point
      = .calling 1000 [⟨500, 16⟩, ⟨600, 32⟩] [⟨500, 16⟩, ⟨600, 32⟩] := by
    show TimerPoint.calling 1000 (lateTimers.expiredAt 1000) (lateTimers.expiredAt 1000) = _
    rw [lateTimers_expiredAt]
  obtain ⟨t₁, ht₁, hexec₁⟩ := exec_runNext (reachable_inv hread).owned hpoint List.mem_cons_self
  obtain rfl : t₁ = ⟨500, none, 1⟩ := by
    have : some t₁ = some ⟨500, none, 1⟩ := ht₁.symm.trans rfl
    simpa using this
  have hrun := hread.next .runNext ⟨_, _, _, _, hpoint⟩ hexec₁
  have hnot : (⟨32, 2⟩ : ActiveTimer) ∉ (lateTimers.calling lateTimers.clock).activeTimers := by
    show _ ∉ lateTimers.activeTimers.filter fun a => a.timer ∉ (lateTimers.expiredAt 1000).map Entry.timer
    rw [lateTimers_expiredAt]
    simp
  have hnoted := hrun.next (.cancel ⟨32, 2⟩) (Nat.lt_succ_self 1)
    ((exec_cancel (reachable_inv hrun).owned _).trans
      (congrArg _ (noteCancel_noted (t := ⟨600, none, 2⟩) hnot rfl rfl (by decide))))
  obtain ⟨t₂, ht₂, hexec₂⟩ := exec_runNext (reachable_inv hnoted).owned
    (rfl : _ = TimerPoint.calling 1000 [⟨500, 16⟩, ⟨600, 32⟩] [⟨600, 32⟩]) (by decide)
  obtain rfl : t₂ = ⟨600, none, 2⟩ := by
    have : some t₂ = some ⟨600, none, 2⟩ := ht₂.symm.trans rfl
    simpa using this
  refine ⟨_, hnoted.next .runNext ⟨_, _, _, _, rfl⟩ hexec₂, rfl, ?_⟩
  show ¬ List.Pairwise _ ([.created 1, .inserted 1, .created 2, .inserted 2, .started 1, .cancelled 2,
    .started 2] : List TimerEvent)
  simp

end Muduo.Net.TimerQueue
