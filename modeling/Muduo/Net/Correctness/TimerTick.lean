import Muduo.Net.Correctness.TimerCancel

/-!
# `Correctness.TimerTick` — what one `handleRead` runs and what it leaves

A tick that starts in `q` takes the timers due at `q.clock` out of the sets; between that and its end, callbacks
add and cancel timers, and other threads create some. `Ticked` relates a state inside the tick to `q`: the
callbacks of a prefix of the batch have been started, and a prefix of it has been through `reset`. A timer of
the batch is outside the sets until then, so a `cancel` during the tick only notes it, and `reset` finds the note.

`Stays` says which timers a tick keeps; what it leaves in `timers_` are those of them that were not cancelled
during the tick.
-/

namespace Muduo.Net.TimerQueue

open Lib OrderedSet

variable {q s s' : TimerQueue} {added news : List (Nat × Timer)} {seg evs : List TimerEvent}
  {run done : List Entry} {p : Nat} {t : Timer}

/-! ## A tick -/

/-- The timer `t`, at address `p`, is in `timers_`. -/
def Queued (q : TimerQueue) (p : Nat) (t : Timer) : Prop :=
  q.heap p = some t ∧ (⟨t.expiration, p⟩ : Entry) ∈ q.timers

/-- The timer that the step adds to `timers_` on behalf of a callback. -/
def addedBy (q : TimerQueue) : TimerOp → List (Nat × Timer)
  | .addTimer p when i => [(p, ⟨when, i, q.numCreated + 1⟩)]
  | _ => []

/-- The `handleRead` that starts in `q` has come to this state, and its callbacks have added these timers. -/
inductive Ticking (q : TimerQueue) : List (Nat × Timer) → TimerQueue → Prop where
  | start {s : TimerQueue} : timerSystem.Step q .handleRead s → Ticking q [] s
  | next {added : List (Nat × Timer)} {s s' : TimerQueue} {a : TimerOp} : Ticking q added s → a ≠ .resetDone →
      timerSystem.Step s a s' → Ticking q (added ++ s.addedBy a) s'

/-- The timers whose callbacks were started, in order. -/
def startedIn (log : List TimerEvent) : List Nat :=
  log.filterMap fun ev => match ev with
    | .started k => some k
    | _ => none

/-- The timers that the tick keeps unless they are cancelled, when `reset` is done with the entries `done`. -/
def Stays (q : TimerQueue) (added : List (Nat × Timer)) (done : List Entry) (p : Nat) (t : Timer) : Prop :=
  (q.Queued p t ∧ q.clock < t.expiration) ∨ (p, t) ∈ added ∨
    ∃ t₀ i, (⟨t₀.expiration, p⟩ : Entry) ∈ done ∧ q.heap p = some t₀ ∧ t₀.interval = some i ∧
      t = { t₀ with expiration := addTime q.clock i.delta }

/-- The callbacks of `run` have been started, and `reset` is done with `done`. -/
def Reached (q s : TimerQueue) (run done : List Entry) : Prop :=
  (∃ todo, s.point = .calling q.clock (q.expiredAt q.clock) todo ∧ q.expiredAt q.clock = run ++ todo ∧ done = []) ∨
    ∃ rest, s.point = .resetting q.clock rest ∧ run = q.expiredAt q.clock ∧ q.expiredAt q.clock = done ++ rest

/-- The timers of these entries. -/
def timersOf (q : TimerQueue) (es : List Entry) : List Timer := es.filterMap fun e => q.heap e.timer

/-- A state inside the tick that started in `q`; `seg` has been logged since. -/
structure Ticked (q : TimerQueue) (added : List (Nat × Timer)) (seg : List TimerEvent) (run done : List Entry)
    (s : TimerQueue) : Prop where
  log : s.log = q.log ++ seg
  reached : Reached q s run done
  created : q.numCreated ≤ s.numCreated
  fresh : ∀ a ∈ added, q.numCreated < a.2.serial
  /-- The timers of the batch have not changed. -/
  heap : ∀ e ∈ s.batch, s.heap e.timer = q.heap e.timer
  noted : ∀ e ∈ s.batch, ∀ t, q.heap e.timer = some t →
    ((⟨e.timer, t.sequence⟩ : ActiveTimer) ∈ s.cancelingTimers ↔ .cancelled t.serial ∈ seg)
  started : startedIn seg = (q.timersOf run).map Timer.serial
  queued : ∀ p t, s.Queued p t ↔ q.Stays added done p t ∧ .cancelled t.serial ∉ seg
  gone : ∀ e ∈ done, ∀ t, q.heap e.timer = some t → t.interval = none ∨ .cancelled t.serial ∈ seg →
    .deleted t.serial ∈ seg

/-! ## The batch -/

theorem Owned.mem_expiredAt {L : List Nat} (h : Owned q L) {now : Timestamp} {e : Entry} :
    e ∈ q.expiredAt now ↔ e ∈ q.timers ∧ e.when ≤ now := by
  refine mem_below.trans (and_congr_right fun he => ?_)
  obtain ⟨t, ht, -⟩ := h.inStep.entries e he
  exact lt_sentry_iff (h.address _ t ht)

/-- The timers of the batch are the timers that are due. -/
theorem Owned.mem_timersOf {L : List Nat} (h : Owned q L) {now : Timestamp} :
    t ∈ q.timersOf (q.expiredAt now) ↔ ∃ p, q.Queued p t ∧ t.expiration ≤ now := by
  unfold timersOf
  rw [List.mem_filterMap]
  constructor
  · rintro ⟨e, he, ht⟩
    obtain ⟨hmem, hle⟩ := h.mem_expiredAt.mp he
    obtain ⟨t', ht', hw, -⟩ := h.inStep.entries e hmem
    obtain rfl : t' = t := by simpa using ht'.symm.trans ht
    refine ⟨e.timer, ⟨ht, ?_⟩, hw ▸ hle⟩
    rw [hw]
    exact hmem
  · rintro ⟨p, ⟨ht, hmem⟩, hle⟩
    exact ⟨⟨t.expiration, p⟩, h.mem_expiredAt.mpr ⟨hmem, hle⟩, ht⟩

/-- An entry of the batch shows when its timer was to expire. -/
theorem InStep.when_eq (h : InStep q) {now : Timestamp} {e : Entry} (he : e ∈ q.expiredAt now)
    (ht : q.heap e.timer = some t) : e = ⟨t.expiration, e.timer⟩ := by
  obtain ⟨t', ht', hw, -⟩ := h.entries e (mem_below.mp he).1
  obtain rfl : t' = t := by simpa using ht'.symm.trans ht
  rw [hw]

/-- The batch is in the order in which its timers expire. -/
theorem InStep.pairwise_timersOf (h : InStep q) (now : Timestamp) :
    (q.timersOf (q.expiredAt now)).Pairwise fun t t' => t.expiration ≤ t'.expiration := by
  refine List.pairwise_filterMap.mpr ((pairwise_below (s := q.timers)).imp_of_mem ?_)
  intro e e' he he' hle t ht t' ht'
  have hw := congrArg Entry.when (h.when_eq he ht)
  have hw' := congrArg Entry.when (h.when_eq he' ht')
  rw [← show e.when = t.expiration from hw, ← show e'.when = t'.expiration from hw']
  rcases Prod.Lex.le_iff.mp (show e.key ≤ e'.key from hle) with hlt | ⟨heq, -⟩
  · exact le_of_lt hlt
  · exact le_of_eq heq

/-- No timer is in the batch twice. -/
theorem Inv.nodup_timersOf (h : q.Inv) (now : Timestamp) :
    ((q.timersOf (q.expiredAt now)).map Timer.serial).Nodup := by
  refine List.pairwise_map.mpr (List.pairwise_filterMap.mpr ((nodup_below (s := q.timers)).imp_of_mem ?_))
  intro e e' he he' hne t ht t' ht' heq
  have htimer := h.logged.unique _ _ _ _ ht ht' heq
  exact hne (h.owned.inStep.entry_eq (mem_below.mp he).1 (mem_below.mp he').1 htimer)

/-! ## Steps that leave the batch alone -/

theorem startedIn_append (l l' : List TimerEvent) : startedIn (l ++ l') = startedIn l ++ startedIn l' :=
  List.filterMap_append

/-- More timers are added, and others are cancelled, while the batch stays as it is. -/
theorem Ticked.keep (h : Ticked q added seg run done s) (hinv : s.Inv) (hlog : s'.log = s.log ++ evs)
    (hpoint : s'.point = s.point) (hcreated : s.numCreated ≤ s'.numCreated) (hstarted : startedIn evs = [])
    (hcancel : done ≠ [] → ∀ k, TimerEvent.cancelled k ∉ evs)
    (hheap : ∀ e ∈ s.batch, s'.heap e.timer = s.heap e.timer)
    (hnoted : ∀ e ∈ s.batch, ∀ t, s.heap e.timer = some t →
      ((⟨e.timer, t.sequence⟩ : ActiveTimer) ∈ s'.cancelingTimers ↔
        (⟨e.timer, t.sequence⟩ : ActiveTimer) ∈ s.cancelingTimers ∨ .cancelled t.serial ∈ evs))
    (hnew : ∀ a ∈ news, s.numCreated < a.2.serial)
    (hqueued : ∀ p t, s'.Queued p t ↔ (s.Queued p t ∨ (p, t) ∈ news) ∧ .cancelled t.serial ∉ evs) :
    Ticked q (added ++ news) (seg ++ evs) run done s' := by
  have hbatch : s'.batch = s.batch := by
    unfold batch
    rw [hpoint]
  refine ⟨?_, ?_, h.created.trans hcreated, ?_, ?_, ?_, ?_, ?_, ?_⟩
  · rw [hlog, h.log, List.append_assoc]
  · have hreached := h.reached
    unfold Reached at hreached ⊢
    rw [hpoint]
    exact hreached
  · intro a ha
    rcases List.mem_append.mp ha with ha | ha
    · exact h.fresh a ha
    · exact lt_of_le_of_lt h.created (hnew a ha)
  · intro e he
    rw [hbatch] at he
    rw [hheap e he, h.heap e he]
  · intro e he t ht
    rw [hbatch] at he
    rw [hnoted e he t (h.heap e he ▸ ht), h.noted e he t ht, List.mem_append]
  · rw [startedIn_append, h.started, hstarted, List.append_nil]
  · intro p t
    -- what is new has not been cancelled before
    have hnever : (p, t) ∈ news → TimerEvent.cancelled t.serial ∉ seg := by
      intro hmem hpast
      have hle : t.serial ≤ s.numCreated := hinv.logged.past (.cancelled t.serial) (by
        rw [h.log]
        exact List.mem_append_right _ hpast)
      have hlt : s.numCreated < t.serial := hnew _ hmem
      omega
    rw [hqueued, h.queued, List.mem_append, not_or]
    unfold Stays
    rw [List.mem_append]
    constructor
    · rintro ⟨⟨hstays, hseg⟩ | hmem, hevs⟩
      · exact ⟨hstays.imp_right (Or.imp_left Or.inl), hseg, hevs⟩
      · exact ⟨Or.inr (Or.inl (Or.inr hmem)), hnever hmem, hevs⟩
    · rintro ⟨hleft | (hmem | hmem) | hdone, hseg, hevs⟩
      · exact ⟨Or.inl ⟨Or.inl hleft, hseg⟩, hevs⟩
      · exact ⟨Or.inl ⟨Or.inr (Or.inl hmem), hseg⟩, hevs⟩
      · exact ⟨Or.inr hmem, hevs⟩
      · exact ⟨Or.inl ⟨Or.inr (Or.inr hdone), hseg⟩, hevs⟩
  · intro e he t ht hgone
    have hno := hcancel (List.ne_nil_of_mem he) t.serial
    rw [List.mem_append, or_iff_left hno] at hgone
    exact List.mem_append_left _ (h.gone e he t ht hgone)

/-- No timer is added. -/
theorem Ticked.pass (h : Ticked q added seg run done s) (hinv : s.Inv) (hlog : s'.log = s.log ++ evs)
    (hpoint : s'.point = s.point) (hcreated : s.numCreated ≤ s'.numCreated) (hstarted : startedIn evs = [])
    (hcancel : done ≠ [] → ∀ k, TimerEvent.cancelled k ∉ evs)
    (hheap : ∀ e ∈ s.batch, s'.heap e.timer = s.heap e.timer)
    (hnoted : ∀ e ∈ s.batch, ∀ t, s.heap e.timer = some t →
      ((⟨e.timer, t.sequence⟩ : ActiveTimer) ∈ s'.cancelingTimers ↔
        (⟨e.timer, t.sequence⟩ : ActiveTimer) ∈ s.cancelingTimers ∨ .cancelled t.serial ∈ evs))
    (hqueued : ∀ p t, s'.Queued p t ↔ s.Queued p t ∧ .cancelled t.serial ∉ evs) :
    Ticked q added (seg ++ evs) run done s' := by
  have hkeep : Ticked q (added ++ []) (seg ++ evs) run done s' :=
    h.keep hinv hlog hpoint hcreated hstarted hcancel hheap hnoted (by simp) (by simpa using hqueued)
  rwa [List.append_nil] at hkeep

/-- A step that concerns no timer. -/
theorem Ticked.congr (h : Ticked q added seg run done s) (hinv : s.Inv) (hlog : s'.log = s.log)
    (hpoint : s'.point = s.point) (hcreated : s.numCreated ≤ s'.numCreated) (hheap : s'.heap = s.heap)
    (htimers : s'.timers = s.timers) (hcanceling : s'.cancelingTimers = s.cancelingTimers) :
    Ticked q added seg run done s' := by
  have hpass : Ticked q added (seg ++ []) run done s' :=
    h.pass hinv (by rw [hlog, List.append_nil]) hpoint hcreated List.filterMap_nil (fun _ _ => List.not_mem_nil)
      (fun e _ => by rw [hheap]) (fun e _ t _ => by simp [hcanceling]) (fun p t => by simp [Queued, hheap, htimers])
  rwa [List.append_nil] at hpass

/-- A timer of the batch is at none of the addresses in `timers_`. -/
theorem Inv.batch_outside (h : s.Inv) {e : Entry} (he : e ∈ s.batch) :
    (∃ t, s.heap e.timer = some t) ∧ ∀ e' ∈ s.timers, e'.timer ≠ e.timer :=
  h.owned.outside _ (List.mem_append_right _ (List.mem_map_of_mem he))

/-- A new timer is not in the batch. -/
theorem Inv.newTimer_batch (h : s.Inv) (hp : s.free p) (when : Timestamp) (i : Option Interval) {e : Entry}
    (he : e ∈ s.batch) : (s.newTimer p when i).heap e.timer = s.heap e.timer := by
  obtain ⟨⟨t, ht⟩, -⟩ := h.batch_outside he
  refine Function.update_of_ne (fun heq => ?_) _ _
  rw [heq, hp.1] at ht
  exact absurd ht (by simp)

/-- The heap changes at an address that is not in the sets. -/
theorem Queued.store_iff (hfree : ∀ e ∈ s.timers, e.timer ≠ p) (t₀ : Option Timer) {p' : Nat} {t' : Timer} :
    (s.store p t₀).Queued p' t' ↔ s.Queued p' t' := by
  by_cases hne : p' = p
  · have hnot : ⟨t'.expiration, p'⟩ ∉ s.timers := fun hmem => hfree _ hmem hne
    exact ⟨fun hq => absurd hq.2 hnot, fun hq => absurd hq.2 hnot⟩
  · unfold Queued
    rw [store_heap_of_ne _ hne]
    exact Iff.rfl

/-- A new timer is not in the sets. -/
theorem Inv.newTimer_queued (h : s.Inv) (hp : s.free p) (when : Timestamp) (i : Option Interval) {p' : Nat}
    {t' : Timer} : (s.newTimer p when i).Queued p' t' ↔ s.Queued p' t' :=
  Queued.store_iff (h.owned.not_mem hp.1).2 _

/-- A timer enters the sets. -/
theorem Queued.added_iff (hp : s.heap p = some t) {p' : Nat} {t' : Timer} :
    (s.added p t).Queued p' t' ↔ s.Queued p' t' ∨ (p' = p ∧ t' = t) := by
  show s.heap p' = some t' ∧ _ ∈ Insert.insert _ s.timers ↔ _
  rw [Finset.mem_insert]
  constructor
  · rintro ⟨ht', heq | hmem⟩
    · obtain rfl : p' = p := by simpa using congrArg Entry.timer heq
      exact Or.inr ⟨rfl, by simpa using ht'.symm.trans hp⟩
    · exact Or.inl ⟨ht', hmem⟩
  · rintro (⟨ht', hmem⟩ | ⟨rfl, rfl⟩)
    · exact ⟨ht', Or.inr hmem⟩
    · exact ⟨hp, Or.inl rfl⟩

/-! ## What each step of a callback does -/

theorem Ticked.addTimerElsewhere (h : Ticked q added seg run done s) (hinv : s.Inv) (hp : s.free p)
    (when : Timestamp) (i : Option Interval) :
    Ticked q added (seg ++ [.created (s.numCreated + 1)]) run done
      { s.newTimer p when i with queued := s.queued ++ [p] } := by
  refine h.pass hinv rfl rfl (Nat.le_succ _) rfl (by simp) (fun e he => hinv.newTimer_batch hp when i he)
    (fun e _ t _ => by simp [TimerQueue.newTimer, record, store]) ?_
  intro p' t'
  show (s.newTimer p when i).Queued p' t' ↔ _
  simpa using hinv.newTimer_queued hp when i

theorem Ticked.addTimer (h : Ticked q added seg run done s) (hinv : s.Inv) (hp : s.free p) (when : Timestamp)
    (i : Option Interval) :
    Ticked q (added ++ [(p, ⟨when, i, s.numCreated + 1⟩)])
      (seg ++ [.created (s.numCreated + 1), .inserted (s.numCreated + 1)]) run done
      ((s.newTimer p when i).addedAndArmed p ⟨when, i, s.numCreated + 1⟩) := by
  refine h.keep hinv ?_ rfl (Nat.le_succ _) rfl (by simp) (fun e he => hinv.newTimer_batch hp when i he)
    (fun e _ t _ => by simp [TimerQueue.newTimer, record, store, addedAndArmed, TimerQueue.added])
    (by simp) ?_
  · exact List.append_assoc _ _ _
  · intro p' t'
    show ((s.newTimer p when i).added p ⟨when, i, s.numCreated + 1⟩).Queued p' t' ↔ _
    rw [Queued.added_iff (newTimer_heap_self s p when i), hinv.newTimer_queued hp when i]
    simp

/-- A timer that exists has the serial number of no timer at another address. -/
theorem Inv.serial_ne (h : s.Inv) {p' : Nat} {t' : Timer} (hp : s.heap p = some t) (hp' : s.heap p' = some t')
    (hne : p' ≠ p) : t'.serial ≠ t.serial :=
  fun heq => hne (h.logged.unique _ _ _ _ hp' hp heq)

/-- A timer of the sets is cancelled. -/
theorem Ticked.cancel_active (h : Ticked q added seg run done s) (hinv : s.Inv) (hdone : done = [])
    {id : ActiveTimer} (hid : id ∈ s.activeTimers) (ht : s.heap id.timer = some t) :
    Ticked q added (seg ++ [.deleted t.serial, .cancelled t.serial]) run done
      ((s.removed id t).record (.cancelled t.serial)) := by
  obtain ⟨t', ht', -, hentry⟩ := hinv.owned.inStep.active id hid
  obtain rfl : t' = t := by simpa using ht'.symm.trans ht
  have hsame : ∀ p ≠ id.timer, (s.removed id t').heap p = s.heap p :=
    fun p hne => Function.update_of_ne hne _ _
  have hbatch : ∀ e ∈ s.batch, e.timer ≠ id.timer :=
    fun e he heq => (hinv.batch_outside he).2 _ hentry heq.symm
  refine h.pass hinv (List.append_assoc _ _ _) rfl le_rfl rfl (fun hne => absurd hdone hne)
    (fun e he => hsame _ (hbatch e he)) ?_ ?_
  · intro e he t ht
    have hne := hinv.serial_ne ht' ht (hbatch e he)
    simp [removed, record, hne]
  · intro p t
    have hiff : ((s.removed id t').record (.cancelled t'.serial)).Queued p t
        ↔ s.Queued p t ∧ t.serial ≠ t'.serial := by
      constructor
      · rintro ⟨hp, hmem⟩
        obtain ⟨hne, hp⟩ := heap_of_update_none hp
        exact ⟨⟨hp, Finset.mem_of_mem_erase hmem⟩, hinv.serial_ne ht' hp hne⟩
      · rintro ⟨⟨hp, hmem⟩, hserial⟩
        have hne : p ≠ id.timer := by
          rintro rfl
          obtain rfl : t' = t := by simpa using ht'.symm.trans hp
          exact hserial rfl
        refine ⟨(hsame p hne).trans hp, Finset.mem_erase.mpr ⟨fun heq => hne ?_, hmem⟩⟩
        exact congrArg Entry.timer heq
    simpa using hiff

/-- A timer outside the sets is cancelled: it is noted. -/
theorem Ticked.cancel_noted (h : Ticked q added seg run done s) (hinv : s.Inv) (hdone : done = [])
    {id : ActiveTimer} (hid : id ∉ s.activeTimers) (ht : s.heap id.timer = some t)
    (hs : t.sequence = id.sequence) :
    Ticked q added (seg ++ [.cancelled t.serial]) run done
      { s.record (.cancelled t.serial) with cancelingTimers := Insert.insert id s.cancelingTimers } := by
  refine h.pass hinv rfl rfl le_rfl rfl (fun hne => absurd hdone hne) (fun e _ => rfl) ?_ ?_
  · intro e he t' ht'
    have hiff : (⟨e.timer, t'.sequence⟩ : ActiveTimer) = id ↔ t'.serial = t.serial := by
      constructor
      · rintro rfl
        obtain rfl : t = t' := by simpa using ht.symm.trans ht'
        rfl
      · intro hserial
        have htimer := hinv.logged.unique _ _ _ _ ht' ht hserial
        rw [htimer] at ht' ⊢
        obtain rfl : t = t' := by simpa using ht.symm.trans ht'
        rw [hs]
    simp [hiff, or_comm]
  · intro p t'
    have hne : s.Queued p t' → t'.serial ≠ t.serial := by
      rintro ⟨hp, hmem⟩ hserial
      obtain rfl := hinv.logged.unique _ _ _ _ hp ht hserial
      obtain rfl : t = t' := by simpa using ht.symm.trans hp
      obtain ⟨t'', ht'', -, ha⟩ := hinv.owned.inStep.entries _ hmem
      obtain rfl : t = t'' := by simpa using ht.symm.trans ht''
      rw [hs] at ha
      exact hid ha
    show s.Queued p t' ↔ _
    simpa using hne

/-- Inside the tick, user code is a callback. -/
theorem Ticked.callback (h : Ticked q added seg run done s) (hinv : s.Inv) (huser : s.userCode) :
    s.callingExpiredTimers = true ∧ done = [] := by
  rcases h.reached with ⟨todo, hpt, -, hdone⟩ | ⟨rest, hpt, -⟩
  · exact ⟨hinv.flag.mpr ⟨_, _, _, hpt⟩, hdone⟩
  · unfold userCode at huser
    rw [hpt] at huser
    exact huser.elim

theorem Ticked.cancel (h : Ticked q added seg run done s) (hinv : s.Inv) (huser : s.userCode) (id : ActiveTimer) :
    ∃ seg', Ticked q added seg' run done ((s.cancelled id).noteCancel id s) := by
  obtain ⟨hcalling, hdone⟩ := h.callback hinv huser
  by_cases hid : id ∈ s.activeTimers
  · obtain ⟨t, ht, hs, -⟩ := hinv.owned.inStep.active id hid
    rw [noteCancel_active hid ht hs]
    exact ⟨_, h.cancel_active hinv hdone hid ht⟩
  · by_cases hlive : ∃ t, s.heap id.timer = some t ∧ t.sequence = id.sequence
    · obtain ⟨t, ht, hs⟩ := hlive
      rw [noteCancel_noted hid hcalling ht hs]
      exact ⟨_, h.cancel_noted hinv hdone hid ht hs⟩
    · -- the note is about no timer of the batch
      rw [noteCancel_stale hid hcalling fun t ht hs => hlive ⟨t, ht, hs⟩]
      refine ⟨seg ++ [], h.pass hinv (List.append_nil _).symm rfl le_rfl rfl (fun _ _ => List.not_mem_nil)
        (fun e _ => rfl) ?_ ?_⟩
      · intro e _ t ht
        have hne : (⟨e.timer, t.sequence⟩ : ActiveTimer) ≠ id := by
          intro heq
          have htimer : e.timer = id.timer := congrArg ActiveTimer.timer heq
          have hs : t.sequence = id.sequence := by rw [← heq]
          exact hlive ⟨t, htimer ▸ ht, hs⟩
        simp [hne]
      · intro p t
        show s.Queued p t ↔ _
        simp

/-! ## What the loops of `handleRead` do -/

theorem timersOf_snoc {e : Entry} (ht : q.heap e.timer = some t) :
    q.timersOf (run ++ [e]) = q.timersOf run ++ [t] := by
  unfold timersOf
  rw [List.filterMap_append]
  simp [ht]

/-- The next callback is started. -/
theorem Ticked.runNext (h : Ticked q added seg run done s) {now : Timestamp} {expired todo : List Entry} {e : Entry}
    (hpt : s.point = .calling now expired (e :: todo)) (ht : s.heap e.timer = some t) :
    Ticked q added (seg ++ [.started t.serial]) (run ++ [e]) done
      { s.record (.started t.serial) with point := .calling now expired todo } := by
  obtain ⟨hreached, hexpired, hsplit, hdone⟩ : now = q.clock ∧ expired = q.expiredAt q.clock ∧
      q.expiredAt q.clock = run ++ e :: todo ∧ done = [] := by
    rcases h.reached with ⟨todo', hpt', hsplit, hdone⟩ | ⟨rest, hpt', -⟩
    · obtain ⟨rfl, rfl, rfl⟩ : now = q.clock ∧ expired = q.expiredAt q.clock ∧ e :: todo = todo' := by
        simpa using hpt.symm.trans hpt'
      exact ⟨rfl, rfl, hsplit, hdone⟩
    · rw [hpt'] at hpt
      exact absurd hpt (by simp)
  have hbatch : s.batch = expired := by
    unfold batch
    rw [hpt]
  have hmem : e ∈ s.batch := by
    rw [hbatch, hexpired, hsplit]
    exact List.mem_append_right _ List.mem_cons_self
  have hcancelled : ∀ k, TimerEvent.cancelled k ∈ seg ++ [.started t.serial] ↔ TimerEvent.cancelled k ∈ seg := by
    simp
  refine ⟨?_, Or.inl ⟨todo, ?_, ?_, hdone⟩, h.created, h.fresh, ?_, ?_, ?_, ?_, ?_⟩
  · show s.log ++ _ = _
    rw [h.log, List.append_assoc]
  · rw [hreached, hexpired]
  · rw [hsplit, List.append_assoc]
    rfl
  · exact fun e' he' => h.heap e' (hbatch ▸ he')
  · intro e' he' t' ht'
    rw [hcancelled]
    exact h.noted e' (hbatch ▸ he') t' ht'
  · rw [startedIn_append, h.started, timersOf_snoc ((h.heap e hmem).symm.trans ht), List.map_append]
    rfl
  · intro p' t'
    rw [hcancelled]
    exact h.queued p' t'
  · intro e' he'
    rw [hdone] at he'
    exact absurd he' List.not_mem_nil

/-- All callbacks have been started. -/
theorem Ticked.endCalls (h : Ticked q added seg run done s) {now : Timestamp} {expired : List Entry}
    (hpt : s.point = .calling now expired []) :
    Ticked q added seg run done { s with callingExpiredTimers := false, point := .resetting now expired } := by
  have hbatch : s.batch = expired := by
    unfold batch
    rw [hpt]
  refine ⟨h.log, ?_, h.created, h.fresh, ?_, ?_, h.started, h.queued, h.gone⟩
  · rcases h.reached with ⟨todo', hpt', hsplit, rfl⟩ | ⟨rest, hpt', -⟩
    · obtain ⟨rfl, rfl, rfl⟩ : now = q.clock ∧ expired = q.expiredAt q.clock ∧ [] = todo' := by
        simpa using hpt.symm.trans hpt'
      rw [List.append_nil] at hsplit
      exact Or.inr ⟨_, rfl, hsplit.symm, rfl⟩
    · rw [hpt'] at hpt
      exact absurd hpt (by simp)
  · exact fun e he => h.heap e (hbatch ▸ he)
  · exact fun e he => h.noted e (hbatch ▸ he)

/-- What `reset` keeps of the timers that it is done with. -/
theorem stays_snoc {e : Entry} (ht : q.heap e.timer = some t) (he : e = ⟨t.expiration, e.timer⟩) {p' : Nat}
    {t' : Timer} : q.Stays added (done ++ [e]) p' t' ↔ q.Stays added done p' t' ∨
      (p' = e.timer ∧ ∃ i, t.interval = some i ∧ t' = { t with expiration := addTime q.clock i.delta }) := by
  unfold Stays
  constructor
  · rintro (hleft | hadded | ⟨t₀, i, hmem, ht₀, hi, hnew⟩)
    · exact Or.inl (Or.inl hleft)
    · exact Or.inl (Or.inr (Or.inl hadded))
    · rcases List.mem_append.mp hmem with hmem | hmem
      · exact Or.inl (Or.inr (Or.inr ⟨t₀, i, hmem, ht₀, hi, hnew⟩))
      · obtain rfl : p' = e.timer := congrArg Entry.timer (List.mem_singleton.mp hmem)
        obtain rfl : t = t₀ := by simpa using ht.symm.trans ht₀
        exact Or.inr ⟨rfl, i, hi, hnew⟩
  · rintro ((hleft | hadded | ⟨t₀, i, hmem, hrest⟩) | ⟨rfl, i, hi, hnew⟩)
    · exact Or.inl hleft
    · exact Or.inr (Or.inl hadded)
    · exact Or.inr (Or.inr ⟨t₀, i, List.mem_append_left _ hmem, hrest⟩)
    · exact Or.inr (Or.inr ⟨t, i, List.mem_append_right _ (List.mem_singleton.mpr he.symm), ht, hi, hnew⟩)

/-- `reset` is done with one more entry. -/
theorem Ticked.reset (h : Ticked q added seg run done s) (hq : q.Inv) {now : Timestamp} {rest : List Entry}
    {e : Entry} (hpt : s.point = .resetting now (e :: rest)) (ht : s.heap e.timer = some t)
    (hpoint : s'.point = .resetting now rest) (hlog : s'.log = s.log ++ evs) (hcreated : s'.numCreated = s.numCreated)
    (hstarted : startedIn evs = []) (hcancel : ∀ k, TimerEvent.cancelled k ∉ evs)
    (hheap : ∀ e' ∈ rest, s'.heap e'.timer = s.heap e'.timer) (hcanceling : s'.cancelingTimers = s.cancelingTimers)
    (hqueued : ∀ p' t', s'.Queued p' t' ↔ s.Queued p' t' ∨ (p' = e.timer ∧ .cancelled t.serial ∉ seg ∧
      ∃ i, t.interval = some i ∧ t' = { t with expiration := addTime q.clock i.delta }))
    (hgone : t.interval = none ∨ .cancelled t.serial ∈ seg → .deleted t.serial ∈ evs) :
    Ticked q added (seg ++ evs) run (done ++ [e]) s' := by
  obtain ⟨hnow, hrun, hsplit⟩ : now = q.clock ∧ run = q.expiredAt q.clock ∧
      q.expiredAt q.clock = done ++ e :: rest := by
    rcases h.reached with ⟨todo, hpt', -⟩ | ⟨rest', hpt', hrun, hsplit⟩
    · rw [hpt'] at hpt
      exact absurd hpt (by simp)
    · obtain ⟨rfl, rfl⟩ : now = q.clock ∧ e :: rest = rest' := by simpa using hpt.symm.trans hpt'
      exact ⟨rfl, hrun, hsplit⟩
  have hbatch : s.batch = e :: rest := by
    unfold batch
    rw [hpt]
  have hbatch' : s'.batch = rest := by
    unfold batch
    rw [hpoint]
  have hseg : ∀ k, TimerEvent.cancelled k ∈ seg ++ evs ↔ TimerEvent.cancelled k ∈ seg :=
    fun k => List.mem_append.trans (or_iff_left (hcancel k))
  -- the timer is still the one that was due
  have hdue : q.heap e.timer = some t := (h.heap e (hbatch ▸ List.mem_cons_self)).symm.trans ht
  have hmem : e ∈ q.expiredAt q.clock := by
    rw [hsplit]
    exact List.mem_append_right _ List.mem_cons_self
  have hentry : e = ⟨t.expiration, e.timer⟩ := hq.owned.inStep.when_eq hmem hdue
  refine ⟨?_, Or.inr ⟨rest, ?_, hrun, ?_⟩, ?_, h.fresh, ?_, ?_, ?_, ?_, ?_⟩
  · rw [hlog, h.log, List.append_assoc]
  · rw [hpoint, hnow]
  · rw [hsplit, List.append_assoc]
    rfl
  · rw [hcreated]
    exact h.created
  · intro e' he'
    rw [hbatch'] at he'
    rw [hheap e' he']
    exact h.heap e' (hbatch ▸ List.mem_cons_of_mem _ he')
  · intro e' he' t' ht'
    rw [hbatch'] at he'
    rw [hcanceling, hseg]
    exact h.noted e' (hbatch ▸ List.mem_cons_of_mem _ he') t' ht'
  · rw [startedIn_append, h.started, hstarted, List.append_nil]
  · intro p' t'
    rw [hqueued, h.queued, hseg, stays_snoc hdue hentry]
    constructor
    · rintro (⟨hstays, hnot⟩ | ⟨rfl, hnot, i, hi, rfl⟩)
      · exact ⟨Or.inl hstays, hnot⟩
      · exact ⟨Or.inr ⟨rfl, i, hi, rfl⟩, hnot⟩
    · rintro ⟨hstays | ⟨rfl, i, hi, rfl⟩, hnot⟩
      · exact Or.inl ⟨hstays, hnot⟩
      · exact Or.inr ⟨rfl, hnot, i, hi, rfl⟩
  · intro e' he' t' ht' hend
    rw [hseg] at hend
    rcases List.mem_append.mp he' with he' | he'
    · exact List.mem_append_left _ (h.gone e' he' t' ht' hend)
    · obtain rfl : e' = e := List.mem_singleton.mp he'
      obtain rfl : t = t' := by simpa using hdue.symm.trans ht'
      exact List.mem_append_right _ (hgone hend)

/-- One iteration of the loop in `reset`. -/
theorem Ticked.resetNext (h : Ticked q added seg run done s) (hq : q.Inv) (hinv : s.Inv) {now : Timestamp}
    {rest : List Entry} {e : Entry} (hpt : s.point = .resetting now (e :: rest)) (ht : s.heap e.timer = some t) :
    ∃ seg', Ticked q added seg' run (done ++ [e]) (s.resetStep now e t rest) := by
  have hbatch : s.batch = e :: rest := by
    unfold batch
    rw [hpt]
  have he : e ∈ s.batch := hbatch ▸ List.mem_cons_self
  have hdue : q.heap e.timer = some t := (h.heap e he).symm.trans ht
  have hnow : now = q.clock := by
    rcases h.reached with ⟨todo, hpt', -⟩ | ⟨rest', hpt', -⟩
    · rw [hpt'] at hpt
      exact absurd hpt (by simp)
    · exact (by simpa using hpt.symm.trans hpt' : now = q.clock ∧ _).1
  have hfree := (hinv.batch_outside he).2
  have hother : ∀ e' ∈ rest, e'.timer ≠ e.timer := by
    have hnodup := hinv.owned.nodup
    rw [outside_of_resetting hpt] at hnodup
    intro e' he' heq
    obtain ⟨hnot, -⟩ := List.nodup_cons.mp (List.nodup_append.mp hnodup).2.1
    exact hnot (heq ▸ List.mem_map_of_mem he')
  have hnoted := h.noted e he t hdue
  unfold resetStep
  split
  · next hrep =>
      -- started again, and back in the sets
      obtain ⟨i, hi⟩ := Option.isSome_iff_exists.mp hrep.1
      have hnot : TimerEvent.cancelled t.serial ∉ seg := fun hmem => hrep.2 (hnoted.mpr hmem)
      have hrestart : t.restart now = { t with expiration := addTime q.clock i.delta } := by
        unfold Timer.restart
        rw [hi, hnow]
      refine ⟨seg ++ [.restarted t.serial, .inserted t.serial],
        h.reset hq hpt ht rfl ?_ rfl rfl (by simp) ?_ rfl ?_ ?_⟩
      · show s.log ++ [TimerEvent.restarted t.serial] ++ [TimerEvent.inserted (t.restart now).serial] = _
        rw [restart_serial, List.append_assoc]
        rfl
      · exact fun e' he' => store_heap_of_ne _ (hother e' he')
      · intro p' t'
        have hold : (s.restarted e.timer t now).Queued p' t' ↔ s.Queued p' t' := Queued.store_iff hfree _
        show ((s.restarted e.timer t now).added e.timer (t.restart now)).Queued p' t' ↔ _
        rw [Queued.added_iff (restarted_heap_self s e.timer t now), hold, hrestart]
        refine or_congr_right (and_congr_right fun _ => ⟨fun heq => ⟨hnot, i, hi, heq⟩, ?_⟩)
        rintro ⟨-, i', hi', heq⟩
        obtain rfl : i = i' := by simpa using hi.symm.trans hi'
        exact heq
      · rintro (hnone | hmem)
        · rw [hi] at hnone
          exact absurd hnone (by simp)
        · exact absurd hmem hnot
  · next hrep =>
      refine ⟨seg ++ [.deleted t.serial], h.reset hq hpt ht rfl rfl rfl rfl (by simp) ?_ rfl ?_
        fun _ => List.mem_singleton_self _⟩
      · exact fun e' he' => store_heap_of_ne _ (hother e' he')
      · intro p' t'
        show (s.store e.timer none).Queued p' t' ↔ _
        rw [Queued.store_iff hfree]
        refine (or_iff_left ?_).symm
        rintro ⟨-, hnot, i, hi, -⟩
        refine hrep ⟨?_, fun hmem => hnot (hnoted.mp hmem)⟩
        unfold Timer.repeats
        rw [hi]
        rfl

/-! ## The whole tick -/

theorem Ticked.not_idle (h : Ticked q added seg run done s) : s.point ≠ .idle := by
  rcases h.reached with ⟨todo, hpt, -⟩ | ⟨rest, hpt, -⟩ <;> simp [hpt]

theorem Inv.ticked (hq : q.Inv) : Ticked q [] [] [] [] (q.calling q.clock) := by
  refine ⟨(List.append_nil _).symm, Or.inl ⟨q.expiredAt q.clock, rfl, rfl, rfl⟩, le_rfl, by simp, fun _ _ => rfl, ?_,
    rfl, ?_, by simp⟩
  · intro e he t ht
    simp [calling]
  · intro p t
    have hiff : (⟨t.expiration, p⟩ : Entry) ∈ (q.calling q.clock).timers ↔
        (⟨t.expiration, p⟩ : Entry) ∈ q.timers ∧ ¬ (⟨t.expiration, p⟩ : Entry) < ⟨q.clock, UINTPTR_MAX⟩ := by
      show _ ∈ removeBelow q.timers _ ↔ _
      rw [mem_removeBelow, not_lt]
    constructor
    · rintro ⟨hp, hmem⟩
      obtain ⟨hmem, hlt⟩ := hiff.mp hmem
      rw [lt_sentry_iff (hq.owned.address p t hp), not_le] at hlt
      exact ⟨Or.inl ⟨⟨hp, hmem⟩, hlt⟩, List.not_mem_nil⟩
    · rintro ⟨⟨⟨hp, hmem⟩, hlt⟩ | hmem | ⟨t₀, i, hmem, -⟩, -⟩
      · refine ⟨hp, hiff.mpr ⟨hmem, ?_⟩⟩
        rw [lt_sentry_iff (hq.owned.address p t hp), not_le]
        exact hlt
      · exact absurd hmem List.not_mem_nil
      · exact absurd hmem List.not_mem_nil

/-- The step adds no timer. -/
theorem Ticked.quiet (h : Ticked q added seg run done s) :
    ∃ seg' run' done', Ticked q (added ++ []) seg' run' done' s := by
  rw [List.append_nil]
  exact ⟨_, _, _, h⟩

/-- Every step of the tick but the last. -/
theorem Ticked.exec (h : Ticked q added seg run done s) (hq : q.Inv) (hinv : s.Inv) {a : TimerOp}
    (ha : s.enabled a) (hne : a ≠ .resetDone) (hs' : s.exec a = .ok s') :
    ∃ seg' run' done', Ticked q (added ++ s.addedBy a) seg' run' done' s' := by
  cases hinv.does ha hs' with
  | @addTimer p when i _ hp _ => exact ⟨_, _, _, h.addTimer hinv hp when i⟩
  | @addTimerElsewhere p when i hp _ => exact (h.addTimerElsewhere hinv hp when i).quiet
  | runFunctor hpt _ _ => exact absurd hpt h.not_idle
  | @cancel id huser =>
      obtain ⟨seg', hcancel⟩ := h.cancel hinv huser id
      exact hcancel.quiet
  | handleRead hpt => exact absurd hpt h.not_idle
  | runNext hpt _ ht => exact (h.runNext hpt ht).quiet
  | endCalls hpt => exact (h.endCalls hpt).quiet
  | resetNext hpt ht =>
      obtain ⟨seg', hreset⟩ := h.resetNext hq hinv hpt ht
      exact hreset.quiet
  | resetDone _ => exact absurd rfl hne
  | expire => exact Ticked.quiet (h.congr hinv rfl rfl le_rfl rfl rfl rfl)
  | tick _ _ => exact Ticked.quiet (h.congr hinv rfl rfl le_rfl rfl rfl rfl)
  | createdElsewhere => exact Ticked.quiet (h.congr hinv rfl rfl (Nat.le_succ _) rfl rfl rfl)

theorem Ticking.reachable (h : Ticking q added s) (hq : timerSystem.Reachable q) : timerSystem.Reachable s := by
  induction h with
  | start hs => exact hq.step hs
  | next _ _ hs ih => exact ih.step hs

theorem Ticking.ticked (h : Ticking q added s) (hq : timerSystem.Reachable q) :
    ∃ seg run done, Ticked q added seg run done s := by
  have hinv := reachable_inv hq
  induction h with
  | start hs =>
      have hs' := hs.2
      rw [show timerSystem.exec q .handleRead = _ from exec_handleRead hinv.owned] at hs'
      cases hs'
      exact ⟨_, _, _, hinv.ticked⟩
  | next h hne hs ih =>
      obtain ⟨seg, run, done, hticked⟩ := ih
      exact hticked.exec hinv (reachable_inv (h.reachable hq)) hs.1 hne hs.2

/-- The last step sets the timer descriptor. -/
theorem Inv.resetDone (h : s.Inv) (hs' : s.exec .resetDone = .ok s') :
    s'.heap = s.heap ∧ s'.numCreated = s.numCreated ∧ s'.timers = s.timers ∧ s'.log = s.log := by
  rw [exec_resetDone h.owned] at hs'
  cases hs'
  unfold rearmed
  split
  · exact ⟨rfl, rfl, rfl, rfl⟩
  · split <;> exact ⟨rfl, rfl, rfl, rfl⟩

/-- The callbacks started are those of a prefix of the batch. -/
theorem Ticked.run_initial (h : Ticked q added seg run done s) : run <+: q.expiredAt q.clock := by
  rcases h.reached with ⟨todo, -, hsplit, -⟩ | ⟨rest, -, hrun, -⟩
  · exact ⟨todo, hsplit.symm⟩
  · rw [hrun]

/-- All of the batch has been run and reset. -/
theorem Ticked.complete (h : Ticked q added seg run done s) (hend : s.enabled .resetDone) :
    run = q.expiredAt q.clock ∧ done = q.expiredAt q.clock := by
  obtain ⟨now, hpt⟩ := hend
  rcases h.reached with ⟨todo, hpt', -⟩ | ⟨rest, hpt', hrun, hsplit⟩
  · rw [hpt'] at hpt
    exact absurd hpt (by simp)
  · obtain ⟨-, rfl⟩ : now = q.clock ∧ [] = rest := by simpa using hpt.symm.trans hpt'
    rw [List.append_nil] at hsplit
    exact ⟨hrun, hsplit.symm⟩

/-- What is started in a tick existed when it began. -/
theorem Ticked.started_old (h : Ticked q added seg run done s) (hq : q.Inv) {k : Nat} (hk : k ∈ startedIn seg) :
    k ≤ q.numCreated := by
  rw [h.started] at hk
  obtain ⟨t, ht, rfl⟩ := List.mem_map.mp hk
  have ht' := (h.run_initial.filterMap _).subset ht
  obtain ⟨p, ⟨hp, -⟩, -⟩ := hq.owned.mem_timersOf.mp ht'
  exact hq.logged.created p t hp

/-- What `timers_` holds after the batch. -/
theorem Ticked.queued_iff (h : Ticked q added seg run (q.expiredAt q.clock) s) (hq : q.Inv) :
    s.Queued p t ↔ ((q.Queued p t ∧ q.clock < t.expiration) ∨ (p, t) ∈ added ∨
      ∃ t₀ i, q.Queued p t₀ ∧ t₀.expiration ≤ q.clock ∧ t₀.interval = some i ∧
        t = { t₀ with expiration := addTime q.clock i.delta }) ∧ .cancelled t.serial ∉ seg := by
  rw [h.queued]
  refine and_congr_left fun _ => or_congr_right (or_congr_right ?_)
  refine exists_congr fun t₀ => exists_congr fun i => ?_
  constructor
  · rintro ⟨hmem, ht₀, hrest⟩
    obtain ⟨hmem, hle⟩ := hq.owned.mem_expiredAt.mp hmem
    exact ⟨⟨ht₀, hmem⟩, hle, hrest⟩
  · rintro ⟨⟨ht₀, hmem⟩, hle, hrest⟩
    exact ⟨hq.owned.mem_expiredAt.mpr ⟨hmem, hle⟩, ht₀, hrest⟩

/-- **One tick fires exactly the due timers.** For every reachable state and every tick that starts there, the
    callbacks it has started at any moment are those of the first ones of the timers in `timers_` with
    `expiration <= now`, each once and in the order of expiration, and none of a timer that these callbacks add.
    When it ends, it has started all of them, and `timers_` holds, of the timers not cancelled during the tick,
    those that were not due, those added by callbacks, and those of the fired ones that repeat, for
    `addTime(now, interval)`; the other fired timers no longer exist. -/
theorem tick_fires_due (h : timerSystem.Reachable q) (htick : Ticking q added s) :
    ∃ seg, ∃ due fired : List Timer, s.log = q.log ++ seg ∧
      (∀ t, t ∈ due ↔ ∃ p, q.Queued p t ∧ t.expiration ≤ q.clock) ∧
      (due.Pairwise fun t t' => t.expiration ≤ t'.expiration) ∧ (due.map Timer.serial).Nodup ∧
      startedIn seg = fired.map Timer.serial ∧ fired <+: due ∧ (∀ a ∈ added, a.2.serial ∉ startedIn seg) ∧
      ∀ q', timerSystem.Step s .resetDone q' → fired = due ∧ q'.log = s.log ∧
        (∀ e ∈ q'.timers, ∃ t, q'.Queued e.timer t ∧ t.expiration = e.when) ∧
        (∀ p t, q'.Queued p t ↔ ((q.Queued p t ∧ q.clock < t.expiration) ∨ (p, t) ∈ added ∨
          ∃ t₀ i, q.Queued p t₀ ∧ t₀.expiration ≤ q.clock ∧ t₀.interval = some i ∧
            t = { t₀ with expiration := addTime q.clock i.delta }) ∧ .cancelled t.serial ∉ seg) ∧
        ∀ t ∈ due, t.interval = none ∨ .cancelled t.serial ∈ seg →
          ∀ p t', q'.heap p = some t' → t'.serial ≠ t.serial := by
  obtain ⟨seg, run, done, hticked⟩ := htick.ticked h
  have hinv := reachable_inv h
  refine ⟨seg, q.timersOf (q.expiredAt q.clock), q.timersOf run, hticked.log, fun t => hinv.owned.mem_timersOf,
    hinv.owned.inStep.pairwise_timersOf _, hinv.nodup_timersOf _, hticked.started, hticked.run_initial.filterMap _, ?_, ?_⟩
  · intro a ha hmem
    have hnew := hticked.fresh a ha
    have hold := hticked.started_old hinv hmem
    omega
  · intro q' hlast
    have hs := htick.reachable h
    have hq' := reachable_inv (hs.step hlast)
    obtain ⟨hheap, -, htimers, hlog⟩ := (reachable_inv hs).resetDone hlast.2
    obtain ⟨rfl, rfl⟩ := hticked.complete hlast.1
    refine ⟨rfl, hlog, ?_, ?_, ?_⟩
    · intro e he
      obtain ⟨t, ht, hw, -⟩ := hq'.owned.inStep.entries e he
      refine ⟨t, ⟨ht, ?_⟩, hw⟩
      rw [hw]
      exact he
    · intro p t
      have hsame : q'.Queued p t ↔ s.Queued p t := by
        unfold Queued
        rw [hheap, htimers]
      exact hsame.trans (hticked.queued_iff hinv)
    · intro t ht hend p t' ht' hserial
      obtain ⟨p₀, ⟨hp₀, hmem⟩, hle⟩ := hinv.owned.mem_timersOf.mp ht
      have hdeleted := hticked.gone ⟨t.expiration, p₀⟩ (hinv.owned.mem_expiredAt.mpr ⟨hmem, hle⟩) t hp₀ hend
      refine hq'.logged.alive p t' ht' ?_
      rw [hserial, hlog, hticked.log]
      exact List.mem_append_right _ hdeleted

theorem step_endCalls {now : Timestamp} {expired : List Entry} (hpt : s.point = .calling now expired []) :
    timerSystem.Step s .endCalls { s with callingExpiredTimers := false, point := .resetting now expired } :=
  ⟨⟨_, _, hpt⟩, exec_endCalls hpt⟩

/-- The callback of the timer for 500 adds a timer for 600, and it is 1000. -/
theorem tick_fires_due_late : ∃ s q' : TimerQueue, Ticking lateTimer [(32, ⟨600, none, 2⟩)] s ∧
    timerSystem.Step s .resetDone q' ∧ startedIn q'.log = [1] ∧ q'.Queued 32 ⟨600, none, 2⟩ ∧
    q'.heap 16 = none := by
  have hread : Ticking lateTimer [] (lateTimer.calling 1000) :=
    .start ⟨rfl, exec_handleRead (reachable_inv lateTimer_reachable).owned⟩
  have hpoint : (lateTimer.calling 1000).point = .calling 1000 [⟨500, 16⟩] [⟨500, 16⟩] := by
    show TimerPoint.calling 1000 (lateTimer.expiredAt 1000) (lateTimer.expiredAt 1000) = _
    rw [lateTimer_expiredAt]
  obtain ⟨t₁, ht₁, hexec₁⟩ :=
    exec_runNext (reachable_inv (hread.reachable lateTimer_reachable)).owned hpoint List.mem_cons_self
  obtain rfl : t₁ = ⟨500, none, 1⟩ := by
    have : some t₁ = some ⟨500, none, 1⟩ := ht₁.symm.trans rfl
    simpa using this
  have hrun := hread.next (a := .runNext) (by simp) ⟨⟨_, _, _, _, hpoint⟩, hexec₁⟩
  have hadded := hrun.next (a := .addTimer 32 600 none) (by simp)
    ⟨⟨Nat.zero_lt_one, ⟨rfl, by decide, by decide⟩, by decide, by decide⟩,
      exec_addTimer (reachable_inv (hrun.reachable lateTimer_reachable)).owned ⟨rfl, by decide, by decide⟩⟩
  have hcalled := hadded.next (a := .endCalls) (by simp) (step_endCalls rfl)
  obtain ⟨t₂, ht₂, hexec₂⟩ := exec_resetNext (reachable_inv (hcalled.reachable lateTimer_reachable)).owned
    (rfl : _ = TimerPoint.resetting 1000 [⟨500, 16⟩])
  obtain rfl : t₂ = ⟨500, none, 1⟩ := by
    have : some t₂ = some ⟨500, none, 1⟩ := ht₂.symm.trans rfl
    simpa using this
  have hreset := hcalled.next (a := .resetNext) (by simp) ⟨⟨_, _, _, rfl⟩, hexec₂⟩
  have hlast := exec_resetDone (reachable_inv (hreset.reachable lateTimer_reachable)).owned
  obtain ⟨seg, due, fired, hlog, -, -, -, -, -, -, hend⟩ := tick_fires_due lateTimer_reachable hreset
  obtain ⟨-, hlog', -, hqueued, -⟩ := hend _ ⟨⟨1000, rfl⟩, hlast⟩
  have hseg : seg = [.started 1, .created 2, .inserted 2, .deleted 1] :=
    List.append_cancel_left (hlog.symm.trans (show _ = lateTimer.log ++ _ from rfl))
  refine ⟨_, _, hreset, ⟨⟨1000, rfl⟩, hlast⟩, ?_, (hqueued _ _).mpr ⟨Or.inr (Or.inl (List.mem_singleton_self _)), ?_⟩,
    ?_⟩
  · rw [hlog', hlog, hseg]
    rfl
  · rw [hseg]
    simp
  · rw [((reachable_inv (hreset.reachable lateTimer_reachable)).resetDone hlast).1]
    rfl

end Muduo.Net.TimerQueue
