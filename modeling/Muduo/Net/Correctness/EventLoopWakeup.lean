import Muduo.Net.EventLoop

/-!
# `Correctness.EventLoopWakeup` — no functor is lost, and none waits behind a blocking `poll`

The push and the write to `wakeupFd_` are two steps of the pushing thread, and the loop empties the counter in
one phase and the queue in a later one. The invariant `Inv` is therefore indexed by the phase: between
`poll` returning and the swap the counter may already be zero, because the swap is still to come; in every
other phase a functor that is pending and whose `queueInLoop` call has returned keeps the counter positive.

For a functor that the loop thread itself has queued the same holds if it was queued while events were handled or
functors were called (`own_functor_not_behind_poll`). Before `loop()`, and when `doPendingFunctors` destroys its local
vector, `queueInLoop` neither wakes up the loop nor has a swap to come.
-/

namespace Muduo.Net.EventLoop

open Lib

variable {τ φ : Type} {l : EventLoop τ φ}

/-- The swap is still to come in this iteration: the counter says nothing. -/
def swapAhead : LoopPhase → Bool
  | .handling | .calling => true
  | .outside | .head | .polling | .running | .destroying => false

/-- What holds between any two steps. -/
structure Inv (l : EventLoop τ φ) : Prop where
  split : l.pushed = l.executed ++ l.functors ++ l.pendingFunctors
  ids : l.pushed.map Pending.id = List.range l.pushed.length
  vector : l.phase ≠ .running → l.functors = []
  looping : l.looping = false ↔ l.phase = .outside
  returned : ∀ id ∈ l.returned, id < l.pushed.length
  queueing : ∀ t id, l.threads t = .queueing id → id < l.pushed.length
  woken : swapAhead l.phase = false → ∀ f ∈ l.pendingFunctors, f.id ∈ l.returned → 0 < l.wakeupCounter

theorem new_inv : (EventLoop.new τ φ).Inv where
  split := rfl
  ids := rfl
  vector := fun _ => rfl
  looping := by simp [EventLoop.new]
  returned := by simp [EventLoop.new]
  queueing := by simp [EventLoop.new]
  woken := by simp [EventLoop.new]

theorem Inv.looping_of (h : l.Inv) (hp : l.phase ≠ .outside) : l.looping = true := by
  rw [← Bool.not_eq_false, h.looping]
  exact hp

/-! ## The queue operations -/

theorem wakeup_eq (l : EventLoop τ φ) :
    ∃ n, l.wakeup = { l with wakeupCounter := n } ∧ 0 < n ∧ l.wakeupCounter ≤ n := by
  unfold wakeup
  split
  · exact ⟨_, rfl, Nat.succ_pos _, Nat.le_succ _⟩
  · next h =>
      -- the counter is full, so certainly not zero
      refine ⟨l.wakeupCounter, rfl, ?_, Nat.le_refl _⟩
      unfold eventfdMax at h
      omega

theorem Inv.wakeup (h : l.Inv) : l.wakeup.Inv := by
  obtain ⟨n, hn, hpos, -⟩ := wakeup_eq l
  rw [hn]
  exact ⟨h.split, h.ids, h.vector, h.looping, h.returned, h.queueing, fun _ _ _ _ => hpos⟩

/-- A push appends to the queue; its number is new, so no call that pushed it has returned. -/
theorem Inv.push (h : l.Inv) (t : Option τ) (cb : φ) : (l.push t cb).Inv where
  split := by
    show l.pushed ++ [_] = l.executed ++ l.functors ++ (l.pendingFunctors ++ [_])
    rw [h.split]
    simp only [List.append_assoc]
  ids := by
    show (l.pushed ++ [_]).map Pending.id = List.range (l.pushed ++ [_]).length
    rw [List.map_append, h.ids, List.length_append, List.length_singleton, List.range_succ]
    rfl
  vector := h.vector
  looping := h.looping
  returned := by
    intro id hid
    show id < (l.pushed ++ [_]).length
    rw [List.length_append]
    exact Nat.lt_add_right _ (h.returned id hid)
  queueing := by
    intro t' id hid
    show id < (l.pushed ++ [_]).length
    rw [List.length_append]
    exact Nat.lt_add_right _ (h.queueing t' id hid)
  woken := by
    intro hp f hf hr
    rcases List.mem_append.mp hf with hf | hf
    · exact h.woken hp f hf hr
    · -- numbers are given out in order, and this one is the next
      obtain rfl : f = ⟨l.pushed.length, t, cb⟩ := by simpa using hf
      exact absurd (h.returned _ hr) (Nat.lt_irrefl _)

theorem Inv.queueInLoop (h : l.Inv) (cb : φ) : (l.queueInLoop cb).Inv := by
  unfold EventLoop.queueInLoop
  dsimp only
  split
  · exact (h.push none cb).wakeup
  · exact h.push none cb

theorem Inv.runNext (h : l.Inv) (hp : l.phase = .running) : l.runNext.Inv where
  split := by
    show l.pushed = l.executed ++ l.functors.take 1 ++ l.functors.tail ++ l.pendingFunctors
    rw [h.split, ← List.drop_one, List.append_assoc l.executed (l.functors.take 1), List.take_append_drop]
  ids := h.ids
  vector := fun hne => absurd hp hne
  looping := h.looping
  returned := h.returned
  queueing := h.queueing
  woken := h.woken

/-- The swap leaves nothing pending. -/
theorem Inv.swap (h : l.Inv) (hp : l.phase = .calling) : { l.swapFunctors with phase := .running }.Inv := by
  have hv : l.functors = [] := h.vector (by simp [hp])
  refine ⟨?_, h.ids, fun hne => absurd rfl hne, ?_, h.returned, h.queueing, ?_⟩
  · show l.pushed = l.executed ++ l.pendingFunctors ++ l.functors
    rw [h.split, hv, List.append_nil, List.append_nil]
  · show l.looping = false ↔ _
    rw [h.looping, hp]
    simp
  · intro _ f hf
    have hmem : f ∈ l.functors := hf
    rw [hv] at hmem
    exact absurd hmem List.not_mem_nil

/-- A change of phase that neither leaves `running` with work left, nor brings the counter back into play. -/
theorem Inv.toPhase (h : l.Inv) {p : LoopPhase} {b q w c : Bool} (hv : l.functors = [])
    (hloop : b = false ↔ p = .outside)
    (hw : swapAhead p = false → swapAhead l.phase = false) :
    Inv { l with phase := p, looping := b, quit := q, wakeupActive := w, callingPendingFunctors := c } :=
  ⟨h.split, h.ids, fun _ => hv, hloop, h.returned, h.queueing, fun hp => h.woken (hw hp)⟩

/-! ## Every interleaving -/

variable [DecidableEq τ]

theorem Inv.setThread (h : l.Inv) (t : τ) {p : ThreadPoint}
    (hp : ∀ id, p = .queueing id → id < l.pushed.length) : (l.setThread t p).Inv where
  split := h.split
  ids := h.ids
  vector := h.vector
  looping := h.looping
  returned := h.returned
  queueing := by
    intro t' id hid
    have hid' : Function.update l.threads t p t' = .queueing id := hid
    by_cases heq : t' = t
    · rw [heq, Function.update_self] at hid'
      exact hp id hid'
    · rw [Function.update_of_ne heq] at hid'
      exact h.queueing t' id hid'
  woken := h.woken

/-- The call of another thread returns after `wakeup()`, when the counter is positive. -/
theorem Inv.threadReturns (h : l.Inv) (hpos : 0 < l.wakeupCounter) (t : τ) : (l.threadReturns t).Inv := by
  have hidle := h.setThread t (p := .idle) (by simp)
  unfold EventLoop.threadReturns
  split
  · next id hid =>
      refine ⟨hidle.split, hidle.ids, hidle.vector, hidle.looping, ?_, hidle.queueing,
        fun _ _ _ _ => hpos⟩
      intro id' hid'
      rcases List.mem_append.mp hid' with hid' | hid'
      · exact h.returned id' hid'
      · obtain rfl : id' = id := by simpa using hid'
        exact h.queueing t id' hid
  · exact hidle
  · exact h

theorem Inv.exec (h : l.Inv) {a : LoopOp τ φ} (ha : l.enabled a) : Safe (l.exec a) Inv := by
  cases a with
  | loop =>
      have hp : l.phase = .outside := ha
      refine Safe.bind (Safe.assert (h.looping.mpr hp)) ?_
      intro _ _
      exact Safe.ok (h.toPhase (h.vector (by simp [hp])) (by simp) (by simp [hp, swapAhead]))
  | test =>
      have hp : l.phase = .head := ha
      have hv := h.vector (by simp [hp])
      have hl := h.looping_of (by simp [hp])
      refine Safe.ok ?_
      split
      · exact h.toPhase hv (by simp) (by simp [hp, swapAhead])
      · exact h.toPhase hv (by simp [hl]) (by simp [hp, swapAhead])
  | pollReturn w =>
      have hl := h.looping_of (by simp [ha.1])
      exact Safe.ok (h.toPhase (h.vector (by simp [ha.1])) (by simp [hl]) (by simp [swapAhead]))
  | handleRead =>
      -- the counter is zeroed, but the swap is still to come
      refine Safe.ok ⟨h.split, h.ids, h.vector, h.looping, h.returned, h.queueing, ?_⟩
      intro hp
      have hphase : swapAhead l.phase = false := hp
      rw [ha.1] at hphase
      exact absurd hphase (by decide)
  | queueInLoop cb => exact Safe.ok (h.queueInLoop cb)
  | quit => exact Safe.ok ⟨h.split, h.ids, h.vector, h.looping, h.returned, h.queueing, h.woken⟩
  | doPendingFunctors =>
      have hl := h.looping_of (by simp [ha.1])
      exact Safe.ok (h.toPhase (h.vector (by simp [ha.1])) (by simp [hl]) (by simp [swapAhead]))
  | swap => exact Safe.ok (h.swap ha)
  | runNext => exact Safe.ok (h.runNext ha.1)
  | endFunctors =>
      -- what was pushed since the swap is covered by `woken` already
      have hl := h.looping_of (by simp [ha.1])
      exact Safe.ok (h.toPhase ha.2 (by simp [hl]) (by simp [ha.1, swapAhead]))
  | destroyed =>
      have hp : l.phase = .destroying := ha
      have hl := h.looping_of (by simp [hp])
      exact Safe.ok (h.toPhase (h.vector (by simp [hp])) (by simp [hl]) (by simp [hp, swapAhead]))
  | push t cb =>
      refine Safe.ok ((h.push (some t) cb).setThread t ?_)
      rintro id hid
      obtain rfl : l.pushed.length = id := by simpa using hid
      show l.pushed.length < (l.pushed ++ [_]).length
      simp
  | setQuit t =>
      have hq : Inv { l with quit := true } :=
        ⟨h.split, h.ids, h.vector, h.looping, h.returned, h.queueing, h.woken⟩
      exact Safe.ok (hq.setThread t (by simp))
  | wakeup t =>
      obtain ⟨n, hn, hpos, -⟩ := wakeup_eq l
      exact Safe.ok (h.wakeup.threadReturns (by rw [hn]; exact hpos) t)

theorem reachable_inv (h : (loopSystem τ φ).Reachable l) : l.Inv := by
  refine System.inv (S := loopSystem τ φ) ?_ ?_ h
  · rintro _ rfl
    exact new_inv
  · exact fun _ _ hs ha => hs.exec ha

/-- **No functor is lost or repeated, and no wakeup is lost.** For any number of other threads and every
    interleaving: the functors pushed are those executed, followed by those of the local vector that are left,
    followed by those pending, all different, in the order they were pushed; and while the loop is blocked in
    `poll` with a functor pending whose `queueInLoop` call has returned on another thread, the counter of
    `wakeupFd_` is not zero. -/
theorem no_lost_wakeup (h : (loopSystem τ φ).Reachable l) :
    l.pushed = l.executed ++ l.functors ++ l.pendingFunctors ∧ (l.pushed.map Pending.id).Nodup ∧
    (l.phase = .polling → ∀ f ∈ l.pendingFunctors, f.id ∈ l.returned → l.wakeupCounter ≠ 0) := by
  have hinv := reachable_inv h
  refine ⟨hinv.split, ?_, ?_⟩
  · rw [hinv.ids]
    exact List.nodup_range
  · intro hp f hf hr
    exact Nat.ne_of_gt (hinv.woken (by rw [hp]; rfl) f hf hr)

/-- Another thread queues a functor while the loop is blocked in `poll`. -/
theorem no_lost_wakeup_polling : ∃ l : EventLoop Unit Nat, l.phase = .polling ∧
    l.pendingFunctors = [⟨0, some (), 7⟩] ∧ l.returned = [0] ∧ l.wakeupCounter ≠ 0 := by
  let l₁ : EventLoop Unit Nat := { EventLoop.new Unit Nat with looping := true, phase := .head }
  let l₂ : EventLoop Unit Nat := { l₁ with phase := .polling }
  let l₃ := (l₂.push (some ()) 7).setThread () (.queueing 0)
  have h₁ : (loopSystem Unit Nat).Step (EventLoop.new Unit Nat) .loop l₁ := ⟨rfl, rfl⟩
  have h₂ : (loopSystem Unit Nat).Step l₁ .test l₂ := ⟨rfl, rfl⟩
  have h₃ : (loopSystem Unit Nat).Step l₂ (.push () 7) l₃ := ⟨rfl, rfl⟩
  have h₄ : (loopSystem Unit Nat).Step l₃ (.wakeup ()) (l₃.wakeup.threadReturns ()) :=
    ⟨ThreadPoint.noConfusion, rfl⟩
  have hreach := System.Reachable.step (.step (.step (.step (.init rfl) h₁) h₂) h₃) h₄
  have hmem : (⟨0, some (), 7⟩ : Pending Unit Nat) ∈ (l₃.wakeup.threadReturns ()).pendingFunctors :=
    List.mem_singleton.mpr rfl
  exact ⟨_, rfl, rfl, rfl, (no_lost_wakeup hreach).2.2 rfl _ hmem (List.mem_singleton.mpr rfl)⟩

/-! ## Functors that the loop thread queues itself -/

/-- A call of `queueInLoop` on the loop thread is made while events are handled or functors are called, or the
    counter is positive anyway. -/
def QueuesInTime (l : EventLoop τ φ) : LoopOp τ φ → Prop
  | .queueInLoop _ => l.phase = .handling ∨ l.phase = .running ∨ l.wakeupCounter ≠ 0
  | _ => True

/-- `callingPendingFunctors_` is true from before the swap to after the last call. -/
def Flagged (l : EventLoop τ φ) : Prop := l.callingPendingFunctors = true ↔ l.phase = .calling ∨ l.phase = .running

/-- A functor of the loop thread that waits for the next iteration keeps the counter positive. -/
def OwnWoken (l : EventLoop τ φ) : Prop :=
  swapAhead l.phase = false → ∀ f ∈ l.pendingFunctors, f.thread = none → 0 < l.wakeupCounter

omit [DecidableEq τ] in
theorem OwnWoken.wakeup (l : EventLoop τ φ) : l.wakeup.OwnWoken := by
  obtain ⟨n, hn, hpos, -⟩ := wakeup_eq l
  rw [hn]
  exact fun _ _ _ _ => hpos

theorem threadReturns_frame (l : EventLoop τ φ) (t : τ) :
    (l.threadReturns t).phase = l.phase ∧ (l.threadReturns t).callingPendingFunctors = l.callingPendingFunctors ∧
      (l.threadReturns t).pendingFunctors = l.pendingFunctors ∧
      (l.threadReturns t).wakeupCounter = l.wakeupCounter := by
  unfold EventLoop.threadReturns
  split <;> exact ⟨rfl, rfl, rfl, rfl⟩

omit [DecidableEq τ] in
theorem queueInLoop_frame (l : EventLoop τ φ) (cb : φ) :
    (l.queueInLoop cb).phase = l.phase ∧ (l.queueInLoop cb).callingPendingFunctors = l.callingPendingFunctors := by
  obtain ⟨n, hn, -, -⟩ := wakeup_eq (l.push none cb)
  unfold EventLoop.queueInLoop
  dsimp only
  split
  · rw [hn]
    exact ⟨rfl, rfl⟩
  · exact ⟨rfl, rfl⟩

theorem Flagged.exec (h : l.Flagged) {a : LoopOp τ φ} (ha : l.enabled a) {l' : EventLoop τ φ}
    (hl' : l.exec a = .ok l') : l'.Flagged := by
  have hnot : ∀ {p}, l.phase = p → p ≠ .calling → p ≠ .running → l.callingPendingFunctors = false := by
    intro p hp hcalling hrunning
    have hflag := h.not.mpr (by rw [hp]; exact not_or.mpr ⟨hcalling, hrunning⟩)
    simpa using hflag
  -- the flag is set and reset only at the ends of its interval
  cases a with
  | loop =>
      have hoff := hnot ha (by simp) (by simp)
      obtain ⟨_, -, hl'⟩ := bind_eq_ok.mp hl'
      obtain rfl := Except.ok.inj hl'
      simp [Flagged, hoff]
  | test =>
      have hoff := hnot ha (by simp) (by simp)
      obtain rfl := Except.ok.inj hl'
      split <;> simp [Flagged, hoff]
  | pollReturn w =>
      have hoff := hnot ha.1 (by simp) (by simp)
      obtain rfl := Except.ok.inj hl'
      simp [Flagged, hoff]
  | handleRead =>
      obtain rfl := Except.ok.inj hl'
      exact h
  | queueInLoop cb =>
      obtain rfl := Except.ok.inj hl'
      obtain ⟨hphase, hcalling⟩ := l.queueInLoop_frame cb
      unfold Flagged
      rw [hphase, hcalling]
      exact h
  | quit =>
      obtain rfl := Except.ok.inj hl'
      exact h
  | doPendingFunctors =>
      obtain rfl := Except.ok.inj hl'
      simp [Flagged]
  | swap =>
      have hon : l.callingPendingFunctors = true := h.mpr (Or.inl ha)
      obtain rfl := Except.ok.inj hl'
      simp [Flagged, swapFunctors, hon]
  | runNext =>
      obtain rfl := Except.ok.inj hl'
      exact h
  | endFunctors =>
      obtain rfl := Except.ok.inj hl'
      simp [Flagged]
  | destroyed =>
      have hoff := hnot ha (by simp) (by simp)
      obtain rfl := Except.ok.inj hl'
      simp [Flagged, hoff]
  | push t cb =>
      obtain rfl := Except.ok.inj hl'
      exact h
  | setQuit t =>
      obtain rfl := Except.ok.inj hl'
      exact h
  | wakeup t =>
      obtain rfl := Except.ok.inj hl'
      obtain ⟨n, hn, -, -⟩ := wakeup_eq l
      obtain ⟨hphase, hcalling, -, -⟩ := l.wakeup.threadReturns_frame t
      unfold Flagged
      rw [hphase, hcalling, hn]
      exact h

omit [DecidableEq τ] in
theorem OwnWoken.queueInLoop (hflag : l.Flagged) {cb : φ}
    (htime : l.phase = .handling ∨ l.phase = .running ∨ l.wakeupCounter ≠ 0) : (l.queueInLoop cb).OwnWoken := by
  unfold EventLoop.queueInLoop
  dsimp only
  split
  · exact OwnWoken.wakeup _
  · next hcalling =>
      intro hp f _ _
      have hp : swapAhead l.phase = false := hp
      -- no wakeup is written, so it is another of the three
      rcases htime with hhandling | hrunning | hcounter
      · simp [hhandling, swapAhead] at hp
      · exact absurd (hflag.mpr (Or.inr hrunning)) hcalling
      · exact Nat.pos_of_ne_zero hcounter

theorem OwnWoken.exec (h : l.OwnWoken) (hinv : l.Inv) (hflag : l.Flagged) {a : LoopOp τ φ} (ha : l.enabled a)
    (htime : l.QueuesInTime a) {l' : EventLoop τ φ} (hl' : l.exec a = .ok l') : l'.OwnWoken := by
  cases a with
  | loop =>
      have hp : l.phase = .outside := ha
      obtain ⟨_, -, hl'⟩ := bind_eq_ok.mp hl'
      obtain rfl := Except.ok.inj hl'
      exact fun _ => h (by simp [hp, swapAhead])
  | test =>
      have hp : l.phase = .head := ha
      obtain rfl := Except.ok.inj hl'
      split <;> exact fun _ => h (by simp [hp, swapAhead])
  | pollReturn w =>
      obtain rfl := Except.ok.inj hl'
      exact fun hp => by simp [swapAhead] at hp
  | handleRead =>
      -- the counter is zeroed, but the swap is still to come
      obtain rfl := Except.ok.inj hl'
      intro hp
      have hphase : swapAhead l.phase = false := hp
      simp [ha.1, swapAhead] at hphase
  | queueInLoop cb =>
      obtain rfl := Except.ok.inj hl'
      exact .queueInLoop hflag htime
  | quit =>
      obtain rfl := Except.ok.inj hl'
      exact h
  | doPendingFunctors =>
      obtain rfl := Except.ok.inj hl'
      exact fun hp => by simp [swapAhead] at hp
  | swap =>
      have hp : l.phase = .calling := ha
      have hv : l.functors = [] := hinv.vector (by simp [hp])
      obtain rfl := Except.ok.inj hl'
      intro _ f hf
      have hmem : f ∈ l.functors := hf
      -- all that was pending is called in this iteration
      rw [hv] at hmem
      cases hmem
  | runNext =>
      obtain rfl := Except.ok.inj hl'
      exact h
  | endFunctors =>
      obtain rfl := Except.ok.inj hl'
      exact fun _ => h (by simp [ha.1, swapAhead])
  | destroyed =>
      have hp : l.phase = .destroying := ha
      obtain rfl := Except.ok.inj hl'
      exact fun _ => h (by simp [hp, swapAhead])
  | push t cb =>
      obtain rfl := Except.ok.inj hl'
      intro hp f hf hown
      rcases List.mem_append.mp hf with hf | hf
      · exact h hp f hf hown
      -- what another thread pushes is not one of its own
      · rw [List.mem_singleton.mp hf] at hown
        cases hown
  | setQuit t =>
      obtain rfl := Except.ok.inj hl'
      exact h
  | wakeup t =>
      obtain rfl := Except.ok.inj hl'
      obtain ⟨hphase, -, hpending, hcounter⟩ := l.wakeup.threadReturns_frame t
      unfold OwnWoken
      rw [hphase, hpending, hcounter]
      exact OwnWoken.wakeup l

theorem reachable_flagged (h : (loopSystem τ φ).Reachable l) : l.Flagged := by
  refine System.keeps (S := loopSystem τ φ) ?_ ?_ h
  · rintro _ rfl
    simp [Flagged, EventLoop.new]
  · exact fun _ _ _ hs ha hl' => hs.exec ha hl'

/-- **No functor that the loop thread queues in time is left behind a blocking `poll`.** In every run in which the
    loop thread calls `queueInLoop` only while it handles events or calls functors, or while the counter is
    positive: the loop is not blocked in `poll` with such a functor pending and the counter at zero. -/
theorem own_functor_not_behind_poll (h : ((loopSystem τ φ).when QueuesInTime).Reachable l)
    (hp : l.phase = .polling) : ∀ f ∈ l.pendingFunctors, f.thread = none → l.wakeupCounter ≠ 0 := by
  have hall : l.Inv ∧ l.Flagged ∧ l.OwnWoken := by
    refine System.keeps (S := (loopSystem τ φ).when QueuesInTime) (I := fun l => l.Inv ∧ l.Flagged ∧ l.OwnWoken)
      ?_ ?_ h
    · rintro _ rfl
      exact ⟨new_inv, by simp [Flagged, EventLoop.new], by simp [OwnWoken, EventLoop.new]⟩
    · rintro l a l' ⟨hinv, hflag, hown⟩ ⟨ha, htime⟩ hl'
      exact ⟨(hinv.exec ha).of_eq_ok hl', hflag.exec ha hl', hown.exec hinv hflag ha htime hl'⟩
  intro f hf hown
  exact Nat.ne_of_gt (hall.2.2 (by rw [hp]; rfl) f hf hown)

/-- A functor that is queued by a functor is not left behind. -/
theorem own_functor_not_behind_poll_running : ∃ l : EventLoop Unit Nat, l.phase = .polling ∧
    l.pendingFunctors = [⟨1, none, 8⟩] ∧ l.wakeupCounter ≠ 0 := by
  have h := (System.Reachable.init (S := (loopSystem Unit Nat).when QueuesInTime) rfl)
    |>.next .loop ⟨rfl, trivial⟩ rfl
    |>.next .test ⟨rfl, trivial⟩ rfl
    |>.next (.pollReturn false) ⟨⟨rfl, by simp⟩, trivial⟩ rfl
    |>.next (.queueInLoop 7) ⟨rfl, Or.inl rfl⟩ rfl
    |>.next .doPendingFunctors ⟨⟨rfl, rfl⟩, trivial⟩ rfl
    |>.next .swap ⟨rfl, trivial⟩ rfl
    |>.next .runNext ⟨⟨rfl, List.cons_ne_nil _ _⟩, trivial⟩ rfl
    |>.next (.queueInLoop 8) ⟨rfl, Or.inr (Or.inl rfl)⟩ rfl
    |>.next .endFunctors ⟨⟨rfl, rfl⟩, trivial⟩ rfl
    |>.next .destroyed ⟨rfl, trivial⟩ rfl
    |>.next .test ⟨rfl, trivial⟩ rfl
  exact ⟨_, rfl, rfl, own_functor_not_behind_poll h rfl _ (List.mem_singleton.mpr rfl) rfl⟩

/-- **A functor left behind.** A destructor that runs when `doPendingFunctors` destroys its local vector queues a
    functor; the loop then blocks in `poll` with it pending, and nothing wakes it up. -/
theorem own_functor_behind_poll : ∃ l : EventLoop Unit Nat, (loopSystem Unit Nat).Reachable l ∧ l.phase = .polling ∧
    l.pendingFunctors = [⟨1, none, 8⟩] ∧ l.wakeupCounter = 0 := by
  have h := (System.Reachable.init (S := loopSystem Unit Nat) rfl)
    |>.next .loop rfl rfl
    |>.next .test rfl rfl
    |>.next (.pollReturn false) ⟨rfl, by simp⟩ rfl
    |>.next (.queueInLoop 7) rfl rfl
    |>.next .doPendingFunctors ⟨rfl, rfl⟩ rfl
    |>.next .swap rfl rfl
    |>.next .runNext ⟨rfl, List.cons_ne_nil _ _⟩ rfl
    |>.next .endFunctors ⟨rfl, rfl⟩ rfl
    |>.next (.queueInLoop 8) rfl rfl
    |>.next .destroyed rfl rfl
    |>.next .test rfl rfl
  exact ⟨_, h, rfl, rfl, rfl⟩

/-- The loop thread goes on to `poll`, and nothing else happens. -/
def BlocksNext (l : EventLoop τ φ) : Prop := ∃ as l', (loopSystem τ φ).Path l as l' ∧ l'.phase = .polling ∧
  l'.wakeupCounter = l.wakeupCounter ∧ l'.pendingFunctors = l.pendingFunctors

theorem blocksNext_of_outside (hp : l.phase = .outside) (hlooping : l.looping = false) : l.BlocksNext := by
  have hloop : l.exec .loop = .ok { l with looping := true, quit := false, phase := .head } :=
    bind_eq_ok.mpr ⟨(), assert_pos hlooping, rfl⟩
  have hpath := System.Path.nil (S := loopSystem τ φ)
    |>.next .loop hp hloop
    |>.next .test rfl rfl
  exact ⟨_, _, hpath, rfl, rfl, rfl⟩

theorem blocksNext_of_destroying (hp : l.phase = .destroying) : l.BlocksNext := by
  have hhead := System.Path.nil (S := loopSystem τ φ) |>.next .destroyed hp rfl
  cases hquit : l.quit with
  | false =>
      have htest : { l with phase := .head }.exec .test = .ok { l with phase := .polling, quit := false } := by
        simp [EventLoop.exec, hquit]
      exact ⟨_, _, hhead.next .test rfl htest, rfl, rfl, rfl⟩
  | true =>
      have htest : { l with phase := .head }.exec .test = .ok { l with looping := false, phase := .outside } := by
        simp [EventLoop.exec, hquit]
      -- the loop is left, and user code enters it again
      obtain ⟨as, l', hpath, hpoint, hcounter, hpending⟩ :=
        blocksNext_of_outside (l := { l with looping := false, phase := .outside }) rfl rfl
      exact ⟨_, l', (hhead.next .test rfl htest).trans hpath, hpoint, hcounter, hpending⟩

/-- **The condition is exact.** A call that does not meet it leaves its functor behind if nothing but the loop thread
    goes on. -/
theorem behind_poll_of_not_in_time (h : (loopSystem τ φ).Reachable l) {cb : φ} (huser : l.phase.user = true)
    (hlate : ¬ l.QueuesInTime (.queueInLoop cb)) : ∃ as l', (loopSystem τ φ).Path (l.queueInLoop cb) as l' ∧
      l'.phase = .polling ∧ l'.wakeupCounter = 0 ∧ ∃ f ∈ l'.pendingFunctors, f.thread = none ∧ f.cb = cb := by
  obtain ⟨hhandling, hrunning, hcounter⟩ : l.phase ≠ .handling ∧ l.phase ≠ .running ∧ l.wakeupCounter = 0 := by
    simpa [QueuesInTime, not_or] using hlate
  have hflag : ¬ l.callingPendingFunctors = true := by
    refine (reachable_flagged h).not.mpr ?_
    rintro (hcalling | hrun)
    · simp [hcalling, LoopPhase.user] at huser
    · exact hrunning hrun
  -- so nothing is written to `wakeupFd_`
  have hqueue : l.queueInLoop cb = l.push none cb := if_neg hflag
  have hblocks : (l.push none cb).BlocksNext := by
    cases hphase : l.phase with
    | outside => exact blocksNext_of_outside hphase ((reachable_inv h).looping.mpr hphase)
    | destroying => exact blocksNext_of_destroying hphase
    | handling => exact absurd hphase hhandling
    | running => exact absurd hphase hrunning
    | head => simp [hphase, LoopPhase.user] at huser
    | polling => simp [hphase, LoopPhase.user] at huser
    | calling => simp [hphase, LoopPhase.user] at huser
  obtain ⟨as, l', hpath, hpoint, hcounter', hpending⟩ := hblocks
  rw [hqueue]
  refine ⟨as, l', hpath, hpoint, hcounter'.trans hcounter, ⟨l.pushed.length, none, cb⟩, ?_, rfl, rfl⟩
  rw [hpending]
  exact List.mem_append_right _ (List.mem_singleton.mpr rfl)

end Muduo.Net.EventLoop
