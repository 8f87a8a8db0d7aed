import Muduo.Net.Correctness.EventLoopWakeup
import Muduo.Net.EventLoopThread

/-!
# `Correctness.EventLoopThread` — when the owner's `quit` is lost

`loop()` writes `quit_ = false` on entry, and nothing else ever does. So a `quit_ = true` stays if the new thread has
entered `loop()` before (`quit_not_lost`), and is overwritten if the owner comes first (`quit_lost`): `startLoop` does
not wait for the entry.
-/

namespace Muduo.Net

open Lib

namespace EventLoop

variable {τ φ : Type} {l l' : EventLoop τ φ}

theorem wakeup_frame (l : EventLoop τ φ) : l.wakeup.quit = l.quit ∧ l.wakeup.phase = l.phase := by
  obtain ⟨n, hn, -, -⟩ := wakeup_eq l
  rw [hn]
  exact ⟨rfl, rfl⟩

variable [DecidableEq τ]

/-- **Nothing but the entry of `loop()` resets `quit_`.** -/
theorem exec_quit {op : LoopOp τ φ} (hop : op ≠ .loop) (hl' : l.exec op = .ok l') (hquit : l.quit = true) :
    l'.quit = true := by
  cases op with
  | loop => exact absurd rfl hop
  | test =>
      obtain rfl := Except.ok.inj hl'
      simp [hquit]
  | queueInLoop cb =>
      obtain rfl := Except.ok.inj hl'
      unfold EventLoop.queueInLoop
      dsimp only
      split
      · exact (wakeup_frame _).1.trans hquit
      · exact hquit
  | quit | setQuit t =>
      obtain rfl := Except.ok.inj hl'
      rfl
  | wakeup t =>
      obtain rfl := Except.ok.inj hl'
      unfold EventLoop.threadReturns
      split <;> exact (wakeup_frame l).1.trans hquit
  | pollReturn w | handleRead | doPendingFunctors | swap | runNext | endFunctors | destroyed | push t cb =>
      obtain rfl := Except.ok.inj hl'
      exact hquit

/-- Other threads do not move the loop thread. -/
theorem exec_phase_other {op : LoopOp τ φ} {t : τ} (hop : (∃ cb, op = .push t cb) ∨ op = .setQuit t ∨ op = .wakeup t)
    (hl' : l.exec op = .ok l') : l'.phase = l.phase := by
  rcases hop with ⟨cb, rfl⟩ | rfl | rfl
  · obtain rfl := Except.ok.inj hl'
    rfl
  · obtain rfl := Except.ok.inj hl'
    rfl
  · obtain rfl := Except.ok.inj hl'
    unfold EventLoop.threadReturns
    split <;> exact (wakeup_frame l).2

end EventLoop

namespace EventLoopThread

variable {τ φ : Type} [DecidableEq τ] {s s' : EventLoopThread τ φ}

/-- When the owner assigns `quit_ = true`, the new thread has entered `loop()`. -/
def QuitsInside (s : EventLoopThread τ φ) : Action τ φ → Prop
  | .owner => s.owner = .exiting → s.thread = .inLoop ∨ s.thread = .ended
  | _ => True

/-- The owner has executed `quit_ = true`. -/
def HasQuit (s : EventLoopThread τ φ) : Prop := s.owner = .quitting ∨ s.owner = .joining ∨ s.owner = .joined

/-- What the owner assigned is still there, or not needed any more. -/
def Inv (s : EventLoopThread τ φ) : Prop :=
  s.HasQuit → (s.thread = .inLoop ∨ s.thread = .ended) ∧ (s.loop.quit = true ∨ s.Left)

omit [DecidableEq τ] in
theorem afterOp_of_ne {thread : ThreadFuncPoint} {op : EventLoop.LoopOp (Option τ) φ} (hop : op ≠ .loop) :
    afterOp thread op = thread := by
  cases op <;> first | rfl | exact absurd rfl hop

omit [DecidableEq τ] in
/-- After `loop()` has left its `while` loop, only other threads use the loop. -/
theorem other_of_left {op : EventLoop.LoopOp (Option τ) φ} (hthread : s.thread = .inLoop)
    (hphase : s.loop.phase = .outside) (hop : op ≠ .loop) (ha : s.admits op) (hen : s.loop.enabled op) :
    ∃ t, (∃ cb, op = .push t cb) ∨ op = .setQuit t ∨ op = .wakeup t := by
  cases op with
  | loop => exact absurd rfl hop
  | push t cb => exact ⟨t, Or.inl ⟨cb, rfl⟩⟩
  | setQuit t => exact ⟨t, Or.inr (Or.inl rfl)⟩
  | wakeup t => exact ⟨t, Or.inr (Or.inr rfl)⟩
  | queueInLoop cb | quit => simp [admits, hthread, hphase] at ha
  | test | pollReturn w | handleRead | doPendingFunctors | swap | runNext | endFunctors | destroyed =>
      simp [EventLoop.enabled, hphase] at hen

theorem Inv.loop (h : s.Inv) {op : EventLoop.LoopOp (Option τ) φ} (ha : s.admits op) (hen : s.loop.enabled op)
    {l : EventLoop (Option τ) φ} (hl : s.loop.exec op = .ok l) :
    Inv { s with loop := l, thread := afterOp s.thread op } := by
  intro hquit
  obtain ⟨hthread, hset⟩ := h hquit
  have hop : op ≠ .loop := by
    rintro rfl
    -- `loop()` is called once, and the new thread is in it
    have hpublished : s.thread = .published := ha
    simp [hpublished] at hthread
  show (afterOp s.thread op = .inLoop ∨ afterOp s.thread op = .ended) ∧
    (l.quit = true ∨ (afterOp s.thread op = .ended ∨ afterOp s.thread op = .inLoop ∧ l.phase = .outside))
  rw [afterOp_of_ne hop]
  refine ⟨hthread, ?_⟩
  rcases hset with hset | hended | ⟨hinLoop, hphase⟩
  · exact Or.inl (EventLoop.exec_quit hop hl hset)
  · exact Or.inr (Or.inl hended)
  -- outside the `while` loop, only other threads are left
  · obtain ⟨t, hother⟩ := other_of_left hinLoop hphase hop ha hen
    exact Or.inr (Or.inr ⟨hinLoop, (EventLoop.exec_phase_other hother hl).trans hphase⟩)

theorem Inv.ownerStep (h : s.Inv) (hinside : s.QuitsInside .owner) (hs' : s.ownerStep = .ok s') : s'.Inv := by
  unfold EventLoopThread.ownerStep at hs'
  cases howner : s.owner with
  | outside =>
      rw [howner] at hs'
      obtain ⟨_, -, hs'⟩ := bind_eq_ok.mp hs'
      obtain rfl := Except.ok.inj hs'
      simp [Inv, HasQuit]
  | waiting | started =>
      rw [howner] at hs'
      obtain rfl := Except.ok.inj hs'
      simp [Inv, HasQuit]
  | exiting =>
      rw [howner] at hs'
      obtain ⟨_, -, hs'⟩ := bind_eq_ok.mp hs'
      obtain ⟨l, hl, hs'⟩ := bind_eq_ok.mp hs'
      obtain rfl := Except.ok.inj hs'
      obtain rfl := Except.ok.inj hl
      -- the assignment: this is where the condition is needed
      exact fun _ => ⟨hinside howner, Or.inl rfl⟩
  | quitting =>
      rw [howner] at hs'
      obtain ⟨_, -, hs'⟩ := bind_eq_ok.mp hs'
      obtain ⟨l, hl, hs'⟩ := bind_eq_ok.mp hs'
      obtain rfl := Except.ok.inj hs'
      obtain ⟨hthread, hset⟩ := h (Or.inl howner)
      have hphase := EventLoop.exec_phase_other (Or.inr (Or.inr rfl)) hl
      refine fun _ => ⟨hthread, ?_⟩
      rcases hset with hset | hleft
      · exact Or.inl (EventLoop.exec_quit (by simp) hl hset)
      · exact Or.inr (hleft.imp_right fun ⟨hinLoop, hout⟩ => ⟨hinLoop, hphase.trans hout⟩)
  | joining | joined =>
      rw [howner] at hs'
      obtain rfl := Except.ok.inj hs'
      exact fun _ => h (by simp [HasQuit, howner])

theorem Inv.exec (h : s.Inv) {a : Action τ φ} (ha : s.enabled a) (hinside : s.QuitsInside a)
    (hs' : s.exec a = .ok s') : s'.Inv := by
  cases a with
  | owner => exact h.ownerStep hinside hs'
  | construct =>
      obtain rfl := Except.ok.inj hs'
      intro hquit
      have hstarting : s.thread = .starting := ha
      have hthread := (h hquit).1
      simp [hstarting] at hthread
  | publish =>
      obtain rfl := Except.ok.inj hs'
      intro hquit
      have hcallback : s.thread = .callback := ha
      have hthread := (h hquit).1
      simp [hcallback] at hthread
  | loop op =>
      obtain ⟨l, hl, hs'⟩ := bind_eq_ok.mp hs'
      obtain rfl := Except.ok.inj hs'
      exact h.loop ha.1 ha.2 hl
  | leave =>
      obtain rfl := Except.ok.inj hs'
      exact fun _ => ⟨Or.inr rfl, Or.inr (Or.inl rfl)⟩

/-- **When a quit request is not lost.** In every run in which the new thread has entered `loop()` before the owner
    assigns `quit_ = true`: when the owner's `quit` has returned, `quit_` is true, or the new thread has left the
    `while` loop. -/
theorem quit_not_lost (h : ((threadSystem τ φ).when QuitsInside).Reachable s)
    (hreturned : s.owner = .joining ∨ s.owner = .joined) : s.loop.quit = true ∨ s.Left := by
  have hinv : s.Inv := by
    refine System.keeps (S := (threadSystem τ φ).when QuitsInside) ?_ ?_ h
    · rintro _ rfl
      simp [Inv, HasQuit]
    · exact fun _ _ _ hs ha hs' => hs.exec ha.1 ha.2 hs'
  exact (hinv (Or.inr hreturned)).2

/-- The owner quits while the loop is in `poll`. -/
theorem quit_not_lost_polling : ∃ s : EventLoopThread Unit Nat, s.owner = .joining ∧ s.loop.phase = .polling ∧
    (s.loop.quit = true ∨ s.Left) := by
  have h := (System.Reachable.init (S := (threadSystem Unit Nat).when QuitsInside) rfl)
    |>.next .owner ⟨trivial, by simp [QuitsInside]⟩ rfl
    |>.next .construct ⟨rfl, trivial⟩ rfl
    |>.next .publish ⟨rfl, trivial⟩ rfl
    |>.next .owner ⟨rfl, by simp [QuitsInside]⟩ rfl
    |>.next (.loop .loop) ⟨⟨rfl, rfl⟩, trivial⟩ rfl
    |>.next (.loop .test) ⟨⟨rfl, rfl⟩, trivial⟩ rfl
    |>.next .owner ⟨trivial, by simp [QuitsInside]⟩ rfl
    |>.next .owner ⟨trivial, fun _ => Or.inl rfl⟩ rfl
    |>.next .owner ⟨trivial, by simp [QuitsInside]⟩ rfl
  exact ⟨_, rfl, rfl, quit_not_lost h (Or.inl rfl)⟩

/-- **A lost quit request.** The owner destroys the object as soon as `startLoop` has returned. Its `quit` comes before
    `loop()` is entered, and is overwritten there; the loop goes on, and the destructor waits for it. -/
theorem quit_lost : ∃ s : EventLoopThread Unit Nat, (threadSystem Unit Nat).Reachable s ∧ s.owner = .joining ∧
    s.loop.quit = false ∧ ¬ s.Left := by
  have h := (System.Reachable.init (S := threadSystem Unit Nat) rfl)
    |>.next .owner trivial rfl
    |>.next .construct rfl rfl
    |>.next .publish rfl rfl
    |>.next .owner rfl rfl
    |>.next .owner trivial rfl
    |>.next .owner trivial rfl
    |>.next .owner trivial rfl
    |>.next (.loop .loop) ⟨rfl, rfl⟩ rfl
  exact ⟨_, h, rfl, rfl, by rintro (h | ⟨-, h⟩) <;> cases h⟩

end EventLoopThread

end Muduo.Net
