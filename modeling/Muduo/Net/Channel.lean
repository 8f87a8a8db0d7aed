import Mathlib.Tactic
import Muduo.Lib.Outcome

/-!
# `Net.Channel` — interest mask and event dispatch of `Channel.h` and `Channel.cc`

A `Channel` is the interest mask `events_` and the mask `revents_` last reported by the poller.
`handleEventWithGuard` is generic in the owner's state: the four callbacks are functions on it, called in the
order and under the conditions of the source.
-/

namespace Muduo.Net

open Lib

abbrev EventMask := BitVec 32

def POLLIN : EventMask := 0x001
def POLLPRI : EventMask := 0x002
def POLLOUT : EventMask := 0x004
def POLLERR : EventMask := 0x008
def POLLHUP : EventMask := 0x010
def POLLNVAL : EventMask := 0x020
def POLLRDHUP : EventMask := 0x2000

/-- `mask & bits` as a condition. -/
def EventMask.has (mask bits : EventMask) : Bool := mask &&& bits != 0

theorem EventMask.has_or (mask a b : EventMask) : mask.has (a ||| b) = (mask.has a || mask.has b) := by
  have hzero : mask &&& a ||| mask &&& b = 0#32 ↔ mask &&& a = 0#32 ∧ mask &&& b = 0#32 :=
    BitVec.or_eq_zero_iff
  unfold EventMask.has
  rw [BitVec.and_or_distrib_left, Bool.eq_iff_iff]
  simp only [bne_iff_ne, ne_eq, Bool.or_eq_true]
  show ¬ _ = 0#32 ↔ ¬ _ = 0#32 ∨ ¬ _ = 0#32
  rw [hzero]
  tauto

/-- `class Channel`. -/
structure Channel where
  events : EventMask
  revents : EventMask
  tied : Bool
deriving DecidableEq, Repr

namespace Channel

def kNoneEvent : EventMask := 0
def kReadEvent : EventMask := POLLIN ||| POLLPRI
def kWriteEvent : EventMask := POLLOUT

def new : Channel := ⟨0, 0, false⟩

def isNoneEvent (c : Channel) : Bool := c.events == kNoneEvent

def isWriting (c : Channel) : Bool := EventMask.has c.events kWriteEvent

def tie (c : Channel) : Channel := { c with tied := true }

def set_revents (c : Channel) (revt : EventMask) : Channel := { c with revents := revt }

def enableReading (c : Channel) : Channel := { c with events := c.events ||| kReadEvent }

def disableReading (c : Channel) : Channel := { c with events := c.events &&& ~~~kReadEvent }

def enableWriting (c : Channel) : Channel := { c with events := c.events ||| kWriteEvent }

def disableWriting (c : Channel) : Channel := { c with events := c.events &&& ~~~kWriteEvent }

def disableAll (c : Channel) : Channel := { c with events := kNoneEvent }

/-- `remove()`: the assertion; the poller's part is not the channel's. -/
def remove (c : Channel) : Outcome Unit := assert (c.isNoneEvent = true)

/-! ## Dispatch -/

/-- The four callbacks of a channel, on the state `σ` of its owner. -/
structure Callbacks (σ : Type) where
  closeCallback : σ → Outcome σ
  errorCallback : σ → Outcome σ
  readCallback : σ → Outcome σ
  writeCallback : σ → Outcome σ

/-- `f` if the condition holds, nothing otherwise. -/
def whenever {σ : Type} (c : Bool) (f : σ → Outcome σ) (s : σ) : Outcome σ := if c then f s else .ok s

def handleEventWithGuard {σ : Type} (revents : EventMask) (cb : Callbacks σ) (s : σ) : Outcome σ := do
  let s ← whenever (revents.has POLLHUP && !revents.has POLLIN) cb.closeCallback s
  let s ← whenever (revents.has (POLLERR ||| POLLNVAL)) cb.errorCallback s
  let s ← whenever (revents.has (POLLIN ||| POLLPRI ||| POLLRDHUP)) cb.readCallback s
  whenever (revents.has POLLOUT) cb.writeCallback s

/-- `handleEvent`: a tied channel only dispatches while its owner is alive. -/
def handleEvent {σ : Type} (c : Channel) (ownerAlive : Bool) (cb : Callbacks σ) (s : σ) : Outcome σ :=
  if c.tied && !ownerAlive then .ok s else handleEventWithGuard c.revents cb s

/-- A hang-up with nothing to read: the read callback is not reached. -/
theorem handleEventWithGuard_hup {σ : Type} {revents : EventMask} {cb : Callbacks σ} {s : σ}
    (hhup : revents.has POLLHUP = true) (hin : revents.has POLLIN = false)
    (hpri : revents.has POLLPRI = false) (hrdhup : revents.has POLLRDHUP = false) :
    handleEventWithGuard revents cb s = (do
      let s ← cb.closeCallback s
      let s ← whenever (revents.has (POLLERR ||| POLLNVAL)) cb.errorCallback s
      whenever (revents.has POLLOUT) cb.writeCallback s) := by
  have hread : ∀ s, whenever (revents.has (POLLIN ||| POLLPRI ||| POLLRDHUP)) cb.readCallback s = .ok s := by
    intro s
    rw [EventMask.has_or, EventMask.has_or, hin, hpri, hrdhup]
    rfl
  unfold handleEventWithGuard
  rw [hhup, hin]
  simp only [hread, ok_bind]
  rfl

/-- Anything else: the close callback is not reached from here. -/
theorem handleEventWithGuard_noHup {σ : Type} {revents : EventMask} {cb : Callbacks σ} {s : σ}
    (h : (revents.has POLLHUP && !revents.has POLLIN) = false) :
    handleEventWithGuard revents cb s = (do
      let s ← whenever (revents.has (POLLERR ||| POLLNVAL)) cb.errorCallback s
      let s ← whenever (revents.has (POLLIN ||| POLLPRI ||| POLLRDHUP)) cb.readCallback s
      whenever (revents.has POLLOUT) cb.writeCallback s) := by
  unfold handleEventWithGuard
  rw [h]
  rfl

/-- What the called callback keeps, `whenever` keeps. -/
theorem whenever_inv {σ : Type} {I : σ → Prop} {b : Bool} {f : σ → Outcome σ} {s : σ} (h : I s)
    (hf : Safe (f s) I) : Safe (whenever b f s) I := by
  unfold whenever
  split
  · exact hf
  · exact Safe.ok h

/-! ## The interest mask -/

variable {c : Channel}

@[simp] theorem isWriting_enableWriting : c.enableWriting.isWriting = true := by
  have h : (c.events ||| kWriteEvent) &&& kWriteEvent = kWriteEvent := by
    ext i
    simp only [BitVec.getElem_and, BitVec.getElem_or]
    cases c.events[i] <;> cases kWriteEvent[i] <;> rfl
  simp only [isWriting, enableWriting, EventMask.has, h]
  decide

@[simp] theorem isWriting_disableWriting : c.disableWriting.isWriting = false := by
  have h : (c.events &&& ~~~kWriteEvent) &&& kWriteEvent = 0 := by
    ext i
    simp only [BitVec.getElem_and, BitVec.getElem_not]
    cases c.events[i] <;> cases kWriteEvent[i] <;> simp
  simp only [isWriting, disableWriting, EventMask.has, h]
  decide

@[simp] theorem isWriting_enableReading : c.enableReading.isWriting = c.isWriting := by
  have h : (c.events ||| kReadEvent) &&& kWriteEvent = c.events &&& kWriteEvent := by
    rw [BitVec.and_comm, BitVec.and_or_distrib_left]
    have : kWriteEvent &&& kReadEvent = 0#32 := by decide
    rw [this, BitVec.or_zero, BitVec.and_comm]
  simp only [isWriting, enableReading, EventMask.has, h]

@[simp] theorem isNoneEvent_disableAll : c.disableAll.isNoneEvent = true := by
  simp [isNoneEvent, disableAll]

/-- A channel without interest is not writing. -/
theorem isWriting_of_isNoneEvent (h : c.isNoneEvent = true) : c.isWriting = false := by
  have he : c.events = 0 := by simpa [isNoneEvent, kNoneEvent] using h
  simp only [isWriting, EventMask.has, he]
  decide

end Channel

end Muduo.Net
