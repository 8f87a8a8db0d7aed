import Muduo.Net.Correctness.TcpDispatch

/-!
# `Correctness.TcpInterest` — an open connection keeps its read interest

`connectEstablished` enables reading, and until `handleClose` or `connectDestroyed` clears the whole mask
nothing takes it away: sending and flushing touch the write bit only. A connection that is shutting down its
write half therefore still has interest in its channel.
-/

namespace Muduo.Net

open Lib

namespace Channel

variable {ch : Channel}

/-- The channel is interested in reading. -/
def isReading (ch : Channel) : Bool := EventMask.has ch.events kReadEvent

theorem isReading_enableReading : ch.enableReading.isReading = true := by
  have h : (ch.events ||| kReadEvent) &&& kReadEvent = kReadEvent := by
    rw [BitVec.and_comm, BitVec.and_or_distrib_left, BitVec.and_self, BitVec.or_comm]
    ext i
    simp only [BitVec.getElem_and, BitVec.getElem_or]
    cases kReadEvent[i] <;> simp
  simp only [isReading, enableReading, EventMask.has, h]
  decide

theorem isReading_enableWriting : ch.enableWriting.isReading = ch.isReading := by
  have h : (ch.events ||| kWriteEvent) &&& kReadEvent = ch.events &&& kReadEvent := by
    have hzero : kReadEvent &&& kWriteEvent = 0#32 := by decide
    rw [BitVec.and_comm, BitVec.and_or_distrib_left, hzero, BitVec.or_zero, BitVec.and_comm]
  simp only [isReading, enableWriting, EventMask.has, h]

theorem isReading_disableWriting : ch.disableWriting.isReading = ch.isReading := by
  have h : (ch.events &&& ~~~kWriteEvent) &&& kReadEvent = ch.events &&& kReadEvent := by
    have hmask : ~~~kWriteEvent &&& kReadEvent = kReadEvent := by decide
    rw [BitVec.and_assoc, hmask]
  simp only [isReading, disableWriting, EventMask.has, h]

end Channel

namespace TcpConnection

variable {c c' : TcpConnection} {us : List UserCall}

/-- Closed, or interested in reading. -/
def Reading (c : TcpConnection) : Prop := c.state = .kDisconnected ∨ c.channel.isReading = true

theorem Reading.of_frame (h : Reading c) (hs : c'.state = c.state)
    (hch : c'.channel.isReading = c.channel.isReading) : Reading c' := by
  unfold Reading
  rw [hs, hch]
  exact h

theorem bufferRest_reading {rest : List UInt8} {n : Nat} (h : Reading c) (hc : c.bufferRest rest n = .ok c') :
    Reading c' := by
  obtain ⟨hf, -, hch, -, -⟩ := noteHighWaterMark_spec c n
  obtain ⟨b, _, hc⟩ := bind_eq_ok.mp hc
  have hsame : Reading (c.noteHighWaterMark n) := h.of_frame hf.state (by rw [hch])
  dsimp only at hc
  split at hc
  · cases hc
    exact hsame
  · cases hc
    exact hsame.of_frame rfl Channel.isReading_enableWriting

theorem sendInLoop_reading {data : List UInt8} {len : Nat} {r : WriteResult} (h : Reading c)
    (hc : c.sendInLoop data len r = .ok c') : Reading c' := by
  by_cases hs : c.state = .kDisconnected
  · unfold sendInLoop at hc
    rw [if_pos hs] at hc
    cases hc
    exact h
  · by_cases hidle : c.idle = true
    · rcases hw : c.writeDirectly data len r with ⟨n, e, c₁⟩
      obtain ⟨-, -, hch, -, -, hf, -⟩ := writeDirectly_spec hw
      have h₁ : Reading c₁ := h.of_frame hf.state (by rw [hch])
      rw [sendInLoop_eq_of_idle hs hidle hw] at hc
      split at hc
      · exact bufferRest_reading h₁ hc
      · cases hc
        exact h₁
    · rw [sendInLoop_eq_of_busy hs hidle] at hc
      split at hc
      · exact bufferRest_reading h hc
      · cases hc
        exact h

theorem userCall_reading {u : UserCall} (h : Reading c) (hc : c.userCall u = .ok c') : Reading c' := by
  cases u with
  | send data r =>
      have hc : (if c.state = .kConnected then c.sendInLoop data.data data.data.length r else .ok c) = .ok c' :=
        hc
      split at hc
      · exact sendInLoop_reading h hc
      · cases hc
        exact h
  | shutdown =>
      have hc : Except.ok c.shutdown = (.ok c' : Outcome TcpConnection) := hc
      cases hc
      unfold shutdown shutdownInLoop
      split
      · next hs =>
          have hreads : c.channel.isReading = true := h.resolve_left (by simp [hs])
          split
          · exact Or.inr hreads
          · exact Or.inr hreads
      · exact h
  | retrieve n =>
      obtain ⟨b, _, hc⟩ := bind_eq_ok.mp hc
      cases hc
      exact h

theorem userCalls_reading (h : Reading c) (hc : c.userCalls us = .ok c') : Reading c' := by
  induction us generalizing c with
  | nil =>
      cases hc
      exact h
  | cons u us ih =>
      obtain ⟨c₁, hc₁, hc⟩ := bind_eq_ok.mp hc
      exact ih (userCall_reading h hc₁) hc

theorem connectEstablished_reading (hc : c.connectEstablished us = .ok c') : Reading c' := by
  obtain ⟨_, _, hc⟩ := bind_eq_ok.mp hc
  refine userCalls_reading ?_ hc
  exact Or.inr Channel.isReading_enableReading

theorem handleClose_reading (hc : c.handleClose us = .ok c') : Reading c' := by
  obtain ⟨_, _, hc⟩ := bind_eq_ok.mp hc
  obtain ⟨c₁, hc₁, hc⟩ := bind_eq_ok.mp hc
  have h₁ : Reading c₁ := userCalls_reading (Or.inl rfl) hc₁
  cases hc
  exact h₁

theorem handleRead_reading {r : ReadResult} (h : Reading c) (hc : c.handleRead r us = .ok c') : Reading c' := by
  obtain ⟨⟨n, b⟩, _, hc⟩ := bind_eq_ok.mp hc
  dsimp only at hc
  split at hc
  · exact userCalls_reading (by exact h) hc
  · split at hc
    · exact handleClose_reading hc
    · cases hc
      exact h

theorem shutdownInLoop_reading (h : Reading c) : Reading c.shutdownInLoop := by
  unfold shutdownInLoop
  split <;> exact h

theorem afterWrite_reading {n : Nat} (h : Reading c) (hc : c.afterWrite n = .ok c') : Reading c' := by
  obtain ⟨b, _, hc⟩ := bind_eq_ok.mp hc
  dsimp only at hc
  split at hc
  · let c₁ : TcpConnection := { c with outputBuffer := b, channel := c.channel.disableWriting }
    obtain ⟨hf, -, hch, -, -⟩ := noteWriteComplete_spec c₁
    have h₁ : Reading c₁ := h.of_frame rfl Channel.isReading_disableWriting
    have h₂ : Reading c₁.noteWriteComplete := h₁.of_frame hf.state (by rw [hch])
    cases hc
    split
    · exact shutdownInLoop_reading h₂
    · exact h₂
  · cases hc
    exact h

theorem handleWrite_reading {r : WriteResult} (h : Reading c) (hc : c.handleWrite r = .ok c') : Reading c' := by
  unfold handleWrite at hc
  split at hc
  · split at hc
    · split at hc
      · exact afterWrite_reading (by exact h) hc
      · cases hc
        exact h
    · cases hc
      exact h
  · cases hc
    exact h

theorem handleEvent_reading {d : Dispatch} (h : Reading c) (hc : c.handleEvent d = .ok c') : Reading c' := by
  have hwhen : ∀ {b : Bool} {f : TcpConnection → Outcome TcpConnection} {c₁ c₂ : TcpConnection},
      (∀ c₂, f c₁ = .ok c₂ → Reading c₂) → Reading c₁ → Channel.whenever b f c₁ = .ok c₂ → Reading c₂ := by
    intro b f c₁ c₂ hf h₁ hc
    unfold Channel.whenever at hc
    split at hc
    · exact hf c₂ hc
    · cases hc
      exact h₁
  have hc : Channel.handleEvent _ true (callbacks d) { c with channel := c.channel.set_revents d.revents } =
    .ok c' := hc
  unfold Channel.handleEvent at hc
  rw [Bool.not_true, Bool.and_false, if_neg (by decide)] at hc
  obtain ⟨c₁, hc₁, hc⟩ := bind_eq_ok.mp hc
  obtain ⟨c₂, hc₂, hc⟩ := bind_eq_ok.mp hc
  obtain ⟨c₃, hc₃, hc⟩ := bind_eq_ok.mp hc
  have h₁ : Reading c₁ := hwhen (fun _ => handleClose_reading) (by exact h) hc₁
  have h₂ : Reading c₂ := hwhen (fun _ he => Except.ok.inj he ▸ h₁) h₁ hc₂
  have h₃ : Reading c₃ := hwhen (fun _ => handleRead_reading h₂) h₂ hc₃
  exact hwhen (fun _ => handleWrite_reading h₃) h₃ hc

end TcpConnection

end Muduo.Net
