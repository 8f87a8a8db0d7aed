import Muduo.Net.TcpConnection
import Muduo.Net.Correctness.Buffer

/-!
# `Correctness.TcpOutput` — the output of a connection is one byte stream

Two code paths write to the socket: `sendInLoop` directly, when nothing is pending, and `handleWrite` from the
output buffer. They share the invariant `Outputs`: write interest is on exactly when bytes are pending. Under
it neither path can overtake the other, and what the kernel has accepted followed by what is pending is always
the concatenation of the messages sent (`sendInLoop_spec`, `handleWrite_spec`).

`Frame` collects what these functions leave alone; the life cycle and shutdown proofs rest on it.
-/

namespace Muduo.Net.TcpConnection

open Lib

/-- Pending output and write interest agree. -/
structure Outputs (c : TcpConnection) : Prop where
  rep : c.outputBuffer.Rep c.outputBuffer.readable false
  interest : c.channel.isWriting = true ↔ c.outputBuffer.readable ≠ []

/-- The bytes handed to the kernel followed by those still pending. -/
def stream (c : TcpConnection) : List UInt8 := c.accepted ++ c.outputBuffer.readable

/-- `c'` differs from `c` in the output side only: channel, output buffer, accepted bytes, the write half
    of the socket, and functors queued for flow control. -/
structure Frame (c c' : TcpConnection) : Prop where
  state : c'.state = c.state
  states : c'.states = c.states
  calls : c'.calls = c.calls
  inputBuffer : c'.inputBuffer = c.inputBuffer
  queued : ∃ fs, c'.queued = c.queued ++ fs ∧ ConnFunctor.connectDestroyed ∉ fs

variable {c c₁ c₂ : TcpConnection}

theorem Frame.refl (c : TcpConnection) : Frame c c :=
  ⟨rfl, rfl, rfl, rfl, [], by simp, by simp⟩

theorem Frame.trans (h₁ : Frame c c₁) (h₂ : Frame c₁ c₂) : Frame c c₂ := by
  obtain ⟨fs, hfs, hn⟩ := h₁.queued
  obtain ⟨gs, hgs, hm⟩ := h₂.queued
  refine ⟨h₂.state.trans h₁.state, h₂.states.trans h₁.states, h₂.calls.trans h₁.calls,
    h₂.inputBuffer.trans h₁.inputBuffer, fs ++ gs, ?_, ?_⟩
  · rw [hgs, hfs, List.append_assoc]
  · simp [hn, hm]

/-- Queueing a flow-control functor stays within the frame. -/
theorem Frame.queueInLoop (h : Frame c c₁) {f : ConnFunctor} (hf : f ≠ .connectDestroyed) :
    Frame c (c₁.queueInLoop f) := by
  refine h.trans ⟨rfl, rfl, rfl, rfl, [f], rfl, ?_⟩
  simpa using hf.symm

/-- Nothing but the output side is touched by replacing it. -/
theorem Frame.output (c : TcpConnection) (ch : Channel) (b : Buffer) (d : List UInt8) (n : Nat) :
    Frame c { c with channel := ch, outputBuffer := b, accepted := d, shutdownWrites := n } :=
  ⟨rfl, rfl, rfl, rfl, [], by simp, by simp⟩

theorem noteWriteComplete_spec (c : TcpConnection) : Frame c c.noteWriteComplete ∧
    c.noteWriteComplete.outputBuffer = c.outputBuffer ∧ c.noteWriteComplete.channel = c.channel ∧
    c.noteWriteComplete.accepted = c.accepted ∧
    c.noteWriteComplete.shutdownWrites = c.shutdownWrites := by
  unfold noteWriteComplete
  split
  · exact ⟨(Frame.refl c).queueInLoop (by simp), rfl, rfl, rfl, rfl⟩
  · exact ⟨Frame.refl c, rfl, rfl, rfl, rfl⟩

theorem noteHighWaterMark_spec (c : TcpConnection) (n : Nat) : Frame c (c.noteHighWaterMark n) ∧
    (c.noteHighWaterMark n).outputBuffer = c.outputBuffer ∧
    (c.noteHighWaterMark n).channel = c.channel ∧ (c.noteHighWaterMark n).accepted = c.accepted ∧
    (c.noteHighWaterMark n).shutdownWrites = c.shutdownWrites := by
  unfold noteHighWaterMark
  dsimp only
  split
  · exact ⟨(Frame.refl c).queueInLoop (by simp), rfl, rfl, rfl, rfl⟩
  · exact ⟨Frame.refl c, rfl, rfl, rfl, rfl⟩

theorem Outputs.readableBytes_pos (h : Outputs c) :
    c.channel.isWriting = true ↔ 0 < c.outputBuffer.readableBytes := by
  rw [h.interest, h.rep.readableBytes_eq, List.length_pos_iff]

/-- With the invariant, `idle` is just the absence of write interest. -/
theorem Outputs.idle_eq (h : Outputs c) : c.idle = !c.channel.isWriting := by
  unfold idle
  by_cases hw : c.channel.isWriting = true
  · simp [hw]
  · have hnot : ¬ 0 < c.outputBuffer.readableBytes := fun hp => hw (h.readableBytes_pos.mpr hp)
    have hzero : c.outputBuffer.readableBytes = 0 := by omega
    simp [hw, hzero]

theorem Outputs.readable_nil (h : Outputs c) (hw : c.channel.isWriting = false) :
    c.outputBuffer.readable = [] := by
  by_contra hne
  rw [h.interest.mpr hne] at hw
  exact absurd hw (by decide)

theorem outputs_new (wc hw : Bool) : Outputs (TcpConnection.new wc hw) where
  rep := Buffer.new_rep
  interest := by
    show (Channel.new.isWriting = true) ↔ Buffer.new.readable ≠ []
    rw [Buffer.new_rep.content]
    decide

/-! ## `sendInLoop` -/

/-- `sendInLoop` throws the whole message away: the direct write failed with `EPIPE`. -/
def discards (c : TcpConnection) (r : WriteResult) : Bool := c.idle && r == .failed .EPIPE

/-- What `sendInLoop` adds to the stream. -/
def kept (c : TcpConnection) (data : Bytes) (r : WriteResult) : List UInt8 :=
  if c.discards r then [] else data.data

theorem writeDirectly_spec {data : List UInt8} {len : Nat} {r : WriteResult} {n : Nat} {e : Bool}
    (h : c.writeDirectly data len r = (n, e, c₁)) :
    n ≤ len ∧ c₁.outputBuffer = c.outputBuffer ∧ c₁.channel = c.channel ∧
    c₁.accepted = c.accepted ++ data.take n ∧ c₁.shutdownWrites = c.shutdownWrites ∧
    Frame c c₁ ∧ (e = true ↔ r = .failed .EPIPE) ∧ (e = true → n = 0) := by
  unfold writeDirectly at h
  cases r with
  | wrote k =>
      obtain ⟨rfl, rfl, rfl⟩ := h
      have hacc : Frame c (c.accept (data.take (min k len))) := Frame.output c c.channel c.outputBuffer _ _
      obtain ⟨hf, hb, hch, ha, hsw⟩ := noteWriteComplete_spec (c.accept (data.take (min k len)))
      split
      · exact ⟨Nat.min_le_right _ _, hb, hch, ha, hsw, hacc.trans hf, by simp, by simp⟩
      · exact ⟨Nat.min_le_right _ _, rfl, rfl, rfl, rfl, hacc, by simp, by simp⟩
  | failed err =>
      obtain ⟨rfl, rfl, rfl⟩ := h
      exact ⟨Nat.zero_le _, rfl, rfl, by simp, rfl, Frame.refl _, by simp, fun _ => rfl⟩

theorem sendInLoop_eq_of_idle (hs : c.state ≠ .kDisconnected) (hidle : c.idle = true) {data : List UInt8}
    {len : Nat} {r : WriteResult} {n : Nat} {e : Bool} (hw : c.writeDirectly data len r = (n, e, c₁)) :
    c.sendInLoop data len r = if (!e) = true ∧ 0 < len - n then c₁.bufferRest (data.drop n) (len - n)
      else .ok c₁ := by
  unfold sendInLoop
  rw [if_neg hs, if_pos hidle, hw]
  dsimp only
  rw [assert_pos (Nat.sub_le _ _), ok_bind]

theorem sendInLoop_eq_of_busy (hs : c.state ≠ .kDisconnected) (hidle : ¬ c.idle = true) (data : List UInt8)
    (len : Nat) (r : WriteResult) :
    c.sendInLoop data len r = if 0 < len then c.bufferRest data len else .ok c := by
  unfold sendInLoop
  rw [if_neg hs, if_neg hidle]
  dsimp only
  rw [assert_pos (Nat.sub_le _ _), ok_bind, Nat.sub_zero, List.drop_zero]
  simp

/-- The rest of a message goes to the end of the output buffer, and write interest is on. -/
theorem bufferRest_spec {q rest : List UInt8} (hrep : c.outputBuffer.Rep q false)
    (hlen : rest.length ≤ maxSize) :
    Safe (c.bufferRest rest rest.length) (fun c' => c'.outputBuffer.Rep (q ++ rest) false ∧
      c'.channel.isWriting = true ∧ c'.accepted = c.accepted ∧ c'.shutdownWrites = c.shutdownWrites ∧
      Frame c c') := by
  obtain ⟨hf, hb, hch, ha, hsw⟩ := noteHighWaterMark_spec c rest.length
  unfold bufferRest
  dsimp only
  rw [hb]
  refine Safe.bind (Buffer.append_rep hrep (hrep.fits hlen)) ?_
  intro b' hb'
  refine Safe.ok ?_
  split
  · next hw => exact ⟨hb', hw, ha, hsw, hf.trans (Frame.output _ _ _ _ _)⟩
  · exact ⟨hb', Channel.isWriting_enableWriting, ha, hsw, hf.trans (Frame.output _ _ _ _ _)⟩

/-- What one send does: the output side stays consistent, the stream grows by `d`, nothing else changes. -/
structure Sends (c c' : TcpConnection) (d : List UInt8) : Prop where
  outputs : Outputs c'
  stream : c'.stream = c.stream ++ d
  accepted : c.accepted <+: c'.accepted
  shutdownWrites : c'.shutdownWrites = c.shutdownWrites
  frame : Frame c c'

/-- Nothing is pending: the message is offered to the kernel first. -/
theorem sendInLoop_idle (h : Outputs c) (hs : c.state ≠ .kDisconnected) (hidle : c.idle = true)
    (data : Bytes) (r : WriteResult) :
    Safe (c.sendInLoop data.data data.data.length r) (fun c' => Sends c c' (c.kept data r)) := by
  have hfits := data.fits
  unfold maxObject at hfits
  have hnil := h.readable_nil (by simpa [h.idle_eq] using hidle)
  have hrep : c.outputBuffer.Rep [] false := hnil ▸ h.rep
  obtain ⟨n, e, c₁, hw⟩ : ∃ n e c₁, c.writeDirectly data.data data.data.length r = (n, e, c₁) :=
    ⟨_, _, _, rfl⟩
  obtain ⟨hn, hb, hch, ha, hsw, hf, he, hn0⟩ := writeDirectly_spec hw
  have hpre : c.accepted <+: c₁.accepted := ⟨_, ha.symm⟩
  have hkept : e = false → c.kept data r = data.data := by
    intro hef
    have hr : r ≠ .failed .EPIPE := fun hr => by rw [he.mpr hr] at hef; exact absurd hef (by decide)
    simp [kept, discards, hr]
  rw [sendInLoop_eq_of_idle hs hidle hw]
  by_cases hrest : (!e) = true ∧ 0 < data.data.length - n
  · -- a short write, or an error other than `EPIPE`: the rest is buffered
    rw [if_pos hrest]
    have hef : e = false := by simpa using hrest.1
    have hlen : (data.data.drop n).length ≤ maxSize := by rw [List.length_drop]; unfold maxSize; omega
    rw [← List.length_drop]
    refine (bufferRest_spec (q := []) (hb ▸ hrep) hlen).mono ?_
    rintro c₂ ⟨hr₂, hw₂, ha₂, hsw₂, hf₂⟩
    have hout : c₂.outputBuffer.readable = data.data.drop n := by simpa using hr₂.content
    have hne : c₂.outputBuffer.readable ≠ [] := by
      rw [hout, ← List.length_pos_iff, List.length_drop]
      exact hrest.2
    refine ⟨⟨hout ▸ hr₂, by simp [hw₂, hne]⟩, ?_, ha₂ ▸ hpre, hsw₂.trans hsw, hf.trans hf₂⟩
    unfold TcpConnection.stream
    rw [hout, ha₂, ha, hnil, hkept hef, List.append_nil, List.append_assoc, List.take_append_drop]
  · -- all of it was written, or the peer is gone and the message is discarded
    rw [if_neg hrest]
    refine Safe.ok ⟨⟨hb ▸ h.rep, by rw [hb, hch]; exact h.interest⟩, ?_, hpre, hsw, hf⟩
    unfold TcpConnection.stream
    rw [hb, ha, hnil, List.append_nil, List.append_nil]
    cases e with
    | false =>
        have hall : data.data.length ≤ n := by
          simp only [Bool.not_false, true_and, Nat.not_lt] at hrest
          omega
        rw [hkept rfl, List.take_of_length_le hall]
    | true =>
        have hdisc : c.kept data r = [] := by simp [kept, discards, hidle, he.mp rfl]
        rw [hn0 rfl, hdisc, List.take_zero]

/-- Something is pending: the message queues up behind it. -/
theorem sendInLoop_busy (h : Outputs c) (hs : c.state ≠ .kDisconnected) (hidle : ¬ c.idle = true)
    (data : Bytes) (r : WriteResult) :
    Safe (c.sendInLoop data.data data.data.length r) (fun c' => Sends c c' (c.kept data r)) := by
  have hfits := data.fits
  unfold maxObject at hfits
  have hw : c.channel.isWriting = true := by simpa [h.idle_eq] using hidle
  have hkept : c.kept data r = data.data := by simp [kept, discards, hidle]
  rw [sendInLoop_eq_of_busy hs hidle]
  by_cases hrest : 0 < data.data.length
  · rw [if_pos hrest]
    refine (bufferRest_spec h.rep (by unfold maxSize; omega)).mono ?_
    rintro c₂ ⟨hr₂, hw₂, ha₂, hsw₂, hf₂⟩
    have hout := hr₂.content
    have hne : c₂.outputBuffer.readable ≠ [] := by
      rw [hout]
      exact fun hnil => h.interest.mp hw (List.append_eq_nil_iff.mp hnil).1
    refine ⟨⟨hout ▸ hr₂, by simp [hw₂, hne]⟩, ?_, ha₂ ▸ List.prefix_refl _, hsw₂, hf₂⟩
    unfold TcpConnection.stream
    rw [hout, ha₂, hkept, List.append_assoc]
  · rw [if_neg hrest]
    have hempty : data.data = [] := List.length_eq_zero_iff.mp (Nat.eq_zero_of_not_pos hrest)
    exact Safe.ok ⟨h, by rw [hkept, hempty, List.append_nil], List.prefix_refl _, rfl, Frame.refl c⟩

/-- **`sendInLoop` adds the message to the end of the stream**, or nothing when it discards it, and keeps
    pending output and write interest together. -/
theorem sendInLoop_spec (h : Outputs c) (hs : c.state ≠ .kDisconnected) (data : Bytes) (r : WriteResult) :
    Safe (c.sendInLoop data.data data.data.length r) (fun c' => Sends c c' (c.kept data r)) := by
  by_cases hidle : c.idle = true
  · exact sendInLoop_idle h hs hidle data r
  · exact sendInLoop_busy h hs hidle data r

/-- The rest of a message is buffered without throwing while the buffer is far from its maximal size. -/
theorem bufferRest_returns {rest : List UInt8} (h : c.outputBuffer.Rep c.outputBuffer.readable false)
    (hroom : 2 * rest.length + c.outputBuffer.readable.length + Buffer.kCheapPrepend ≤ maxSize) :
    c.bufferRest rest rest.length ≠ .error .lengthError := by
  obtain ⟨-, hb, -⟩ := noteHighWaterMark_spec c rest.length
  obtain ⟨b, hb', -⟩ := Buffer.append_ok h hroom
  unfold bufferRest
  dsimp only
  rw [hb, hb', ok_bind]
  exact ok_ne_error _ _

/-- `handleWrite` with this answer empties the output buffer. -/
def drains (c : TcpConnection) (r : WriteResult) : Bool :=
  match r with
  | .wrote n => c.channel.isWriting && decide (c.outputBuffer.readableBytes ≤ n)
  | .failed _ => false

/-- What `handleWrite` does: the stream is unchanged, and the write half of the socket is shut down if the
    buffer was drained in state `kDisconnecting`, and only then. -/
structure Writes (c c' : TcpConnection) (r : WriteResult) : Prop where
  outputs : Outputs c'
  stream : c'.stream = c.stream
  accepted : c.accepted <+: c'.accepted
  frame : Frame c c'
  drained : c.drains r = true → c'.outputBuffer.readable = []
  shutdownWrites : c'.shutdownWrites =
    if c.state = .kDisconnecting ∧ c.drains r = true then c.shutdownWrites + 1 else c.shutdownWrites

theorem Writes.refl (h : Outputs c) {r : WriteResult} (hd : c.drains r = false) : Writes c c r where
  outputs := h
  stream := rfl
  accepted := List.prefix_refl _
  frame := Frame.refl c
  drained := fun hd' => by rw [hd] at hd'; exact absurd hd' (by decide)
  shutdownWrites := by simp [hd]

theorem shutdownInLoop_of_not_writing (h : c.channel.isWriting = false) :
    c.shutdownInLoop = { c with shutdownWrites := c.shutdownWrites + 1 } := by
  unfold shutdownInLoop
  rw [if_neg (by simp [h])]

/-- The last lines of `handleWrite`, reached when nothing is pending any more. -/
theorem drained_spec (h : Outputs c) (hnw : c.channel.isWriting = false) :
    let c' := if c.noteWriteComplete.state = .kDisconnecting then c.noteWriteComplete.shutdownInLoop
      else c.noteWriteComplete
    Outputs c' ∧ c'.stream = c.stream ∧ c'.accepted = c.accepted ∧ Frame c c' ∧
    c'.outputBuffer = c.outputBuffer ∧
    c'.shutdownWrites = if c.state = .kDisconnecting then c.shutdownWrites + 1 else c.shutdownWrites := by
  obtain ⟨hf, hob, hch, ha, hsw⟩ := noteWriteComplete_spec c
  have hO : Outputs c.noteWriteComplete := ⟨by rw [hob]; exact h.rep, by rw [hob, hch]; exact h.interest⟩
  have hS : c.noteWriteComplete.stream = c.stream := by
    unfold TcpConnection.stream
    rw [hob, ha]
  dsimp only
  rw [hf.state]
  by_cases hd : c.state = .kDisconnecting
  · rw [if_pos hd, if_pos hd, shutdownInLoop_of_not_writing (hch ▸ hnw), hsw]
    exact ⟨⟨hO.rep, hO.interest⟩, hS, ha, hf.trans (Frame.output _ _ _ _ _), hob, rfl⟩
  · rw [if_neg hd, if_neg hd]
    exact ⟨hO, hS, ha, hf, hob, hsw⟩

/-- The bytes written leave the buffer from the front; the last of them takes write interest with it. -/
theorem afterWrite_spec (h : Outputs c) (hw : c.channel.isWriting = true) {n k : Nat}
    (hn : n = min k c.outputBuffer.readableBytes) :
    ∃ c', (c.accept (c.outputBuffer.readable.take n)).afterWrite n = .ok c' ∧ Writes c c' (.wrote k) := by
  have hlen := h.rep.readableBytes_eq
  have hle : n ≤ c.outputBuffer.readable.length := by omega
  obtain ⟨b, hb, hrep⟩ := Buffer.retrieve_rep h.rep hle
  have hout := hrep.content
  have hstream : c.accepted ++ c.outputBuffer.readable.take n ++ b.readable = c.stream := by
    rw [hout, List.append_assoc, List.take_append_drop]
    rfl
  have hpre : c.accepted <+: c.accepted ++ c.outputBuffer.readable.take n := List.prefix_append _ _
  have hdrains : c.drains (.wrote k) = true ↔ b.readable = [] := by
    rw [hout, List.drop_eq_nil_iff]
    simp only [drains, hw, Bool.true_and, decide_eq_true_eq]
    omega
  unfold afterWrite accept
  dsimp only
  rw [hb, ok_bind]
  by_cases hzero : b.readableBytes = 0
  · -- write interest is gone by the time `shutdownInLoop` looks at it
    have hnil : b.readable = [] := by
      rw [hrep.readableBytes_eq, ← hout] at hzero
      exact List.length_eq_zero_iff.mp hzero
    have hO : Outputs { c with
        channel := c.channel.disableWriting
        outputBuffer := b
        accepted := c.accepted ++ c.outputBuffer.readable.take n } := ⟨hout ▸ hrep, by simp [hnil]⟩
    obtain ⟨hO', hS', ha', hf', hob', hsw'⟩ := drained_spec hO Channel.isWriting_disableWriting
    rw [if_pos hzero]
    refine ⟨_, rfl, hO', hS'.trans hstream, by rw [ha']; exact hpre, (Frame.output _ _ _ _ _).trans hf',
      fun _ => by rw [hob']; exact hnil, ?_⟩
    rw [hsw']
    simp only [hdrains.mpr hnil, and_true]
  · rw [if_neg hzero]
    have hne : b.readable ≠ [] := by
      rw [hout, ← List.length_pos_iff, ← hrep.readableBytes_eq]
      omega
    have hno : ¬ c.drains (.wrote k) = true := fun hd => hne (hdrains.mp hd)
    exact ⟨_, rfl, ⟨hout ▸ hrep, fun _ => hne, fun _ => hw⟩, hstream, hpre, Frame.output _ _ _ _ _,
      fun hd => absurd hd hno, by simp [hno]⟩

/-- **`handleWrite` moves bytes from the buffer to the kernel and leaves the stream as it is.** It always
    returns. -/
theorem handleWrite_spec (h : Outputs c) (r : WriteResult) :
    ∃ c', c.handleWrite r = .ok c' ∧ Writes c c' r := by
  unfold handleWrite
  by_cases hw : c.channel.isWriting = true
  · rw [if_pos hw]
    cases r with
    | wrote k =>
        simp only [WriteResult.clip]
        by_cases hn : 0 < min k c.outputBuffer.readableBytes
        · rw [if_pos hn]
          exact afterWrite_spec h hw rfl
        · -- nothing was taken, although something is pending
          rw [if_neg hn]
          have hpos := h.readableBytes_pos.mp hw
          have hnot : c.drains (.wrote k) = false := by
            simp only [drains, hw, Bool.true_and, decide_eq_false_iff_not]
            omega
          exact ⟨c, rfl, Writes.refl h hnot⟩
    | failed e => exact ⟨c, rfl, Writes.refl h rfl⟩
  · rw [if_neg hw]
    exact ⟨c, rfl, Writes.refl h (by cases r <;> simp [drains, hw])⟩

/-! ## Every run of sends and writes -/

theorem shutdown_output (c : TcpConnection) : c.shutdown.outputBuffer = c.outputBuffer ∧
    c.shutdown.channel = c.channel ∧ c.shutdown.accepted = c.accepted ∧
    (c.shutdown.state = .kDisconnected ↔ c.state = .kDisconnected) := by
  unfold shutdown shutdownInLoop setState
  split
  · next h => split <;> simp [h]
  · simp

theorem Outputs.shutdown (h : Outputs c) : Outputs c.shutdown := by
  obtain ⟨hb, hch, -, -⟩ := shutdown_output c
  exact ⟨by rw [hb]; exact h.rep, by rw [hb, hch]; exact h.interest⟩

/-- `send(const StringPiece&)`, of a string that an `int` can count. -/
theorem sendPiece_outputs (h : Outputs c) (message : Bytes) (hlen : message.data.length < 2 ^ 31)
    (r : WriteResult) : Safe (c.sendPiece (StringPiece.ofString message.data) r) Outputs := by
  unfold sendPiece
  split
  · next hs =>
      unfold sendInLoopPiece StringPiece.ofString
      rw [toSizeT_toInt32 hlen]
      exact (sendInLoop_spec h (by simp [hs]) message r).mono fun _ hsent => hsent.outputs
  · exact Safe.ok h

/-- `send(Buffer*)`. -/
theorem sendBuffer_outputs (h : Outputs c) {b : Buffer} {message : Bytes} (hb : b.Rep message.data false)
    (r : WriteResult) : Safe (c.sendBuffer b r) (fun sent => Outputs sent.1) := by
  unfold sendBuffer
  split
  · next hs =>
      rw [hb.content, hb.readableBytes_eq]
      refine Safe.bind (sendInLoop_spec h (by simp [hs]) message r) ?_
      intro c' hsent
      exact Safe.ok hsent.outputs
  · exact Safe.ok h

/-- The calls the output side can receive, with the kernel's answers. -/
inductive OutputOp where
  | sendInLoop (data : Bytes) (r : WriteResult)
  | handleWrite (r : WriteResult)
  | shutdown

/-- A connection and the messages `sendInLoop` was executed with and did not discard, oldest first. -/
structure OutputRun where
  conn : TcpConnection
  messages : List (List UInt8)

def OutputRun.exec (s : OutputRun) : OutputOp → Outcome OutputRun
  | .sendInLoop data r => do
      let conn ← s.conn.sendInLoop data.data data.data.length r
      .ok ⟨conn, if s.conn.discards r then s.messages else s.messages ++ [data.data]⟩
  | .handleWrite r => do
      let conn ← s.conn.handleWrite r
      .ok ⟨conn, s.messages⟩
  | .shutdown => .ok ⟨s.conn.shutdown, s.messages⟩

/-- Any connection that has not sent anything yet, and any sequence of calls. -/
def outputSystem : System OutputRun OutputOp where
  init s := s.conn.outputBuffer = Buffer.new ∧ s.conn.channel.isWriting = false ∧
    s.conn.accepted = [] ∧ s.messages = []
  enabled _ _ := True
  exec := OutputRun.exec

instance outputSystem.decidableEnabled (s : OutputRun) : DecidablePred (outputSystem.enabled s) :=
  fun _ => instDecidableTrue

/-- The invariant of a run: consistent output, and the stream is the concatenation of the messages. -/
def OutputRun.Inv (s : OutputRun) : Prop :=
  Outputs s.conn ∧ (s.conn.state ≠ .kDisconnected → s.conn.stream = s.messages.flatten)

theorem OutputRun.init_inv {s : OutputRun} (h : outputSystem.init s) : s.Inv := by
  obtain ⟨hb, hw, ha, hm⟩ := h
  have hnil : s.conn.outputBuffer.readable = [] := by rw [hb]; exact Buffer.new_rep.content
  refine ⟨⟨?_, by simp [hw, hnil]⟩, ?_⟩
  · rw [hnil, hb]
    exact Buffer.new_rep
  · intro _
    unfold stream
    rw [ha, hnil, hm]
    rfl

theorem OutputRun.exec_inv {s : OutputRun} (h : s.Inv) (a : OutputOp) :
    Safe (s.exec a) OutputRun.Inv := by
  obtain ⟨hO, hS⟩ := h
  cases a with
  | sendInLoop data r =>
      by_cases hd : s.conn.state = .kDisconnected
      · have hsend : s.conn.sendInLoop data.data data.data.length r = .ok s.conn := if_pos hd
        simp only [OutputRun.exec, hsend, ok_bind]
        exact Safe.ok ⟨hO, fun hne => absurd hd hne⟩
      · refine Safe.bind (sendInLoop_spec hO hd data r) ?_
        rintro c' ⟨hO', hS', -, -, -⟩
        refine Safe.ok ⟨hO', ?_⟩
        intro _
        show c'.stream = List.flatten (if s.conn.discards r then _ else _)
        rw [hS', hS hd]
        unfold kept
        split <;> simp
  | handleWrite r =>
      obtain ⟨c', hc', hw⟩ := handleWrite_spec hO r
      simp only [OutputRun.exec, hc', ok_bind]
      exact Safe.ok ⟨hw.outputs, fun hne => hw.stream.trans (hS (hw.frame.state ▸ hne))⟩
  | shutdown =>
      obtain ⟨hb, -, ha, hst⟩ := shutdown_output s.conn
      refine Safe.ok ⟨hO.shutdown, ?_⟩
      intro hne
      show s.conn.shutdown.accepted ++ s.conn.shutdown.outputBuffer.readable = _
      rw [hb, ha]
      exact hS fun heq => hne (hst.mpr heq)

/-- **The output is a loss-free, duplication-free, order-preserving byte stream.** Whatever the kernel answers:
    the bytes it has accepted followed by the readable bytes of the output buffer are the concatenation of the
    messages in the order they were sent, less those discarded whole; write interest is on exactly when bytes
    are pending; and no call fails an assertion. -/
theorem output_is_one_stream {s : OutputRun} (h : outputSystem.Reachable s)
    (hs : s.conn.state ≠ .kDisconnected) :
    s.conn.accepted ++ s.conn.outputBuffer.readable = s.messages.flatten ∧
    (s.conn.channel.isWriting = true ↔ 0 < s.conn.outputBuffer.readableBytes) ∧
    ∀ a, s.exec a ≠ .error .assertion ∧ s.exec a ≠ .error .badAccess := by
  have hinv : s.Inv := by
    refine System.inv (S := outputSystem) ?_ ?_ h
    · exact fun _ => OutputRun.init_inv
    · exact fun _ a hs _ => OutputRun.exec_inv hs a
  refine ⟨hinv.2 hs, hinv.1.readableBytes_pos, ?_⟩
  intro a
  have hsafe := OutputRun.exec_inv hinv a
  exact ⟨hsafe.ne_assertion, hsafe.ne_badAccess⟩

/-- The kernel takes messages in parts: of three, with five bytes, it has three, and the others are waiting. -/
theorem output_is_one_stream_partial : ∃ s : OutputRun, s.messages = [[1, 2, 3], [4], [5]] ∧
    s.conn.accepted = [1, 2, 3] ∧ s.conn.outputBuffer.readableBytes = 2 ∧
    s.conn.accepted ++ s.conn.outputBuffer.readable = s.messages.flatten ∧ s.conn.channel.isWriting = true := by
  obtain ⟨s, hreached, hmessages, haccepted, hwaiting, hstate⟩ := System.ReachedBy.exists_of_perform outputSystem
    [.sendInLoop ⟨[1, 2, 3], by decide⟩ (.wrote 1), .sendInLoop ⟨[4], by decide⟩ (.wrote 1), .handleWrite (.wrote 2),
      .sendInLoop ⟨[5], by decide⟩ (.wrote 1)]
    (s := ⟨TcpConnection.new false false, []⟩)
    (P := fun s => s.messages = [[1, 2, 3], [4], [5]] ∧ s.conn.accepted = [1, 2, 3] ∧
      s.conn.outputBuffer.readableBytes = 2 ∧ s.conn.state ≠ .kDisconnected)
    ⟨rfl, by decide, rfl, rfl⟩ (by decide +kernel)
  obtain ⟨hstream, hinterest, -⟩ := output_is_one_stream hreached.reachable hstate
  exact ⟨s, hmessages, haccepted, hwaiting, hstream, hinterest.mpr (by omega)⟩

end Muduo.Net.TcpConnection
