import Muduo.Net.Correctness.Buffer
import Muduo.Net.TcpSend
import Muduo.Net.TcpThreads

/-!
# `Correctness.TcpSend` — all ways of sending hand over the same bytes

On the loop thread a message goes to `sendInLoop(const void*, size_t)` with its length in a `size_t`. A message
that is copied for the loop comes back as a `StringPiece`, whose length is an `int`: from `2 ^ 31` bytes on the
length that arrives is another one, which is what `handsOver_iff` makes precise.
-/

namespace Muduo.Net.TcpConnection

open Lib

variable {d data : List UInt8} {c : TcpConnection} {r : WriteResult} {n : Nat} {inLoopThread pre : Bool} {b : Buffer}

/-- `sendInLoop(const void*, size_t)` is entered with exactly the bytes `d`. -/
structure Sending.Hands (s : Sending) (d : List UInt8) : Prop where
  bytes : d <+: s.arguments.1
  length : s.arguments.2 = d.length

theorem Sending.arguments_functor (message : List UInt8) :
    (Sending.functor message).arguments = (message, toSizeT (toInt32 message.length)) := by
  rw [Sending.arguments, StringPiece.ofString]

theorem Sending.arguments_sendInLoopPiece (message : StringPiece) :
    (Sending.sendInLoopPiece message).arguments = (message.ptr, toSizeT message.length) := by
  rw [Sending.arguments]

/-! ## What is performed -/

/-- Whatever `send` leads to, `sendInLoop(const void*, size_t)` is entered with the arguments. -/
theorem Sending.perform_eq (s : Sending) (c : TcpConnection) (r : WriteResult) :
    s.perform c r = c.sendInLoop s.arguments.1 s.arguments.2 r := by
  cases s with
  | sendInLoop data len => rfl
  | sendInLoopPiece message => rw [perform, TcpConnection.sendInLoopPiece, arguments]
  | functor message => rw [perform, TcpConnection.sendInLoopPiece, arguments]

/-- On the loop thread it is performed at once. -/
def performAll (c : TcpConnection) (r : WriteResult) : Option Sending → Outcome TcpConnection
  | some s => s.perform c r
  | none => .ok c

theorem send_eq (c : TcpConnection) (data : Bytes) (r : WriteResult) :
    c.send data r = sendOn true c data.data data.data.length >>= performAll c r := by
  unfold send sendOn
  by_cases hs : c.state = .kConnected
  · rw [if_pos hs, if_pos hs]
    rfl
  · rw [if_neg hs, if_neg hs]
    rfl

theorem sendPiece_eq (c : TcpConnection) (message : StringPiece) (r : WriteResult) :
    c.sendPiece message r = sendPieceOn true c message >>= performAll c r := by
  unfold sendPiece sendPieceOn
  by_cases hs : c.state = .kConnected
  · rw [if_pos hs, if_pos hs]
    rfl
  · rw [if_neg hs, if_neg hs]
    rfl

theorem sendBuffer_eq (c : TcpConnection) (buf : Buffer) (r : WriteResult) : c.sendBuffer buf r = (do
    let (s, buf) ← sendBufferOn true c buf
    let c ← performAll c r s
    .ok (c, buf)) := by
  unfold sendBuffer sendBufferOn
  by_cases hs : c.state = .kConnected
  · rw [if_pos hs, if_pos hs]
    rfl
  · rw [if_neg hs, if_neg hs]
    rfl

/-- The functor that another thread queues performs the copy. -/
theorem runTask_sendInLoop {τ : Type} (s : SharedConn τ) (n : Nat) (m : Message) :
    s.runTask n (.sendInLoop m) = (do
      let conn ← (Sending.functor m.bytes).perform s.conn (.wrote n)
      .ok { s with conn, sent := s.sent ++ [m] }) := rfl

/-! ## What is handed over -/

theorem hands_sendInLoop (h : d <+: data) : (Sending.sendInLoop data d.length).Hands d := ⟨h, rfl⟩

theorem hands_sendInLoopPiece {message : StringPiece} (h : d <+: message.ptr) (hlen : message.length = d.length)
    (hd : d.length < 2 ^ 31) : (Sending.sendInLoopPiece message).Hands d where
  bytes := by
    rw [Sending.arguments_sendInLoopPiece]
    exact h
  length := by
    rw [Sending.arguments_sendInLoopPiece, hlen, toSizeT_natCast (by omega)]

theorem hands_functor (hd : d.length < 2 ^ 31) : (Sending.functor d).Hands d where
  bytes := by
    rw [Sending.arguments_functor]
  length := by
    rw [Sending.arguments_functor, toSizeT_toInt32 hd]

theorem newString_eq (h : d <+: data) (hd : d.length ≤ maxSize) : newString data d.length = .ok d := by
  unfold newString
  rw [if_neg (not_lt.mpr hd), if_neg (not_lt.mpr h.length_le), ← List.prefix_iff_eq_take.mp h]

theorem newString_throws (hd : maxSize < n) : newString data n = .error .lengthError := if_pos hd

/-- Every way of sending the bytes `d` on a connection that is up, on the loop thread and on another one, hands
    them over as they are; a buffer is empty afterwards. -/
structure HandsOver (d : List UInt8) : Prop where
  /-- `send(const void*, size_t)`. -/
  raw : ∀ (inLoopThread : Bool) (c : TcpConnection) (data : List UInt8), c.state = .kConnected → d <+: data →
    ∃ s, sendOn inLoopThread c data d.length = .ok (some s) ∧ s.Hands d
  /-- `send(const StringPiece&)`, of a piece that denotes `d`. -/
  piece : ∀ (inLoopThread : Bool) (c : TcpConnection) (message : StringPiece), c.state = .kConnected →
    d <+: message.ptr → message.length = d.length →
    ∃ s, sendPieceOn inLoopThread c message = .ok (some s) ∧ s.Hands d
  /-- `send(Buffer*)`. -/
  buffer : ∀ (inLoopThread : Bool) (c : TcpConnection) (buf : Buffer) (pre : Bool), c.state = .kConnected →
    buf.Rep d pre → ∃ s buf', sendBufferOn inLoopThread c buf = .ok (some s, buf') ∧ s.Hands d ∧ buf'.readable = []

theorem retrieveAllAsString_rep (h : b.Rep d pre) :
    ∃ b', b.retrieveAllAsString = .ok (d, b') ∧ b'.Rep [] pre := by
  obtain ⟨b', hb', hrep⟩ := Buffer.retrieveAsString_rep h (Nat.le_refl d.length)
  rw [List.take_length] at hb'
  rw [List.drop_length] at hrep
  refine ⟨b', ?_, hrep⟩
  unfold Buffer.retrieveAllAsString
  rw [h.readableBytes_eq, hb']

/-- On the loop thread, `send(const void*, size_t)` hands over messages of every length. -/
theorem sendOn_loop (hs : c.state = .kConnected) (hdata : d <+: data) :
    ∃ s, sendOn true c data d.length = .ok (some s) ∧ s.Hands d := by
  unfold sendOn
  rw [if_pos hs]
  exact ⟨_, rfl, hands_sendInLoop hdata⟩

/-- Messages that an `int` can count. -/
theorem handsOver_of_lt (hd : d.length < 2 ^ 31) : HandsOver d where
  raw inLoopThread c data hs hdata := by
    cases inLoopThread with
    | true => exact sendOn_loop hs hdata
    | false =>
        unfold sendOn
        rw [if_pos hs, newString_eq hdata (by unfold maxSize; omega)]
        exact ⟨_, rfl, hands_functor hd⟩
  piece inLoopThread c message hs hptr hlen := by
    unfold sendPieceOn
    rw [if_pos hs]
    cases inLoopThread with
    | true => exact ⟨_, rfl, hands_sendInLoopPiece hptr hlen hd⟩
    | false =>
        unfold StringPiece.asString
        rw [hlen, toSizeT_natCast (by omega), newString_eq hptr (by unfold maxSize; omega)]
        exact ⟨_, rfl, hands_functor hd⟩
  buffer inLoopThread c buf pre hs hbuf := by
    unfold sendBufferOn
    rw [if_pos hs]
    cases inLoopThread with
    | true =>
        refine ⟨_, _, rfl, ?_, (Buffer.retrieveAll_rep hbuf).content⟩
        rw [hbuf.content, hbuf.readableBytes_eq]
        exact hands_sendInLoop (List.prefix_refl d)
    | false =>
        obtain ⟨buf', hbuf', hrep⟩ := retrieveAllAsString_rep hbuf
        rw [hbuf']
        exact ⟨_, _, rfl, hands_functor hd, hrep.content⟩

/-- A connection that is up. -/
def connectedConn : TcpConnection := (TcpConnection.new false false).setState .kConnected

theorem sendOn_other : sendOn false connectedConn data n = (do
    let message ← newString data n
    .ok (some (.functor message))) := rfl

/-- A longer message, copied for the loop, arrives with another length, or cannot be copied. -/
theorem not_handsOver (hd : 2 ^ 31 ≤ d.length) : ¬ HandsOver d := by
  intro h
  obtain ⟨s, hs, hhands⟩ := h.raw false connectedConn d rfl (List.prefix_refl d)
  rw [sendOn_other] at hs
  by_cases hmax : d.length ≤ maxSize
  · rw [newString_eq (List.prefix_refl d) hmax] at hs
    obtain rfl := Option.some.inj (Except.ok.inj hs)
    have hlength := hhands.length
    rw [Sending.arguments_functor] at hlength
    dsimp only at hlength
    exact toSizeT_toInt32_ne hd hmax hlength
  · rw [newString_throws (not_le.mp hmax)] at hs
    cases hs

/-- **When all ways of sending hand over the same bytes**: for messages of less than `2 ^ 31` bytes. -/
theorem handsOver_iff (d : List UInt8) : HandsOver d ↔ d.length < 2 ^ 31 := by
  constructor
  · intro h
    exact not_le.mp fun hd => not_handsOver hd h
  · exact handsOver_of_lt

/-- With `2 ^ 31` bytes that are sent from another thread, `sendInLoop` is entered with the length
    `2 ^ 64 - 2 ^ 31`. -/
theorem handsOver_wraps : ¬ HandsOver (List.replicate (2 ^ 31) 0) ∧
    ∃ s, sendOn false connectedConn (List.replicate (2 ^ 31) 0) (2 ^ 31) = .ok (some s) ∧
      s.arguments.2 = 2 ^ 64 - 2 ^ 31 := by
  have hlen : (List.replicate (2 ^ 31) (0 : UInt8)).length = 2 ^ 31 := List.length_replicate
  refine ⟨not_handsOver hlen.ge, .functor (List.replicate (2 ^ 31) 0), ?_, ?_⟩
  · have hcopy := newString_eq (List.prefix_refl (List.replicate (2 ^ 31) (0 : UInt8)))
      (by rw [hlen]; decide)
    rw [hlen] at hcopy
    rw [sendOn_other, hcopy]
    rfl
  · rw [Sending.arguments_functor, hlen]
    decide

end Muduo.Net.TcpConnection
