import Muduo.Net.Correctness.TcpOutput

/-!
# `Correctness.TcpSays` — the state of a connection, and what it has said

A message sent on a connection that is up is added to its stream, unless the peer is gone (`EPIPE`); a connection
that has been shut down says nothing more. `said` is what a protocol above sees of this.
-/

namespace Muduo.Net.TcpConnection

open Lib

variable {c : TcpConnection} {b : Buffer} {p : Bool} {r : WriteResult}

/-- The state of a connection, and all it has to send. -/
def said (c : TcpConnection) : StateE × List UInt8 := (c.state, c.stream)

/-- A connection that is up says `text`, and may be shut down after it. -/
def say (text : List UInt8) (close : Bool) : StateE × List UInt8 → StateE × List UInt8
  | (.kConnected, stream) => (if close then .kDisconnecting else .kConnected, stream ++ text)
  | x => x

theorem say_of_ne {text : List UInt8} {close : Bool} {x : StateE × List UInt8} (h : x.1 ≠ .kConnected) :
    say text close x = x := by
  obtain ⟨state, stream⟩ := x
  cases state with
  | kConnected => exact absurd rfl h
  | kDisconnected => rfl
  | kConnecting => rfl
  | kDisconnecting => rfl

theorem said_shutdown (c : TcpConnection) : said c.shutdown =
    (if c.state = .kConnected then .kDisconnecting else c.state, c.stream) := by
  obtain ⟨hbuf, -, haccepted, -⟩ := c.shutdown_output
  have hstate : c.shutdown.state = if c.state = .kConnected then .kDisconnecting else c.state := by
    unfold shutdown shutdownInLoop setState
    split
    · split <;> rfl
    · rfl
  rw [said, hstate, stream, hbuf, haccepted]
  rfl

/-- What the kernel discards is lost to the peer that is gone; otherwise a message is kept. -/
theorem kept_eq {data : Bytes} (hr : r ≠ .failed .EPIPE) : c.kept data r = data.data := by
  unfold kept discards
  rw [if_neg (by simp [hr])]

theorem said_sends {c' : TcpConnection} {data : Bytes} (h : c.Sends c' (c.kept data r)) (hr : r ≠ .failed .EPIPE)
    (hstate : c.state = .kConnected) : said c' = say data.data false (said c) := by
  rw [said, said, h.frame.state, h.stream, kept_eq hr, hstate]
  rfl

theorem sendBuffer_said (h : c.Outputs) (message : Bytes) (hb : b.Rep message.data p)
    (hr : r ≠ .failed .EPIPE) : Safe (c.sendBuffer b r) fun sent =>
      sent.1.Outputs ∧ said sent.1 = say message.data false (said c) := by
  unfold sendBuffer
  split
  · next hs =>
      rw [hb.content, hb.readableBytes_eq]
      refine Safe.bind (sendInLoop_spec h (by simp [hs]) message r) ?_
      intro c' hsent
      exact Safe.ok ⟨hsent.outputs, said_sends hsent hr hs⟩
  · next hs => exact Safe.ok ⟨h, (say_of_ne hs).symm⟩

/-- `send(const StringPiece&)` leaves the state alone, whatever the kernel answers. -/
theorem sendPiece_kept (h : c.state ≠ .kDisconnected → c.Outputs) (message : Bytes)
    (hlen : message.data.length < 2 ^ 31) (r : WriteResult) :
    Safe (c.sendPiece (StringPiece.ofString message.data) r) fun c' =>
      (c'.state ≠ .kDisconnected → c'.Outputs) ∧ c'.state = c.state ∧
      (r ≠ .failed .EPIPE → said c' = say message.data false (said c)) := by
  unfold sendPiece
  split
  · next hs =>
      have hup : c.state ≠ .kDisconnected := by simp [hs]
      unfold sendInLoopPiece StringPiece.ofString
      rw [toSizeT_toInt32 hlen]
      refine (sendInLoop_spec (h hup) hup message r).mono ?_
      exact fun c' hsent => ⟨fun _ => hsent.outputs, hsent.frame.state, fun hr => said_sends hsent hr hs⟩
  · next hs => exact Safe.ok ⟨h, rfl, fun _ => (say_of_ne hs).symm⟩

/-- A string that an `int` can count. -/
theorem sendPiece_said (h : c.Outputs) (message : Bytes) (hlen : message.data.length < 2 ^ 31)
    (hr : r ≠ .failed .EPIPE) : Safe (c.sendPiece (StringPiece.ofString message.data) r) fun c' =>
      c'.Outputs ∧ said c' = say message.data false (said c) := by
  unfold sendPiece
  split
  · next hs =>
      unfold sendInLoopPiece StringPiece.ofString
      rw [toSizeT_toInt32 hlen]
      refine (sendInLoop_spec h (by simp [hs]) message r).mono ?_
      exact fun c' hsent => ⟨hsent.outputs, said_sends hsent hr hs⟩
  · next hs => exact Safe.ok ⟨h, (say_of_ne hs).symm⟩

end Muduo.Net.TcpConnection
