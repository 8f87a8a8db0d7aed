import Muduo.Net.Correctness.Buffer
import Muduo.Net.Protorpc.RpcCodec

/-!
# `Correctness.RpcCodec` — frames, and what one iteration of `onMessage` does

`frame w payload` is the format of the wire, written down once: `send` produces it, and `parse` accepts exactly
its bodies. The content of an input buffer then falls into three kinds, by its front: it is an `Incomplete`
frame; or it starts with a frame whose payload protobuf accepts; or it is malformed. An iteration of the loop
in `onMessage` leaves the loop in the first case, consumes the frame in the second, and in the third calls
`errorCallback_` and goes on.

With the default callback, which leaves the buffer alone, going on means for ever. `Framed` is the condition
under which this does not happen.
-/

namespace Muduo.Net.RpcCodec

open Lib

variable {RpcMessage : Type} (codec : RpcCodec RpcMessage) {w : Wire RpcMessage} {s s' : RpcSession RpcMessage}
variable {payload q rest : List UInt8} {p : Bool} {message : RpcMessage}

/-! ## Frames -/

def checkSum (w : Wire RpcMessage) (payload : List UInt8) : Int := toInt32 (w.adler32 1 (tag ++ payload))

/-- What the length field counts. -/
def body (w : Wire RpcMessage) (payload : List UInt8) : List UInt8 :=
  tag ++ payload ++ hostToNetwork32 (checkSum w payload)

/-- The frame with this payload. -/
def frame (w : Wire RpcMessage) (payload : List UInt8) : List UInt8 :=
  hostToNetwork32 (body w payload).length ++ body w payload

/-- The length field of a frame with this payload is in range. -/
def Short (payload : List UInt8) : Prop := payload.length + kMinMessageLen ≤ kMaxMessageLen

@[simp] theorem length_tag : tag.length = 4 := rfl

@[simp] theorem length_body (w : Wire RpcMessage) (payload : List UInt8) :
    (body w payload).length = payload.length + 8 := by
  simp [body]
  omega

@[simp] theorem length_frame (w : Wire RpcMessage) (payload : List UInt8) :
    (frame w payload).length = payload.length + 12 := by
  simp [frame]
  omega

/-- The length field at the front of `q`. -/
def lengthField (q : List UInt8) : Int := networkToHost32 (q.take kHeaderLen)

theorem Short.length_lt (h : Short payload) : payload.length + 8 ≤ 64 * 1024 * 1024 := h

theorem lengthField_append {n : Nat} (h : n < 2 ^ 31) (rest : List UInt8) :
    lengthField (hostToNetwork32 n ++ rest) = n := by
  have htake : (hostToNetwork32 n ++ rest).take kHeaderLen = hostToNetwork32 n :=
    List.take_left' (length_hostToNetwork32 _)
  unfold lengthField
  rw [htake, networkToHost32_hostToNetwork32 (by omega) (by omega)]

theorem lengthField_frame (h : Short payload) (rest : List UInt8) :
    lengthField (frame w payload ++ rest) = payload.length + 8 := by
  have hlen := h.length_lt
  unfold frame
  rw [List.append_assoc, lengthField_append (by rw [length_body]; omega), length_body]
  rfl

/-! ## `send` -/

theorem readable_take {b : Buffer} (h : b.Rep q p) (hq : q.length < 2 ^ 31) :
    b.readable.take (toUInt32 (toInt32 b.readableBytes)) = q := by
  rw [h.readableBytes_eq, toInt32_eq (by omega) (by omega), toUInt32_natCast (by omega), h.content,
    List.take_length]

/-- **`send` hands over one frame**, if its length is an `int`. -/
theorem send_frame_of_lt (hinit : w.isInitialized message = true)
    (hsize : w.byteSize message = (w.serialize message).length)
    (hlen : (w.serialize message).length + 8 < 2 ^ 31) : send w message = .ok (frame w (w.serialize message)) := by
  generalize hd : w.serialize message = d at *
  -- the buffer after each of the calls of the source, in order
  obtain ⟨b₁, hb₁, h₁⟩ := Buffer.append_ok (d := tag) Buffer.new_rep (by decide)
  obtain ⟨b₂, hb₂, h₂, hw₂⟩ := Buffer.ensureWritableBytes_ok h₁
    (show 2 * (d.length + 4) + ([] ++ tag).length + Buffer.kCheapPrepend ≤ maxSize by
      unfold maxSize Buffer.kCheapPrepend
      simp
      omega)
  obtain ⟨b₃, hb₃, h₃, -, -⟩ := Buffer.written_rep (d := d) h₂ (by omega)
  obtain ⟨b₅, hb₅, h₅⟩ := Buffer.appendInt_ok (w := 4) h₃ (checkSum w d)
    (by unfold maxSize Buffer.kCheapPrepend; simp; omega)
  obtain ⟨b₆, hb₆, h₆⟩ := Buffer.prepend_rep (d := hostToNetwork32 (body w d).length) h₅
    (le_trans (by simp [Buffer.kCheapPrepend]) (h₅.cheap rfl))
  -- the lengths that pass through an `int` on the way come back unchanged
  have hroom : toSizeT (toInt32 (d.length + kHeaderLen)) = d.length + 4 :=
    toSizeT_toInt32 (n := d.length + 4) (by omega)
  have hsum : (b₃.hasWritten d.length).readable.take (toUInt32 (toInt32 (b₃.hasWritten d.length).readableBytes))
      = tag ++ d :=
    readable_take h₃ (by simp; omega)
  have hread : b₅.readableBytes = (body w d).length := by
    rw [h₅.readableBytes_eq]
    rfl
  have hbody : (body w d).length < 2 ^ 31 := by
    rw [length_body]
    omega
  have hcast : (kHeaderLen : Int) + d.length + kHeaderLen = (body w d).length := by
    rw [length_body]
    unfold kHeaderLen
    push_cast
    omega
  unfold send
  dsimp only
  rw [← length_tag, hb₁, ok_bind, assert_pos hinit, ok_bind, hsize, hroom, hb₂, ok_bind, hd, hb₃, ok_bind,
    assert_pos rfl, ok_bind, toSizeT_natCast (by omega), hsum]
  show (b₃.hasWritten d.length).appendInt 4 (checkSum w d) >>= _ = _
  rw [hb₅, ok_bind, hread, hcast, assert_pos (toSizeT_toInt32 hbody).symm, ok_bind,
    toInt32_eq (by omega) (by omega), hb₆, ok_bind, h₆.content]
  rfl

theorem send_frame (hinit : w.isInitialized message = true)
    (hsize : w.byteSize message = (w.serialize message).length) (hshort : Short (w.serialize message)) :
    send w message = .ok (frame w (w.serialize message)) := by
  have hlen := hshort.length_lt
  exact send_frame_of_lt hinit hsize (by omega)

/-! ## `parse` -/

/-- What `parse` makes of a tag, a payload and a checksum. -/
def verdict (w : Wire RpcMessage) (t d c : List UInt8) : Except ErrorCode RpcMessage :=
  if toInt32 (w.adler32 1 (t ++ d)) = networkToHost32 c then
    if t = tag then
      match w.parseFromArray d with
      | some message => .ok message
      | none => .error .kParseError
    else .error .kUnknownMessageType
  else .error .kCheckSumError

variable {t d c : List UInt8}

theorem parse_pieces (ht : t.length = kHeaderLen) (hc : c.length = 4) (rest : List UInt8) :
    parse w (t ++ d ++ c ++ rest) (d.length + 8 : Nat) = .ok (verdict w t d c) := by
  have hlast : (((d.length + 8 : Nat) : Int) - kHeaderLen).toNat = (t ++ d).length := by
    rw [List.length_append, ht]
    unfold kHeaderLen
    omega
  have hdata : (((d.length + 8 : Nat) : Int) - 2 * kHeaderLen).toNat = d.length := by
    unfold kHeaderLen
    omega
  have hint : asInt32 (c ++ rest) = .ok (networkToHost32 c) := by
    unfold asInt32
    rw [if_neg (by rw [List.length_append]; omega), List.take_left' hc]
  unfold parse
  dsimp only
  rw [hlast, hdata, List.append_assoc (t ++ d), List.drop_left, hint, ok_bind, List.take_left,
    List.append_assoc t, List.take_left' ht, List.drop_left' ht, List.take_left]
  unfold verdict
  split
  · split
    · cases w.parseFromArray d <;> rfl
    · rfl
  · rfl

theorem exists_pieces {n : Nat} (hmin : kMinMessageLen ≤ n) (hn : n ≤ q.length) :
    ∃ t d c rest, q = t ++ d ++ c ++ rest ∧ t.length = 4 ∧ d.length + 8 = n ∧ c.length = 4 := by
  have hmin' : 8 ≤ n := hmin
  refine ⟨q.take 4, (q.drop 4).take (n - 8), (q.drop (n - 4)).take 4, q.drop n, ?_, ?_, ?_, ?_⟩
  · have hdrop : q.drop (n - 4) = (q.drop 4).drop (n - 8) := by
      rw [List.drop_drop]
      congr 1
      omega
    have hrest : q.drop n = (q.drop (n - 4)).drop 4 := by
      rw [List.drop_drop]
      congr 1
      omega
    rw [hrest, List.append_assoc, List.take_append_drop, hdrop, List.append_assoc, List.take_append_drop,
      List.take_append_drop]
  · rw [List.length_take]
    omega
  · rw [List.length_take, List.length_drop]
    omega
  · rw [List.length_take, List.length_drop]
    omega

/-- **`parse` accepts the body of a frame** whose payload protobuf accepts. -/
theorem verdict_body (w : Wire RpcMessage) (hmsg : w.parseFromArray d = some message) :
    verdict w tag d (hostToNetwork32 (checkSum w d)) = .ok message := by
  have hrange : -2 ^ 31 ≤ checkSum w d ∧ checkSum w d < 2 ^ 31 := toInt32_range _
  unfold verdict
  rw [networkToHost32_hostToNetwork32 hrange.1 hrange.2, if_pos (show toInt32 _ = checkSum w d from rfl),
    if_pos rfl, hmsg]

/-- **`parse` accepts nothing else.** -/
theorem body_of_verdict (hc : c.length = 4) (h : verdict w t d c = .ok message) :
    t ++ d ++ c = body w d ∧ w.parseFromArray d = some message := by
  unfold verdict at h
  split at h
  · next hsum =>
      split at h
      · next htag =>
          subst htag
          split at h
          · next m hm =>
              cases h
              refine ⟨?_, hm⟩
              unfold body checkSum
              rw [hsum, hostToNetwork32_networkToHost32 hc]
          · exact absurd h (by simp)
      · exact absurd h (by simp)
  · exact absurd h (by simp)

/-! ## One iteration -/

/-- A frame that has not arrived yet, as far as its length field tells. -/
def Incomplete (q : List UInt8) : Prop :=
  q.length < kMinMessageLen + kHeaderLen ∨
    (kMinMessageLen ≤ lengthField q ∧ lengthField q ≤ kMaxMessageLen ∧ q.length < lengthField q + kHeaderLen)

theorem peekInt32_rep {b : Buffer} (h : b.Rep q p) (hq : kMinMessageLen + kHeaderLen ≤ q.length) :
    b.peekInt32 = .ok (lengthField q) :=
  Buffer.peekInt_rep h (le_trans (by decide) hq)

/-- A length field that is out of range. -/
theorem iterate_invalidLength (h : s.buf.Rep q p) (hq : kMinMessageLen + kHeaderLen ≤ q.length)
    (hlen : lengthField q > kMaxMessageLen ∨ lengthField q < kMinMessageLen) :
    codec.iterate w s = .ok (.again (codec.fail s .kInvalidLength)) := by
  unfold iterate
  rw [if_pos (by rw [h.readableBytes_eq]; exact hq), peekInt32_rep h hq, ok_bind, if_pos hlen]

/-- A length field in range, and a frame that is not all there. -/
theorem iterate_incomplete (h : s.buf.Rep q p) (hq : Incomplete q) : codec.iterate w s = .ok (.leave s) := by
  unfold iterate
  by_cases hlong : kMinMessageLen + kHeaderLen ≤ q.length
  · obtain ⟨hmin, hmax, hless⟩ := hq.resolve_left (not_lt.mpr hlong)
    rw [if_pos (by rw [h.readableBytes_eq]; exact hlong), peekInt32_rep h hlong, ok_bind,
      if_neg (by omega), if_neg ?_]
    rw [h.readableBytes_eq]
    unfold toSizeT kMaxMessageLen kHeaderLen kMinMessageLen at *
    omega
  · rw [if_neg (by rw [h.readableBytes_eq]; exact hlong)]

/-- A length field in range, and a frame that is there: `parse` decides. -/
theorem iterate_complete (h : s.buf.Rep q p) (ht : t.length = kHeaderLen) (hc : c.length = 4)
    (hq : q.drop kHeaderLen = t ++ d ++ c ++ rest) (hlen : lengthField q = (d.length + 8 : Nat))
    (hshort : Short d) :
    codec.iterate w s = (match verdict w t d c with
      | .ok message => do
          let buf ← s.buf.retrieve (d.length + 12)
          .ok (.again { codec.deliver s message with buf })
      | .error errorCode => .ok (.again (codec.fail s errorCode))) := by
  have hle := hshort.length_lt
  have hqlen : q.length - 4 = d.length + 8 + rest.length := by
    have := congrArg List.length hq
    simp only [List.length_drop, List.length_append, ht, hc] at this
    unfold kHeaderLen at this
    omega
  have hlong : kMinMessageLen + kHeaderLen ≤ q.length := by
    unfold kMinMessageLen kHeaderLen
    omega
  have hsize : toSizeT (((d.length + 8 : Nat) : Int) + kHeaderLen) = d.length + 12 :=
    toSizeT_natCast (n := d.length + 12) (by omega)
  unfold iterate
  rw [if_pos (by rw [h.readableBytes_eq]; exact hlong), peekInt32_rep h hlong, ok_bind, hlen]
  rw [if_neg (by unfold kMaxMessageLen kMinMessageLen kHeaderLen; omega), hsize,
    if_pos (by rw [h.readableBytes_eq]; omega), h.content, hq, parse_pieces ht hc rest, ok_bind,
    Int.add_comm, hsize]
  cases verdict w t d c with
  | ok message => rfl
  | error errorCode => rfl

/-- **A whole frame is consumed**, and its message is delivered. -/
theorem iterate_frame (h : s.buf.Rep (frame w payload ++ rest) p) (hshort : Short payload)
    (hmsg : w.parseFromArray payload = some message) :
    ∃ b, b.Rep rest p ∧ codec.iterate w s = .ok (.again { codec.deliver s message with buf := b }) := by
  have hdrop : (frame w payload ++ rest).drop kHeaderLen
      = tag ++ payload ++ hostToNetwork32 (checkSum w payload) ++ rest := by
    unfold frame
    rw [List.append_assoc]
    exact List.drop_left' (length_hostToNetwork32 _)
  obtain ⟨b, hb, hrep⟩ := Buffer.retrieve_rep h
    (show payload.length + 12 ≤ (frame w payload ++ rest).length by simp)
  rw [List.drop_left' (length_frame w payload)] at hrep
  refine ⟨b, hrep, ?_⟩
  rw [iterate_complete codec h length_tag (length_hostToNetwork32 _) hdrop (lengthField_frame hshort rest)
    hshort, verdict_body w hmsg]
  show (s.buf.retrieve (payload.length + 12) >>= _) = _
  rw [hb, ok_bind]

/-- `q` starts with a frame whose payload protobuf accepts. -/
def StartsWithFrame (w : Wire RpcMessage) (q : List UInt8) : Prop :=
  ∃ payload message rest, q = frame w payload ++ rest ∧ Short payload ∧ w.parseFromArray payload = some message

/-- **Anything else is an error**: the error callback is called, and the loop goes on. -/
theorem iterate_malformed (h : s.buf.Rep q p) (hq : ¬ Incomplete q) (hframe : ¬ StartsWithFrame w q) :
    ∃ errorCode, codec.iterate w s = .ok (.again (codec.fail s errorCode)) := by
  unfold Incomplete at hq
  push Not at hq
  obtain ⟨hlong, hwhole⟩ := hq
  by_cases hrange : lengthField q > kMaxMessageLen ∨ lengthField q < kMinMessageLen
  · exact ⟨_, iterate_invalidLength codec h hlong hrange⟩
  · push Not at hrange
    obtain ⟨n, hn⟩ := Int.eq_ofNat_of_zero_le (show 0 ≤ lengthField q by unfold kMinMessageLen at hrange; omega)
    rw [hn] at hrange hwhole
    have hdone := hwhole (by omega) (by omega)
    have hle : n ≤ (q.drop kHeaderLen).length := by
      rw [List.length_drop]
      omega
    obtain ⟨t, d, c, rest, hpieces, ht, hd, hc⟩ := exists_pieces (by omega) hle
    have hshort : Short d := by
      unfold Short kMinMessageLen kHeaderLen
      omega
    rw [iterate_complete codec h ht hc hpieces (by rw [hn, hd]) hshort]
    cases hv : verdict w t d c with
    | error errorCode => exact ⟨errorCode, rfl⟩
    | ok message =>
        -- then there was a frame after all, its length field being the only one possible
        obtain ⟨hbody, hmsg⟩ := body_of_verdict hc hv
        refine absurd ⟨d, message, rest, ?_, hshort, hmsg⟩ hframe
        have hfield : hostToNetwork32 (body w d).length = q.take kHeaderLen := by
          have htake : (q.take kHeaderLen).length = 4 := by
            rw [List.length_take]
            exact min_eq_left (le_trans (by decide) hlong)
          rw [length_body, hd, ← hn]
          exact hostToNetwork32_networkToHost32 htake
        unfold frame
        rw [hfield, List.append_assoc, ← hbody, ← hpieces, List.take_append_drop]

end Muduo.Net.RpcCodec
