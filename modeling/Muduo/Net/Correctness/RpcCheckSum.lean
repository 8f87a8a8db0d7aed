import Muduo.Net.Correctness.RpcStream

/-!
# `Correctness.RpcCheckSum` — a corrupted byte

The checksum covers the tag and the payload, and `parse` computes it over the same bytes as `send`. A byte that
changes there changes the checksum; one that changes in the checksum itself changes what is expected. Both
pass through `int32_t`, which tells all 32-bit values apart.

`send` hands over frames that are longer than `onMessage` accepts. These are corrupted here as well.
-/

namespace Muduo.Net.RpcCodec

open Lib

variable {RpcMessage : Type} {w : Wire RpcMessage} {message : RpcMessage} {f t d c : List UInt8} {i : Nat} {x : UInt8}

/-! ## The frames that `send` produces -/

/-- What `send` has asserted when it returns. `ByteSize` returns an `int`. -/
theorem asserted_of_send (hint : w.byteSize message < 2 ^ 31) (h : send w message = .ok f) :
    w.isInitialized message = true ∧ w.byteSize message = (w.serialize message).length ∧
      (w.serialize message).length + 8 < 2 ^ 31 := by
  generalize hd : w.serialize message = d at *
  unfold send at h
  obtain ⟨b₁, hb₁, h⟩ := bind_eq_ok.mp h
  obtain ⟨_, hinit, h⟩ := bind_eq_ok.mp h
  obtain ⟨b₂, hb₂, h⟩ := bind_eq_ok.mp h
  rw [hd] at h
  obtain ⟨b₃, hb₃, h⟩ := bind_eq_ok.mp h
  obtain ⟨_, hsize, h⟩ := bind_eq_ok.mp h
  have hsize := of_assert hsize
  obtain ⟨b₅, hb₅, h⟩ := bind_eq_ok.mp h
  obtain ⟨_, hlast, -⟩ := bind_eq_ok.mp h
  have hlast := of_assert hlast
  rw [← hsize] at hint hb₂ hb₅ hlast
  have hn : d.length < 2 ^ 31 := by omega
  -- after the tag
  have htag := Buffer.append_new (d := tag) (by decide)
  obtain rfl : _ = b₁ := Except.ok.inj (htag.symm.trans hb₁)
  have h₁ := (Buffer.append_rep Buffer.new_rep (Buffer.new_rep.fits (by decide))).of_eq_ok hb₁
  -- room for the payload and the checksum
  have hroom : d.length + 4 < 2 ^ 31 := by
    by_contra hge
    have hk : toSizeT (toInt32 ((d.length : Int) + kHeaderLen)) = 2 ^ 64 - 2 ^ 32 + d.length + 4 := by
      have hcast : (d.length : Int) + kHeaderLen = (d.length + 4 : Nat) := rfl
      rw [hcast, toInt32_of_ge (by omega) (by omega)]
      unfold toSizeT
      omega
    rw [hk] at hb₂
    obtain ⟨h₂, hw₂⟩ := (Buffer.ensureWritableBytes_rep h₁ (fun _ => by
      show 8 + 4 + (2 ^ 64 - 2 ^ 32 + d.length + 4) < 2 ^ 64
      omega)).of_eq_ok hb₂
    have hs := h₂.size_le
    rw [h₂.writableBytes_eq] at hw₂
    unfold maxSize at hs
    omega
  have hk : toSizeT (toInt32 ((d.length : Int) + kHeaderLen)) = d.length + 4 :=
    toSizeT_toInt32 (n := d.length + 4) hroom
  rw [hk] at hb₂
  obtain ⟨h₂, hw₂⟩ := (Buffer.ensureWritableBytes_rep h₁ (h₁.fits (by unfold maxSize; omega))).of_eq_ok hb₂
  -- the payload and the checksum
  obtain ⟨b, hb, h₃, -, -⟩ := Buffer.written_rep (d := d) h₂ (by omega)
  obtain rfl : b = b₃ := Except.ok.inj (hb.symm.trans hb₃)
  rw [toSizeT_natCast (by omega)] at hb₅
  obtain ⟨b, hb, h₅⟩ := Buffer.appendInt_ok (w := 4) h₃ _ (by
    unfold maxSize Buffer.kCheapPrepend
    simp
    omega)
  obtain rfl : b = b₅ := Except.ok.inj (hb.symm.trans hb₅)
  -- the last assertion compares with the length as an `int`
  have hread : b.readableBytes = d.length + 8 := by
    rw [h₅.readableBytes_eq]
    simp
    omega
  refine ⟨of_assert hinit, hsize.symm, ?_⟩
  by_contra hge
  have hcast : (kHeaderLen : Int) + d.length + kHeaderLen = (d.length + 8 : Nat) := by
    unfold kHeaderLen
    push_cast
    omega
  rw [hread, hcast] at hlast
  exact toSizeT_toInt32_ne (by omega) (by unfold maxSize; omega) hlast.symm

/-- **`send` hands over a frame**, whatever it hands over. -/
theorem frame_of_send (hint : w.byteSize message < 2 ^ 31) (h : send w message = .ok f) :
    f = frame w (w.serialize message) ∧ (w.serialize message).length + 8 < 2 ^ 31 := by
  obtain ⟨hinit, hsize, hlen⟩ := asserted_of_send hint h
  exact ⟨Except.ok.inj (h.symm.trans (send_frame_of_lt hinit hsize hlen)), hlen⟩

/-! ## One byte is changed -/

/-- A list in which one element is replaced, and the list before. -/
theorem exists_set {α : Type} {l : List α} {i : Nat} (h : i < l.length) (x : α) :
    ∃ u v, l = u ++ l[i] :: v ∧ l.set i x = u ++ x :: v := by
  refine ⟨l.take i, l.drop (i + 1), ?_, ?_⟩
  · rw [← List.drop_eq_getElem_cons h, List.take_append_drop]
  · rw [List.set_eq_take_append_cons_drop, if_pos h]

theorem verdict_checkSumError (h : toInt32 (w.adler32 1 (t ++ d)) ≠ networkToHost32 c) :
    verdict w t d c = .error .kCheckSumError := if_neg h

/-- A byte of the tag or of the payload. -/
theorem checkSum_set_ne (hadler : ∀ data, w.adler32 1 data = Adler32.adler32 1 data) (hi : i < d.length)
    (hx : x ≠ d[i]) : toInt32 (w.adler32 1 (d.set i x)) ≠ toInt32 (w.adler32 1 d) := by
  obtain ⟨u, v, hd, hset⟩ := exists_set hi x
  have hlow : 1 % 2 ^ 16 < Adler32.base := by decide
  have hhigh : 1 / 2 ^ 16 < Adler32.base := by decide
  rw [hadler, hadler]
  intro heq
  have hsum := toInt32_inj (Adler32.adler32_lt hlow hhigh _) (Adler32.adler32_lt hlow hhigh _) heq
  rw [hset] at hsum
  exact Adler32.adler32_ne hlow hhigh hx (hsum.trans (congrArg (Adler32.adler32 1) hd))

/-- A byte of the checksum. -/
theorem networkToHost32_set_ne {bytes : List UInt8} (hlen : bytes.length = 4) (hi : i < bytes.length)
    (hx : x ≠ bytes[i]) : networkToHost32 (bytes.set i x) ≠ networkToHost32 bytes := by
  intro heq
  have hset : (bytes.set i x).length = 4 := List.length_set.trans hlen
  have hsame : bytes.set i x = bytes := by
    rw [← hostToNetwork32_networkToHost32 hset, heq, hostToNetwork32_networkToHost32 hlen]
  have hget : (bytes.set i x)[i]? = bytes[i]? := by rw [hsame]
  rw [List.getElem?_set_self hi, List.getElem?_eq_getElem hi, Option.some.injEq] at hget
  exact hx hget

/-- **The altered body** is still a tag, a payload and a checksum, and these do not fit together. -/
theorem pieces_set (hadler : ∀ data, w.adler32 1 data = Adler32.adler32 1 data) (payload : List UInt8)
    (hi : i < (body w payload).length) (hx : x ≠ (body w payload)[i]) :
    ∃ t d c, (body w payload).set i x = t ++ d ++ c ∧ t.length = 4 ∧ d.length = payload.length ∧ c.length = 4 ∧
      verdict w t d c = .error .kCheckSumError := by
  have hsum : networkToHost32 (hostToNetwork32 (checkSum w payload)) = toInt32 (w.adler32 1 (tag ++ payload)) :=
    networkToHost32_hostToNetwork32 (toInt32_range _).1 (toInt32_range _).2
  have hlen : (tag ++ payload).length = payload.length + 4 := by
    rw [List.length_append, length_tag, Nat.add_comm]
  unfold body at hi hx ⊢
  by_cases hpart : i < (tag ++ payload).length
  · -- what the checksum is computed over
    rw [List.getElem_append_left hpart] at hx
    refine ⟨((tag ++ payload).set i x).take 4, ((tag ++ payload).set i x).drop 4,
      hostToNetwork32 (checkSum w payload), ?_, ?_, ?_, length_hostToNetwork32 _, verdict_checkSumError ?_⟩
    · rw [List.take_append_drop, List.set_append_left _ _ hpart]
    · rw [List.length_take, List.length_set, hlen]
      omega
    · rw [List.length_drop, List.length_set, hlen]
      omega
    · rw [List.take_append_drop, hsum]
      exact checkSum_set_ne hadler hpart hx
  · rw [List.getElem_append_right (not_lt.mp hpart)] at hx
    rw [List.length_append] at hi
    refine ⟨tag, payload, (hostToNetwork32 (checkSum w payload)).set (i - (tag ++ payload).length) x, ?_,
      length_tag, rfl, List.length_set.trans (length_hostToNetwork32 _), verdict_checkSumError ?_⟩
    · rw [List.set_append_right _ _ (not_lt.mp hpart)]
    · rw [← hsum]
      exact (networkToHost32_set_ne (length_hostToNetwork32 _) (by omega) hx).symm

/-- **A corrupted byte is detected.** For every frame that `send` hands over, with any byte behind the length field
    replaced by another one: `parse` returns an error for the body, and `onMessage`, once the frame has arrived,
    calls the error callback and delivers nothing. `adler32` is taken to be Adler-32, and `ByteSize` to return an
    `int`. -/
theorem corrupted_byte_detected (hadler : ∀ data, w.adler32 1 data = Adler32.adler32 1 data)
    (hint : w.byteSize message < 2 ^ 31) (hsend : send w message = .ok f) (hi : kHeaderLen ≤ i)
    (hlt : i < f.length) (hx : x ≠ f[i]) :
    (∃ e, e ≠ .kNoError ∧
      parse w ((f.set i x).drop kHeaderLen) (f.length - kHeaderLen : Nat) = .ok (.error e)) ∧
    ∀ (codec : RpcCodec RpcMessage) (s : RpcSession RpcMessage) (rest : List UInt8) (pre : Bool),
      s.buf.Rep (f.set i x ++ rest) pre →
      ∃ e, e ≠ .kNoError ∧ codec.iterate w s = .ok (.again (codec.fail s e)) ∧
        (codec.fail s e).messages = s.messages := by
  obtain ⟨rfl, hlen⟩ := frame_of_send hint hsend
  generalize w.serialize message = payload at *
  -- the length field is as it was
  have hset : (frame w payload).set i x =
      hostToNetwork32 (body w payload).length ++ (body w payload).set (i - kHeaderLen) x := by
    unfold frame
    rw [List.set_append_right _ _ (by rw [length_hostToNetwork32]; exact hi), length_hostToNetwork32]
    rfl
  have hbody : i - kHeaderLen < (body w payload).length := by
    rw [length_frame] at hlt
    rw [length_body]
    unfold kHeaderLen at *
    omega
  have hget : (frame w payload)[i] = (body w payload)[i - kHeaderLen] :=
    @List.getElem_append_right _ (hostToNetwork32 (body w payload).length) (body w payload) i
      (by rw [length_hostToNetwork32]; exact hi) _
  obtain ⟨t, d, c, hpieces, ht, hd, hc, hverdict⟩ := pieces_set hadler payload hbody (hget ▸ hx)
  have hsize : (frame w payload).length - kHeaderLen = d.length + 8 := by
    rw [length_frame, hd]
    rfl
  have hdrop : ((frame w payload).set i x).drop kHeaderLen = t ++ d ++ c := by
    rw [hset, hpieces]
    exact List.drop_left' (length_hostToNetwork32 _)
  refine ⟨⟨.kCheckSumError, by decide, ?_⟩, ?_⟩
  · have hparse := parse_pieces (w := w) (d := d) ht hc []
    rw [List.append_nil, hverdict] at hparse
    rw [hdrop, hsize]
    exact hparse
  · intro codec s rest pre hrep
    have hfield : lengthField ((frame w payload).set i x ++ rest) = (d.length + 8 : Nat) := by
      rw [hset, List.append_assoc, lengthField_append (by rw [length_body]; exact hlen), length_body, hd]
    have hlong : kHeaderLen ≤ ((frame w payload).set i x).length := by
      rw [List.length_set, length_frame]
      exact le_trans (by decide) (Nat.le_add_left 12 _)
    have hq : ((frame w payload).set i x ++ rest).drop kHeaderLen = t ++ d ++ c ++ rest := by
      rw [List.drop_append_of_le_length hlong, hdrop]
    by_cases hshort : Short d
    · refine ⟨.kCheckSumError, by decide, ?_, rfl⟩
      rw [iterate_complete codec hrep ht hc hq hfield hshort, hverdict]
    · -- longer than `onMessage` accepts
      unfold Short at hshort
      refine ⟨.kInvalidLength, by decide, iterate_invalidLength codec hrep ?_ (Or.inl ?_), rfl⟩
      · rw [List.length_append, List.length_set, length_frame]
        exact le_trans (Nat.le_add_left 12 _) (Nat.le_add_right _ _)
      · rw [hfield]
        exact Int.ofNat_lt.mpr (not_le.mp hshort)

/-- The last byte of a request. -/
theorem corrupted_byte_detected_last : ∃ f, send requestWire 7 = .ok f ∧ ∃ x e, e ≠ .kNoError ∧
    parse requestWire ((f.set 22 x).drop kHeaderLen) (f.length - kHeaderLen : Nat) = .ok (.error e) := by
  have hserialize : (requestWire.serialize 7).length = 11 := by simp [requestWire]
  have hsend : send requestWire 7 = .ok (frame requestWire (requestWire.serialize 7)) :=
    send_frame_of_lt rfl (requestWire_exact.byteSize 7) (by rw [hserialize]; decide)
  have hlt : 22 < (frame requestWire (requestWire.serialize 7)).length := by
    rw [length_frame, hserialize]
    decide
  obtain ⟨x, hx⟩ : ∃ x : UInt8, x ≠ (frame requestWire (requestWire.serialize 7))[22] :=
    ⟨_ + 1, fun h => absurd (UInt8.add_eq_left.mp h) (by decide)⟩
  obtain ⟨⟨e, hne, hparse⟩, -⟩ := corrupted_byte_detected (fun _ => rfl) (show (11 : Int) < 2 ^ 31 by decide) hsend
    (show kHeaderLen ≤ 22 by decide) hlt hx
  exact ⟨_, hsend, x, e, hne, hparse⟩

end Muduo.Net.RpcCodec
