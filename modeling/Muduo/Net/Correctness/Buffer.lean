import Muduo.Net.Buffer
import Muduo.Lib.System

/-!
# `Correctness.Buffer` — the buffer is a byte queue

`Buffer.Rep b q p` says that `b` is well formed and holds exactly the bytes `q`; `p` records whether
`prepend` was ever applied, which is the only thing that can take the cheap-prepend area away. Every
operation gets one lemma of the form `Rep b q p → Safe (op b) (Rep · (queue operation on q) p)`, and clients
of the buffer (the connection, the codecs) only ever use these.

The operations that grow the vector need one side condition, `Fits`: the new size must be a `size_t`. When
it is not, `makeSpace` compares and resizes with wrapped numbers; see `ensureWritableBytes_new_wraps`.
-/

namespace Muduo.Net.Buffer

open Lib

/-- The index invariant. That the write index never drops below the cheap-prepend area is what keeps
    `len + kCheapPrepend` from wrapping whenever `writerIndex_ + len` does not. -/
structure Valid (b : Buffer) : Prop where
  reader_le : b.readerIndex ≤ b.writerIndex
  writer_le : b.writerIndex ≤ b.buffer.length
  cheap_le : kCheapPrepend ≤ b.writerIndex
  size_le : b.buffer.length ≤ maxSize

/-- `b` represents the byte queue `q`. -/
structure Rep (b : Buffer) (q : List UInt8) (prepended : Bool) : Prop extends b.Valid where
  content : b.readable = q
  cheap : prepended = false → kCheapPrepend ≤ b.prependableBytes

/-- The growth request `len` is computed without leaving the range of `size_t`. -/
def Fits (b : Buffer) (len : Nat) : Prop := b.writableBytes < len → b.writerIndex + len < 2 ^ 64

instance (b : Buffer) (len : Nat) : Decidable (b.Fits len) :=
  inferInstanceAs (Decidable (b.writableBytes < len → b.writerIndex + len < 2 ^ 64))

variable {b : Buffer} {q : List UInt8} {p : Bool}

/-! ## Reading the indices -/

theorem Valid.readableBytes_eq (h : b.Valid) : b.readableBytes = b.writerIndex - b.readerIndex := by
  have := h.writer_le
  have := h.size_le
  exact SizeT.sub_eq h.reader_le (by unfold maxSize at *; omega)

theorem Valid.writableBytes_eq (h : b.Valid) : b.writableBytes = b.buffer.length - b.writerIndex := by
  have := h.size_le
  exact SizeT.sub_eq h.writer_le (by unfold maxSize at *; omega)

theorem Valid.length_readable (h : b.Valid) : b.readable.length = b.writerIndex - b.readerIndex :=
  length_window h.writer_le

theorem Valid.readableBytes_eq_length (h : b.Valid) : b.readableBytes = b.readable.length := by
  rw [h.readableBytes_eq, h.length_readable]

theorem Valid.rep (h : b.Valid) : b.Rep b.readable true := ⟨h, rfl, fun hp => absurd hp (by simp)⟩

theorem Rep.readableBytes_eq (h : b.Rep q p) : b.readableBytes = q.length := by
  rw [h.toValid.readableBytes_eq_length, h.content]

theorem Rep.length_eq (h : b.Rep q p) : q.length = b.writerIndex - b.readerIndex := by
  rw [← h.content, h.length_readable]

theorem new_rep : Buffer.new.Rep [] false where
  reader_le := Nat.le_refl _
  writer_le := by
    show kCheapPrepend ≤ (List.replicate _ _).length
    rw [List.length_replicate]
    exact Nat.le_add_right _ _
  cheap_le := Nat.le_refl _
  size_le := by
    show (List.replicate _ _).length ≤ maxSize
    rw [List.length_replicate]
    unfold kCheapPrepend kInitialSize maxSize
    omega
  content := window_self _ _
  cheap := fun _ => Nat.le_refl _

/-! ## Consuming -/

theorem retrieveAll_rep (h : b.Rep q p) : b.retrieveAll.Rep [] p where
  reader_le := Nat.le_refl _
  writer_le := Nat.le_trans h.cheap_le h.writer_le
  cheap_le := Nat.le_refl _
  size_le := h.size_le
  content := window_self _ _
  cheap := fun _ => Nat.le_refl _

/-- **`retrieve` drops a prefix.** -/
theorem retrieve_rep (h : b.Rep q p) {len : Nat} (hlen : len ≤ q.length) :
    ∃ b', b.retrieve len = .ok b' ∧ b'.Rep (q.drop len) p := by
  have hq := h.length_eq
  have hw := h.writer_le
  have hr := h.reader_le
  have hs := h.size_le
  unfold maxSize at hs
  have hle : len ≤ b.readableBytes := by rw [h.readableBytes_eq]; exact hlen
  unfold retrieve
  rw [assert_pos hle, ok_bind]
  by_cases hlt : len < b.readableBytes
  · have hadd : SizeT.add b.readerIndex len = b.readerIndex + len := SizeT.add_eq (by omega)
    rw [if_pos hlt, hadd]
    refine ⟨_, rfl, ?_⟩
    exact { reader_le := by show b.readerIndex + len ≤ b.writerIndex; omega
            writer_le := hw
            cheap_le := h.cheap_le
            size_le := h.size_le
            content := by rw [← h.content]; exact (drop_window _ _ _ _).symm
            cheap := fun hp => Nat.le_trans (h.cheap hp) (Nat.le_add_right _ _) }
  · -- everything is retrieved, and both indices are reset
    rw [if_neg hlt]
    have hall : q.length ≤ len := by rw [h.readableBytes_eq] at hlt; omega
    rw [List.drop_eq_nil_of_le hall]
    exact ⟨_, rfl, retrieveAll_rep h⟩

theorem retrieveUntil_rep (h : b.Rep q p) {k : Nat} (hk : k ≤ q.length) :
    ∃ b', b.retrieveUntil (b.readerIndex + k) = .ok b' ∧ b'.Rep (q.drop k) p := by
  have hq := h.length_eq
  have hr := h.reader_le
  unfold retrieveUntil
  rw [assert_pos (Nat.le_add_right _ _), ok_bind, assert_pos (by omega), ok_bind,
    Nat.add_sub_cancel_left]
  exact retrieve_rep h hk

theorem retrieveAsString_rep (h : b.Rep q p) {len : Nat} (hlen : len ≤ q.length) :
    ∃ b', b.retrieveAsString len = .ok (q.take len, b') ∧ b'.Rep (q.drop len) p := by
  have hle : len ≤ b.readableBytes := by rw [h.readableBytes_eq]; exact hlen
  obtain ⟨b', hb', hrep⟩ := retrieve_rep h hlen
  refine ⟨b', ?_, hrep⟩
  unfold retrieveAsString
  rw [assert_pos hle, ok_bind, hb', h.content]
  rfl

/-! ## Growing -/

/-- Growing the vector behind the write index keeps everything before it. -/
theorem grown_rep (h : b.Rep q p) {n : Nat} (hn : b.writerIndex ≤ n) (hmax : n ≤ maxSize) :
    Buffer.Rep { b with buffer := resize b.buffer n 0 } q p ∧
    Buffer.writableBytes { b with buffer := resize b.buffer n 0 } = n - b.writerIndex := by
  have hval : Buffer.Valid { b with buffer := resize b.buffer n 0 } :=
    { reader_le := h.reader_le
      writer_le := le_of_le_of_eq hn length_resize.symm
      cheap_le := h.cheap_le
      size_le := le_of_eq_of_le length_resize hmax }
  refine ⟨{ hval with content := ?_, cheap := h.cheap }, ?_⟩
  · rw [← h.content]
    exact window_resize h.writer_le hn
  · rw [hval.writableBytes_eq]
    show (resize b.buffer n 0).length - b.writerIndex = n - b.writerIndex
    rw [length_resize]

/-- Moving the readable bytes down to the cheap-prepend boundary keeps them and frees what lay before. -/
theorem moved_rep (h : b.Rep q p) (hgt : kCheapPrepend < b.readerIndex) :
    Buffer.Rep ⟨overwrite b.buffer kCheapPrepend b.readable, kCheapPrepend, kCheapPrepend + q.length⟩ q p ∧
    Buffer.writableBytes ⟨overwrite b.buffer kCheapPrepend b.readable, kCheapPrepend,
        kCheapPrepend + q.length⟩ = b.buffer.length - (kCheapPrepend + q.length) := by
  have hr := h.reader_le
  have hw := h.writer_le
  have hq := h.length_eq
  have hov : (overwrite b.buffer kCheapPrepend b.readable).length = b.buffer.length :=
    length_overwrite (by rw [h.content]; omega)
  have hval : Buffer.Valid ⟨overwrite b.buffer kCheapPrepend b.readable, kCheapPrepend,
      kCheapPrepend + q.length⟩ :=
    { reader_le := Nat.le_add_right _ _
      writer_le := by
        show kCheapPrepend + q.length ≤ (overwrite b.buffer kCheapPrepend b.readable).length
        omega
      cheap_le := Nat.le_add_right _ _
      size_le := le_of_eq_of_le hov h.size_le }
  refine ⟨{ hval with content := ?_, cheap := fun _ => Nat.le_refl _ }, ?_⟩
  · show window (overwrite b.buffer kCheapPrepend b.readable) kCheapPrepend (kCheapPrepend + q.length) = q
    rw [h.content]
    exact window_overwrite_self (by omega)
  · rw [hval.writableBytes_eq]
    exact congrArg (· - (kCheapPrepend + q.length)) hov

/-- `writerIndex_ + len` stays a `size_t`, so nothing in `makeSpace` wraps: it makes room and keeps the
    content, unless the vector has to grow and cannot. -/
theorem makeSpace_cases (h : b.Rep q p) {len : Nat} (hw : b.writableBytes < len)
    (hfit : b.writerIndex + len < 2 ^ 64) :
    (∃ b', b.makeSpace len = .ok b' ∧ b'.Rep q p ∧ len ≤ b'.writableBytes) ∨
    (b.makeSpace len = .error .lengthError ∧ maxSize < b.writerIndex + len ∧
      b.buffer.length < len + kCheapPrepend + q.length) := by
  have hr := h.reader_le
  have hwl := h.writer_le
  have hc := h.cheap_le
  have hs := h.size_le
  have hq := h.length_eq
  have hwb := h.writableBytes_eq
  unfold kCheapPrepend at hc
  unfold maxSize at hs
  have hsum : SizeT.add b.writableBytes b.prependableBytes = b.writableBytes + b.readerIndex :=
    SizeT.add_eq (by unfold prependableBytes; omega)
  have hlen : SizeT.add len kCheapPrepend = len + 8 := SizeT.add_eq (by unfold kCheapPrepend; omega)
  have hnew : SizeT.add b.writerIndex len = b.writerIndex + len := SizeT.add_eq hfit
  unfold makeSpace
  rw [hsum, hlen, hnew]
  by_cases hbr : b.writableBytes + b.readerIndex < len + 8
  · -- not enough room even after moving: the vector grows, or cannot and throws
    rw [if_pos hbr]
    unfold resizeTo
    by_cases hmax : b.writerIndex + len ≤ maxSize
    · rw [if_pos hmax]
      obtain ⟨hrep, hwr⟩ := grown_rep h (Nat.le_add_right _ len) hmax
      exact Or.inl ⟨_, rfl, hrep, by rw [hwr]; omega⟩
    · rw [if_neg hmax]
      exact Or.inr ⟨rfl, Nat.lt_of_not_le hmax, by unfold kCheapPrepend; omega⟩
  · -- the room is there, but in two parts: the content moves down
    rw [if_neg hbr]
    have hgt : kCheapPrepend < b.readerIndex := by unfold kCheapPrepend; omega
    obtain ⟨hrep, hwr⟩ := moved_rep h hgt
    have hcopy : b.copyTo kCheapPrepend b.readable
        = .ok { b with buffer := overwrite b.buffer kCheapPrepend b.readable } := by
      unfold copyTo
      rw [if_pos (by rw [h.content]; unfold kCheapPrepend; omega)]
    have hadd : SizeT.add kCheapPrepend b.readableBytes = kCheapPrepend + q.length := by
      rw [h.readableBytes_eq]
      exact SizeT.add_eq (by unfold kCheapPrepend; omega)
    have hread := h.readableBytes_eq.trans hrep.readableBytes_eq.symm
    refine Or.inl ⟨_, ?_, hrep, by rw [hwr]; unfold kCheapPrepend; omega⟩
    rw [assert_pos hgt, ok_bind, hcopy, ok_bind, hadd]
    exact congrArg (· >>= _) (assert_pos hread)

/-- `ensureWritableBytes` has room already or makes it. -/
theorem ensureWritableBytes_cases (h : b.Rep q p) {len : Nat} (hfit : b.Fits len) :
    (∃ b', b.ensureWritableBytes len = .ok b' ∧ b'.Rep q p ∧ len ≤ b'.writableBytes) ∨
    (b.ensureWritableBytes len = .error .lengthError ∧ maxSize < b.writerIndex + len ∧
      b.buffer.length < len + kCheapPrepend + q.length) := by
  unfold ensureWritableBytes
  by_cases hw : b.writableBytes < len
  · rw [if_pos hw]
    rcases makeSpace_cases h hw (hfit hw) with ⟨b', hb', hrep, hroom⟩ | ⟨hthrow, hmax, hsmall⟩
    · rw [hb', ok_bind, assert_pos hroom]
      exact Or.inl ⟨b', rfl, hrep, hroom⟩
    · rw [hthrow]
      exact Or.inr ⟨rfl, hmax, hsmall⟩
  · have hroom : len ≤ b.writableBytes := Nat.le_of_not_lt hw
    rw [if_neg hw, ok_bind, assert_pos hroom]
    exact Or.inl ⟨b, rfl, h, hroom⟩

/-- **`ensureWritableBytes` makes room and changes no content.** -/
theorem ensureWritableBytes_rep (h : b.Rep q p) {len : Nat} (hfit : b.Fits len) :
    Safe (b.ensureWritableBytes len) (fun b' : Buffer => b'.Rep q p ∧ len ≤ b'.writableBytes) := by
  rcases ensureWritableBytes_cases h hfit with ⟨b', hb', hrep⟩ | ⟨hthrow, -⟩
  · rw [hb']; exact Safe.ok hrep
  · rw [hthrow]; exact Safe.throws

/-- **When growing cannot throw.** `makeSpace` only resizes when the vector is smaller than
    `len + kCheapPrepend` plus the content, so a small request on a small content always succeeds, however
    large the vector has become. -/
theorem ensureWritableBytes_ok (h : b.Rep q p) {len : Nat}
    (hlen : 2 * len + q.length + kCheapPrepend ≤ maxSize) :
    ∃ b', b.ensureWritableBytes len = .ok b' ∧ b'.Rep q p ∧ len ≤ b'.writableBytes := by
  have hwl := h.writer_le
  have hs := h.size_le
  have hfit : b.Fits len := fun _ => by unfold maxSize at hlen hs; omega
  rcases ensureWritableBytes_cases h hfit with hok | ⟨-, hmax, hsmall⟩
  · exact hok
  · omega

theorem writableBytes_new : Buffer.new.writableBytes = kInitialSize := by
  have hsize : Buffer.new.buffer.length = kCheapPrepend + kInitialSize := List.length_replicate
  rw [new_rep.writableBytes_eq, hsize]
  exact Nat.add_sub_cancel_left _ _

/-- A request within `kCheapPrepend` of the end of `size_t` fails the assertion inside `makeSpace`: the
    wrapped `len + kCheapPrepend` is at most 7, so the buffer is taken to have room that it does not have. -/
theorem ensureWritableBytes_new_wraps {len : Nat} (hlo : 2 ^ 64 - kCheapPrepend ≤ len)
    (hhi : len < 2 ^ 64) : Buffer.new.ensureWritableBytes len = .error .assertion := by
  have hwb := writableBytes_new
  have hsum : SizeT.add Buffer.new.writableBytes Buffer.new.prependableBytes = 1032 := by
    rw [hwb]
    rfl
  have hreq : SizeT.add len kCheapPrepend < 8 := by
    unfold SizeT.add kCheapPrepend at *
    omega
  unfold kCheapPrepend at hlo
  unfold ensureWritableBytes makeSpace
  rw [if_pos (by rw [hwb]; unfold kInitialSize; omega), hsum, if_neg (by omega),
    assert_neg (show ¬ kCheapPrepend < Buffer.new.readerIndex from Nat.lt_irrefl _)]
  rfl

/-! ## Writing -/

/-- Bytes written into the writable part and then committed appear at the end of the content. -/
theorem written_rep (h : b.Rep q p) {d : List UInt8} (hd : d.length ≤ b.writableBytes) :
    ∃ b', b.copyTo b.writerIndex d = .ok b' ∧ (b'.hasWritten d.length).Rep (q ++ d) p ∧
      b'.writerIndex = b.writerIndex ∧ b'.buffer.length = b.buffer.length := by
  have hr := h.reader_le
  have hw := h.writer_le
  have hs := h.size_le
  unfold maxSize at hs
  rw [h.writableBytes_eq] at hd
  have hroom : b.writerIndex + d.length ≤ b.buffer.length := by omega
  have hlen := length_overwrite hroom
  have hadd : SizeT.add b.writerIndex d.length = b.writerIndex + d.length := SizeT.add_eq (by omega)
  refine ⟨{ b with buffer := overwrite b.buffer b.writerIndex d }, ?_, ?_, rfl, hlen⟩
  · unfold copyTo
    rw [if_pos hroom]
  · unfold hasWritten
    rw [hadd]
    exact { reader_le := Nat.le_trans hr (Nat.le_add_right _ _)
            writer_le := le_of_le_of_eq hroom hlen.symm
            cheap_le := Nat.le_trans h.cheap_le (Nat.le_add_right _ _)
            size_le := le_of_eq_of_le hlen h.size_le
            content := by
              show window (overwrite b.buffer b.writerIndex d) b.readerIndex (b.writerIndex + d.length)
                = q ++ d
              rw [← window_append hr (Nat.le_add_right _ _), window_overwrite_left hw (Nat.le_refl _),
                window_overwrite_self hw, ← h.content]
              rfl
            cheap := h.cheap }

/-- **`append` adds exactly the given bytes at the end.** -/
theorem append_rep (h : b.Rep q p) {d : List UInt8} (hfit : b.Fits d.length) :
    Safe (b.append d d.length) (fun b' : Buffer => b'.Rep (q ++ d) p) := by
  unfold append
  refine Safe.bind (ensureWritableBytes_rep h hfit) ?_
  rintro b₁ ⟨h₁, hroom⟩
  obtain ⟨b₂, hcopy, hrep, -, -⟩ := written_rep h₁ hroom
  rw [if_neg (Nat.lt_irrefl _), List.take_length, hcopy, ok_bind]
  exact Safe.ok hrep

theorem append_ok (h : b.Rep q p) {d : List UInt8}
    (hlen : 2 * d.length + q.length + kCheapPrepend ≤ maxSize) :
    ∃ b', b.append d d.length = .ok b' ∧ b'.Rep (q ++ d) p := by
  obtain ⟨b₁, hb₁, h₁, hroom⟩ := ensureWritableBytes_ok h hlen
  obtain ⟨b₂, hcopy, hrep, -, -⟩ := written_rep h₁ hroom
  refine ⟨b₂.hasWritten d.length, ?_, hrep⟩
  unfold append
  rw [hb₁, ok_bind, if_neg (Nat.lt_irrefl _), List.take_length, hcopy, ok_bind]

/-- What a fresh buffer has room for is written behind the cheap-prepend area. -/
theorem append_new {d : List UInt8} (hd : d.length ≤ kInitialSize) : Buffer.new.append d d.length =
    .ok ⟨overwrite Buffer.new.buffer kCheapPrepend d, kCheapPrepend, kCheapPrepend + d.length⟩ := by
  have hroom : d.length ≤ Buffer.new.writableBytes := hd.trans writableBytes_new.ge
  have hcopy : kCheapPrepend + d.length ≤ Buffer.new.buffer.length :=
    (Nat.add_le_add_left hd _).trans_eq List.length_replicate.symm
  have hadd : SizeT.add kCheapPrepend d.length = kCheapPrepend + d.length := by
    unfold kInitialSize at hd
    exact SizeT.add_eq (by unfold kCheapPrepend; omega)
  unfold append ensureWritableBytes copyTo hasWritten
  rw [if_neg (Nat.not_lt.mpr hroom), ok_bind, assert_pos hroom, ok_bind, ok_bind, if_neg (Nat.lt_irrefl _),
    List.take_length]
  show (if kCheapPrepend + d.length ≤ Buffer.new.buffer.length then _ else _) >>= _ = _
  rw [if_pos hcopy, ok_bind]
  exact congrArg (fun n => Except.ok (Buffer.mk _ _ n)) hadd

/-- Lengths of objects in memory never make a growth request wrap. -/
theorem Valid.fits (h : b.Valid) {len : Nat} (hlen : len ≤ maxSize) : b.Fits len := by
  intro _
  have := h.writer_le
  have := h.size_le
  unfold maxSize at *
  omega

theorem Bytes.length_le_maxSize (d : Bytes) : d.data.length ≤ maxSize := by
  have := d.fits
  unfold maxObject at this
  unfold maxSize
  omega

theorem append_bytes_rep (h : b.Rep q p) (d : Bytes) :
    Safe (b.append d.data d.data.length) (fun b' : Buffer => b'.Rep (q ++ d.data) p) :=
  append_rep h (h.fits (Bytes.length_le_maxSize d))

/-- **`prepend` adds at the front**, given the room it asserts. -/
theorem prepend_rep (h : b.Rep q p) {d : List UInt8} (hd : d.length ≤ b.prependableBytes) :
    ∃ b', b.prepend d = .ok b' ∧ b'.Rep (d ++ q) true := by
  have hr := h.reader_le
  have hw := h.writer_le
  have hs := h.size_le
  unfold maxSize at hs
  have hd' : d.length ≤ b.readerIndex := hd
  have hsub : SizeT.sub b.readerIndex d.length = b.readerIndex - d.length :=
    SizeT.sub_eq hd' (by omega)
  have hend : b.readerIndex - d.length + d.length = b.readerIndex := Nat.sub_add_cancel hd'
  have hroom : b.readerIndex - d.length + d.length ≤ b.buffer.length := by omega
  have hlen := length_overwrite hroom
  have hi : b.readerIndex - d.length ≤ b.buffer.length := by omega
  refine ⟨⟨overwrite b.buffer (b.readerIndex - d.length) d, b.readerIndex - d.length, b.writerIndex⟩,
    ?_, ?_⟩
  · unfold prepend copyTo
    rw [assert_pos hd, ok_bind]
    simp only [hsub]
    rw [if_pos hroom]
  · exact { reader_le := by show b.readerIndex - d.length ≤ b.writerIndex; omega
            writer_le := le_of_le_of_eq hw hlen.symm
            cheap_le := h.cheap_le
            size_le := le_of_eq_of_le hlen h.size_le
            content := by
              show window (overwrite b.buffer (b.readerIndex - d.length) d) (b.readerIndex - d.length)
                b.writerIndex = d ++ q
              rw [← window_append (j := b.readerIndex - d.length + d.length) (Nat.le_add_right _ _)
                (by omega), window_overwrite_self hi, window_overwrite_right hi (Nat.le_refl _), hend,
                ← h.content]
              rfl
            cheap := fun hp => absurd hp (by simp) }

theorem appendInt_ok (h : b.Rep q p) {w : Nat} (x : Int)
    (hlen : 2 * w + q.length + kCheapPrepend ≤ maxSize) :
    ∃ b', b.appendInt w x = .ok b' ∧ b'.Rep (q ++ hostToNetwork w x) p := by
  obtain ⟨b', hb', hrep⟩ := append_ok (d := hostToNetwork w x) h (by rw [length_hostToNetwork]; exact hlen)
  rw [length_hostToNetwork] at hb'
  exact ⟨b', hb', hrep⟩

/-- **`peekInt` reads the integer at the front** and consumes nothing. -/
theorem peekInt_rep (h : b.Rep q p) {w : Nat} (hw : w ≤ q.length) :
    b.peekInt w = .ok (networkToHost w (q.take w)) := by
  unfold peekInt
  rw [assert_pos (by rw [h.readableBytes_eq]; exact hw), ok_bind, h.content]

/-- The `int` length of a `StringPiece` is exact below `2 ^ 31`. -/
theorem toStringPiece_eq (h : b.Rep q p) (hq : q.length < 2 ^ 31) :
    b.toStringPiece = ⟨q, q.length⟩ := by
  unfold toStringPiece
  rw [h.content, h.readableBytes_eq, toInt32_eq (by omega) (by omega)]

/-- **`shrink` changes no content.** It works on a fresh buffer, so the cheap-prepend area is back. -/
theorem shrink_rep (h : b.Rep q p) {reserve : Nat} (hq : q.length < 2 ^ 31)
    (hfit : Buffer.new.Fits (SizeT.add q.length reserve)) :
    Safe (b.shrink reserve) (fun b' : Buffer => b'.Rep q false) := by
  unfold shrink
  rw [h.readableBytes_eq]
  -- a fresh buffer is grown, filled through a `StringPiece`, and swapped in
  have hgrow := ensureWritableBytes_rep new_rep hfit
  refine Safe.bind hgrow ?_
  rintro o₁ ⟨h₁, -⟩
  unfold appendPiece
  rw [toStringPiece_eq h hq, toSizeT_natCast (by omega)]
  have hlen : q.length ≤ maxSize := by unfold maxSize; omega
  refine Safe.bind (append_rep h₁ (h₁.fits hlen)) ?_
  intro o₂ h₂
  rw [List.nil_append] at h₂
  exact Safe.ok h₂

/-- **`readFd` adds exactly the bytes `readv` delivered**, split or not. -/
theorem readFd_rep (h : b.Rep q p) {d : List UInt8}
    (hd : d.length ≤ b.writableBytes + kExtraBuf) :
    Safe (b.readFd (.data d)) (fun r => r.1 = d.length ∧ r.2.Rep (q ++ d) p) := by
  have hs := h.size_le
  have hwb := h.writableBytes_eq
  unfold maxSize at hs
  unfold kExtraBuf at hd
  unfold readFd
  by_cases hle : d.length ≤ b.writableBytes
  · obtain ⟨b₁, hcopy, hrep, -, -⟩ := written_rep h hle
    dsimp only
    rw [List.take_of_length_le hle, hcopy, ok_bind, if_pos hle]
    exact Safe.ok ⟨rfl, hrep⟩
  · -- the vector is filled up, the rest of the bytes comes from `extrabuf`
    have htake : (d.take b.writableBytes).length = b.writableBytes := by
      rw [List.length_take]; omega
    obtain ⟨b₁, hcopy, hrep, hw₁, hl₁⟩ := written_rep h (le_of_eq htake)
    have hfull : b₁.hasWritten (d.take b.writableBytes).length
        = { b₁ with writerIndex := b₁.buffer.length } := by
      have := h.writer_le
      unfold hasWritten
      rw [htake, hw₁, SizeT.add_eq (by omega), hl₁, hwb]
      congr 1
      omega
    have hrest : SizeT.sub d.length b.writableBytes = (d.drop b.writableBytes).length := by
      rw [SizeT.sub_eq (by omega) (by omega), List.length_drop]
    rw [hfull] at hrep
    dsimp only
    rw [hcopy, ok_bind, if_neg hle, hrest]
    refine Safe.bind (append_rep hrep (hrep.fits ?_)) ?_
    · rw [List.length_drop]
      unfold maxSize
      omega
    · intro b₂ h₂
      refine Safe.ok ⟨rfl, ?_⟩
      rwa [List.append_assoc, List.take_append_drop] at h₂

end Muduo.Net.Buffer
