import Muduo.Base.AsyncLogging
import Muduo.Base.Correctness.Convert

/-!
# `Base.Correctness.LogStream` — insertions are all or nothing

Whichever way a text gets into the array, it is written at `current()` in one piece, perhaps with a NUL behind it, and
the position moves behind the text (`FixedBuffer.written`); or nothing happens at all. Which of the two, the free space
decides: `Fits`. What the stream holds after any insertions is therefore the texts of those that fitted (`taken`).
-/

namespace Muduo

open Lib Detail

/-! ## The buffer -/

namespace Detail.FixedBuffer

variable {SIZE : Nat} {b : FixedBuffer SIZE} {buf d e : List UInt8} {len : Nat}

/-- The array has its size, and the position is before its end. -/
structure Wf (b : FixedBuffer SIZE) : Prop where
  size : b.data.length = SIZE
  cur_lt : b.cur < SIZE
  small : SIZE < 2 ^ 31

/-- The free space. -/
def room (b : FixedBuffer SIZE) : Nat := SIZE - b.cur

/-- `d` written at `current()` with `e` behind it, and the position moved behind `d`. -/
def written (b : FixedBuffer SIZE) (d e : List UInt8) : FixedBuffer SIZE :=
  ⟨overwrite b.data b.cur (d ++ e), b.cur + d.length⟩

theorem Wf.room_pos (h : b.Wf) : 0 < b.room := Nat.sub_pos_of_lt h.cur_lt

theorem Wf.avail_eq (h : b.Wf) : b.avail = b.room := by
  obtain ⟨-, hcur, hsmall⟩ := h
  unfold avail room
  rw [toInt32_eq (by omega) (by omega)]
  omega

theorem Wf.length_eq (h : b.Wf) : b.length = b.cur := by
  obtain ⟨-, hcur, hsmall⟩ := h
  exact toInt32_eq (by omega) (by omega)

theorem Wf.asString_eq (h : b.Wf) : b.asString = b.data.take b.cur := by
  unfold asString length
  rw [toSizeT_toInt32 (lt_trans h.cur_lt h.small)]

theorem Wf.length_asString (h : b.Wf) : b.asString.length = b.cur := by
  rw [h.asString_eq, List.length_take, h.size]
  exact Nat.min_eq_left h.cur_lt.le

theorem Wf.written (h : b.Wf) (hd : d.length < b.room) (hde : (d ++ e).length ≤ b.room) : (b.written d e).Wf := by
  obtain ⟨hsize, hcur, hsmall⟩ := h
  unfold room at hd hde
  refine ⟨?_, ?_, hsmall⟩
  · rw [FixedBuffer.written, length_overwrite (by omega), hsize]
  · show b.cur + d.length < SIZE
    omega

theorem Wf.asString_written (h : b.Wf) (hd : d.length < b.room) (hde : (d ++ e).length ≤ b.room) :
    (b.written d e).asString = b.asString ++ d := by
  have hlen : (b.data.take b.cur ++ d).length = b.cur + d.length := by
    rw [List.length_append, List.length_take, h.size, Nat.min_eq_left h.cur_lt.le]
  rw [(h.written hd hde).asString_eq, h.asString_eq]
  show (overwrite b.data b.cur (d ++ e)).take (b.cur + d.length) = _
  unfold overwrite
  rw [← List.append_assoc (b.data.take b.cur), List.append_assoc, List.take_left' hlen]

theorem written_nil : b.written [] [] = b := by
  simp [FixedBuffer.written, overwrite]

theorem room_written : (b.written d e).room = b.room - d.length := (Nat.sub_sub _ _ _).symm

theorem memcpy_eq (h : b.Wf) (hlen : len ≤ buf.length) (hroom : len ≤ b.room) :
    b.memcpy buf len = .ok { b with data := overwrite b.data b.cur (buf.take len) } := by
  obtain ⟨hsize, hcur, -⟩ := h
  unfold room at hroom
  exact if_pos ⟨hlen, by omega⟩

theorem Wf.toSizeT_avail (h : b.Wf) : toSizeT b.avail = b.room := by
  rw [h.avail_eq, toSizeT_natCast]
  exact lt_of_le_of_lt (Nat.sub_le _ _) (lt_trans h.small (by decide))

theorem append_skip (h : b.Wf) (hlen : b.room ≤ len) : b.append buf len = .ok b := by
  unfold append
  rw [h.toSizeT_avail, if_neg (not_lt.mpr hlen)]

/-- **`append`**: everything or nothing. -/
theorem append_eq (h : b.Wf) (hlen : len ≤ buf.length) :
    b.append buf len = .ok (if len < b.room then b.written (buf.take len) [] else b) := by
  unfold append
  rw [h.toSizeT_avail]
  split
  · next hroom =>
      rw [memcpy_eq h hlen (le_of_lt hroom), ok_bind]
      unfold add Detail.FixedBuffer.written
      rw [List.append_nil, List.length_take, Nat.min_eq_left hlen]
  · rfl

/-- **The array refines the sequence of bytes**: `append` on both leaves the same content. -/
theorem append_refines {a : Muduo.FixedBuffer SIZE} (h : b.Wf) (ha : a.data = b.asString) (hlen : len ≤ buf.length) :
    ∃ b', b.append buf len = .ok b' ∧ b'.Wf ∧ (a.append (buf.take len)).data = b'.asString := by
  have htake : (buf.take len).length = len := by rw [List.length_take, Nat.min_eq_left hlen]
  have havail : a.avail = b.room := by
    rw [Muduo.FixedBuffer.avail, Muduo.FixedBuffer.length, ha, h.length_asString]
    rfl
  refine ⟨_, append_eq h hlen, ?_⟩
  unfold Muduo.FixedBuffer.append
  by_cases hroom : len < b.room
  · rw [if_pos hroom, dif_pos (by rwa [htake, havail])]
    have hd : (buf.take len).length < b.room := by rwa [htake]
    have hde : (buf.take len ++ []).length ≤ b.room := by
      rw [List.append_nil]
      exact hd.le
    rw [h.asString_written hd hde, ← ha]
    exact ⟨h.written hd hde, rfl⟩
  · rw [if_neg hroom, dif_neg (by rwa [htake, havail])]
    exact ⟨h, ha⟩

end Detail.FixedBuffer

/-! ## Operands -/

namespace Operand

/-- What the operand reads as. -/
def text : Operand → List UInt8
  | bool v => [if v = true then 0x31 else 0x30]
  | char v => [v]
  | cstring v => v.chars.data
  | string v => v.data
  | piece v _ => v.ptr.take v.length.toNat
  | short v => decimal.integer minus v.val
  | unsignedShort v => decimal.integer minus v.val
  | int v => decimal.integer minus v.val
  | unsignedInt v => decimal.integer minus v.val
  | long v => decimal.integer minus v.val
  | unsignedLong v => decimal.integer minus v.val
  | longLong v => decimal.integer minus v.val
  | unsignedLongLong v => decimal.integer minus v.val
  | pointer v => 0x30 :: 0x78 :: hexadecimal.numeral v.toNat
  | double v => v.text

/-- Whether a converter writes the operand, and not `append`. -/
def isNumeric : Operand → Bool
  | bool _ | char _ | cstring _ | string _ | piece _ _ => false
  | _ => true

/-- Whether the operand goes into a buffer with so many free bytes. -/
def Fits (o : Operand) (avail : Int) : Prop :=
  if o.isNumeric = true then avail ≥ kMaxNumericSize else avail > o.text.length

instance (o : Operand) (avail : Int) : Decidable (o.Fits avail) :=
  inferInstanceAs (Decidable (if o.isNumeric = true then avail ≥ kMaxNumericSize else avail > o.text.length))

/-- What is written behind the text: the NUL of a converter. -/
def trailer (o : Operand) : List UInt8 := if o.isNumeric = true then [0] else []

/-- The reserve is enough for every number, with its NUL. -/
theorem length_text_lt {o : Operand} (h : o.isNumeric = true) : o.text.length < kMaxNumericSize := by
  have hint : ∀ {T : IntType} (v : T.Value), (decimal.integer minus v.val).length < kMaxNumericSize :=
    fun v => lt_of_le_of_lt (length_integer_le v) (by decide)
  cases o with
  | bool _ | char _ | cstring _ | string _ | piece _ _ => exact absurd h Bool.false_ne_true
  | pointer v =>
      have hhex := length_pointer_le v
      show (hexadecimal.numeral v.toNat).length + 1 + 1 < 32
      omega
  | double v => exact v.short
  | short v => exact hint v
  | unsignedShort v => exact hint v
  | int v => exact hint v
  | unsignedInt v => exact hint v
  | long v => exact hint v
  | unsignedLong v => exact hint v
  | longLong v => exact hint v
  | unsignedLongLong v => exact hint v

end Operand

namespace LogStream

variable {s : LogStream}

/-- The content of the stream. -/
def content (s : LogStream) : List UInt8 := s.buffer.asString

/-! ## One insertion -/

/-- The guard of the converters. -/
theorem reserve_iff (h : s.buffer.Wf) : s.buffer.avail ≥ kMaxNumericSize ↔ kMaxNumericSize ≤ s.buffer.room := by
  rw [h.avail_eq, ge_iff_le, Nat.cast_le]

theorem append_eq {data text : List UInt8} {len : Nat} (h : s.buffer.Wf) (hlen : len ≤ data.length)
    (htext : data.take len = text) :
    s.append data len = .ok (if text.length < s.buffer.room then ⟨s.buffer.written text []⟩ else s) := by
  have htext' : text.length = len := by rw [← htext, List.length_take, Nat.min_eq_left hlen]
  unfold append
  rw [FixedBuffer.append_eq h hlen, ok_bind, htext, htext']
  split <;> rfl

theorem formatInteger_eq {T : IntType} (h : s.buffer.Wf) (v : T.Value) :
    s.formatInteger v =
      .ok (if kMaxNumericSize ≤ s.buffer.room then ⟨s.buffer.written (decimal.integer minus v.val) [0]⟩ else s) := by
  have hlen := length_integer_le v
  unfold formatInteger
  simp only [reserve_iff h]
  split
  · next hroom =>
      have hfits : s.buffer.cur + (decimal.integer minus v.val).length < s.buffer.data.length := by
        unfold kMaxNumericSize FixedBuffer.room at hroom
        rw [h.size]
        omega
      rw [convert_eq v hfits]
      rfl
  · rfl

theorem formatPointer_eq (h : s.buffer.Wf) (v : UInt64) :
    s.formatPointer v =
      .ok (if kMaxNumericSize ≤ s.buffer.room then ⟨s.buffer.written (Operand.pointer v).text [0]⟩ else s) := by
  have hlen := length_pointer_le v
  unfold formatPointer
  simp only [reserve_iff h]
  split
  · next hroom =>
      have hsize : s.buffer.cur + 32 ≤ s.buffer.data.length := by
        unfold kMaxNumericSize FixedBuffer.room at hroom
        rw [h.size]
        omega
      -- the two characters of the prefix, and the digits behind them
      have hx : store (overwrite s.buffer.data s.buffer.cur [0x30]) (s.buffer.cur + 1) 0x78 =
          .ok (overwrite s.buffer.data s.buffer.cur [0x30, 0x78]) :=
        store_next (d := [0x30]) (by rw [List.length_singleton]; omega)
      have hfront : (overwrite s.buffer.data s.buffer.cur [0x30, 0x78]).length = s.buffer.data.length :=
        length_overwrite (le_trans (Nat.add_le_add_left (by decide) _) hsize)
      have hdigits : overwrite (overwrite s.buffer.data s.buffer.cur [0x30, 0x78]) (s.buffer.cur + 2)
            (hexadecimal.numeral v.toNat ++ [0]) =
          overwrite s.buffer.data s.buffer.cur ((Operand.pointer v).text ++ [0]) :=
        overwrite_append (d := [0x30, 0x78]) (le_trans (Nat.add_le_add_left (by decide) _) hsize)
      rw [store_ok (by omega), ok_bind, hx, ok_bind, convertHex_eq v (by rw [hfront]; omega), ok_bind]
      dsimp only
      rw [hdigits]
      rfl
  · rfl

theorem formatDouble_eq (h : s.buffer.Wf) (v : DoubleText) :
    s.formatDouble v = .ok (if kMaxNumericSize ≤ s.buffer.room then ⟨s.buffer.written v.text [0]⟩ else s) := by
  unfold formatDouble
  simp only [reserve_iff h]
  split
  · next hroom =>
      have hlen : (v.text ++ [0]).length = v.text.length + 1 := by simp
      rw [FixedBuffer.memcpy_eq h (le_of_eq hlen.symm) (le_trans v.short hroom), ok_bind, ← hlen, List.take_length]
      rfl
  · rfl

/-- A piece of negative length becomes a `size_t` that no buffer has room for. -/
theorem insert_piece {v : StringPiece} (h : s.buffer.Wf) (hv : v.Readable) :
    s.insert (.piece v hv) =
      .ok (if (Operand.piece v hv).text.length < s.buffer.room then
        ⟨s.buffer.written (Operand.piece v hv).text []⟩ else s) := by
  obtain ⟨hmin, hmax, hle⟩ := id hv
  by_cases hneg : v.length < 0
  · have hlen : s.buffer.room ≤ toSizeT v.length := by
      have hroom : s.buffer.room ≤ kSmallBuffer := Nat.sub_le _ _
      have hbig : kSmallBuffer ≤ toSizeT v.length := by
        unfold toSizeT
        exact le_trans (by decide : kSmallBuffer ≤ 2 ^ 63) (by omega)
      exact hroom.trans hbig
    have htext : (Operand.piece v hv).text = [] := by
      rw [Operand.text, Int.toNat_of_nonpos hneg.le, List.take_zero]
    have hskip : s.buffer.append v.ptr (toSizeT v.length) = .ok s.buffer :=
      FixedBuffer.append_skip h hlen
    rw [htext, List.length_nil, if_pos h.room_pos, FixedBuffer.written_nil]
    simp only [insert, append, hskip, ok_bind]
  · have hlen : toSizeT v.length = v.length.toNat := by
      rw [← Int.toNat_of_nonneg (not_lt.mp hneg), toSizeT_natCast (by omega), Int.toNat_natCast]
    exact append_eq h (by omega) (by rw [hlen]; rfl)

/-- The string operators are `append`. -/
theorem insert_string (h : s.buffer.Wf) {o : Operand} (ho : o.isNumeric = false) :
    s.insert o = .ok (if o.text.length < s.buffer.room then ⟨s.buffer.written o.text []⟩ else s) := by
  cases o with
  | bool v => exact append_eq h (le_refl 1) rfl
  | char v => exact append_eq h (le_refl 1) rfl
  | cstring v => exact append_eq h (le_refl _) List.take_length
  | string v => exact append_eq h (le_refl _) List.take_length
  | piece v hv => exact insert_piece h hv
  | _ => cases ho

/-- The others are converters. -/
theorem insert_numeric (h : s.buffer.Wf) {o : Operand} (ho : o.isNumeric = true) :
    s.insert o = .ok (if kMaxNumericSize ≤ s.buffer.room then ⟨s.buffer.written o.text [0]⟩ else s) := by
  cases o with
  | bool _ | char _ | cstring _ | string _ | piece _ _ => cases ho
  | pointer v => exact formatPointer_eq h v
  | double v => exact formatDouble_eq h v
  | _ => exact formatInteger_eq h _

/-- **One insertion**: the whole text is written, or the stream is left as it was. -/
theorem insert_eq (h : s.buffer.Wf) (o : Operand) :
    s.insert o = .ok (if o.Fits s.buffer.avail then ⟨s.buffer.written o.text o.trailer⟩ else s) := by
  unfold Operand.trailer
  by_cases ho : o.isNumeric = true
  · have hfits : o.Fits s.buffer.avail ↔ kMaxNumericSize ≤ s.buffer.room := by
      rw [Operand.Fits, if_pos ho, reserve_iff h]
    simp only [insert_numeric h ho, hfits, if_pos ho]
  · have hfits : o.Fits s.buffer.avail ↔ o.text.length < s.buffer.room := by
      rw [Operand.Fits, if_neg ho, h.avail_eq, gt_iff_lt, Nat.cast_lt]
    simp only [insert_string h (Bool.eq_false_iff.mpr ho), hfits, if_neg ho]

/-- Text that fits goes in with its trailer, and leaves at least a byte free. -/
theorem room_of_fits {o : Operand} (h : s.buffer.Wf) (hfits : o.Fits s.buffer.avail) :
    o.text.length < s.buffer.room ∧ (o.text ++ o.trailer).length ≤ s.buffer.room := by
  unfold Operand.Fits at hfits
  unfold Operand.trailer
  by_cases hnum : o.isNumeric = true
  · have hlen := Operand.length_text_lt hnum
    rw [if_pos hnum, reserve_iff h] at hfits
    rw [if_pos hnum, List.length_append, List.length_singleton]
    exact ⟨lt_of_lt_of_le hlen hfits, le_trans hlen hfits⟩
  · rw [if_neg hnum, h.avail_eq, gt_iff_lt, Nat.cast_lt] at hfits
    rw [if_neg hnum, List.append_nil]
    exact ⟨hfits, hfits.le⟩

/-- **The step**: what an insertion leaves, and that the stream stays well formed. -/
theorem insert_spec (h : s.buffer.Wf) (o : Operand) :
    ∃ s', s.insert o = .ok s' ∧ s'.buffer.Wf ∧
      if o.Fits s.buffer.avail then
        s'.content = s.content ++ o.text ∧ s'.buffer.avail = s.buffer.avail - o.text.length
      else s' = s := by
  refine ⟨_, insert_eq h o, ?_⟩
  by_cases hfits : o.Fits s.buffer.avail
  · obtain ⟨hroom, hroom'⟩ := room_of_fits h hfits
    have hwf := h.written hroom hroom'
    rw [if_pos hfits, if_pos hfits]
    refine ⟨hwf, h.asString_written hroom hroom', ?_⟩
    rw [hwf.avail_eq, FixedBuffer.room_written, h.avail_eq]
    omega
  · rw [if_neg hfits, if_neg hfits]
    exact ⟨h, rfl⟩

/-! ## Any number of insertions -/

/-- The operands that take effect, when so many bytes are free. -/
def taken (avail : Int) : List Operand → List Operand
  | [] => []
  | o :: os => if o.Fits avail then o :: taken (avail - o.text.length) os else taken avail os

theorem new_wf {data : List UInt8} (h : data.length = kSmallBuffer) : (new data).buffer.Wf where
  size := h
  cur_lt := (by decide : 0 < kSmallBuffer)
  small := by decide

theorem new_content {data : List UInt8} (h : data.length = kSmallBuffer) : (new data).content = [] :=
  (new_wf h).asString_eq

theorem new_avail {data : List UInt8} (h : data.length = kSmallBuffer) :
    (new data).buffer.avail = (kSmallBuffer : Int) :=
  (new_wf h).avail_eq

/-- **The run**: the content grows by the texts of the operands that fit. -/
theorem insertAll_spec (h : s.buffer.Wf) (os : List Operand) :
    ∃ s', s.insertAll os = .ok s' ∧ s'.buffer.Wf ∧
      s'.content = s.content ++ (taken s.buffer.avail os).flatMap Operand.text := by
  induction os generalizing s with
  | nil => exact ⟨s, rfl, h, (List.append_nil _).symm⟩
  | cons o os ih =>
      obtain ⟨s₁, hinsert, hwf, heff⟩ := insert_spec h o
      obtain ⟨s', hrest, hwf', hcontent⟩ := ih hwf
      refine ⟨s', by rw [insertAll, hinsert, ok_bind, hrest], hwf', ?_⟩
      rw [hcontent, taken]
      by_cases hfits : o.Fits s.buffer.avail
      · rw [if_pos hfits] at heff ⊢
        rw [heff.1, heff.2, List.flatMap_cons, List.append_assoc]
      · rw [if_neg hfits] at heff ⊢
        rw [heff]

/-- **Insertions are all or nothing, and stay in bounds.** After any insertions into a new stream, none of which leaves
    the array, its content is the concatenated texts of those that took effect, and is shorter than the array. The next
    insertion, whatever it is, takes effect exactly if it fits, and then adds its complete text; otherwise the stream
    stays as it is. -/
theorem insertions_correct {data : List UInt8} (hdata : data.length = kSmallBuffer) (os : List Operand) :
    ∃ s, (new data).insertAll os = .ok s ∧ s.buffer.data.length = kSmallBuffer ∧
      s.content = (taken kSmallBuffer os).flatMap Operand.text ∧ s.buffer.length = s.content.length ∧
      s.content.length < kSmallBuffer ∧ s.buffer.avail = (kSmallBuffer : Int) - s.content.length ∧
      ∀ o : Operand, ∃ s', s.insert o = .ok s' ∧
        if o.Fits s.buffer.avail then s'.content = s.content ++ o.text else s' = s := by
  obtain ⟨s, hrun, hwf, hcontent⟩ := insertAll_spec (new_wf hdata) os
  rw [new_content hdata, new_avail hdata, List.nil_append] at hcontent
  have hlen : s.content.length = s.buffer.cur := hwf.length_asString
  refine ⟨s, hrun, hwf.size, hcontent, ?_, ?_, ?_, ?_⟩
  · rw [hlen, hwf.length_eq]
  · rw [hlen]
    exact hwf.cur_lt
  · rw [hlen, hwf.avail_eq, FixedBuffer.room, Nat.cast_sub hwf.cur_lt.le]
  · intro o
    obtain ⟨s', hinsert, -, heff⟩ := insert_spec hwf o
    refine ⟨s', hinsert, ?_⟩
    split at heff
    · next hfits => exact (if_pos hfits).symm ▸ heff.1
    · next hfits => exact (if_neg hfits).symm ▸ heff

/-- A `bool`, the least `long` and a newline. -/
theorem insertions_correct_zeroed :
    ∃ s, (new (List.replicate 4000 0)).insertAll
        [.bool true, .long ⟨-2 ^ 63, by decide⟩, .char 0x0a] = .ok s ∧
      s.content = [0x31, 0x2d, 0x39, 0x32, 0x32, 0x33, 0x33, 0x37, 0x32, 0x30, 0x33, 0x36, 0x38, 0x35, 0x34, 0x37, 0x37,
        0x35, 0x38, 0x30, 0x38, 0x0a] := by
  obtain ⟨s, hrun, -, hcontent, -⟩ := insertions_correct
    (show (List.replicate 4000 (0 : UInt8)).length = kSmallBuffer from List.length_replicate)
    [.bool true, .long ⟨-2 ^ 63, by decide⟩, .char 0x0a]
  refine ⟨s, hrun, ?_⟩
  rw [hcontent]
  decide

end LogStream

end Muduo
