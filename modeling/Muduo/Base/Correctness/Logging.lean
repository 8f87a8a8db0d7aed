import Muduo.Base.Correctness.LogStream
import Muduo.Base.Logging

/-!
# `Base.Correctness.Logging` — when a log record ends with a newline

The trailer ` - <file>:<line>` and the newline are inserted like everything before them, so a piece of it that does not
fit is left out, and a shorter one behind it may still go in. The newline needs two free bytes after the colon was
offered, which comes down to the bytes that are free behind the dash and the file name (`Terminates`).
-/

namespace Muduo

open Lib Detail

namespace LogStream

variable {s s' : LogStream}

/-! ## Insertions keep the stream well formed -/

theorem insert_wf {o : Operand} (hs : s.buffer.Wf) (h : s.insert o = .ok s') : s'.buffer.Wf := by
  obtain ⟨_, h', hwf, -⟩ := insert_spec hs o
  cases h.symm.trans h'
  exact hwf

theorem insertAll_wf {os : List Operand} (hs : s.buffer.Wf) (h : s.insertAll os = .ok s') : s'.buffer.Wf := by
  obtain ⟨_, h', hwf, -⟩ := insertAll_spec hs os
  cases h.symm.trans h'
  exact hwf

/-- A string of known length is a piece. -/
theorem readable_of_length {str : List UInt8} {len : Nat} (h : str.length = len) (hlen : len < 2 ^ 31) :
    StringPiece.Readable ⟨str, len⟩ := by
  unfold StringPiece.Readable
  dsimp only
  omega

theorem insertT_eq {str : List UInt8} {len : Nat} (h : str.length = len) (hlen : len < 2 ^ 31) :
    s.insertT str len = s.insert (.piece ⟨str, len⟩ (readable_of_length h hlen)) := by
  unfold insertT
  rw [assert_pos h, ok_bind, insert, toSizeT_natCast (lt_trans hlen (by decide))]

theorem insertT_wf {str : List UInt8} {len : Nat} (hlen : len < 2 ^ 31) (hs : s.buffer.Wf)
    (h : s.insertT str len = .ok s') : s'.buffer.Wf := by
  obtain ⟨_, hassert, -⟩ := bind_eq_ok.mp h
  rw [insertT_eq (of_assert hassert) hlen] at h
  exact insert_wf hs h

/-- A string of known length that fits. -/
theorem insertT_fits {str : List UInt8} {len : Nat} (hs : s.buffer.Wf) (h : str.length = len)
    (hfits : (len : Int) < s.buffer.avail) :
    ∃ s', s.insertT str len = .ok s' ∧ s'.buffer.Wf ∧ s'.content = s.content ++ str ∧
      s'.buffer.avail = s.buffer.avail - len := by
  have hlen : len < 2 ^ 31 := by
    have hsmall := hs.small
    rw [hs.avail_eq, Nat.cast_lt] at hfits
    exact lt_trans hfits (lt_of_le_of_lt (Nat.sub_le _ _) hsmall)
  have htext : (Operand.piece ⟨str, len⟩ (readable_of_length h hlen)).text = str := by
    rw [Operand.text, Int.toNat_natCast, ← h, List.take_length]
  obtain ⟨s', hinsert, hwf, heff⟩ := insert_spec hs (.piece ⟨str, len⟩ (readable_of_length h hlen))
  rw [if_pos (by unfold Operand.Fits; rw [htext, h]; exact hfits), htext, h] at heff
  exact ⟨s', by rw [insertT_eq h hlen, hinsert], hwf, heff⟩

theorem insertFile_eq (file : SourceFile) :
    s.insertFile file = s.insert (.piece ⟨file.data, file.size⟩ file.readable) :=
  rfl

/-! ## One list of insertions after another -/

/-- The bytes that the operands which take effect amount to. -/
def takenText (avail : Int) (os : List Operand) : List UInt8 := (taken avail os).flatMap Operand.text

theorem takenText_cons (avail : Int) (o : Operand) (os : List Operand) :
    takenText avail (o :: os) =
      if o.Fits avail then o.text ++ takenText (avail - o.text.length) os else takenText avail os := by
  unfold takenText
  rw [taken]
  split <;> rfl

theorem takenText_append (avail : Int) (os os' : List Operand) :
    takenText avail (os ++ os') = takenText avail os ++ takenText (avail - (takenText avail os).length) os' := by
  induction os generalizing avail with
  | nil =>
      show takenText avail os' = takenText (avail - 0) os'
      rw [Int.sub_zero]
  | cons o os ih =>
      rw [List.cons_append, takenText_cons, takenText_cons]
      split
      · rw [ih, List.append_assoc, List.length_append, Nat.cast_add, Int.sub_sub]
      · exact ih avail

/-- What goes in takes its room. -/
theorem insertAll_avail (hs : s.buffer.Wf) (os : List Operand) : ∃ s', s.insertAll os = .ok s' ∧ s'.buffer.Wf ∧
    s'.buffer.avail = s.buffer.avail - (takenText s.buffer.avail os).length := by
  obtain ⟨s', hins, hwf, hcontent⟩ := insertAll_spec hs os
  have hlen : s'.buffer.cur = s.buffer.cur + (takenText s.buffer.avail os).length := by
    have h := congrArg List.length hcontent
    rwa [List.length_append, content, content, hs.length_asString, hwf.length_asString] at h
  have hcur := hs.cur_lt
  have hcur' := hwf.cur_lt
  refine ⟨s', hins, hwf, ?_⟩
  generalize (takenText s.buffer.avail os).length = n at hlen
  rw [hs.avail_eq, hwf.avail_eq, FixedBuffer.room, FixedBuffer.room]
  omega

/-- What is left free is never nothing. -/
theorem avail_takenText (hs : s.buffer.Wf) (os : List Operand) :
    1 ≤ s.buffer.avail - (takenText s.buffer.avail os).length := by
  obtain ⟨s', -, hwf, havail⟩ := insertAll_avail hs os
  have hcur := hwf.cur_lt
  rw [← havail, hwf.avail_eq, FixedBuffer.room]
  omega

end LogStream

namespace Logger

open LogStream

variable {env : LogEnv} {l : Logger}

/-! ## Construction -/

theorem formatTime_wf {stream : LogStream} {r : TimeCache × LogStream} (hs : stream.buffer.Wf)
    (h : formatTime env stream = .ok r) : r.2.buffer.Wf := by
  unfold formatTime at h
  obtain ⟨cache, _, h⟩ := bind_eq_ok.mp h
  obtain ⟨_, _, h⟩ := bind_eq_ok.mp h
  obtain ⟨_, _, h⟩ := bind_eq_ok.mp h
  obtain ⟨s₁, hs₁, h⟩ := bind_eq_ok.mp h
  obtain ⟨s₂, hs₂, h⟩ := bind_eq_ok.mp h
  cases h
  exact insertT_wf (by decide) (insertT_wf (by decide) hs hs₁) hs₂

theorem impl_wf {level : LogLevel} {savedErrno line : IntType.int.Value} {file : SourceFile} {r : TimeCache × Logger}
    (h : impl env level savedErrno file line = .ok r) : r.2.stream.buffer.Wf := by
  unfold impl at h
  obtain ⟨⟨cache, s₁⟩, hs₁, h⟩ := bind_eq_ok.mp h
  obtain ⟨s₂, hs₂, h⟩ := bind_eq_ok.mp h
  obtain ⟨s₃, hs₃, h⟩ := bind_eq_ok.mp h
  obtain ⟨s₄, hs₄, h⟩ := bind_eq_ok.mp h
  cases h
  have hwf := insertT_wf (by decide)
    (insertT_wf (by decide) (formatTime_wf (new_wf env.storage_length) hs₁) hs₂) hs₃
  unfold insertErrno at hs₄
  split at hs₄
  · exact insertAll_wf hwf hs₄
  · cases hs₄
    exact hwf

theorem Made.wf (h : Made env l) : l.stream.buffer.Wf := by
  cases h with
  | new h => exact impl_wf h
  | newAt h => exact impl_wf h
  | newIn h =>
      obtain ⟨⟨_, l₁⟩, hl₁, h⟩ := bind_eq_ok.mp h
      obtain ⟨s, hs, h⟩ := bind_eq_ok.mp h
      cases h
      exact insertAll_wf (impl_wf hl₁) hs
  | newSys h => exact impl_wf h

/-! ## Destruction -/

/-- The dash and the file name. -/
def trailerFront (file : SourceFile) : List Operand :=
  [.cstring dash, .piece ⟨file.data, file.size⟩ file.readable]

/-- The colon, the line number and the newline. -/
def trailerBack (line : IntType.int.Value) : List Operand := [.char 0x3a, .int line, .char 0x0a]

theorem finish_eq (l : Logger) : l.finish = l.stream.insertAll (trailerFront l.basename ++ trailerBack l.line) := by
  simp only [finish, insertFile_eq, trailerFront, trailerBack, List.cons_append, List.nil_append, LogStream.insertAll,
    bind_ok]

/-- **What the destructor outputs**: the content, and the pieces of the trailer that fit. -/
theorem dtor_eq (h : l.stream.buffer.Wf) :
    l.dtor = .ok (l.stream.content ++
      takenText l.stream.buffer.avail (trailerFront l.basename ++ trailerBack l.line), l.level = .fatal) := by
  obtain ⟨s, hs, -, hcontent⟩ := insertAll_spec h (trailerFront l.basename ++ trailerBack l.line)
  unfold dtor
  rw [finish_eq, hs, ok_bind]
  show (Except.ok (s.content, _) : Outcome (List UInt8 × Bool)) = _
  rw [hcontent]
  rfl

/-- With three bytes free, the newline is the last thing to go in: if the line number does not fit, it takes none of
    them. -/
theorem takenText_back_of_ge {avail : Int} (h : 3 ≤ avail) (line : IntType.int.Value) :
    ∃ front, takenText avail (trailerBack line) = front ++ [0x0a] := by
  have hlen := length_integer_le line
  have hcolon : (Operand.char 0x3a).Fits avail := by
    show avail > 1
    omega
  have hnewline : ∀ {a : Int}, 2 ≤ a → takenText a [.char 0x0a] = [0x0a] := by
    intro a ha
    have hfits : (Operand.char 0x0a).Fits a := by
      show a > 1
      omega
    rw [takenText_cons, if_pos hfits]
    rfl
  rw [trailerBack, takenText_cons, if_pos hcolon, takenText_cons]
  show ∃ front, [0x3a] ++ (if (Operand.int line).Fits (avail - 1)
    then (Operand.int line).text ++ takenText (avail - 1 - (Operand.int line).text.length) [.char 0x0a]
    else takenText (avail - 1) [.char 0x0a]) = front ++ [0x0a]
  by_cases hline : (Operand.int line).Fits (avail - 1)
  · have hroom : avail - 1 ≥ 32 := hline
    have htext : (Operand.int line).text.length ≤ 20 := hlen
    rw [if_pos hline, hnewline (by omega)]
    exact ⟨_, (List.append_assoc _ _ _).symm⟩
  · rw [if_neg hline, hnewline (by omega)]
    exact ⟨_, rfl⟩

/-- With two, it is the colon. -/
theorem takenText_back_two (line : IntType.int.Value) : takenText 2 (trailerBack line) = [0x3a] := rfl

/-- With one, nothing. -/
theorem takenText_back_one (line : IntType.int.Value) : takenText 1 (trailerBack line) = [] := rfl

/-- Of the dash and the file name those that fit go in. Behind them at least three bytes are free; or just one is, and
    a newline is the last byte before it. -/
def Terminates (s : LogStream) (file : SourceFile) : Prop :=
  3 ≤ s.buffer.avail - (takenText s.buffer.avail (trailerFront file)).length ∨
    s.buffer.avail - (takenText s.buffer.avail (trailerFront file)).length = 1 ∧
      (s.content ++ takenText s.buffer.avail (trailerFront file)).getLast? = some 0x0a

instance (s : LogStream) (file : SourceFile) : Decidable (Terminates s file) :=
  inferInstanceAs (Decidable (_ ∨ _))

/-- **The destructor**: its output ends with a newline exactly if there is room for that, or one is there already. -/
theorem dtor_terminated_iff (h : l.stream.buffer.Wf) :
    (l.stream.content ++ takenText l.stream.buffer.avail (trailerFront l.basename ++ trailerBack l.line)).getLast? =
      some 0x0a ↔ Terminates l.stream l.basename := by
  have hfree := avail_takenText h (trailerFront l.basename)
  unfold Terminates
  rw [takenText_append, ← List.append_assoc]
  generalize hfront : l.stream.content ++ takenText l.stream.buffer.avail (trailerFront l.basename) = front
  generalize l.stream.buffer.avail - ((takenText l.stream.buffer.avail (trailerFront l.basename)).length : Int) = free
    at hfree
  rcases Int.lt_trichotomy free 2 with hlt | rfl | hgt
  · obtain rfl : free = 1 := by omega
    rw [takenText_back_one, List.append_nil]
    simp
  · rw [takenText_back_two]
    simp
  · obtain ⟨back, hback⟩ := takenText_back_of_ge (show 3 ≤ free by omega) l.line
    rw [hback, ← List.append_assoc]
    simp
    omega

/-- **When a record ends with a newline.** Whatever is inserted between construction and destruction, the record is
    output, and it ends with a newline exactly if the trailer's beginning leaves room for one. -/
theorem record_terminated_iff (hl : Made env l) (os : List Operand) :
    ∃ l' out, l.insertAll os = .ok l' ∧ l'.dtor = .ok (out, l.level = .fatal) ∧
      (out.getLast? = some 0x0a ↔ Terminates l'.stream l.basename) := by
  obtain ⟨s, hs, hwf, -⟩ := insertAll_spec hl.wf os
  have hins : l.insertAll os = .ok { l with stream := s } := by
    unfold Logger.insertAll
    rw [hs, ok_bind]
  exact ⟨{ l with stream := s }, _, hins, dtor_eq hwf, dtor_terminated_iff (l := { l with stream := s }) hwf⟩

/-! ## A record that is one byte short of the buffer -/

/-- `19700101 00:00:01`. -/
def firstSecond : List UInt8 :=
  [0x31, 0x39, 0x37, 0x30, 0x30, 0x31, 0x30, 0x31, 0x20, 0x30, 0x30, 0x3a, 0x30, 0x30, 0x3a, 0x30, 0x31]

/-- The first record of a thread, one second after the Epoch. -/
def firstRecord : LogEnv where
  storage := List.replicate 4000 0
  storage_length := List.length_replicate
  now := 1000000
  gmtime _ := ⟨1, 0, 0, 1, 0, 70⟩
  cache := ⟨0, []⟩
  tid := 1234
  errno := noErrno
  strerror _ := errnoClose

/-- `a.cc`. -/
def sourceFile : SourceFile := .ofFilename ⟨⟨[0x61, 0x2e, 0x63, 0x63], by decide⟩, by decide⟩

/-- The header has 38 bytes. -/
theorem exists_firstRecord : ∃ l, Made firstRecord l ∧ l.level = .info ∧ l.basename = sourceFile ∧
    l.stream.content.length = 38 ∧ l.stream.buffer.avail = 3962 := by
  have hwf := new_wf firstRecord.storage_length
  have havail : (LogStream.new firstRecord.storage).buffer.avail = 4000 := new_avail firstRecord.storage_length
  obtain ⟨s₁, h₁, hwf₁, hc₁, ha₁⟩ := insertT_fits hwf (show firstSecond.length = 17 from rfl) (by rw [havail]; decide)
  rw [havail] at ha₁
  obtain ⟨s₂, h₂, hwf₂, hc₂, ha₂⟩ := insertT_fits hwf₁
    (show ([0x2e] ++ zeroPadded 6 0 ++ [0x5a, 0x20]).length = 9 from by decide) (by rw [ha₁]; decide)
  rw [ha₁] at ha₂
  obtain ⟨s₃, h₃, hwf₃, hc₃, ha₃⟩ := insertT_fits hwf₂ (show (tidString 1234).length = 6 from by decide)
    (by rw [ha₂]; decide)
  rw [ha₂] at ha₃
  obtain ⟨s₄, h₄, hwf₄, hc₄, ha₄⟩ := insertT_fits hwf₃ (show LogLevel.info.name.length = 6 from rfl)
    (by rw [ha₃]; decide)
  rw [ha₃] at ha₄
  have htime : formatTime firstRecord (LogStream.new firstRecord.storage) = .ok (⟨1, firstSecond⟩, s₂) := by
    have hrefresh : refresh firstRecord 1 = .ok ⟨1, firstSecond⟩ := by
      have hformat : (firstRecord.gmtime 1).format = firstSecond := by decide
      unfold refresh
      rw [if_pos (by decide), hformat]
      rfl
    have hus : [0x2e] ++ zeroPadded 6 (toInt32 (firstRecord.now.tmod 1000000)) ++ [0x5a, 0x20] =
        [0x2e] ++ zeroPadded 6 0 ++ [0x5a, 0x20] := by decide
    have hseconds : firstRecord.now.tdiv 1000000 = 1 := by decide
    unfold formatTime
    dsimp only
    rw [hseconds, hrefresh, ok_bind, hus, assert_pos (by decide), ok_bind, assert_pos (by decide), ok_bind, h₁, ok_bind,
      h₂]
    rfl
  have hnew : new firstRecord sourceFile noErrno = .ok (⟨1, firstSecond⟩, ⟨s₄, .info, noErrno, sourceFile⟩) := by
    unfold new impl
    rw [htime, ok_bind]
    dsimp only
    rw [show tidString firstRecord.tid = tidString 1234 from rfl, h₃, ok_bind, h₄, ok_bind]
    rfl
  refine ⟨⟨s₄, .info, noErrno, sourceFile⟩, .new hnew, rfl, rfl, ?_, ha₄⟩
  rw [hc₄, hc₃, hc₂, hc₁, new_content firstRecord.storage_length]
  decide

/-- A text of 3930 bytes and a character go in, a pointer does not. Of the trailer all but the line number is output,
    and the newline is the last byte of it. -/
theorem record_terminated_crowded : ∃ l os l' out, Made firstRecord l ∧ os.length = 3 ∧ l.insertAll os = .ok l' ∧
    l'.stream.buffer.avail = 31 ∧ l'.dtor = .ok (out, false) ∧ out.getLast? = some 0x0a := by
  obtain ⟨l, hmade, hlevel, hfile, -, havail⟩ := exists_firstRecord
  let text : Operand := .string ⟨List.replicate 3930 0x78, by rw [List.length_replicate]; decide⟩
  have htext : text.text.length = 3930 := List.length_replicate
  obtain ⟨s, hs, -, hfree⟩ := insertAll_avail hmade.wf [text, .char 0x79, .pointer 0]
  have htaken : (takenText 3962 [text, .char 0x79, .pointer 0]).length = 3931 := by
    have hfits : text.Fits 3962 := by
      show 3962 > (text.text.length : Int)
      rw [htext]
      decide
    rw [takenText_cons, if_pos hfits, List.length_append, htext]
    rfl
  rw [havail, htaken] at hfree
  obtain ⟨l', out, hins, hdtor, hiff⟩ := record_terminated_iff hmade [text, .char 0x79, .pointer 0]
  have hstream : l.insertAll [text, .char 0x79, .pointer 0] = .ok { l with stream := s } := by
    unfold Logger.insertAll
    rw [hs, ok_bind]
  obtain rfl := Except.ok.inj (hstream.symm.trans hins)
  refine ⟨l, _, _, out, hmade, rfl, hins, hfree, by rw [hdtor, hlevel]; rfl, hiff.mpr (.inl ?_)⟩
  show 3 ≤ s.buffer.avail - _
  rw [hfree, hfile]
  decide

/-- **Such a record does not end with a newline.** A text of 3961 bytes fits, and one byte is left; the whole trailer is
    dropped. -/
theorem record_unterminated :
    ¬ ∀ env l, Made env l → ∀ os l' out aborts, l.insertAll os = .ok l' → l'.dtor = .ok (out, aborts) →
      out.getLast? = some 0x0a := by
  intro hall
  obtain ⟨l, hmade, -, hfile, hlen, havail⟩ := exists_firstRecord
  let text : Operand := .string ⟨List.replicate 3961 0x78, by rw [List.length_replicate]; decide⟩
  have htext : text.text.length = 3961 := List.length_replicate
  have hfits : text.Fits l.stream.buffer.avail := by
    show l.stream.buffer.avail > text.text.length
    rw [htext, havail]
    decide
  obtain ⟨s, hinsert, hwf, heff⟩ := insert_spec hmade.wf text
  rw [if_pos hfits, htext, havail] at heff
  have hins : l.insertAll [text] = .ok { l with stream := s } := by
    unfold Logger.insertAll LogStream.insertAll
    rw [hinsert]
    rfl
  have hlast := hall _ l hmade [text] _ _ _ hins (dtor_eq hwf)
  rw [dtor_terminated_iff (l := { l with stream := s }) hwf] at hlast
  have hfront : takenText s.buffer.avail (trailerFront l.basename) = [] := by
    rw [heff.2, hfile]
    decide
  have hx : s.content.getLast? = some 0x78 := by
    have htext' : text.text.getLast? = some 0x78 := by
      show (List.replicate 3961 0x78).getLast? = _
      rw [List.getLast?_replicate, if_neg (by decide)]
    rw [heff.1, List.getLast?_append, htext', Option.some_or]
  unfold Terminates at hlast
  dsimp only at hlast
  rw [hfront, heff.2, List.append_nil, hx] at hlast
  revert hlast
  decide

end Logger

end Muduo
