import Muduo.Net.Correctness.Buffer
import Muduo.Net.Http.HttpServer

/-!
# `Correctness.HttpParser` — what one iteration of `parseRequest` does

The buffer either holds no complete line, and the loop is left, or it starts with a `line` and its CRLF. What
happens to that line is said once for each state of the context: `parseIteration_requestLine` and
`parseIteration_refused` for the request line, `parseIteration_header` and `parseIteration_end` for the headers.
-/

namespace Muduo.Net

open Lib Buffer

variable {b : Buffer} {q line rest : List UInt8} {pre : Bool} {p : Parse} {t : Timestamp}
variable {req req' : HttpRequest} {ok : Bool}

/-! ## Lines in the buffer -/

/-- There is no complete line in `q`. -/
def NoLine (q : List UInt8) : Prop := search kCRLF q = q.length

/-- `q` starts with `line` and its end, and `rest` follows. -/
structure StartsWith (q line rest : List UInt8) : Prop where
  eq : q = line ++ kCRLF ++ rest
  first : FirstAt kCRLF line

theorem noLine_nil : NoLine [] := rfl

theorem noLine_or_startsWith (q : List UInt8) : NoLine q ∨ ∃ line rest, StartsWith q line rest := by
  by_cases h : NoLine q
  · exact Or.inl h
  · obtain ⟨line, rest, heq, hfirst⟩ := exists_firstAt h
    exact Or.inr ⟨line, rest, heq, hfirst⟩

/-- More bytes at the end do not change the first line. -/
theorem StartsWith.append (h : StartsWith q line rest) (d : List UInt8) : StartsWith (q ++ d) line (rest ++ d) :=
  ⟨by rw [h.eq, List.append_assoc], h.first⟩

theorem StartsWith.length_add_two_le (h : StartsWith q line rest) : rest.length + 2 ≤ q.length := by
  rw [h.eq, List.length_append, List.length_append]
  have : kCRLF.length = 2 := rfl
  omega

theorem StartsWith.length_lt (h : StartsWith q line rest) : rest.length < q.length :=
  lt_of_lt_of_le (Nat.lt_add_of_pos_right Nat.two_pos) h.length_add_two_le

/-- A list starts with one line only. -/
theorem StartsWith.unique {line' rest' : List UInt8} (h : StartsWith q line rest) (h' : StartsWith q line' rest') :
    line = line' ∧ rest = rest' := by
  have hlen : line.length = line'.length := by
    rw [← h.first.search_append rest, ← h.eq, h'.eq, h'.first.search_append rest']
  have heq : line ++ (kCRLF ++ rest) = line' ++ (kCRLF ++ rest') := by
    rw [← List.append_assoc, ← h.eq, h'.eq, List.append_assoc]
  obtain ⟨hline, hrest⟩ := List.append_inj heq hlen
  exact ⟨hline, List.append_cancel_left hrest⟩

theorem StartsWith.not_noLine (h : StartsWith q line rest) : ¬ NoLine q := by
  intro hq
  unfold NoLine at hq
  have := h.length_add_two_le
  have hsearch : search kCRLF q = line.length := by rw [h.eq, h.first.search_append rest]
  have hlen : q.length = line.length + 2 + rest.length := by
    rw [h.eq, List.length_append, List.length_append]
    rfl
  omega

theorem findCRLF_none (h : b.Rep q pre) (hq : NoLine q) : b.findCRLF = none := by
  have hlen := h.length_eq
  have hreader := h.reader_le
  unfold findCRLF
  dsimp only
  rw [h.content, hq, if_pos (by omega)]

theorem findCRLF_line (h : b.Rep q pre) (hq : StartsWith q line rest) :
    b.findCRLF = some (b.readerIndex + line.length) ∧
    window b.buffer b.readerIndex (b.readerIndex + line.length) = line ∧
    ∃ b', b.retrieveUntil (b.readerIndex + line.length + 2) = .ok b' ∧ b'.Rep rest pre := by
  have hlen := h.length_eq
  have hreader := h.reader_le
  have hqlen : q.length = line.length + 2 + rest.length := by
    rw [hq.eq, List.length_append, List.length_append]
    rfl
  refine ⟨?_, ?_, ?_⟩
  · unfold findCRLF
    dsimp only
    rw [h.content, hq.eq, hq.first.search_append, if_neg (by omega)]
  · have htake : q.take line.length = line := by rw [hq.eq, List.append_assoc, List.take_left]
    rw [← take_window (j := b.writerIndex) (by omega)]
    show b.readable.take line.length = line
    rw [h.content, htake]
  · have hdrop : q.drop (line.length + 2) = rest := by
      rw [hq.eq]
      exact List.drop_left' (by rw [List.length_append]; rfl)
    obtain ⟨b', hb', hrep⟩ := retrieveUntil_rep h (k := line.length + 2) (by omega)
    rw [hdrop] at hrep
    exact ⟨b', hb', hrep⟩

/-! ## One iteration -/

/-- Without a complete line the loop is left. -/
theorem parseIteration_wait (h : p.buf.Rep q pre) (hq : NoLine q)
    (hstate : p.context.state = .kExpectRequestLine ∨ p.context.state = .kExpectHeaders) :
    parseIteration t p = .ok (.leave p) := by
  unfold parseIteration HttpContext.expectRequestLine HttpContext.expectHeaders
  rcases hstate with hs | hs
  · rw [hs, if_pos (by decide)]
    unfold parseRequestLine
    rw [findCRLF_none h hq]
    rfl
  · rw [hs, if_neg (by decide), if_pos (by decide)]
    unfold parseHeader
    rw [findCRLF_none h hq]
    rfl

/-- A request line that is accepted. -/
theorem parseIteration_requestLine (t : Timestamp) (ok : Bool) (h : b.Rep q pre) (hq : StartsWith q line rest)
    (hline : processRequestLine line req = .ok (true, req')) : ∃ b', b'.Rep rest pre ∧
      parseIteration t ⟨b, ⟨.kExpectRequestLine, req⟩, ok⟩ =
        .ok (.again ⟨b', ⟨.kExpectHeaders, req'.setReceiveTime t⟩, true⟩) := by
  obtain ⟨hfind, hwindow, b', hb', hrep⟩ := findCRLF_line h hq
  refine ⟨b', hrep, ?_⟩
  show parseRequestLine t _ = _
  unfold parseRequestLine
  dsimp only
  rw [hfind]
  dsimp only
  rw [hwindow, hline]
  dsimp only [ok_bind]
  rw [if_pos rfl, hb']
  rfl

/-- A request line that is refused stays in the buffer. -/
theorem parseIteration_refused (h : b.Rep q pre) (hq : StartsWith q line rest)
    (hline : processRequestLine line req = .ok (false, req')) :
    parseIteration t ⟨b, ⟨.kExpectRequestLine, req⟩, ok⟩ =
      .ok (.leave ⟨b, ⟨.kExpectRequestLine, req'⟩, false⟩) := by
  obtain ⟨hfind, hwindow, -⟩ := findCRLF_line h hq
  show parseRequestLine t _ = _
  unfold parseRequestLine
  dsimp only
  rw [hfind]
  dsimp only
  rw [hwindow, hline]
  rfl

/-- A fault in the request line. -/
theorem parseIteration_fault (h : b.Rep q pre) (hq : StartsWith q line rest) {e : Fault}
    (hline : processRequestLine line req = .error e) :
    parseIteration t ⟨b, ⟨.kExpectRequestLine, req⟩, ok⟩ = .error e := by
  obtain ⟨hfind, hwindow, -⟩ := findCRLF_line h hq
  show parseRequestLine t _ = _
  unfold parseRequestLine
  dsimp only
  rw [hfind]
  dsimp only
  rw [hwindow, hline]
  rfl

/-- `addHeader`, on a line that has a colon. -/
def HttpRequest.addLine (req : HttpRequest) (line : List UInt8) : HttpRequest :=
  req.addHeader line (line.idxOf 0x3a)

/-- A header. -/
theorem parseIteration_header (t : Timestamp) (req : HttpRequest) (ok : Bool) (h : b.Rep q pre)
    (hq : StartsWith q line rest) (hcolon : 0x3a ∈ line) :
    ∃ b', b'.Rep rest pre ∧ parseIteration t ⟨b, ⟨.kExpectHeaders, req⟩, ok⟩ =
      .ok (.again ⟨b', ⟨.kExpectHeaders, req.addLine line⟩, ok⟩) := by
  obtain ⟨hfind, hwindow, b', hb', hrep⟩ := findCRLF_line h hq
  have hne : line.idxOf 0x3a ≠ line.length := Nat.ne_of_lt (List.idxOf_lt_length_of_mem hcolon)
  refine ⟨b', hrep, ?_⟩
  show parseHeader _ = _
  unfold parseHeader
  dsimp only
  rw [hfind]
  dsimp only
  rw [hwindow, if_pos hne, hb']
  rfl

/-- A line without a colon ends the headers. -/
theorem parseIteration_end (t : Timestamp) (req : HttpRequest) (ok : Bool) (h : b.Rep q pre)
    (hq : StartsWith q line rest) (hcolon : 0x3a ∉ line) :
    ∃ b', b'.Rep rest pre ∧ parseIteration t ⟨b, ⟨.kExpectHeaders, req⟩, ok⟩ =
      .ok (.leave ⟨b', ⟨.kGotAll, req⟩, ok⟩) := by
  obtain ⟨hfind, hwindow, b', hb', hrep⟩ := findCRLF_line h hq
  refine ⟨b', hrep, ?_⟩
  show parseHeader _ = _
  unfold parseHeader
  dsimp only
  rw [hfind]
  dsimp only
  rw [hwindow, if_neg (not_not.mpr (List.idxOf_eq_length hcolon)), hb']
  rfl

/-! ## The request line -/

theorem processRequestLine_noSpace (h : 0x20 ∉ line) : processRequestLine line req = .ok (false, req) := by
  unfold processRequestLine
  dsimp only
  rw [if_pos (List.idxOf_eq_length h)]

/-- `setMethod` is reached with a method already set, and its assertion fails. -/
theorem processRequestLine_again (h : 0x20 ∈ line) (hmethod : req.method ≠ .kInvalid) :
    processRequestLine line req = .error .assertion := by
  unfold processRequestLine HttpRequest.setMethod
  dsimp only
  rw [if_neg (Nat.ne_of_lt (List.idxOf_lt_length_of_mem h)), assert_neg hmethod]
  rfl

/-- With no method set, a line is accepted or refused. -/
theorem processRequestLine_ok (line : List UInt8) (hmethod : req.method = .kInvalid) :
    ∃ ok req', processRequestLine line req = .ok (ok, req') := by
  unfold processRequestLine HttpRequest.setMethod
  dsimp only
  split
  · exact ⟨false, req, rfl⟩
  · rw [assert_pos hmethod]
    dsimp only [ok_bind]
    split
    · split
      · exact ⟨_, _, rfl⟩
      · exact ⟨_, _, rfl⟩
    · exact ⟨_, _, rfl⟩

end Muduo.Net
