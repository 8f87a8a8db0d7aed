import Muduo.Net.Correctness.HttpConsumer
import Muduo.Net.Correctness.HttpStream

/-!
# `Correctness.HttpHeaders` — the header block

The header block of a request ends at the first line that has no colon (`HeaderEnd`), whatever else that line
holds. This is the empty line of a well-formed block, and headers that are rendered with any padding are read
back from it; but a line of another kind ends the block as well, and what follows it is taken for the next
request. `parseRequest_ends_at_empty_iff` says for which inputs that cannot happen.
-/

namespace Muduo.Net

open Lib Buffer RequestText

variable {s q l l' rest rest' : List UInt8} {ls ls' : List (List UInt8)} {req : HttpRequest} {b : Buffer} {pre : Bool}
variable {c : HttpContext} {t : Timestamp} {fuel : Nat}

/-! ## Where the block ends -/

/-- A line is found as such exactly if there is no line end in it. -/
theorem firstAt_kCRLF_iff : FirstAt kCRLF l ↔ ¬ kCRLF <:+: l := firstAt_pair_iff (by decide)

/-- `s` consists of the header lines `ls`, a line `l` without a colon, and `rest`. -/
structure HeaderEnd (s : List UInt8) (ls : List (List UInt8)) (l rest : List UInt8) : Prop where
  eq : s = render ls ++ (l ++ kCRLF ++ rest)
  header : ∀ h ∈ ls, 0x3a ∈ h ∧ ¬ kCRLF <:+: h
  line : ¬ kCRLF <:+: l
  noColon : 0x3a ∉ l

/-- Header lines are read one by one. -/
theorem run_headers (req : HttpRequest) (hls : ∀ h ∈ ls, 0x3a ∈ h ∧ ¬ kCRLF <:+: h) (q : List UInt8) :
    parser.run (.headers req) (render ls ++ q) = parser.run (.headers (ls.foldl HttpRequest.addLine req)) q := by
  induction ls generalizing req with
  | nil => rfl
  | cons h ls ih =>
      obtain ⟨hcolon, hline⟩ := hls h List.mem_cons_self
      have hq : StartsWith (h ++ kCRLF ++ (render ls ++ q)) h (render ls ++ q) := ⟨rfl, firstAt_kCRLF_iff.mpr hline⟩
      have hturn : parser.turn (.headers req) (h ++ kCRLF ++ (render ls ++ q)) =
          .more (.headers (req.addLine h)) (render ls ++ q) := by
        show parserTurn _ _ = _
        rw [parserTurn_line hq, Reading.onLine, if_pos hcolon]
        rfl
      rw [render_cons, List.append_assoc (h ++ kCRLF), Consumer.run_more hturn, List.foldl_cons]
      exact ih _ fun h' hmem => hls h' (List.mem_cons_of_mem _ hmem)

/-- **The end of the block**: the parser stops behind it. -/
theorem HeaderEnd.run (h : HeaderEnd s ls l rest) (req : HttpRequest) :
    parser.run (.headers req) s = (.halted (.complete (ls.foldl HttpRequest.addLine req)), rest) := by
  have hq : StartsWith (l ++ kCRLF ++ rest) l rest := ⟨rfl, firstAt_kCRLF_iff.mpr h.line⟩
  rw [h.eq, run_headers req h.header]
  refine Consumer.run_halt ?_
  show parserTurn _ _ = _
  rw [parserTurn_line hq, Reading.onLine, if_neg h.noColon]
  rfl

/-- Either the block ends in `s`, or the parser waits for its end. -/
theorem headerEnd_or_pending (s : List UInt8) (req : HttpRequest) : (∃ ls l rest, HeaderEnd s ls l rest) ∨
    ∃ req' q, parser.run (.headers req) s = (.pending (.headers req'), q) := by
  induction hn : s.length using Nat.strong_induction_on generalizing s req with
  | _ n ih =>
      rcases noLine_or_startsWith s with hs | ⟨line, rest, hs⟩
      · exact Or.inr ⟨req, s, Consumer.run_wait (parserTurn_wait hs)⟩
      · have hline := firstAt_kCRLF_iff.mp hs.first
        by_cases hcolon : 0x3a ∈ line
        · have hlt := hs.length_lt
          rw [hn] at hlt
          rcases ih rest.length hlt rest (req.addLine line) rfl with ⟨ls, l, rest', h⟩ | ⟨req', q, hrun⟩
          · refine Or.inl ⟨line :: ls, l, rest', ?_, ?_, h.line, h.noColon⟩
            · rw [render_cons, List.append_assoc, ← h.eq]
              exact hs.eq
            · intro h' hmem
              rcases List.mem_cons.mp hmem with rfl | hmem
              · exact ⟨hcolon, hline⟩
              · exact h.header h' hmem
          · refine Or.inr ⟨req', q, ?_⟩
            have hheaders : ∀ h ∈ [line], 0x3a ∈ h ∧ ¬ kCRLF <:+: h := by simpa using ⟨hcolon, hline⟩
            have hone := run_headers req hheaders rest
            rw [render_cons, render_nil, List.append_nil, ← hs.eq] at hone
            rw [hone]
            exact hrun
        · exact Or.inl ⟨[], line, rest, hs.eq, by simp, hline, hcolon⟩

/-- A block has one end only. -/
theorem HeaderEnd.unique (h : HeaderEnd s ls l rest) (h' : HeaderEnd s ls' l' rest') : l = l' ∧ rest = rest' := by
  induction ls generalizing s ls' with
  | nil =>
      have hs : StartsWith s l rest := ⟨h.eq, firstAt_kCRLF_iff.mpr h.line⟩
      cases ls' with
      | nil => exact hs.unique ⟨h'.eq, firstAt_kCRLF_iff.mpr h'.line⟩
      | cons x ls' =>
          obtain ⟨hcolon, hx⟩ := h'.header x List.mem_cons_self
          have hs' : StartsWith s x (render ls' ++ (l' ++ kCRLF ++ rest')) :=
            ⟨by rw [h'.eq, render_cons, List.append_assoc (x ++ kCRLF)], firstAt_kCRLF_iff.mpr hx⟩
          obtain ⟨rfl, -⟩ := hs.unique hs'
          exact absurd hcolon h.noColon
  | cons x ls ih =>
      obtain ⟨hcolon, hx⟩ := h.header x List.mem_cons_self
      have hs : StartsWith s x (render ls ++ (l ++ kCRLF ++ rest)) :=
        ⟨by rw [h.eq, render_cons, List.append_assoc (x ++ kCRLF)], firstAt_kCRLF_iff.mpr hx⟩
      cases ls' with
      | nil =>
          have hs' : StartsWith s l' rest' := ⟨h'.eq, firstAt_kCRLF_iff.mpr h'.line⟩
          obtain ⟨rfl, -⟩ := hs.unique hs'
          exact absurd hcolon h'.noColon
      | cons y ls' =>
          have hy := (h'.header y List.mem_cons_self).2
          have hs' : StartsWith s y (render ls' ++ (l' ++ kCRLF ++ rest')) :=
            ⟨by rw [h'.eq, render_cons, List.append_assoc (y ++ kCRLF)], firstAt_kCRLF_iff.mpr hy⟩
          obtain ⟨-, htail⟩ := hs.unique hs'
          exact ih (s := render ls ++ (l ++ kCRLF ++ rest))
            ⟨rfl, fun z hz => h.header z (List.mem_cons_of_mem _ hz), h.line, h.noColon⟩
            ⟨htail, fun z hz => h'.header z (List.mem_cons_of_mem _ hz), h'.line, h'.noColon⟩

/-! ## What `parseRequest` makes of the block -/

theorem untimed_headers (hstate : c.state = .kExpectHeaders) :
    c.untimed = (Reading.headers c.request.untimed).context := by
  obtain ⟨state, req⟩ := c
  obtain rfl : state = .kExpectHeaders := hstate
  rfl

/-- **The block ends in the buffer**: it is retrieved, and nothing more. -/
theorem HeaderEnd.parseRequest (h : HeaderEnd s ls l rest) (hb : b.Rep s pre) (hstate : c.state = .kExpectHeaders)
    (t : Timestamp) (hfuel : s.length < fuel) : ∃ p, Net.parseRequest fuel b c t = some (.ok p) ∧ p.ok = true ∧
      p.context.untimed = ⟨.kGotAll, ls.foldl HttpRequest.addLine c.request.untimed⟩ ∧ p.buf.Rep rest pre := by
  obtain ⟨o, hparse, ho⟩ := parseRequest_returns t hb (untimed_headers hstate) hfuel
  rw [h.run] at ho
  cases ho with
  | ok hret hrep =>
      obtain ⟨hctx, hok⟩ := Prod.mk.inj (Except.ok.inj hret)
      exact ⟨_, hparse, hok.symm, hctx.symm, hrep⟩
  | error hret => cases hret

/-- The block does not end in the buffer: `parseRequest` returns without the rest of the request. -/
theorem parseRequest_pending (hs : ¬ ∃ ls l rest, HeaderEnd s ls l rest) (hb : b.Rep s pre)
    (hstate : c.state = .kExpectHeaders) (t : Timestamp) (hfuel : s.length < fuel) :
    ∃ p, parseRequest fuel b c t = some (.ok p) ∧ p.context.gotAll = false := by
  obtain ⟨o, hparse, ho⟩ := parseRequest_returns t hb (untimed_headers hstate) hfuel
  obtain ⟨req', q, hrun⟩ := (headerEnd_or_pending s c.request.untimed).resolve_left hs
  rw [hrun] at ho
  cases ho with
  | @ok p hret hrep =>
      obtain ⟨hctx, -⟩ := Prod.mk.inj (Except.ok.inj hret)
      refine ⟨p, hparse, ?_⟩
      show (p.context.untimed.state == .kGotAll) = false
      rw [← hctx]
      rfl
  | error hret => cases hret

theorem gotAll_of_untimed (h : c.untimed = ⟨.kGotAll, req⟩) : c.gotAll = true := by
  show (c.untimed.state == .kGotAll) = true
  rw [h]
  rfl

/-- The first complete line without a colon, if there is one, is empty. -/
def OnlyEmptyEnds (s : List UInt8) : Prop := ∀ ls l rest, HeaderEnd s ls l rest → l = []

/-- **When the header block ends only at an empty line.** For every content of the buffer, the following holds
    exactly if the first complete line without a colon is empty: `parseRequest` reports `gotAll` if and only if
    there are header lines and an empty line at the front, and then it has retrieved just these. -/
theorem parseRequest_ends_at_empty_iff (hb : b.Rep s pre) (hstate : c.state = .kExpectHeaders) (t : Timestamp)
    (hfuel : s.length < fuel) : ∃ p, parseRequest fuel b c t = some (.ok p) ∧
      (((p.context.gotAll = true ↔ ∃ ls rest, HeaderEnd s ls [] rest) ∧
        ∀ ls rest, p.context.gotAll = true → HeaderEnd s ls [] rest → p.buf.readable = rest) ↔
      OnlyEmptyEnds s) := by
  by_cases hend : ∃ ls l rest, HeaderEnd s ls l rest
  · obtain ⟨ls, l, rest, h⟩ := hend
    obtain ⟨p, hparse, -, hctx, hrep⟩ := h.parseRequest hb hstate t hfuel
    have hgot := gotAll_of_untimed hctx
    refine ⟨p, hparse, ?_, ?_⟩
    · rintro ⟨hiff, -⟩ ls₁ l₁ rest₁ h₁
      obtain ⟨ls₂, rest₂, h₂⟩ := hiff.mp hgot
      exact (h₁.unique h₂).1
    · intro honly
      obtain rfl := honly ls l rest h
      refine ⟨⟨fun _ => ⟨ls, rest, h⟩, fun _ => hgot⟩, ?_⟩
      intro ls₁ rest₁ _ h₁
      rw [hrep.content]
      exact (h.unique h₁).2
  · obtain ⟨p, hparse, hgot⟩ := parseRequest_pending hend hb hstate t hfuel
    refine ⟨p, hparse, ?_, ?_⟩
    · intro _ ls l rest h
      exact absurd ⟨ls, l, rest, h⟩ hend
    · intro _
      refine ⟨⟨fun h => absurd h (by simp [hgot]), ?_⟩, fun _ _ h => absurd h (by simp [hgot])⟩
      rintro ⟨ls, rest, h⟩
      exact absurd ⟨ls, [], rest, h⟩ hend

/-- Two header lines and an empty one. -/
def twoHeaders : List UInt8 := chars ['A', ':', 'b', '\r', '\n', 'C', ':', '\r', '\n', '\r', '\n']

/-- The block ends behind them, and what follows stays in the buffer. -/
theorem parseRequest_ends_at_empty_third : ∃ (b : Buffer) (p : Parse), b.readable = twoHeaders ++ chars ['x', '\r'] ∧
    parseRequest 20 b ⟨.kExpectHeaders, HttpRequest.new⟩ Timestamp.invalid = some (.ok p) ∧
    p.context.gotAll = true ∧ p.buf.readable = chars ['x', '\r'] := by
  obtain ⟨b, -, hb⟩ := append_ok (d := twoHeaders ++ chars ['x', '\r']) new_rep (by decide)
  rw [List.nil_append] at hb
  have hend : HeaderEnd (twoHeaders ++ chars ['x', '\r']) [chars ['A', ':', 'b'], chars ['C', ':']] []
      (chars ['x', '\r']) := ⟨rfl, by decide, by decide, by simp⟩
  obtain ⟨p, hparse, hiff⟩ := parseRequest_ends_at_empty_iff (c := ⟨.kExpectHeaders, HttpRequest.new⟩) hb rfl
    Timestamp.invalid (show (twoHeaders ++ chars ['x', '\r']).length < 20 by decide)
  obtain ⟨hgot, hrest⟩ := hiff.mpr fun ls l rest h => (h.unique hend).1
  have hall := hgot.mpr ⟨_, _, hend⟩
  exact ⟨b, p, hb.content, hparse, hall, hrest _ _ hall hend⟩

/-- The line `A` ends the block, although there is no empty line. -/
theorem parseRequest_ends_without_colon : ∃ (b : Buffer) (p : Parse),
    b.readable = chars ['A', '\r', '\n'] ∧
    parseRequest 4 b ⟨.kExpectHeaders, HttpRequest.new⟩ Timestamp.invalid = some (.ok p) ∧
    p.context.gotAll = true ∧ ¬ ∃ ls rest, HeaderEnd (chars ['A', '\r', '\n']) ls [] rest := by
  obtain ⟨b, -, hb⟩ := append_ok (d := chars ['A', '\r', '\n']) new_rep (by decide)
  rw [List.nil_append] at hb
  have hline : HeaderEnd (chars ['A', '\r', '\n']) [] (chars ['A']) [] := ⟨rfl, by simp, by decide, by decide⟩
  obtain ⟨p, hparse, -, hctx, -⟩ := hline.parseRequest (c := ⟨.kExpectHeaders, HttpRequest.new⟩) hb rfl
    Timestamp.invalid (show (chars ['A', '\r', '\n']).length < 4 by decide)
  refine ⟨b, p, hb.content, hparse, gotAll_of_untimed hctx, ?_⟩
  rintro ⟨ls, rest, h⟩
  exact absurd (hline.unique h).1 (by decide)

/-! ## Headers that are read back -/

/-- A header: its field, its value, and the padding around the value. -/
structure HeaderText where
  field : List UInt8
  value : List UInt8
  before : List UInt8
  after : List UInt8

namespace HeaderText

def line (h : HeaderText) : List UInt8 := h.field ++ 0x3a :: (h.before ++ h.value ++ h.after)

/-- There is no colon in the field, no white space at the ends of the value, nothing but spaces and tabs around
    it, and no line end in the line. -/
@[mk_iff]
structure WellFormed (h : HeaderText) : Prop where
  field : 0x3a ∉ h.field
  first : ∀ c ∈ h.value.head?, isspace c = false
  last : ∀ c ∈ h.value.getLast?, isspace c = false
  before : ∀ c ∈ h.before, c = 0x20 ∨ c = 0x09
  after : ∀ c ∈ h.after, c = 0x20 ∨ c = 0x09
  line : ¬ kCRLF <:+: h.line

-- a `Fintype` instance, where it is imported, would go through all 256 bytes
instance decidableWellFormed (h : HeaderText) : Decidable h.WellFormed :=
  haveI := fun p : UInt8 → Prop => fun [DecidablePred p] => List.decidableBAll p
  haveI := fun p : UInt8 → Prop => fun [DecidablePred p] => Option.decidableForallMem (p := p)
  decidable_of_iff' _ (wellFormed_iff h)

/-- The value of the last header that has the field. -/
def lastValue (hs : List HeaderText) (field : List UInt8) : Option (List UInt8) :=
  (hs.reverse.find? fun h => h.field = field).map HeaderText.value

end HeaderText

open HeaderText

variable {h : HeaderText} {hs : List HeaderText} {field : List UInt8}

theorem isspace_of_pad {c : UInt8} (h : c = 0x20 ∨ c = 0x09) : isspace c = true := by
  rcases h with rfl | rfl <;> decide

/-- Both loops stop at the value. -/
theorem trim_padded {before value after : List UInt8} (hbefore : ∀ c ∈ before, isspace c = true)
    (hafter : ∀ c ∈ after, isspace c = true) (hfirst : ∀ c ∈ value.head?, isspace c = false)
    (hlast : ∀ c ∈ value.getLast?, isspace c = false) :
    ((before ++ value ++ after).dropWhile isspace).rdropWhile isspace = value := by
  rw [List.append_assoc, List.dropWhile_append_of_pos hbefore]
  cases value with
  | nil =>
      have hnil : ([] ++ after).dropWhile isspace = [] := List.dropWhile_eq_nil_iff.mpr hafter
      rw [hnil, List.rdropWhile_nil]
  | cons x value =>
      have hx : ¬ isspace x = true := by rw [hfirst x rfl]; decide
      rw [List.cons_append, List.dropWhile_cons_of_neg hx, ← List.cons_append]
      induction after using List.reverseRecOn with
      | nil =>
          rw [List.append_nil, List.rdropWhile_eq_self_iff]
          intro hne
          rw [hlast _ (List.getLast?_eq_some_getLast hne)]
          decide
      | append_singleton after y ih =>
          rw [← List.append_assoc, List.rdropWhile_concat_pos _ _ _ (hafter y (by simp))]
          exact ih fun c hc => hafter c (List.mem_append_left _ hc)

/-- **One header** sets its field to its value. -/
theorem HeaderText.WellFormed.addLine (h : HeaderText) (hh : h.WellFormed) (req : HttpRequest) :
    (req.addLine h.line).headers = Function.update req.headers h.field (some h.value) := by
  have hidx : h.line.idxOf 0x3a = h.field.length := by
    unfold HeaderText.line
    rw [List.idxOf_append_of_notMem hh.field, List.idxOf_cons_self, Nat.add_zero]
  have htake : h.line.take h.field.length = h.field := by
    unfold HeaderText.line
    rw [List.take_left]
  have hdrop : h.line.drop (h.field.length + 1) = h.before ++ h.value ++ h.after := by
    unfold HeaderText.line
    rw [← List.drop_drop, List.drop_left]
    rfl
  have htrim := trim_padded (fun c hc => isspace_of_pad (hh.before c hc)) (fun c hc => isspace_of_pad (hh.after c hc))
    hh.first hh.last
  unfold HttpRequest.addLine HttpRequest.addHeader
  rw [hidx, htake, hdrop, htrim]

theorem lastValue_cons : lastValue (h :: hs) field =
    (lastValue hs field).or (if h.field = field then some h.value else none) := by
  unfold lastValue
  rw [List.reverse_cons, List.find?_append, Option.map_or]
  congr 1
  by_cases hf : h.field = field
  · rw [if_pos hf, List.find?_cons_of_pos (by simpa using hf)]
    rfl
  · rw [if_neg hf, List.find?_cons_of_neg (by simpa using hf)]
    rfl

/-- **A list of headers**: each field has the value of its last occurrence, and the others are as before. -/
theorem headers_foldl (hhs : ∀ h ∈ hs, h.WellFormed) (req : HttpRequest) (field : List UInt8) :
    ((hs.map HeaderText.line).foldl HttpRequest.addLine req).headers field =
      (lastValue hs field).or (req.headers field) := by
  induction hs generalizing req with
  | nil => rfl
  | cons h hs ih =>
      have hone := (hhs h List.mem_cons_self).addLine h req
      rw [List.map_cons, List.foldl_cons, ih (fun h' hmem => hhs h' (List.mem_cons_of_mem _ hmem)), hone,
        lastValue_cons, Option.or_assoc]
      congr 1
      by_cases hf : h.field = field
      · rw [if_pos hf, hf, Function.update_self]
        rfl
      · rw [if_neg hf, Function.update_of_ne (Ne.symm hf)]
        rfl

/-- **Well-formed headers are recovered.** For every list of headers, rendered with any padding and followed by
    an empty line and any bytes `rest`, `parseRequest` gets the whole request and leaves exactly `rest`. Each
    field has the value of its last occurrence; there are no other fields, if there were none before. -/
theorem parseRequest_recovers_headers (hhs : ∀ h ∈ hs, h.WellFormed)
    (hb : b.Rep (render (hs.map HeaderText.line) ++ (kCRLF ++ rest)) pre) (hstate : c.state = .kExpectHeaders)
    (t : Timestamp) (hfuel : (render (hs.map HeaderText.line) ++ (kCRLF ++ rest)).length < fuel) :
    ∃ p, parseRequest fuel b c t = some (.ok p) ∧ p.ok = true ∧ p.context.gotAll = true ∧
      p.buf.readable = rest ∧
      (∀ field, p.context.request.headers field = (lastValue hs field).or (c.request.headers field)) ∧
      ((c.request.headers = fun _ => none) → p.context.request.headers = lastValue hs) := by
  have hend : HeaderEnd (render (hs.map HeaderText.line) ++ (kCRLF ++ rest)) (hs.map HeaderText.line) [] rest := by
    refine ⟨rfl, ?_, by decide, by simp⟩
    intro l hl
    obtain ⟨h, hmem, rfl⟩ := List.mem_map.mp hl
    exact ⟨by simp [HeaderText.line], (hhs h hmem).line⟩
  obtain ⟨p, hparse, hok, hctx, hrep⟩ := hend.parseRequest hb hstate t hfuel
  have hheaders : ∀ field, p.context.request.headers field = (lastValue hs field).or (c.request.headers field) := by
    intro field
    show p.context.untimed.request.headers field = _
    rw [hctx]
    exact headers_foldl hhs c.request.untimed field
  refine ⟨p, hparse, hok, gotAll_of_untimed hctx, hrep.content, hheaders, ?_⟩
  intro hnone
  funext field
  rw [hheaders, hnone, Option.or_none]

/-- The lines `a:  b`, `c:d` and `a: e`, in front of another request. -/
theorem parseRequest_recovers_last : ∃ (b : Buffer) (p : Parse),
    b.readable = chars ['a', ':', ' ', ' ', 'b', '\r', '\n', 'c', ':', 'd', '\r', '\n', 'a', ':', ' ', 'e', '\r',
      '\n', '\r', '\n', 'G'] ∧
    parseRequest 22 b ⟨.kExpectHeaders, HttpRequest.new⟩ Timestamp.invalid = some (.ok p) ∧
    p.context.gotAll = true ∧ p.buf.readable = chars ['G'] ∧
    p.context.request.headers (chars ['a']) = some (chars ['e']) ∧
    p.context.request.headers (chars ['c']) = some (chars ['d']) := by
  let hs : List HeaderText :=
    [⟨chars ['a'], chars ['b'], chars [' ', ' '], []⟩, ⟨chars ['c'], chars ['d'], [], []⟩,
      ⟨chars ['a'], chars ['e'], chars [' '], []⟩]
  have hhs : ∀ h ∈ hs, h.WellFormed := by decide +kernel
  obtain ⟨b, -, hb⟩ := append_ok (d := render (hs.map HeaderText.line) ++ (kCRLF ++ chars ['G'])) new_rep (by decide)
  rw [List.nil_append] at hb
  obtain ⟨p, hparse, -, hgot, hrest, -, hheaders⟩ := parseRequest_recovers_headers
    (c := ⟨.kExpectHeaders, HttpRequest.new⟩) hhs hb rfl Timestamp.invalid (show _ < 22 by decide)
  refine ⟨b, p, hb.content, hparse, hgot, hrest, ?_⟩
  rw [hheaders rfl]
  decide

end Muduo.Net
