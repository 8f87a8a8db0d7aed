import Muduo.Lib.Consumer
import Muduo.Net.Correctness.HttpHeaders
import Muduo.Net.Http.HttpResponse

/-!
# `Correctness.HttpReader` — the other end of the connection

What a client makes of the bytes it receives: a status line, fields up to an empty line, and a body, whose end is
told by the first `Content-Length`, or else is the end of the connection. It is not a part of the library; the
responses are written for such a reader. It is a consumer of bytes, so that it does not matter in which pieces
they arrive (`Consumer.feed_run`).
-/

namespace Muduo.Net.HttpReader

open Lib Buffer Detail HttpResponse RequestText

/-- A status line and the fields that follow it. -/
structure Head where
  code : Nat
  reason : List UInt8
  fields : List (List UInt8 × List UInt8)
deriving DecidableEq, Repr

/-- A response, read to the end. -/
structure Response where
  head : Head
  body : List UInt8
deriving DecidableEq, Repr

/-- How far a client is: before a response, among its fields, or in a body that lasts as long as the connection. -/
inductive State where
  | status (read : List Response)
  | fields (read : List Response) (head : Head)
  | untilClosed (read : List Response) (head : Head)

/-- `HTTP/1.1 code reason`. -/
def statusLine (line : List UInt8) : Option Head :=
  if line.take 9 = http1 ++ [0x31, 0x20] then
    let text := line.drop 9
    let space := text.idxOf 0x20
    if space = text.length then none
    else (decimal.read (text.take space)).map fun code => ⟨code, text.drop (space + 1), []⟩
  else none

/-- `key: value`. -/
def field (line : List UInt8) : Option (List UInt8 × List UInt8) :=
  let colon := line.idxOf 0x3a
  if colon = line.length then none else some (line.take colon, line.drop (colon + 2))

/-- Names of fields are compared without regard to case. -/
def lower (c : UInt8) : UInt8 := if 0x41 ≤ c ∧ c ≤ 0x5a then c + 0x20 else c

def isContentLength (key : List UInt8) : Bool := key.map lower == contentLength.map lower

/-- What a complete line does: it is refused, it changes the state, or it ends the fields of a response whose body
    has a known length. -/
inductive Reaction where
  | refuse
  | next (s : State)
  | body (length : Nat) (s : List UInt8 → State)

def onLine : State → List UInt8 → Reaction
  | .status read, line =>
      match statusLine line with
      | none => .refuse
      | some head => .next (.fields read head)
  | .fields read head, [] =>
      match head.fields.find? fun f => isContentLength f.1 with
      | none => .next (.untilClosed read head)
      | some (_, value) =>
          match decimal.read value with
          | none => .refuse
          | some n => .body n fun body => .status (read ++ [⟨head, body⟩])
  | .fields read head, c :: line =>
      match field (c :: line) with
      | none => .refuse
      | some f => .next (.fields read { head with fields := head.fields ++ [f] })
  | .untilClosed _ _, _ => .refuse

/-- The turn, at the start of `q`, of which `rest` is what follows the first line. -/
def react (q rest : List UInt8) : Reaction → Turn State Unit UInt8
  | .refuse => .halt () q
  | .next s => .more s rest
  | .body n s => if rest.length < n then .wait else .more (s (rest.take n)) (rest.drop n)

def turn (s : State) (q : List UInt8) : Turn State Unit UInt8 :=
  match s with
  | .untilClosed _ _ => .wait
  | s =>
      let crlf := search kCRLF q
      if crlf = q.length then .wait else react q (q.drop (crlf + 2)) (onLine s (q.take crlf))

variable {s s' : State} {q line rest rest' : List UInt8} {read : List Response} {head : Head}

theorem turn_wait (h : NoLine q) : turn s q = .wait := by
  cases s with
  | untilClosed => rfl
  | status => exact if_pos h
  | fields => exact if_pos h

theorem turn_line (h : StartsWith q line rest) (hs : ∀ read head, s ≠ .untilClosed read head) :
    turn s q = react q rest (onLine s line) := by
  have hsearch : search kCRLF q = line.length := by rw [h.eq, h.first.search_append rest]
  have htake : q.take line.length = line := by rw [h.eq, List.append_assoc, List.take_left]
  have hdrop : q.drop (line.length + 2) = rest := by
    rw [h.eq]
    exact List.drop_left' (by rw [List.length_append]; rfl)
  have hne : line.length ≠ q.length := by rw [← hsearch]; exact h.not_noLine
  cases s with
  | untilClosed => exact absurd rfl (hs _ _)
  | status =>
      unfold turn
      dsimp only
      rw [hsearch, if_neg hne, htake, hdrop]
  | fields =>
      unfold turn
      dsimp only
      rw [hsearch, if_neg hne, htake, hdrop]

/-- Going on leaves less than what follows the line, and more input leaves more. -/
theorem react_more {x : Reaction} (h : react q rest x = .more s rest') : rest'.length ≤ rest.length ∧
    ∀ d, react (q ++ d) (rest ++ d) x = .more s (rest' ++ d) := by
  cases x with
  | refuse => cases h
  | next s₁ =>
      obtain ⟨rfl, rfl⟩ := Turn.more.inj h
      exact ⟨Nat.le_refl _, fun d => rfl⟩
  | body n f =>
      rw [react] at h
      by_cases hlen : rest.length < n
      · rw [if_pos hlen] at h
        cases h
      · rw [if_neg hlen] at h
        obtain ⟨rfl, rfl⟩ := Turn.more.inj h
        have hle : n ≤ rest.length := Nat.le_of_not_lt hlen
        refine ⟨by rw [List.length_drop]; exact Nat.sub_le _ _, fun d => ?_⟩
        rw [react, if_neg (by rw [List.length_append]; omega), List.take_append_of_le_length hle,
          List.drop_append_of_le_length hle]

theorem react_halt {x : Reaction} {r : Unit} (h : react q rest x = .halt r rest') (d : List UInt8) :
    react (q ++ d) (rest ++ d) x = .halt r (rest' ++ d) := by
  cases x with
  | refuse =>
      obtain ⟨rfl, rfl⟩ := Turn.halt.inj h
      rfl
  | next s₁ => cases h
  | body n f =>
      rw [react] at h
      by_cases hlen : rest.length < n
      · rw [if_pos hlen] at h
        cases h
      · rw [if_neg hlen] at h
        cases h

/-- A turn that is not a wait is about a complete line. -/
theorem turn_cases (s : State) (q : List UInt8) : turn s q = .wait ∨
    ∃ line rest, StartsWith q line rest ∧ ∀ read head, s ≠ .untilClosed read head := by
  rcases noLine_or_startsWith q with hq | ⟨line, rest, hq⟩
  · exact Or.inl (turn_wait hq)
  · cases s with
    | untilClosed => exact Or.inl rfl
    | status => exact Or.inr ⟨line, rest, hq, by simp⟩
    | fields => exact Or.inr ⟨line, rest, hq, by simp⟩

/-- **The client**, as a consumer. -/
def client : Consumer State Unit UInt8 where
  turn := turn
  shrinks := by
    intro s s' q rest' h
    rcases turn_cases s q with hwait | ⟨line, rest, hq, hs⟩
    · rw [hwait] at h
      cases h
    · rw [turn_line hq hs] at h
      exact lt_of_le_of_lt (react_more h).1 hq.length_lt
  more_append := by
    intro s s' q rest' h d
    rcases turn_cases s q with hwait | ⟨line, rest, hq, hs⟩
    · rw [hwait] at h
      cases h
    · rw [turn_line hq hs] at h
      rw [turn_line (hq.append d) hs]
      exact (react_more h).2 d
  halt_append := by
    intro s r q rest' h d
    rcases turn_cases s q with hwait | ⟨line, rest, hq, hs⟩
    · rw [hwait] at h
      cases h
    · rw [turn_line hq hs] at h
      rw [turn_line (hq.append d) hs]
      exact react_halt h d

theorem client_turn (s : State) (q : List UInt8) : client.turn s q = turn s q := rfl

@[simp] theorem run_nil (s : State) : client.run s [] = (.pending s, []) := by
  apply Consumer.run_wait
  rw [client_turn]
  exact turn_wait noLine_nil

/-! ## What it makes of the lines of a response -/

/-- A field, as a line. -/
def fieldLine (f : List UInt8 × List UInt8) : List UInt8 := f.1 ++ 0x3a :: 0x20 :: f.2

/-- The field can be read back. -/
structure FieldOk (f : List UInt8 × List UInt8) : Prop where
  noColon : 0x3a ∉ f.1
  key : ¬ kCRLF <:+: f.1
  value : ¬ kCRLF <:+: f.2

theorem field_fieldLine {f : List UInt8 × List UInt8} (hf : FieldOk f) : field (fieldLine f) = some f := by
  obtain ⟨key, value⟩ := f
  have hidx : (key ++ 0x3a :: 0x20 :: value).idxOf 0x3a = key.length := by
    rw [List.idxOf_append_of_notMem hf.noColon, List.idxOf_cons_self, Nat.add_zero]
  unfold field fieldLine
  dsimp only
  rw [hidx, if_neg (by rw [List.length_append, List.length_cons]; omega), List.take_left' rfl]
  have hdrop : (key ++ 0x3a :: 0x20 :: value).drop (key.length + 2) = value := by
    rw [← List.drop_drop, List.drop_left]
    rfl
  rw [hdrop]

theorem firstAt_fieldLine {f : List UInt8 × List UInt8} (hf : FieldOk f) : FirstAt kCRLF (fieldLine f) := by
  refine firstAt_kCRLF_iff.mpr fun h => ?_
  rcases pair_infix_split (by decide) (by decide) h with hkey | hrest
  · exact hf.key hkey
  · rcases pair_infix_split (u := []) (by decide) (by decide) hrest with hnil | hvalue
    · exact absurd hnil.length_le (by simp)
    · exact hf.value hvalue

/-- Field lines are read one by one. -/
theorem run_fields {fs : List (List UInt8 × List UInt8)} (hfs : ∀ f ∈ fs, FieldOk f) (read : List Response)
    (head : Head) (q : List UInt8) : client.run (.fields read head) (render (fs.map fieldLine) ++ q) =
      client.run (.fields read { head with fields := head.fields ++ fs }) q := by
  induction fs generalizing head with
  | nil => rw [List.append_nil]; rfl
  | cons f fs ih =>
      have hf := hfs f List.mem_cons_self
      have hq : StartsWith (fieldLine f ++ kCRLF ++ (render (fs.map fieldLine) ++ q)) (fieldLine f)
          (render (fs.map fieldLine) ++ q) := ⟨rfl, firstAt_fieldLine hf⟩
      have hline : onLine (.fields read head) (fieldLine f) =
          .next (.fields read { head with fields := head.fields ++ [f] }) := by
        have hread := field_fieldLine hf
        cases hl : fieldLine f with
        | nil => exact absurd hl (by simp [fieldLine])
        | cons c line =>
            rw [hl] at hread
            rw [onLine, hread]
      have hturn : client.turn (.fields read head) (fieldLine f ++ kCRLF ++ (render (fs.map fieldLine) ++ q)) =
          .more (.fields read { head with fields := head.fields ++ [f] }) (render (fs.map fieldLine) ++ q) := by
        rw [client_turn, turn_line hq (by simp), hline]
        rfl
      rw [List.map_cons, render_cons, List.append_assoc (fieldLine f ++ kCRLF), Consumer.run_more hturn,
        ih (fun f' hf' => hfs f' (List.mem_cons_of_mem _ hf'))]
      simp only [List.append_assoc, List.singleton_append]

/-- A status line. -/
def statusText (code : Nat) (reason : List UInt8) : List UInt8 :=
  http1 ++ [0x31, 0x20] ++ decimal.numeral code ++ 0x20 :: reason

theorem not_mem_numeral {c : UInt8} (h : c ∉ decimal.symbols) (n : Nat) : c ∉ decimal.numeral n :=
  fun hmem => h ((decimal.canonical_numeral n).mem_symbols c hmem)

theorem statusLine_statusText (code : Nat) (reason : List UInt8) :
    statusLine (statusText code reason) = some ⟨code, reason, []⟩ := by
  have hidx : (decimal.numeral code ++ 0x20 :: reason).idxOf 0x20 = (decimal.numeral code).length := by
    rw [List.idxOf_append_of_notMem (not_mem_numeral (by decide) code), List.idxOf_cons_self, Nat.add_zero]
  have hread : decimal.read (decimal.numeral code) = some code := (decimal.canonical_iff.mpr rfl).2
  have htake : (statusText code reason).take 9 = http1 ++ [0x31, 0x20] := by
    rw [statusText, List.append_assoc]
    exact List.take_left' rfl
  have hdrop : (statusText code reason).drop 9 = decimal.numeral code ++ 0x20 :: reason := by
    rw [statusText, List.append_assoc]
    exact List.drop_left' rfl
  have hlast : (decimal.numeral code ++ 0x20 :: reason).drop ((decimal.numeral code).length + 1) = reason := by
    rw [← List.drop_drop, List.drop_left]
    rfl
  unfold statusLine
  dsimp only
  rw [if_pos htake, hdrop, hidx, if_neg (by rw [List.length_append, List.length_cons]; omega),
    List.take_left' rfl, hread, Option.map_some, hlast]

theorem firstAt_statusText {reason : List UInt8} (h : ¬ kCRLF <:+: reason) (code : Nat) :
    FirstAt kCRLF (statusText code reason) := by
  refine firstAt_kCRLF_iff.mpr fun hin => ?_
  rcases pair_infix_split (by decide) (by decide) hin with hcode | hreason
  · -- there is no carriage return before the code or in it
    have hmem : (0x0d : UInt8) ∈ http1 ++ [0x31, 0x20] ++ decimal.numeral code := hcode.mem (List.mem_cons_self ..)
    rcases List.mem_append.mp hmem with hmem | hmem
    · exact absurd hmem (by decide)
    · exact not_mem_numeral (by decide) code hmem
  · exact h hreason

/-- **A head is read back**, up to the empty line. -/
theorem run_head {reason : List UInt8} (hreason : ¬ kCRLF <:+: reason) {fs : List (List UInt8 × List UInt8)}
    (hfs : ∀ f ∈ fs, FieldOk f) (read : List Response) (code : Nat) (q : List UInt8) :
    client.run (.status read) (render (statusText code reason :: fs.map fieldLine) ++ q) =
      client.run (.fields read ⟨code, reason, fs⟩) q := by
  have hq : StartsWith (statusText code reason ++ kCRLF ++ (render (fs.map fieldLine) ++ q))
      (statusText code reason) (render (fs.map fieldLine) ++ q) := ⟨rfl, firstAt_statusText hreason code⟩
  have hturn : client.turn (.status read) (statusText code reason ++ kCRLF ++ (render (fs.map fieldLine) ++ q)) =
      .more (.fields read ⟨code, reason, []⟩) (render (fs.map fieldLine) ++ q) := by
    rw [client_turn, turn_line hq (by simp), onLine, statusLine_statusText]
    rfl
  rw [render_cons, List.append_assoc (statusText code reason ++ kCRLF), Consumer.run_more hturn, run_fields hfs,
    List.nil_append]

theorem startsWith_empty (q : List UInt8) : StartsWith (kCRLF ++ q) [] q := ⟨rfl, firstAt_kCRLF_iff.mpr (by decide)⟩

/-- **A body of a known length** is read to its end and no further. -/
theorem run_counted {key value : List UInt8} {n : Nat}
    (hfind : head.fields.find? (fun f => isContentLength f.1) = some (key, value)) (hread : decimal.read value = some n)
    (read : List Response) {body : List UInt8} (hbody : body.length = n) (q : List UInt8) :
    client.run (.fields read head) (kCRLF ++ (body ++ q)) = client.run (.status (read ++ [⟨head, body⟩])) q := by
  refine Consumer.run_more ?_
  rw [client_turn, turn_line (startsWith_empty _) (by simp), onLine, hfind]
  dsimp only
  rw [hread]
  dsimp only
  rw [react, if_neg (by rw [List.length_append]; omega), List.take_left' hbody, List.drop_left' hbody]

/-- Without a length, everything that follows belongs to the body. -/
theorem run_uncounted (hfind : head.fields.find? (fun f => isContentLength f.1) = none) (read : List Response)
    (q : List UInt8) : client.run (.fields read head) (kCRLF ++ q) = (.pending (.untilClosed read head), q) := by
  have hturn : client.turn (.fields read head) (kCRLF ++ q) = .more (.untilClosed read head) q := by
    rw [client_turn, turn_line (startsWith_empty _) (by simp), onLine, hfind]
    rfl
  rw [Consumer.run_more hturn]
  exact Consumer.run_wait rfl

end Muduo.Net.HttpReader
