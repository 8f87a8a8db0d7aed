import Muduo.Lib.Consumer
import Muduo.Net.Correctness.HttpRequestLine

/-!
# `Correctness.HttpConsumer` — the parser as a consumer of lines

Without the buffer, the fuel and the time, `parseRequest` is a consumer of bytes: it waits for a complete line,
and what a line does (`Reading.onLine`) depends on nothing else. `parseRequest_returns` is the refinement: on a
buffer that holds `q`, `parseRequest` returns what `parser` makes of `q`, with the buffer holding what `parser`
leaves. The laws of consumers then speak of `parseRequest`.
-/

namespace Muduo.Net

open Lib Buffer

/-! ## The consumer -/

/-- What is expected next, in a request of which a part is known. -/
inductive Reading where
  | requestLine (req : HttpRequest)
  | headers (req : HttpRequest)

/-- How the parser stops before the end of its input. -/
inductive Ending where
  | complete (req : HttpRequest)
  | refused (req : HttpRequest)
  | fault (e : Fault)

/-- A complete line. -/
def Reading.onLine : Reading → List UInt8 → Reading ⊕ Ending
  | .requestLine req, line =>
      match processRequestLine line req with
      | .ok (true, req') => .inl (.headers req')
      | .ok (false, req') => .inr (.refused req')
      | .error e => .inr (.fault e)
  | .headers req, line => if 0x3a ∈ line then .inl (.headers (req.addLine line)) else .inr (.complete req)

/-- What is left of `q` after its first line, before `rest`: a line that is refused stays. -/
def turnOf (q rest : List UInt8) : Reading ⊕ Ending → Turn Reading Ending UInt8
  | .inl r => .more r rest
  | .inr (.complete req) => .halt (.complete req) rest
  | .inr e => .halt e q

/-- One turn of the parser. -/
def parserTurn (r : Reading) (q : List UInt8) : Turn Reading Ending UInt8 :=
  let crlf := search kCRLF q
  if crlf = q.length then .wait else turnOf q (q.drop (crlf + 2)) (r.onLine (q.take crlf))

variable {r r' : Reading} {e : Ending} {q line rest rest' : List UInt8} {req req' : HttpRequest}

theorem parserTurn_wait (h : NoLine q) : parserTurn r q = .wait := if_pos h

theorem parserTurn_line (h : StartsWith q line rest) : parserTurn r q = turnOf q rest (r.onLine line) := by
  have hsearch : search kCRLF q = line.length := by rw [h.eq, h.first.search_append rest]
  have htake : q.take line.length = line := by rw [h.eq, List.append_assoc, List.take_left]
  have hdrop : q.drop (line.length + 2) = rest := by
    rw [h.eq]
    exact List.drop_left' (by rw [List.length_append]; rfl)
  have hne : line.length ≠ q.length := by rw [← hsearch]; exact h.not_noLine
  unfold parserTurn
  dsimp only
  rw [hsearch, if_neg hne, htake, hdrop]

theorem turnOf_more {x : Reading ⊕ Ending} (h : turnOf q rest x = .more r rest') : x = .inl r ∧ rest' = rest := by
  cases x with
  | inl r₁ =>
      obtain ⟨rfl, rfl⟩ := Turn.more.inj h
      exact ⟨rfl, rfl⟩
  | inr e => cases e <;> cases h

/-- With more bytes at the end, a halt leaves more. -/
theorem turnOf_halt_append {x : Reading ⊕ Ending} (h : turnOf q rest x = .halt e rest') (d : List UInt8) :
    turnOf (q ++ d) (rest ++ d) x = .halt e (rest' ++ d) := by
  cases x with
  | inl r => cases h
  | inr e =>
      cases e with
      | complete req =>
          obtain ⟨rfl, rfl⟩ := Turn.halt.inj h
          rfl
      | refused req =>
          obtain ⟨rfl, rfl⟩ := Turn.halt.inj h
          rfl
      | fault e =>
          obtain ⟨rfl, rfl⟩ := Turn.halt.inj h
          rfl

/-- **The parser**, as a consumer. -/
def parser : Consumer Reading Ending UInt8 where
  turn := parserTurn
  shrinks := by
    intro r r' q rest' h
    rcases noLine_or_startsWith q with hq | ⟨line, rest, hq⟩
    · rw [parserTurn_wait hq] at h
      cases h
    · rw [parserTurn_line hq] at h
      rw [(turnOf_more h).2]
      exact hq.length_lt
  more_append := by
    intro r r' q rest' h d
    rcases noLine_or_startsWith q with hq | ⟨line, rest, hq⟩
    · rw [parserTurn_wait hq] at h
      cases h
    · rw [parserTurn_line hq] at h
      obtain ⟨hline, rfl⟩ := turnOf_more h
      rw [parserTurn_line (hq.append d), hline]
      rfl
  halt_append := by
    intro r e q rest' h d
    rcases noLine_or_startsWith q with hq | ⟨line, rest, hq⟩
    · rw [parserTurn_wait hq] at h
      cases h
    · rw [parserTurn_line hq] at h
      rw [parserTurn_line (hq.append d)]
      exact turnOf_halt_append h d

/-- A turn that halts leaves no more than there was. -/
theorem parser_halt_length_le (h : parser.turn r q = .halt e rest) : rest.length ≤ q.length := by
  rcases noLine_or_startsWith q with hq | ⟨line, rest', hq⟩
  · rw [show parser.turn r q = _ from parserTurn_wait hq] at h
    cases h
  · rw [show parser.turn r q = _ from parserTurn_line hq] at h
    cases hline : r.onLine line with
    | inl r' =>
        rw [hline] at h
        cases h
    | inr e' =>
        rw [hline] at h
        cases e' with
        | complete req =>
            obtain ⟨-, rfl⟩ := Turn.halt.inj h
            exact hq.length_lt.le
        | refused req =>
            obtain ⟨-, rfl⟩ := Turn.halt.inj h
            exact le_rfl
        | fault e =>
            obtain ⟨-, rfl⟩ := Turn.halt.inj h
            exact le_rfl

/-! ## The time of a request -/

/-- The request, without its time. -/
def HttpRequest.untimed (req : HttpRequest) : HttpRequest := req.setReceiveTime Timestamp.invalid

def HttpContext.untimed (c : HttpContext) : HttpContext := { c with request := c.request.untimed }

/-- The request line does not depend on the time, and does not change it. -/
theorem processRequestLine_untimed (line : List UInt8) (req : HttpRequest) :
    processRequestLine line req.untimed =
      (fun x : Bool × HttpRequest => (x.1, x.2.untimed)) <$> processRequestLine line req := by
  unfold processRequestLine HttpRequest.setMethod
  dsimp only
  split
  · rfl
  · by_cases hmethod : req.method = .kInvalid
    · rw [assert_pos hmethod, assert_pos (show req.untimed.method = .kInvalid from hmethod)]
      dsimp only [ok_bind]
      split
      · split
        · rfl
        · unfold processVersion
          split
          · split
            · rfl
            · split <;> rfl
          · rfl
      · rfl
    · rw [assert_neg hmethod, assert_neg (show ¬ req.untimed.method = .kInvalid from hmethod)]
      rfl

/-! ## The refinement -/

def Reading.context : Reading → HttpContext
  | .requestLine req => ⟨.kExpectRequestLine, req⟩
  | .headers req => ⟨.kExpectHeaders, req⟩

/-- The context and the result that `parseRequest` returns with. -/
def returned : Progress Reading Ending → Outcome (HttpContext × Bool)
  | .pending r => .ok (r.context, true)
  | .halted (.complete req) => .ok (⟨.kGotAll, req⟩, true)
  | .halted (.refused req) => .ok (⟨.kExpectRequestLine, req⟩, false)
  | .halted (.fault e) => .error e

/-- `o` is what `parseRequest` returns when the parser ends as `x` says. -/
inductive Returned (pre : Bool) (x : Progress Reading Ending × List UInt8) : Outcome Parse → Prop where
  | ok {p : Parse} : returned x.1 = .ok (p.context.untimed, p.ok) → p.buf.Rep x.2 pre → Returned pre x (.ok p)
  | error {e : Fault} : returned x.1 = .error e → Returned pre x (.error e)

variable {b : Buffer} {c : HttpContext} {pre : Bool} {t : Timestamp} {fuel : Nat} {x : Progress Reading Ending × List UInt8}

theorem Reading.context_state (r : Reading) :
    r.context.state = .kExpectRequestLine ∨ r.context.state = .kExpectHeaders := by
  cases r with
  | requestLine req => exact Or.inl rfl
  | headers req => exact Or.inr rfl

/-- How an iteration ends that agrees with a turn of the parser. -/
inductive Iterated (pre : Bool) (t : Timestamp) (b : Buffer) (c : HttpContext) : Turn Reading Ending UInt8 → Prop where
  | wait : parseIteration t ⟨b, c, true⟩ = .ok (.leave ⟨b, c, true⟩) → Iterated pre t b c .wait
  | more {r' : Reading} {rest : List UInt8} {b' : Buffer} {c' : HttpContext} :
      parseIteration t ⟨b, c, true⟩ = .ok (.again ⟨b', c', true⟩) → b'.Rep rest pre → c'.untimed = r'.context →
      Iterated pre t b c (.more r' rest)
  | halt {e : Ending} {rest : List UInt8} {p : Parse} : parseIteration t ⟨b, c, true⟩ = .ok (.leave p) →
      Returned pre (.halted e, rest) (.ok p) → Iterated pre t b c (.halt e rest)
  | fault {e : Fault} {rest : List UInt8} : parseIteration t ⟨b, c, true⟩ = .error e →
      Iterated pre t b c (.halt (.fault e) rest)

/-- **One iteration** of the loop agrees with one turn of the parser. -/
theorem parseIteration_turn (t : Timestamp) (hb : b.Rep q pre) (hc : c.untimed = r.context) :
    Iterated pre t b c (parser.turn r q) := by
  obtain ⟨state, req⟩ := c
  show Iterated pre t b ⟨state, req⟩ (parserTurn r q)
  rcases noLine_or_startsWith q with hq | ⟨line, rest, hq⟩
  · rw [parserTurn_wait hq]
    refine .wait (parseIteration_wait hb hq ?_)
    have hstate : state = r.context.state := by rw [← hc]; rfl
    show state = _ ∨ state = _
    rw [hstate]
    exact r.context_state
  · rw [parserTurn_line hq]
    cases r with
    | requestLine req₀ =>
        obtain ⟨rfl, rfl⟩ := HttpContext.mk.inj hc
        have huntimed := processRequestLine_untimed line req
        rw [Reading.onLine, huntimed]
        cases hline : processRequestLine line req with
        | error e => exact .fault (parseIteration_fault hb hq hline)
        | ok x =>
            obtain ⟨succeed, req'⟩ := x
            cases succeed with
            | true =>
                obtain ⟨b', hb', hiter⟩ := parseIteration_requestLine t true hb hq hline
                exact .more hiter hb' rfl
            | false => exact .halt (parseIteration_refused hb hq hline) (.ok rfl hb)
    | headers req₀ =>
        obtain ⟨rfl, rfl⟩ := HttpContext.mk.inj hc
        rw [Reading.onLine]
        split
        · next hcolon =>
            obtain ⟨b', hb', hiter⟩ := parseIteration_header t req true hb hq hcolon
            exact .more hiter hb' rfl
        · next hcolon =>
            obtain ⟨b', hb', hiter⟩ := parseIteration_end t req true hb hq hcolon
            exact .halt hiter (.ok rfl hb')

/-- **The refinement**: `parseRequest` returns what the parser makes of the bytes in the buffer. -/
theorem parseRequest_returns (t : Timestamp) (hb : b.Rep q pre) (hc : c.untimed = r.context)
    (hfuel : q.length < fuel) :
    ∃ o, parseRequest fuel b c t = some o ∧ Returned pre (parser.run r q) o := by
  induction r, q using Consumer.run.induct parser generalizing b c fuel with
  | case1 r q hturn =>
      obtain ⟨fuel, rfl⟩ := Nat.exists_eq_succ_of_ne_zero (Nat.ne_of_gt (lt_of_le_of_lt (Nat.zero_le _) hfuel))
      have hiter := parseIteration_turn t hb hc
      rw [hturn] at hiter
      cases hiter with
      | wait hiter =>
          refine ⟨_, Loop.run_leave hiter, ?_⟩
          rw [Consumer.run_wait hturn]
          exact .ok (by rw [hc]; rfl) hb
  | case2 r q r' rest hturn _ ih =>
      obtain ⟨fuel, rfl⟩ := Nat.exists_eq_succ_of_ne_zero (Nat.ne_of_gt (lt_of_le_of_lt (Nat.zero_le _) hfuel))
      have hiter := parseIteration_turn t hb hc
      have hlt := parser.shrinks hturn
      rw [hturn] at hiter
      cases hiter with
      | more hiter hb' hc' =>
          obtain ⟨o, hrun, ho⟩ := ih hb' hc' (lt_of_lt_of_le hlt (Nat.le_of_lt_succ hfuel))
          refine ⟨o, (Loop.run_again hiter).trans hrun, ?_⟩
          rw [Consumer.run_more hturn]
          exact ho
  | case3 r q e rest hturn =>
      obtain ⟨fuel, rfl⟩ := Nat.exists_eq_succ_of_ne_zero (Nat.ne_of_gt (lt_of_le_of_lt (Nat.zero_le _) hfuel))
      have hiter := parseIteration_turn t hb hc
      rw [hturn] at hiter
      rw [Consumer.run_halt hturn]
      cases hiter with
      | halt hiter hp => exact ⟨_, Loop.run_leave hiter, hp⟩
      | fault hiter => exact ⟨_, Loop.run_error hiter, .error rfl⟩

end Muduo.Net
