import Muduo.Net.Correctness.HttpConsumer
import Muduo.Net.Correctness.HttpStream

/-!
# `Correctness.HttpPieces` — parsing in pieces

A request that arrives in pieces is parsed like one that arrives at once. `parsePieces` ends where the parser of
`HttpConsumer` ends on all pieces together, and the parser does not see how they were cut.
-/

namespace Muduo.Net

open Lib Buffer

variable {b : Buffer} {c : HttpContext} {q : List UInt8} {pre : Bool} {fuel n : Nat} {r : Reading}
variable {pieces : List (Bytes × Timestamp)}

/-- The bytes of the pieces. -/
def joined (pieces : List (Bytes × Timestamp)) : List UInt8 := (pieces.map fun piece => piece.1.data).flatten

@[simp] theorem joined_nil : joined [] = [] := rfl

@[simp] theorem joined_cons {piece : Bytes × Timestamp} : joined (piece :: pieces) = piece.1.data ++ joined pieces := by
  unfold joined
  rw [List.map_cons, List.flatten_cons]

/-- What is returned with a part of the input not appended agrees with the end `x` of the parser on all of it. -/
inductive ReturnedEarly (x : Progress Reading Ending × List UInt8) :
    Outcome (Parse × List (Bytes × Timestamp)) → Prop where
  | ok {p : Parse} {left : List (Bytes × Timestamp)} : returned x.1 = .ok (p.context.untimed, p.ok) →
      x.2 = p.buf.readable ++ joined left → ReturnedEarly x (.ok (p, left))
  | error {e : Fault} : returned x.1 = .error e → ReturnedEarly x (.error e)

theorem gotAll_untimed (c : HttpContext) : c.untimed.gotAll = c.gotAll := rfl

theorem gotAll_context (r : Reading) : r.context.gotAll = false := by
  cases r <;> rfl

/-- **The pieces of an input**, from a parser that waits. -/
theorem parsePieces_returns (hb : b.Rep q pre) (hc : c.untimed = r.context)
    (hrest : parser.run r q = (.pending r, q)) (hlen : (q ++ joined pieces).length < maxObject)
    (hfuel : (q ++ joined pieces).length < fuel) :
    ∃ o, parsePieces fuel b c pieces = some o ∧ ReturnedEarly (parser.run r (q ++ joined pieces)) o := by
  induction pieces generalizing b c q r with
  | nil =>
      refine ⟨_, rfl, ?_⟩
      rw [joined_nil, List.append_nil, hrest]
      refine .ok ?_ ?_
      · rw [hc]
        rfl
      · rw [hb.content, joined_nil, List.append_nil]
  | cons piece pieces ih =>
      obtain ⟨piece, t⟩ := piece
      rw [joined_cons, ← List.append_assoc] at hlen hfuel ⊢
      dsimp only at hlen hfuel ⊢
      have hpart : (q ++ piece.data).length ≤ (q ++ piece.data ++ joined pieces).length := by simp
      obtain ⟨b₁, hb₁, hrep₁⟩ := append_ok (d := piece.data) hb (by
        have : (q ++ piece.data).length = q.length + piece.data.length := List.length_append
        unfold maxObject at hlen
        unfold maxSize kCheapPrepend
        omega)
      obtain ⟨o, hparse, ho⟩ := parseRequest_returns t hrep₁ hc (lt_of_le_of_lt hpart hfuel)
      rw [parsePieces, hb₁, Loop.ok_andThen, hparse]
      generalize hx : parser.run r (q ++ piece.data) = x at ho
      cases ho with
      | @error e hret =>
          refine ⟨_, Loop.error_andThen _ _, .error ?_⟩
          obtain ⟨progress, rest⟩ := x
          cases progress with
          | pending r' => cases hret
          | halted e => rw [Consumer.run_halted_append hx]; exact hret
      | @ok p hret hrep =>
          rw [Loop.ok_andThen]
          obtain ⟨progress, rest⟩ := x
          cases progress with
          | pending r' =>
              -- the parser waits, and the next piece is appended
              obtain ⟨hctx, hok⟩ := Prod.mk.inj (Except.ok.inj hret)
              have hgot : p.context.gotAll = false := by
                rw [← gotAll_untimed, ← hctx]
                exact gotAll_context r'
              have hle : rest.length ≤ (q ++ piece.data).length := Consumer.length_le_of_pending hx
              have hle' : (rest ++ joined pieces).length ≤ (q ++ piece.data ++ joined pieces).length := by
                calc (rest ++ joined pieces).length = rest.length + (joined pieces).length := List.length_append
                  _ ≤ (q ++ piece.data).length + (joined pieces).length := Nat.add_le_add_right hle _
                  _ = (q ++ piece.data ++ joined pieces).length := List.length_append.symm
              rw [← hok, hgot, if_pos (by decide), Consumer.run_pending_append hx]
              exact ih hrep hctx.symm (Consumer.run_rest hx) (lt_of_le_of_lt hle' hlen) (lt_of_le_of_lt hle' hfuel)
          | halted e =>
              -- the parser has halted, and nothing more is appended
              have hstop : (p.ok && !p.context.gotAll) = false := by
                rw [← gotAll_untimed]
                cases e with
                | complete req =>
                    obtain ⟨hctx, -⟩ := Prod.mk.inj (Except.ok.inj hret)
                    rw [← hctx, Bool.and_eq_false_iff]
                    exact Or.inr rfl
                | refused req =>
                    obtain ⟨-, hok⟩ := Prod.mk.inj (Except.ok.inj hret)
                    rw [← hok]
                    rfl
                | fault e => cases hret
              rw [hstop, if_neg Bool.false_ne_true, Consumer.run_halted_append hx]
              exact ⟨_, rfl, .ok hret (by rw [hrep.content])⟩

/-- **Incremental parsing equals one-shot parsing.** For every byte string and every way of cutting it into
    pieces, parsing from a new context after each piece ends with the same result and the same request as
    parsing once with all of it in the buffer, and the bytes that are left, with those not appended, are the
    same. -/
theorem parsePieces_eq_parseRequest (s : Bytes) (hs : joined pieces = s.data) (hfuel : s.data.length < fuel)
    (t : Timestamp) : ∃ b p left p₁, parsePieces fuel Buffer.new HttpContext.new pieces = some (.ok (p, left)) ∧
      Buffer.new.append s.data s.data.length = .ok b ∧
      parseRequest fuel b HttpContext.new t = some (.ok p₁) ∧
      p.ok = p₁.ok ∧ p.context.state = p₁.context.state ∧
      p.context.request.content = p₁.context.request.content ∧
      p.buf.readable ++ joined left = p₁.buf.readable := by
  have hstart : HttpContext.new.untimed = (Reading.requestLine HttpRequest.new).context := rfl
  have hwait : parser.run (.requestLine HttpRequest.new) [] = (.pending (.requestLine HttpRequest.new), []) :=
    Consumer.run_wait (parserTurn_wait (r := .requestLine HttpRequest.new) (show NoLine [] from noLine_nil))
  obtain ⟨b, hb, hrep⟩ := append_ok (d := s.data) new_rep (by
    have := s.fits
    unfold maxObject at this
    show 2 * s.data.length + 0 + 8 ≤ maxSize
    unfold maxSize
    omega)
  -- all at once
  obtain ⟨p₁, hparse₁, -⟩ := parseRequest_ready (t := t) (c := HttpContext.new) hrep.toValid (Or.inr ⟨rfl, rfl⟩)
    (by rw [hrep.content]; exact hfuel)
  obtain ⟨o₁, hparse, ho₁⟩ := parseRequest_returns t hrep hstart (show ([] ++ s.data).length < fuel from hfuel)
  obtain rfl := Option.some.inj (hparse₁.symm.trans hparse)
  -- in pieces
  obtain ⟨o, hpieces, ho⟩ := parsePieces_returns new_rep hstart hwait
    (show ([] ++ joined pieces).length < maxObject by rw [hs]; exact s.fits) (by rw [hs]; exact hfuel)
  rw [hs] at ho
  cases ho₁ with
  | ok hret₁ hrep₁ =>
      cases ho with
      | error hret => rw [hret₁] at hret; cases hret
      | @ok p left hret hleft =>
          obtain ⟨hctx, hok⟩ := Prod.mk.inj (Except.ok.inj (hret.symm.trans hret₁))
          refine ⟨b, p, left, p₁, hpieces, hb, hparse, hok, ?_, ?_, ?_⟩
          · show p.context.untimed.state = p₁.context.untimed.state
            rw [hctx]
          · show p.context.untimed.request.content = p₁.context.untimed.request.content
            rw [hctx]
          · rw [← hleft, hrep₁.content]

/-- A request, cut after its method. -/
theorem parsePieces_eq_two : ∃ b p left p₁,
    parsePieces 19 Buffer.new HttpContext.new
      [(⟨chars ['G', 'E', 'T'], by decide⟩, Timestamp.invalid),
       (⟨HttpServer.getRequest.text.drop 3, by decide⟩, Timestamp.invalid)] = some (.ok (p, left)) ∧
    parseRequest 19 b HttpContext.new Timestamp.invalid = some (.ok p₁) ∧
    p.context.request.content = p₁.context.request.content := by
  have hjoined : joined [(⟨chars ['G', 'E', 'T'], by decide⟩, Timestamp.invalid),
      (⟨HttpServer.getRequest.text.drop 3, by decide⟩, Timestamp.invalid)] = HttpServer.getRequest.text := rfl
  have hfuel : HttpServer.getRequest.text.length < 19 := by decide
  obtain ⟨b, p, left, p₁, hpieces, -, hparse, -, -, hcontent, -⟩ :=
    parsePieces_eq_parseRequest ⟨HttpServer.getRequest.text, by decide⟩ hjoined hfuel Timestamp.invalid
  exact ⟨b, p, left, p₁, hpieces, hparse, hcontent⟩

end Muduo.Net
