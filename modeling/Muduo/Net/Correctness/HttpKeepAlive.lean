import Muduo.Net.Correctness.HttpConsumer
import Muduo.Net.Correctness.HttpStream

/-!
# `Correctness.HttpKeepAlive` — one request after another

Between two requests of a connection the context is reset, and what is left of the earlier ones is their version
(`HttpContext.idle`): `swap` does not exchange it. An accepted request line sets the version, so that the next
request is the one that a new context would have been filled with, whatever came before.
-/

namespace Muduo.Net

open Lib Buffer

variable {q rest : List UInt8} {req : HttpRequest} {v v' : Version} {r : Reading} {c : HttpContext} {t : Timestamp}
variable {b : Buffer} {pre : Bool} {fuel n : Nat} {p : Parse}

/-! ## The version that is left -/

/-- **A complete request** does not depend on the version that was left. -/
theorem run_idle (v' : Version)
    (h : parser.run (.requestLine { HttpRequest.new with version := v }) q = (.halted (.complete req), rest)) :
    parser.run (.requestLine { HttpRequest.new with version := v' }) q = (.halted (.complete req), rest) := by
  rcases noLine_or_startsWith q with hq | ⟨line, rest', hq⟩
  · rw [Consumer.run_wait (parserTurn_wait hq)] at h
    cases h
  · obtain ⟨succeed, req', hline⟩ :=
      processRequestLine_ok line (show ({ HttpRequest.new with version := v } : HttpRequest).method = .kInvalid from rfl)
    have hturn := parserTurn_line (r := .requestLine { HttpRequest.new with version := v }) hq
    rw [Reading.onLine, hline] at hturn
    cases succeed with
    | false =>
        rw [Consumer.run_halt (show parser.turn _ _ = _ from hturn)] at h
        cases h
    | true =>
        -- the version is overwritten
        obtain ⟨method, path, w, hgrammar, rfl⟩ := isRequestLine_of_accepted rfl hline
        have hturn' := parserTurn_line (r := .requestLine { HttpRequest.new with version := v' }) hq
        rw [Reading.onLine, hgrammar.accepted rfl] at hturn'
        rw [Consumer.run_more (show parser.turn _ _ = _ from hturn)] at h
        rw [Consumer.run_more (show parser.turn _ _ = _ from hturn')]
        exact h

/-- What the parser completes, `parseRequest` gets. -/
theorem Returned.gotAll {x : Progress Reading Ending × List UInt8} (h : Returned pre x (.ok p))
    (hx : x = (.halted (.complete req), rest)) : p.context.gotAll = true ∧ p.context.request.content = req.content := by
  subst hx
  cases h with
  | ok hret hrep =>
      obtain ⟨hctx, -⟩ := Prod.mk.inj (Except.ok.inj hret)
      have hgot : p.context.untimed.gotAll = true := by rw [← hctx]; rfl
      refine ⟨hgot, ?_⟩
      show p.context.untimed.request.content = _
      rw [← hctx]

/-- `parseRequest` gets a whole request exactly when the parser completes it. -/
theorem Returned.complete {x : Progress Reading Ending × List UInt8} (h : Returned pre x (.ok p))
    (hgot : p.context.gotAll = true) : ∃ req, x = (.halted (.complete req), p.buf.readable) ∧
      p.context.request.content = req.content := by
  obtain ⟨progress, rest⟩ := x
  cases h with
  | ok hret hrep =>
      rw [hrep.content]
      have hstate : p.context.untimed.gotAll = true := hgot
      cases progress with
      | pending r =>
          obtain ⟨hctx, -⟩ := Prod.mk.inj (Except.ok.inj hret)
          rw [← hctx] at hstate
          cases r <;> cases hstate
      | halted e =>
          cases e with
          | complete req =>
              obtain ⟨hctx, -⟩ := Prod.mk.inj (Except.ok.inj hret)
              refine ⟨req, rfl, ?_⟩
              show p.context.untimed.request.content = _
              rw [← hctx]
          | refused req =>
              obtain ⟨hctx, -⟩ := Prod.mk.inj (Except.ok.inj hret)
              rw [← hctx] at hstate
              cases hstate
          | fault e => cases hret

/-! ## A line that is refused -/

/-- The first line of `q` is not accepted as a request line. -/
def Barred (q : List UInt8) (req : HttpRequest) : Prop :=
  ∃ line rest, StartsWith q line rest ∧ ∀ req', processRequestLine line req ≠ .ok (true, req')

theorem Barred.append (h : Barred q req) (d : List UInt8) : Barred (q ++ d) req := by
  obtain ⟨line, rest, hq, hno⟩ := h
  exact ⟨line, rest ++ d, hq.append d, hno⟩

/-- A line that was refused is not accepted the second time. -/
theorem Barred.of_refused {line : List UInt8} {req' : HttpRequest} (hq : StartsWith q line rest)
    (h : processRequestLine line req = .ok (false, req')) : Barred q req' := by
  refine ⟨line, rest, hq, ?_⟩
  intro req₂ htrue
  have hspace : 0x20 ∈ line := by
    by_contra hno
    rw [processRequestLine_noSpace hno] at htrue
    cases htrue
  by_cases hmethod' : req'.method = .kInvalid
  · obtain ⟨method, path, w, hgrammar, -⟩ := isRequestLine_of_accepted hmethod' htrue
    by_cases hmethod : req.method = .kInvalid
    · rw [hgrammar.accepted hmethod] at h
      cases h
    · rw [processRequestLine_again hspace hmethod] at h
      cases h
  · rw [processRequestLine_again hspace hmethod'] at htrue
    cases htrue

/-- The parser halts at once, without a request, and what it makes of the request is barred as before. -/
theorem Barred.run (h : Barred q req) : (∃ req', parser.run (.requestLine req) q = (.halted (.refused req'), q) ∧
    Barred q req') ∨ ∃ e, parser.run (.requestLine req) q = (.halted (.fault e), q) := by
  obtain ⟨line, rest, hq, hno⟩ := h
  have hturn := parserTurn_line (r := .requestLine req) hq
  rw [Reading.onLine] at hturn
  cases hline : processRequestLine line req with
  | error e =>
      rw [hline] at hturn
      exact Or.inr ⟨e, Consumer.run_halt hturn⟩
  | ok x =>
      obtain ⟨succeed, req'⟩ := x
      cases succeed with
      | true => exact absurd hline (hno req')
      | false =>
          rw [hline] at hturn
          exact Or.inl ⟨req', Consumer.run_halt hturn, .of_refused hq hline⟩

/-- A parser that refuses leaves the line that it refuses. -/
theorem Barred.of_run (h : parser.run r q = (.halted (.refused req), rest)) : Barred rest req := by
  induction r, q using Consumer.run.induct parser with
  | case1 r q hturn =>
      rw [Consumer.run_wait hturn] at h
      cases h
  | case2 r q r' rest' hturn _ ih =>
      rw [Consumer.run_more hturn] at h
      exact ih h
  | case3 r q e rest' hturn =>
      rw [Consumer.run_halt hturn] at h
      obtain ⟨hend, rfl⟩ := Prod.mk.inj h
      obtain rfl := Progress.halted.inj hend
      rcases noLine_or_startsWith q with hq | ⟨line, rest₁, hq⟩
      · rw [show parser.turn r q = _ from parserTurn_wait hq] at hturn
        cases hturn
      · rw [show parser.turn r q = _ from parserTurn_line hq] at hturn
        cases r with
        | requestLine req₀ =>
            rw [Reading.onLine] at hturn
            cases hline : processRequestLine line req₀ with
            | error e =>
                rw [hline] at hturn
                cases hturn
            | ok x =>
                obtain ⟨succeed, req'⟩ := x
                rw [hline] at hturn
                cases succeed with
                | true => cases hturn
                | false =>
                    cases hturn
                    exact .of_refused hq hline
        | headers req₀ =>
            rw [Reading.onLine] at hturn
            split at hturn
            · cases hturn
            · cases hturn

namespace HttpServer

variable {server : HttpServer} {conn : TcpConnection} {s s' s₀ : HttpSession} {a : Received} {as ds : List Received}

/-! ## Calls that return -/

/-- A call that returns was answered. -/
theorem receive_ok (hout : s.conn.Outputs) (h : server.receive fuel s a = some (.ok s')) : ∃ buf p,
    s.buf.append a.chunk.data a.chunk.data.length = .ok buf ∧
    parseRequest fuel buf s.context a.time = some (.ok p) ∧ Answered { s with buf } p s' := by
  cases hb : s.buf.append a.chunk.data a.chunk.data.length with
  | error e =>
      rw [receive_throws hb] at h
      cases h
  | ok buf =>
      rw [receive_eq hb] at h
      unfold onMessage at h
      cases hparse : parseRequest fuel buf s.context a.time with
      | none =>
          rw [hparse] at h
          cases h
      | some o =>
          rw [hparse] at h
          cases o with
          | error e => cases h
          | ok p =>
              rw [Loop.ok_andThen] at h
              exact ⟨buf, p, rfl, hparse,
                (respond_answered (s := { s with buf }) hout p a).of_eq_ok (Option.some.inj h)⟩

/-- What a run that returns starts with. -/
theorem receiveAll_cons_ok (h : server.receiveAll fuel s (a :: as) = some (.ok s')) :
    ∃ s₁, server.receive fuel s a = some (.ok s₁) ∧ server.receiveAll fuel s₁ as = some (.ok s') := by
  rw [receiveAll] at h
  cases hone : server.receive fuel s a with
  | none =>
      rw [hone] at h
      cases h
  | some o =>
      rw [hone] at h
      cases o with
      | error e => cases h
      | ok s₁ => exact ⟨s₁, rfl, h⟩

theorem Calm.receiveAll (h : Calm s n) (hfuel : n + received as < fuel)
    (hs : server.receiveAll fuel s as = some (.ok s')) : Calm s' (n + received as) := by
  induction as generalizing s n with
  | nil =>
      obtain rfl := Except.ok.inj (Option.some.inj hs)
      exact h
  | cons a as ih =>
      obtain ⟨s₁, hone, hs⟩ := receiveAll_cons_ok hs
      have hsum : received (a :: as) = a.chunk.data.length + received as := rfl
      rw [hsum, ← Nat.add_assoc] at hfuel ⊢
      exact ih (h.receive (by omega) hone) hfuel hs

/-- Requests that were served stay served. -/
theorem requests_of_receiveAll (hout : s.conn.Outputs) (h : server.receiveAll fuel s as = some (.ok s')) :
    ∃ more, s'.requests = s.requests ++ more := by
  induction as generalizing s with
  | nil =>
      obtain rfl := Except.ok.inj (Option.some.inj h)
      exact ⟨[], (List.append_nil _).symm⟩
  | cons a as ih =>
      obtain ⟨s₁, hone, h⟩ := receiveAll_cons_ok h
      obtain ⟨buf, p, -, -, hans⟩ := receive_ok hout hone
      obtain ⟨more, hmore⟩ := ih hans.outputs h
      cases hall : p.context.gotAll with
      | true =>
          refine ⟨p.context.request :: more, ?_⟩
          rw [hmore, (hans.served hall).2, List.append_assoc]
          rfl
      | false =>
          refine ⟨more, ?_⟩
          rw [hmore, (hans.unserved hall).2]

/-! ## The next request -/

/-- `s'` is `s` after a call that served nothing; the parser stands at `r` and has left `rest`. -/
structure Unserved (pre : Bool) (s : HttpSession) (r : Reading) (rest : List UInt8) (s' : HttpSession) : Prop where
  outputs : s'.conn.Outputs
  buf : s'.buf.Rep rest pre
  context : s'.context.untimed = r.context
  requests : s'.requests = s.requests

/-- `s'` is `s` after a call in which the parser ended as `x` says. -/
inductive Called (pre : Bool) (s : HttpSession) (x : Progress Reading Ending × List UInt8) (s' : HttpSession) :
    Prop where
  | served {req req' : HttpRequest} {rest : List UInt8} : x = (.halted (.complete req), rest) → s'.conn.Outputs →
      s'.requests = s.requests ++ [req'] → req'.content = req.content → Called pre s x s'
  | waits {r : Reading} {rest : List UInt8} : x = (.pending r, rest) → Unserved pre s r rest s' → Called pre s x s'
  | refused {req : HttpRequest} {rest : List UInt8} : x = (.halted (.refused req), rest) →
      Unserved pre s (.requestLine req) rest s' → Called pre s x s'

/-- What was answered without a request. -/
theorem Answered.unservedAt {buf : Buffer} (hans : Answered { s with buf } p s') (hbuf : p.buf.Rep rest pre)
    (hctx : r.context = p.context.untimed) : Unserved pre s r rest s' := by
  have hgot : p.context.gotAll = false := by
    show p.context.untimed.gotAll = false
    rw [← hctx]
    cases r <;> rfl
  obtain ⟨hcontext, hrequests⟩ := hans.unserved hgot
  exact ⟨hans.outputs, hans.buf ▸ hbuf, by rw [hcontext, hctx], hrequests⟩

/-- **One call** that returns, by what the parser makes of all that is unread. -/
theorem receive_called (hout : s.conn.Outputs) (hb : s.buf.Rep q pre) (hc : s.context.untimed = r.context)
    (hfuel : (q ++ a.chunk.data).length < fuel) (h : server.receive fuel s a = some (.ok s')) :
    Called pre s (parser.run r (q ++ a.chunk.data)) s' := by
  obtain ⟨buf, p, hbuf, hparse, hans⟩ := receive_ok hout h
  have hrep : buf.Rep (q ++ a.chunk.data) pre := (append_bytes_rep hb a.chunk).of_eq_ok hbuf
  obtain ⟨o, hparse', ho⟩ := parseRequest_returns a.time hrep hc hfuel
  obtain rfl := Option.some.inj (hparse.symm.trans hparse')
  generalize parser.run r (q ++ a.chunk.data) = x at ho ⊢
  obtain ⟨progress, rest⟩ := x
  cases progress with
  | pending r' =>
      cases ho with
      | ok hret hrest =>
          exact .waits rfl (hans.unservedAt hrest (Prod.mk.inj (Except.ok.inj hret)).1)
  | halted e =>
      cases e with
      | complete req =>
          obtain ⟨hgot, hcontent⟩ := ho.gotAll rfl
          exact .served rfl hans.outputs (hans.served hgot).2 hcontent
      | refused req =>
          cases ho with
          | ok hret hrest =>
              exact .refused rfl (hans.unservedAt (r := .requestLine req) hrest (Prod.mk.inj (Except.ok.inj hret)).1)
      | fault e =>
          cases ho with
          | ok hret _ => cases hret

/-- The parser leaves no more than it was given. -/
theorem length_rest_le {x : Progress Reading Ending} (h : parser.run r q = (x, rest)) : rest.length ≤ q.length := by
  have hle := Consumer.length_resume_le parser_halt_length_le (.pending r) q
  rw [Consumer.resume, h] at hle
  exact hle

/-- **The next request is served** by the call that completes it, and is the one that the parser completes. -/
theorem receiveAll_serves (hout : s.conn.Outputs) (hb : s.buf.Rep q pre) (hc : s.context.untimed = r.context)
    (hrun : parser.run r (q ++ bytes ds) = (.halted (.complete req), rest)) (hds : ds ≠ [])
    (hfuel : (q ++ bytes ds).length < fuel) (h : server.receiveAll fuel s ds = some (.ok s')) :
    ∃ req' more, s'.requests = s.requests ++ req' :: more ∧ req'.content = req.content := by
  induction ds generalizing s q r with
  | nil => exact absurd rfl hds
  | cons a ds ih =>
      obtain ⟨s₁, hone, h⟩ := receiveAll_cons_ok h
      rw [bytes_cons, ← List.append_assoc] at hrun hfuel
      rw [List.length_append] at hfuel
      cases receive_called hout hb hc (by omega) hone with
      | served hx hout₁ hrequests hcontent =>
          -- this call completes the request
          rw [Consumer.run_halted_append hx] at hrun
          obtain rfl := Ending.complete.inj (Progress.halted.inj (Prod.mk.inj hrun).1)
          obtain ⟨more, hmore⟩ := requests_of_receiveAll hout₁ h
          refine ⟨_, more, ?_, hcontent⟩
          rw [hmore, hrequests, List.append_assoc]
          rfl
      | waits hx hu =>
          rw [Consumer.run_pending_append hx] at hrun
          have hle := length_rest_le hx
          have hmore : ds ≠ [] := by
            rintro rfl
            rw [show bytes [] = [] from rfl, List.append_nil, Consumer.run_rest hx] at hrun
            cases hrun
          obtain ⟨req', more, hrequests, hcontent⟩ := ih hu.outputs hu.buf hu.context hrun hmore
            (by rw [List.length_append]; omega) h
          exact ⟨req', more, by rw [hrequests, hu.requests], hcontent⟩
      | refused hx _ =>
          rw [Consumer.run_halted_append hx] at hrun
          cases hrun

/-- After a line that is refused nothing is served any more. -/
theorem receiveAll_barred {req : HttpRequest} (hout : s.conn.Outputs) (hb : s.buf.Rep q pre)
    (hc : s.context.untimed = (Reading.requestLine req).context) (hbar : Barred q req)
    (hfuel : (q ++ bytes ds).length < fuel) (h : server.receiveAll fuel s ds = some (.ok s')) :
    s'.requests = s.requests := by
  induction ds generalizing s q req with
  | nil =>
      obtain rfl := Except.ok.inj (Option.some.inj h)
      rfl
  | cons a ds ih =>
      obtain ⟨s₁, hone, h⟩ := receiveAll_cons_ok h
      rw [bytes_cons, ← List.append_assoc] at hfuel
      have hcalled := receive_called hout hb hc (by rw [List.length_append] at hfuel; omega) hone
      rcases (hbar.append a.chunk.data).run with ⟨req', hrun, hbar'⟩ | ⟨e, hrun⟩
      · rw [hrun] at hcalled
        cases hcalled with
        | served hx => cases hx
        | waits hx => cases hx
        | refused hx hu =>
            cases hx
            exact (ih hu.outputs hu.buf hu.context hbar' hfuel h).trans hu.requests
      · rw [hrun] at hcalled
        cases hcalled with
        | served hx => cases hx
        | waits hx => cases hx
        | refused hx => cases hx

/-- **Only what the parser completes is served.** -/
theorem receiveAll_complete (hout : s.conn.Outputs) (hb : s.buf.Rep q pre) (hc : s.context.untimed = r.context)
    (hfuel : (q ++ bytes ds).length < fuel) (h : server.receiveAll fuel s ds = some (.ok s'))
    (hserved : s'.requests ≠ s.requests) :
    ∃ req rest, parser.run r (q ++ bytes ds) = (.halted (.complete req), rest) := by
  induction ds generalizing s q r with
  | nil =>
      obtain rfl := Except.ok.inj (Option.some.inj h)
      exact absurd rfl hserved
  | cons a ds ih =>
      obtain ⟨s₁, hone, h⟩ := receiveAll_cons_ok h
      rw [bytes_cons, ← List.append_assoc] at hfuel ⊢
      rw [List.length_append] at hfuel
      cases receive_called hout hb hc (by omega) hone with
      | served hx => exact ⟨_, _, Consumer.run_halted_append hx _⟩
      | waits hx hu =>
          have hle := length_rest_le hx
          rw [Consumer.run_pending_append hx]
          exact ih hu.outputs hu.buf hu.context (by rw [List.length_append]; omega) h
            (by rw [hu.requests]; exact hserved)
      | refused hx hu =>
          have hle := length_rest_le hx
          have hnone := receiveAll_barred hu.outputs hu.buf hu.context (.of_run hx)
            (by rw [List.length_append]; omega) h
          exact absurd (hnone.trans hu.requests) hserved

/-- The session after a sequence of earlier requests: nothing has been received, or the last call completed a
    request and reset the context. -/
inductive Between (server : HttpServer) (fuel : Nat) (conn : TcpConnection) : List Received → HttpSession → Prop where
  | start : Between server fuel conn [] (onConnection conn)
  | served {as : List Received} {a : Received} {s₀ s : HttpSession} {req : HttpRequest} :
      server.receiveAll fuel (onConnection conn) as = some (.ok s₀) → server.receive fuel s₀ a = some (.ok s) →
      s.requests = s₀.requests ++ [req] → Between server fuel conn (as ++ [a]) s

theorem received_append (as bs : List Received) : received (as ++ bs) = received as + received bs := by
  unfold received
  rw [List.map_append, List.sum_append]

/-- Between two requests the context is idle. -/
theorem Between.idle (h : Between server fuel conn as s) (hconn : conn.Outputs) (hfuel : received as < fuel) :
    s.conn.Outputs ∧ s.buf.Valid ∧ ∃ v, s.context = .idle v := by
  cases h with
  | start => exact ⟨hconn, new_rep.toValid, .kUnknown, rfl⟩
  | @served as a s₀ s req hall hone hreq =>
      rw [received_append] at hfuel
      have hsum : received [a] = a.chunk.data.length := Nat.add_zero _
      have hcalm₀ : Calm s₀ (0 + received as) := (calm_onConnection hconn).receiveAll (by omega) hall
      have hcalm := hcalm₀.receive (by omega) hone
      refine ⟨hcalm.outputs, hcalm.valid, ?_⟩
      obtain ⟨buf, p, -, -, hans⟩ := receive_ok hcalm₀.outputs hone
      cases hgot : p.context.gotAll with
      | true => exact ⟨p.context.request.version, (hans.served hgot).1⟩
      | false =>
          have hsame := (hans.unserved hgot).2.symm.trans hreq
          exact absurd (congrArg List.length hsame) (by simp)

/-- The next request after a sequence of earlier ones: it is served exactly if a new context completes one, and is
    then that one. -/
theorem Between.next (h : Between server fuel conn as s) (hconn : conn.Outputs) (hfuel : received as < fuel)
    (hq : s.buf.readable ++ bytes ds = q) (hds : ds ≠ []) (hlen : q.length < fuel)
    (hs : server.receiveAll fuel s ds = some (.ok s'))
    (hp : Returned pre (parser.run (.requestLine HttpRequest.new) q) (.ok p)) :
    (p.context.gotAll = true ↔ ∃ req more, s'.requests = s.requests ++ req :: more) ∧
      ∀ req more, s'.requests = s.requests ++ req :: more → req.content = p.context.request.content := by
  obtain ⟨hout, hvalid, v, hctx⟩ := h.idle hconn hfuel
  have hreading : s.context.untimed = (Reading.requestLine { HttpRequest.new with version := v }).context := by
    rw [hctx]
    rfl
  -- what a new context completes is served
  have hserves : p.context.gotAll = true → ∃ req more, s'.requests = s.requests ++ req :: more ∧
      req.content = p.context.request.content := by
    intro hgot
    obtain ⟨req, hrun, hcontent⟩ := hp.complete hgot
    have hidle := run_idle v (v := .kUnknown) hrun
    rw [← hq] at hidle hlen
    obtain ⟨req', more, hreqs, hcontent'⟩ := receiveAll_serves hout hvalid.rep hreading hidle hds hlen hs
    exact ⟨req', more, hreqs, hcontent'.trans hcontent.symm⟩
  -- and what is served, a new context completes
  have hcompletes : (∃ req more, s'.requests = s.requests ++ req :: more) → p.context.gotAll = true := by
    rintro ⟨req, more, hreqs⟩
    have hne : s'.requests ≠ s.requests := by
      rw [hreqs]
      exact fun heq => absurd (congrArg List.length heq) (by simp)
    obtain ⟨req', rest', hrun⟩ := receiveAll_complete hout hvalid.rep hreading (by rw [hq]; exact hlen) hs hne
    rw [hq] at hrun
    exact (hp.gotAll (run_idle .kUnknown hrun)).1
  refine ⟨⟨fun hgot => ?_, hcompletes⟩, ?_⟩
  · obtain ⟨req, more, hreqs, -⟩ := hserves hgot
    exact ⟨req, more, hreqs⟩
  · intro req more hreqs
    obtain ⟨req', more', hreqs', hcontent⟩ := hserves (hcompletes ⟨req, more, hreqs⟩)
    obtain ⟨rfl, -⟩ := List.cons.inj (List.append_cancel_left (hreqs.symm.trans hreqs'))
    exact hcontent

/-- **Requests do not leak into each other.** For every two sequences of earlier requests, and every byte string
    that follows, unread in the buffer and in the chunks of at least one more call: a request is passed to
    `httpCallback_` next if and only if a new context is filled with a complete request from these bytes. It then
    has in both cases the same method, path, version and headers, and they are those of the new context. -/
theorem requests_isolated (server : HttpServer) {conn₁ conn₂ : TcpConnection} (hconn₁ : conn₁.Outputs)
    (hconn₂ : conn₂.Outputs) {as₁ as₂ ds₁ ds₂ : List Received} {s₁ s₂ s₁' s₂' : HttpSession}
    (hs₁ : Between server fuel conn₁ as₁ s₁) (hs₂ : Between server fuel conn₂ as₂ s₂)
    (hq₁ : s₁.buf.readable ++ bytes ds₁ = q) (hq₂ : s₂.buf.readable ++ bytes ds₂ = q)
    (hds₁ : ds₁ ≠ []) (hds₂ : ds₂ ≠ []) (hrun₁ : server.receiveAll fuel s₁ ds₁ = some (.ok s₁'))
    (hrun₂ : server.receiveAll fuel s₂ ds₂ = some (.ok s₂')) (hfuel₁ : received as₁ < fuel)
    (hfuel₂ : received as₂ < fuel) (hfuel : q.length < fuel) (hb : b.Rep q pre) (t : Timestamp) :
    ∃ p, parseRequest fuel b HttpContext.new t = some (.ok p) ∧
      ((∃ req₁ more₁, s₁'.requests = s₁.requests ++ req₁ :: more₁) ↔ p.context.gotAll = true) ∧
      ((∃ req₂ more₂, s₂'.requests = s₂.requests ++ req₂ :: more₂) ↔ p.context.gotAll = true) ∧
      ∀ req₁ more₁ req₂ more₂, s₁'.requests = s₁.requests ++ req₁ :: more₁ →
        s₂'.requests = s₂.requests ++ req₂ :: more₂ →
        req₁.content = req₂.content ∧ req₁.content = p.context.request.content := by
  have hstart : HttpContext.new.untimed = (Reading.requestLine HttpRequest.new).context := rfl
  have hcontent : b.readable.length < fuel := by
    rw [hb.content]
    exact hfuel
  -- a new context meets no assertion
  obtain ⟨p, hparse, -, -⟩ := parseRequest_ready (c := HttpContext.new) (t := t) hb.toValid (Or.inr ⟨rfl, rfl⟩)
    hcontent
  obtain ⟨o, hparse', ho⟩ := parseRequest_returns t hb hstart hfuel
  obtain rfl := Option.some.inj (hparse.symm.trans hparse')
  obtain ⟨hiff₁, hsame₁⟩ := hs₁.next hconn₁ hfuel₁ hq₁ hds₁ hfuel hrun₁ ho
  obtain ⟨hiff₂, hsame₂⟩ := hs₂.next hconn₂ hfuel₂ hq₂ hds₂ hfuel hrun₂ ho
  refine ⟨p, hparse, hiff₁.symm, hiff₂.symm, ?_⟩
  intro req₁ more₁ req₂ more₂ hreqs₁ hreqs₂
  have h₁ := hsame₁ req₁ more₁ hreqs₁
  exact ⟨h₁.trans (hsame₂ req₂ more₂ hreqs₂).symm, h₁⟩

theorem wantsClose_getRequest (h : req.content = getRequest.content) : wantsClose req = false := by
  have hversion : req.version = .kHttp11 := congrArg Content.version h
  have hheaders : req.headers = fun _ => none := congrArg Content.headers h
  unfold wantsClose HttpRequest.getHeader
  rw [hversion, hheaders]
  decide

/-- The first request of a connection, and the second one. -/
theorem requests_isolated_second : ∃ (a : Received) (s₁ s₂ s₃ : HttpSession),
    Between emptyServer 19 upConnection [a] s₂ ∧
    emptyServer.receiveAll 19 (onConnection upConnection) [a] = some (.ok s₁) ∧
    emptyServer.receiveAll 19 s₂ [a] = some (.ok s₃) ∧ ∃ req₁ req₂ more₁ more₂,
      s₁.requests = req₁ :: more₁ ∧ s₃.requests = s₂.requests ++ req₂ :: more₂ ∧ req₁.content = req₂.content := by
  have hlines : getRequest.lines.length ≤ 19 := by decide
  have hat : At getRequest getRequest.lines HttpContext.new := .fresh .kUnknown
  -- the first request
  obtain ⟨b₁, hb₁, h₁⟩ := append_ok (d := getRequest.text) new_rep (by decide)
  rw [List.nil_append] at h₁
  have hwhole : RequestText.render getRequest.lines ++ [] = getRequest.text := List.append_nil _
  obtain ⟨b₁', req, hparse₁, hrest₁, hreq⟩ :=
    parseRequest_whole (t := Timestamp.invalid) hat getRequest_wellFormed (hwhole ▸ h₁) hlines
  obtain ⟨conn, ctx, reqs, hone, -, hgot⟩ := emptyServer_returns (by decide) [] hb₁ hparse₁ rfl
  obtain ⟨rfl, rfl⟩ := hgot rfl
  rw [show wantsClose _ = false from wantsClose_getRequest hreq] at hone
  have hbetween : Between emptyServer 19 upConnection [chunkOf getRequest.text (by decide)]
      ⟨upConnection, b₁', ctx, [req]⟩ :=
    .served (show emptyServer.receiveAll 19 (onConnection upConnection) [] = _ from rfl) hone rfl
  -- the second one
  obtain ⟨-, -, v, hidle⟩ := hbetween.idle outputs_upConnection (by decide)
  obtain ⟨b₂, hb₂, h₂⟩ := append_ok (d := getRequest.text) hrest₁ (by decide)
  rw [List.nil_append] at h₂
  obtain ⟨b₂', req', hparse₂, -, -⟩ :=
    parseRequest_whole (t := Timestamp.invalid) (.fresh v) getRequest_wellFormed (hwhole ▸ h₂) hlines
  obtain ⟨conn₂, ctx₂, reqs₂, htwo, -⟩ := emptyServer_returns (by decide) [req] hb₂ hparse₂ rfl
  have hrun₁ : emptyServer.receiveAll 19 (onConnection upConnection) [chunkOf getRequest.text (by decide)] =
      some (.ok ⟨upConnection, b₁', ctx, [req]⟩) := by
    rw [receiveAll, onConnection, hone]
    rfl
  have hrun₂ : emptyServer.receiveAll 19 ⟨upConnection, b₁', ctx, [req]⟩ [chunkOf getRequest.text (by decide)] =
      some (.ok ⟨conn₂, b₂', ctx₂, reqs₂⟩) := by
    rw [receiveAll, show ctx = .idle v from hidle, htwo]
    rfl
  have hq₁ : (onConnection upConnection).buf.readable ++ bytes [chunkOf getRequest.text (by decide)] =
      getRequest.text := by rfl
  have hq₂ : b₁'.readable ++ bytes [chunkOf getRequest.text (by decide)] = getRequest.text := by
    rw [hrest₁.content]
    rfl
  obtain ⟨p, hparse, hiff₁, hiff₂, hsame⟩ := requests_isolated emptyServer outputs_upConnection
    outputs_upConnection .start hbetween hq₁ hq₂ (by simp) (by simp) hrun₁ hrun₂ (by decide) (by decide)
    (show getRequest.text.length < 19 by decide) h₁ Timestamp.invalid
  obtain rfl := Except.ok.inj (Option.some.inj (hparse₁.symm.trans hparse))
  obtain ⟨req₁, more₁, hreqs₁⟩ := hiff₁.mpr rfl
  obtain ⟨req₂, more₂, hreqs₂⟩ := hiff₂.mpr rfl
  exact ⟨_, _, _, _, hbetween, hrun₁, hrun₂, req₁, req₂, more₁, more₂, hreqs₁, hreqs₂,
    (hsame req₁ more₁ req₂ more₂ hreqs₁ hreqs₂).1⟩

end HttpServer

end Muduo.Net
