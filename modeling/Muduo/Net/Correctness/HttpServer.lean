import Muduo.Net.Correctness.HttpParser
import Muduo.Net.Correctness.TcpOutput

/-!
# `Correctness.HttpServer` — arbitrary bytes on one connection

Whatever arrives, `parseRequest` ends and leaves the context in one of three conditions: it can be entered
again, it has a whole request, or it is `Stuck`. A request line that is refused after its method was recognised
leaves both the line in the buffer and the method in the request, so that the next call goes through `setMethod`
for a second time. Nothing else fails.
-/

namespace Muduo.Net

open Lib Buffer

variable {b : Buffer} {q line rest : List UInt8} {pre : Bool} {p : Parse} {t : Timestamp} {fuel : Nat}
variable {c : HttpContext}

/-! ## The conditions of a context -/

/-- `parseRequest` can be called. -/
def HttpContext.Ready (c : HttpContext) : Prop :=
  c.state = .kExpectHeaders ∨ c.state = .kExpectRequestLine ∧ c.request.method = .kInvalid

/-- The request line at the front of `q` was refused, after its method was recognised. -/
structure HttpContext.Stuck (c : HttpContext) (q : List UInt8) : Prop where
  state : c.state = .kExpectRequestLine
  method : c.request.method ≠ .kInvalid
  line : ∃ line rest, StartsWith q line rest ∧ 0x20 ∈ line

theorem HttpContext.Stuck.append (h : c.Stuck q) (d : List UInt8) : c.Stuck (q ++ d) := by
  obtain ⟨hstate, hmethod, line, rest, hq, hspace⟩ := h
  exact ⟨hstate, hmethod, line, rest ++ d, hq.append d, hspace⟩

theorem HttpContext.Stuck.not_ready (h : c.Stuck q) : ¬ c.Ready := by
  rintro (hs | ⟨-, hmethod⟩)
  · exact absurd (hs.symm.trans h.state) (by decide)
  · exact absurd hmethod h.method

/-- How `parseRequest` leaves buffer and context. -/
def Parse.Ended (p : Parse) : Prop :=
  p.buf.Valid ∧ (p.context.Ready ∨ p.context.Stuck p.buf.readable ∨ p.context.state = .kGotAll)

/-- **One iteration**, from a context that is ready. -/
theorem parseIteration_ready (hvalid : p.buf.Valid) (hctx : p.context.Ready) :
    (∃ p', parseIteration t p = .ok (.leave p') ∧ p'.Ended ∧
      p'.buf.readable.length ≤ p.buf.readable.length) ∨
    ∃ p', parseIteration t p = .ok (.again p') ∧ (p'.buf.Valid ∧ p'.context.Ready) ∧
      p'.buf.readable.length + 2 ≤ p.buf.readable.length := by
  obtain ⟨b, ⟨state, req⟩, ok⟩ := p
  have hrep := hvalid.rep
  rcases noLine_or_startsWith b.readable with hq | ⟨line, rest, hq⟩
  · refine Or.inl ⟨_, parseIteration_wait hrep hq ?_, ⟨hvalid, Or.inl hctx⟩, Nat.le_refl _⟩
    exact hctx.symm.imp_left And.left
  · rcases hctx with hs | ⟨hs, hmethod⟩
    · obtain rfl : state = .kExpectHeaders := hs
      by_cases hcolon : 0x3a ∈ line
      · obtain ⟨b', hb', hiter⟩ := parseIteration_header t req ok hrep hq hcolon
        refine Or.inr ⟨_, hiter, ⟨hb'.toValid, Or.inl rfl⟩, ?_⟩
        show b'.readable.length + 2 ≤ b.readable.length
        rw [hb'.content]
        exact hq.length_add_two_le
      · obtain ⟨b', hb', hiter⟩ := parseIteration_end t req ok hrep hq hcolon
        refine Or.inl ⟨_, hiter, ⟨hb'.toValid, Or.inr (Or.inr rfl)⟩, ?_⟩
        show b'.readable.length ≤ b.readable.length
        rw [hb'.content]
        exact hq.length_lt.le
    · obtain rfl : state = .kExpectRequestLine := hs
      obtain ⟨succeed, req', hline⟩ := processRequestLine_ok line hmethod
      cases succeed with
      | true =>
          obtain ⟨b', hb', hiter⟩ := parseIteration_requestLine t ok hrep hq hline
          refine Or.inr ⟨_, hiter, ⟨hb'.toValid, Or.inl rfl⟩, ?_⟩
          show b'.readable.length + 2 ≤ b.readable.length
          rw [hb'.content]
          exact hq.length_add_two_le
      | false =>
          refine Or.inl ⟨_, parseIteration_refused hrep hq hline, ⟨hvalid, ?_⟩, Nat.le_refl _⟩
          by_cases hmethod' : req'.method = .kInvalid
          · exact Or.inl (Or.inr ⟨rfl, hmethod'⟩)
          · -- without a space, `setMethod` would not have been called
            refine Or.inr (Or.inl ⟨rfl, hmethod', line, rest, hq, ?_⟩)
            by_contra hspace
            rw [processRequestLine_noSpace hspace] at hline
            cases hline
            exact hmethod' hmethod

/-- **The loop ends**, in one of the three conditions. -/
theorem parseRequest_ready (hvalid : b.Valid) (hctx : c.Ready) (hfuel : b.readable.length < fuel) :
    ∃ p, parseRequest fuel b c t = some (.ok p) ∧ p.Ended ∧ p.buf.readable.length ≤ b.readable.length := by
  refine Loop.run_of_measure (I := fun p : Parse => (p.buf.Valid ∧ p.context.Ready) ∧
    p.buf.readable.length ≤ b.readable.length) (fun p => p.buf.readable.length) ?_
    ⟨⟨hvalid, hctx⟩, Nat.le_refl _⟩ hfuel
  rintro p ⟨hI, hle⟩
  rcases parseIteration_ready (t := t) hI.1 hI.2 with ⟨p', hiter, hp', hlen⟩ | ⟨p', hiter, hI', hlen⟩
  · exact Or.inl ⟨p', hiter, hp', hlen.trans hle⟩
  · have hlt : p'.buf.readable.length < p.buf.readable.length := by omega
    exact Or.inr ⟨p', hiter, ⟨hI', hlt.le.trans hle⟩, hlt⟩

theorem parseRequest_stuck (hvalid : b.Valid) (hctx : c.Stuck b.readable) (hfuel : 0 < fuel) :
    parseRequest fuel b c t = some (.error .assertion) := by
  obtain ⟨state, req⟩ := c
  obtain ⟨rfl, hmethod, line, rest, hq, hspace⟩ := hctx
  obtain ⟨fuel, rfl⟩ := Nat.exists_eq_succ_of_ne_zero (Nat.ne_of_gt hfuel)
  exact Loop.run_error (parseIteration_fault hvalid.rep hq (processRequestLine_again hspace hmethod))

/-! ## The answer -/

variable {server : HttpServer} {s s' : HttpSession} {a : Received}

namespace HttpServer

/-- `s'` is `s` after a call of `onMessage` in which `parseRequest` returned `p`. -/
structure Answered (s : HttpSession) (p : Parse) (s' : HttpSession) : Prop where
  outputs : s'.conn.Outputs
  buf : s'.buf = p.buf
  served : p.context.gotAll = true →
    s'.context = p.context.reset ∧ s'.requests = s.requests ++ [p.context.request]
  unserved : p.context.gotAll = false → s'.context = p.context ∧ s'.requests = s.requests

theorem reject_outputs {conn : TcpConnection} (h : conn.Outputs) (r : WriteResult) :
    Safe (reject conn r) TcpConnection.Outputs := by
  unfold reject
  refine Safe.bind (TcpConnection.sendPiece_outputs h ⟨badRequest, by decide⟩ (by decide) r) ?_
  intro conn' h'
  exact Safe.ok h'.shutdown

theorem onRequest_outputs {conn : TcpConnection} (h : conn.Outputs) (req : HttpRequest) (r : WriteResult) :
    Safe (server.onRequest conn req r) TcpConnection.Outputs := by
  unfold onRequest
  refine Safe.bind (append_bytes_rep new_rep _) ?_
  intro buf hbuf
  refine Safe.bind (TcpConnection.sendBuffer_outputs h hbuf r) ?_
  rintro ⟨conn', buf'⟩ h'
  refine Safe.ok ?_
  split
  · exact h'.shutdown
  · exact h'

theorem respond_answered (h : s.conn.Outputs) (p : Parse) (a : Received) :
    Safe (server.respond s p a) (Answered s p) := by
  have hfirst : Safe (if p.ok then .ok s.conn else reject s.conn a.onBadRequest) TcpConnection.Outputs := by
    split
    · exact Safe.ok h
    · exact reject_outputs h _
  unfold respond
  refine Safe.bind hfirst ?_
  intro conn hconn
  split
  · next hall =>
      refine Safe.bind (onRequest_outputs hconn _ _) ?_
      intro conn' hconn'
      refine Safe.ok ⟨hconn', rfl, fun _ => ⟨rfl, rfl⟩, ?_⟩
      intro hnot
      exact absurd hall (by simp [hnot])
  · next hall =>
      refine Safe.ok ⟨hconn, rfl, fun hgot => absurd hgot hall, fun _ => ⟨rfl, rfl⟩⟩

/-! ## Every sequence of chunks -/

/-- The sessions on which `onMessage` is called while `as` is received: the chunk is in the buffer, and all
    earlier calls have returned. -/
inductive Calls (server : HttpServer) (fuel : Nat) : HttpSession → List Received → HttpSession → Prop where
  | first {s : HttpSession} {a : Received} {as : List Received} {buf : Buffer} :
      s.buf.append a.chunk.data a.chunk.data.length = .ok buf → Calls server fuel s (a :: as) { s with buf }
  | later {s s₁ s' : HttpSession} {a : Received} {as : List Received} :
      server.receive fuel s a = some (.ok s₁) → Calls server fuel s₁ as s' → Calls server fuel s (a :: as) s'

/-- The number of bytes received. -/
def received (as : List Received) : Nat := (as.map (·.chunk.data.length)).sum

/-- The invariant; `n` bytes have been received. -/
structure Calm (s : HttpSession) (n : Nat) : Prop where
  outputs : s.conn.Outputs
  valid : s.buf.Valid
  length_le : s.buf.readable.length ≤ n
  context : s.context.Ready ∨ s.context.Stuck s.buf.readable

variable {n : Nat} {as : List Received}

theorem calm_onConnection {conn : TcpConnection} (h : conn.Outputs) : Calm (onConnection conn) 0 where
  outputs := h
  valid := new_rep.toValid
  length_le := by
    show Buffer.new.readable.length ≤ 0
    rw [new_rep.content]
    exact Nat.le_refl _
  context := Or.inl (Or.inr ⟨rfl, rfl⟩)

/-- After a whole request the context is reset, otherwise it is left as the parser left it. -/
theorem Answered.calm (h : Answered s p s') (hp : p.Ended) (hlen : p.buf.readable.length ≤ n) : Calm s' n := by
  obtain ⟨hvalid, hctx⟩ := hp
  refine ⟨h.outputs, by rw [h.buf]; exact hvalid, by rw [h.buf]; exact hlen, ?_⟩
  cases hall : p.context.gotAll with
  | true =>
      rw [(h.served hall).1]
      exact Or.inl (Or.inr ⟨rfl, rfl⟩)
  | false =>
      rw [(h.unserved hall).1, h.buf]
      rcases hctx with hready | hstuck | hgot
      · exact Or.inl hready
      · exact Or.inr hstuck
      · exact absurd hall (by unfold HttpContext.gotAll; rw [hgot]; decide)

/-- **One call** on a context that is ready. -/
theorem onMessage_ready (server : HttpServer) (a : Received) (hout : s.conn.Outputs) (hvalid : s.buf.Valid)
    (hctx : s.context.Ready) (hlen : s.buf.readable.length ≤ n) (hfuel : n < fuel) :
    ∃ r, server.onMessage fuel s a = some r ∧ Safe r (Calm · n) := by
  obtain ⟨p, hparse, hp, hle⟩ := parseRequest_ready (t := a.time) hvalid hctx (lt_of_le_of_lt hlen hfuel)
  refine ⟨server.respond s p a, ?_, ?_⟩
  · unfold onMessage
    rw [hparse, Loop.ok_andThen]
  · exact (respond_answered hout p a).mono fun s' h => h.calm hp (hle.trans hlen)

/-- One call on a context that is stuck. -/
theorem onMessage_stuck (server : HttpServer) (a : Received) (hvalid : s.buf.Valid)
    (hctx : s.context.Stuck s.buf.readable) (hfuel : 0 < fuel) :
    server.onMessage fuel s a = some (.error .assertion) := by
  unfold onMessage
  rw [parseRequest_stuck hvalid hctx hfuel, Loop.error_andThen]

/-- A context that is not stuck passes the test that `setMethod` will make. -/
theorem ready_iff {q : List UInt8} (h : c.Ready ∨ c.Stuck q) :
    c.Ready ↔ (c.expectRequestLine = true → c.request.method = .kInvalid) := by
  constructor
  · rintro (hs | ⟨-, hmethod⟩) hexpect
    · exact absurd hexpect (by unfold HttpContext.expectRequestLine; rw [hs]; decide)
    · exact hmethod
  · intro hcond
    rcases h with hready | hstuck
    · exact hready
    · exact absurd (hcond (by unfold HttpContext.expectRequestLine; rw [hstuck.state]; decide)) hstuck.method

theorem receive_eq {buf : Buffer} (h : s.buf.append a.chunk.data a.chunk.data.length = .ok buf) :
    server.receive fuel s a = server.onMessage fuel { s with buf } a := by
  unfold receive
  rw [h, Loop.ok_andThen]

theorem receive_throws {e : Fault} (h : s.buf.append a.chunk.data a.chunk.data.length = .error e) :
    server.receive fuel s a = some (.error e) := by
  unfold receive
  rw [h, Loop.error_andThen]

/-- The calls of a run are the first one and those of the rest. -/
theorem calls_cons {Q : HttpSession → Prop} : (∀ s', Calls server fuel s (a :: as) s' → Q s') ↔
    (∀ buf, s.buf.append a.chunk.data a.chunk.data.length = .ok buf → Q { s with buf }) ∧
    ∀ s₁, server.receive fuel s a = some (.ok s₁) → ∀ s', Calls server fuel s₁ as s' → Q s' := by
  constructor
  · intro h
    exact ⟨fun buf hb => h _ (.first hb), fun s₁ hs₁ s' hs' => h s' (.later hs₁ hs')⟩
  · rintro ⟨hfirst, hlater⟩ s' hs'
    cases hs' with
    | first hb => exact hfirst _ hb
    | later hs₁ hs' => exact hlater _ hs₁ _ hs'

/-- The run ends, and not with a defect. -/
def Survives (run : Option (Outcome HttpSession)) : Prop :=
  ∃ r, run = some r ∧ r ≠ .error .assertion ∧ r ≠ .error .badAccess

theorem not_survives_assertion : ¬ Survives (some (.error .assertion)) := by
  rintro ⟨r, hr, hne, -⟩
  cases hr
  exact absurd rfl hne

theorem survives_throws : Survives (some (.error .lengthError)) := ⟨_, rfl, by simp, by simp⟩

/-- **Every further run**, from a session that satisfies the invariant. -/
theorem Calm.receiveAll_iff (h : Calm s n) (hfuel : n + received as < fuel) :
    Survives (server.receiveAll fuel s as) ↔
    ∀ s', Calls server fuel s as s' → s'.context.expectRequestLine = true →
      s'.context.request.method = .kInvalid := by
  induction as generalizing s n with
  | nil =>
      refine ⟨?_, fun _ => ⟨_, rfl, by simp, by simp⟩⟩
      rintro - s' ⟨⟩
  | cons a as ih =>
      have happend := append_bytes_rep h.valid.rep a.chunk
      have hsum : received (a :: as) = a.chunk.data.length + received as := rfl
      rw [hsum, ← Nat.add_assoc] at hfuel
      rw [calls_cons, HttpServer.receiveAll]
      cases hb : s.buf.append a.chunk.data a.chunk.data.length with
      | error e =>
          rw [hb] at happend
          cases happend
          rw [receive_throws hb, Loop.error_andThen]
          refine ⟨fun _ => ⟨by simp, by simp⟩, fun _ => survives_throws⟩
      | ok buf =>
          have hrep := happend.of_eq_ok hb
          have hlen : buf.readable.length ≤ n + a.chunk.data.length := by
            rw [hrep.content, List.length_append]
            exact Nat.add_le_add_right h.length_le _
          have hctx : s.context.Ready ∨ s.context.Stuck buf.readable := by
            rw [hrep.content]
            exact h.context.imp_right fun hstuck => hstuck.append _
          have hfirst : (∀ buf', (Except.ok buf : Outcome Buffer) = .ok buf' → s.context.expectRequestLine = true →
              s.context.request.method = .kInvalid) ↔ s.context.Ready := by
            rw [ready_iff hctx]
            exact ⟨fun hall => hall buf rfl, fun hall _ _ => hall⟩
          rw [receive_eq hb, hfirst]
          rcases hctx with hready | hstuck
          · obtain ⟨r, hr, hsafe⟩ := onMessage_ready server a (s := { s with buf })
              h.outputs hrep.toValid hready hlen (lt_of_le_of_lt (Nat.le_add_right _ _) hfuel)
            rw [hr]
            cases hsafe with
            | throws =>
                rw [Loop.error_andThen]
                exact ⟨fun _ => ⟨hready, by simp⟩, fun _ => survives_throws⟩
            | @ok s₁ _ hcalm =>
                rw [Loop.ok_andThen, ih hcalm hfuel]
                refine ⟨fun hall => ⟨hready, ?_⟩, fun hall => hall.2 s₁ rfl⟩
                rintro s₂ ⟨⟩
                exact hall
          · -- the refused line is still there, and the method is already set
            have hmsg := onMessage_stuck server a (s := { s with buf }) hrep.toValid hstuck
              (lt_of_le_of_lt (Nat.zero_le _) hfuel)
            rw [hmsg, Loop.error_andThen]
            exact ⟨fun hnot => absurd hnot not_survives_assertion, fun hall => absurd hall.1 hstuck.not_ready⟩

/-- **What the server survives.** For every sequence of chunks of arbitrary bytes on a connection, the run
    commits no defect if and only if every call of `onMessage` that expects a request line finds no method set
    in the request. -/
theorem receiveAll_survives_iff (server : HttpServer) {conn : TcpConnection} (hconn : conn.Outputs)
    (as : List Received) {fuel : Nat} (hfuel : received as < fuel) :
    Survives (server.receiveAll fuel (onConnection conn) as) ↔
    ∀ s, Calls server fuel (onConnection conn) as s → s.context.expectRequestLine = true →
      s.context.request.method = .kInvalid :=
  (calm_onConnection hconn).receiveAll_iff (by rw [Nat.zero_add]; exact hfuel)

/-- A connection that is up, with nothing to write. -/
def upConnection : TcpConnection := (TcpConnection.new false false).setState .kConnected

theorem outputs_upConnection : upConnection.Outputs :=
  ⟨(TcpConnection.outputs_new false false).rep, (TcpConnection.outputs_new false false).interest⟩

/-- A server that answers every request with an empty text. -/
def emptyServer : HttpServer := ⟨fun _ close => ⟨⟨[], by decide⟩, close⟩⟩

/-- A chunk, with a kernel that takes whatever is written. -/
def chunkOf (data : List UInt8) (h : data.length < maxObject) : Received :=
  ⟨⟨data, h⟩, Timestamp.invalid, .wrote 1024, .wrote 1024⟩

/-- `Q` holds at all calls of a run, which are computed. -/
def callsAll (server : HttpServer) (fuel : Nat) (Q : HttpSession → Prop) [DecidablePred Q] :
    HttpSession → List Received → Bool
  | _, [] => true
  | s, a :: as =>
      ((s.buf.append a.chunk.data a.chunk.data.length).toOption.all fun buf => Q { s with buf }) &&
        ((server.receive fuel s a).all fun r => r.toOption.all fun s₁ => callsAll server fuel Q s₁ as)

theorem Calls.of_callsAll {Q : HttpSession → Prop} [DecidablePred Q] {s s' : HttpSession} {as : List Received}
    (hs' : Calls server fuel s as s') (h : callsAll server fuel Q s as = true) : Q s' := by
  induction hs' with
  | first hb =>
      rw [callsAll, hb, Bool.and_eq_true] at h
      exact of_decide_eq_true h.1
  | later hs₁ _ ih =>
      rw [callsAll, hs₁, Bool.and_eq_true] at h
      exact ih h.2

/-- `GET / HTTP/1.1` with a header, up to the carriage return behind it. -/
def firstPart : List UInt8 :=
  chars ['G', 'E', 'T', ' ', '/', ' '] ++ http1 ++ chars ['1', '\r', '\n', 'A', ':', 'b', '\r']

/-- The end of the headers, and four bytes of the next request. -/
def secondPart : List UInt8 := chars ['\n', '\r', '\n', 'P', 'O', 'S', 'T']

/-- Two requests in three chunks. -/
theorem receiveAll_survives_two : ∃ as : List Received,
    as.map (·.chunk.data) =
      [firstPart, secondPart, chars [' ', '/', ' '] ++ http1 ++ chars ['0', '\r', '\n', '\r', '\n']] ∧
    Survives (emptyServer.receiveAll 45 (onConnection upConnection) as) := by
  refine ⟨[chunkOf firstPart (by decide), chunkOf secondPart (by decide),
    chunkOf (chars [' ', '/', ' '] ++ http1 ++ chars ['0', '\r', '\n', '\r', '\n']) (by decide)], rfl, ?_⟩
  refine (receiveAll_survives_iff emptyServer outputs_upConnection _ (by decide)).mpr fun s hs => ?_
  exact hs.of_callsAll (Q := fun s => s.context.expectRequestLine = true → s.context.request.method = .kInvalid)
    (by decide +kernel)

/-- `GET / HTTP/2.0`. -/
def http2Line : List UInt8 :=
  chars ['G', 'E', 'T', ' ', '/', ' ', 'H', 'T', 'T', 'P', '/', '2', '.', '0']

/-- That line is refused with the method already set, and any byte that follows makes `setMethod` fail. -/
theorem receiveAll_refused_twice : ∃ a₁ a₂ : Received,
    a₁.chunk.data = http2Line ++ kCRLF ∧ a₂.chunk.data = chars ['G'] ∧
    emptyServer.receiveAll 18 (onConnection upConnection) [a₁, a₂] = some (.error .assertion) := by
  refine ⟨chunkOf (http2Line ++ kCRLF) (by decide), chunkOf (chars ['G']) (by decide), rfl, rfl, ?_⟩
  obtain ⟨b₁, hb₁, h₁⟩ := append_ok (d := http2Line ++ kCRLF) new_rep (by decide)
  obtain ⟨b₂, hb₂, h₂⟩ := append_ok (d := chars ['G']) h₁ (by decide)
  have hstarts : StartsWith (http2Line ++ kCRLF) http2Line [] := ⟨by rw [List.append_nil], by decide⟩
  rw [List.nil_append] at h₁ h₂
  -- the first call refuses the line
  let req : HttpRequest := { HttpRequest.new with method := .kGet, path := chars ['/'] }
  have hline : processRequestLine http2Line HttpRequest.new = .ok (false, req) := rfl
  have hparse : parseRequest 18 b₁ HttpContext.new Timestamp.invalid =
      some (.ok ⟨b₁, ⟨.kExpectRequestLine, req⟩, false⟩) :=
    Loop.run_leave (parseIteration_refused h₁ hstarts hline)
  obtain ⟨conn, hconn⟩ : ∃ conn, reject upConnection (.wrote 1024) = .ok conn := ⟨_, rfl⟩
  have hfirst : emptyServer.receive 18 (onConnection upConnection) (chunkOf (http2Line ++ kCRLF) (by decide)) =
      some (.ok ⟨conn, b₁, ⟨.kExpectRequestLine, req⟩, []⟩) := by
    rw [receive_eq (s := onConnection upConnection) (a := chunkOf (http2Line ++ kCRLF) (by decide)) hb₁]
    unfold onMessage
    show Loop.andThen (parseRequest 18 b₁ HttpContext.new Timestamp.invalid) _ = _
    rw [hparse, Loop.ok_andThen]
    unfold respond
    dsimp only
    rw [if_neg (by decide)]
    show some (reject upConnection (.wrote 1024) >>= _) = _
    rw [hconn]
    rfl
  -- and the second call starts with it
  have hsecond : emptyServer.receive 18 ⟨conn, b₁, ⟨.kExpectRequestLine, req⟩, []⟩
      (chunkOf (chars ['G']) (by decide)) = some (.error .assertion) := by
    rw [receive_eq (s := ⟨conn, b₁, ⟨.kExpectRequestLine, req⟩, []⟩) (a := chunkOf (chars ['G']) (by decide)) hb₂]
    refine onMessage_stuck _ _ h₂.toValid ⟨rfl, show Method.kGet ≠ .kInvalid by decide, http2Line, chars ['G'],
      ⟨?_, by decide⟩, by decide⟩
      (by decide)
    exact h₂.content
  rw [receiveAll, hfirst, Loop.ok_andThen, receiveAll, hsecond, Loop.error_andThen]

/-! ## Every loop ends -/

/-- **One chunk** keeps the invariant, if its call returns. -/
theorem Calm.receive (h : Calm s n) (hfuel : n + a.chunk.data.length < fuel)
    (hs : server.receive fuel s a = some (.ok s')) : Calm s' (n + a.chunk.data.length) := by
  have happend := append_bytes_rep h.valid.rep a.chunk
  cases hb : s.buf.append a.chunk.data a.chunk.data.length with
  | error e =>
      rw [receive_throws hb] at hs
      cases hs
  | ok buf =>
      have hrep := happend.of_eq_ok hb
      have hlen : buf.readable.length ≤ n + a.chunk.data.length := by
        rw [hrep.content, List.length_append]
        exact Nat.add_le_add_right h.length_le _
      rw [receive_eq hb] at hs
      rcases h.context with hready | hstuck
      · obtain ⟨r, hr, hsafe⟩ := onMessage_ready server a (s := { s with buf }) h.outputs hrep.toValid hready hlen
          hfuel
        rw [hs] at hr
        exact hsafe.of_eq_ok (Option.some.inj hr).symm
      · -- a call on a context that is stuck does not return
        have hstuck' : s.context.Stuck buf.readable := by
          rw [hrep.content]
          exact hstuck.append _
        rw [onMessage_stuck server a (s := { s with buf }) hrep.toValid hstuck'
          (lt_of_le_of_lt (Nat.zero_le _) hfuel)] at hs
        cases hs

/-- **Every call** is made on a valid buffer, with a context that is ready or stuck. -/
theorem Calm.calls (h : Calm s n) (hfuel : n + received as < fuel) (hs' : Calls server fuel s as s') :
    s'.buf.Valid ∧ s'.buf.readable.length < fuel ∧ (s'.context.Ready ∨ s'.context.Stuck s'.buf.readable) := by
  induction hs' generalizing n with
  | @first s a as buf hb =>
      have hrep := (append_bytes_rep h.valid.rep a.chunk).of_eq_ok hb
      have hsum : received (a :: as) = a.chunk.data.length + received as := rfl
      refine ⟨hrep.toValid, ?_, ?_⟩
      · have hle := h.length_le
        show buf.readable.length < fuel
        rw [hrep.content, List.length_append]
        omega
      · show s.context.Ready ∨ s.context.Stuck buf.readable
        rw [hrep.content]
        exact h.context.imp_right fun hstuck => hstuck.append _
  | @later s s₁ s' a as hs₁ _ ih =>
      have hsum : received (a :: as) = a.chunk.data.length + received as := rfl
      rw [hsum, ← Nat.add_assoc] at hfuel
      exact ih (h.receive (by omega) hs₁) hfuel

/-- Every iteration of a loop that starts in a context that is ready leaves the loop, or has retrieved a line. -/
theorem iteration_of_visits {p₀ p : Parse} (hvalid : p₀.buf.Valid) (hctx : p₀.context.Ready)
    (hp : Loop.Visits (parseIteration t) p₀ p) : (∃ p', parseIteration t p = .ok (.leave p')) ∨
      ∃ p', parseIteration t p = .ok (.again p') ∧ p'.buf.readable.length + 2 ≤ p.buf.readable.length := by
  have hI : p.buf.Valid ∧ p.context.Ready := by
    refine hp.inv (I := fun p => p.buf.Valid ∧ p.context.Ready) ?_ ⟨hvalid, hctx⟩
    rintro p p' ⟨hv, hc⟩ hiter
    rcases parseIteration_ready (t := t) hv hc with ⟨p₁, hleave, -⟩ | ⟨p₁, hagain, hI', -⟩
    · rw [hleave] at hiter
      cases hiter
    · rw [hagain] at hiter
      obtain rfl := Loop.Step.again.inj (Except.ok.inj hiter)
      exact hI'
  rcases parseIteration_ready (t := t) hI.1 hI.2 with ⟨p', hleave, -⟩ | ⟨p', hagain, -, hlen⟩
  · exact Or.inl ⟨p', hleave⟩
  · exact Or.inr ⟨p', hagain, hlen⟩

/-- **Parsing terminates.** For every sequence of chunks of arbitrary bytes on a connection, every call of
    `onMessage` enters `parseRequest` with a context that expects a request line or headers. If no assertion
    fails in it the loop ends, and each of its iterations retrieves at least two bytes or is the last one. -/
theorem parseRequest_terminates (server : HttpServer) {conn : TcpConnection} (hconn : conn.Outputs)
    (as : List Received) {fuel : Nat} (hfuel : received as < fuel) {s : HttpSession}
    (hs : Calls server fuel (onConnection conn) as s) (t : Timestamp)
    (hassert : parseRequest fuel s.buf s.context t ≠ some (.error .assertion)) :
    (s.context.state = .kExpectRequestLine ∨ s.context.state = .kExpectHeaders) ∧
    (∃ p, parseRequest fuel s.buf s.context t = some (.ok p)) ∧
    ∀ p, Loop.Visits (parseIteration t) ⟨s.buf, s.context, true⟩ p →
      (∃ p', parseIteration t p = .ok (.leave p')) ∨
      ∃ p', parseIteration t p = .ok (.again p') ∧ p'.buf.readable.length + 2 ≤ p.buf.readable.length := by
  obtain ⟨hvalid, hlen, hctx⟩ := (calm_onConnection hconn).calls (by rw [Nat.zero_add]; exact hfuel) hs
  rcases hctx with hready | hstuck
  · refine ⟨?_, ?_, ?_⟩
    · exact hready.symm.imp_left And.left
    · obtain ⟨p, hparse, -⟩ := parseRequest_ready (t := t) hvalid hready hlen
      exact ⟨p, hparse⟩
    · intro p hp
      exact iteration_of_visits hvalid hready hp
  · exact absurd (parseRequest_stuck hvalid hstuck (lt_of_le_of_lt (Nat.zero_le _) hlen)) hassert

/-- The second chunk of a request: the call begins in the middle of the headers, and its first iteration takes one
    of them off the buffer. -/
theorem parseRequest_terminates_second : ∃ (as : List Received) (s : HttpSession),
    as.map (·.chunk.data) = [firstPart, secondPart] ∧
    Calls emptyServer 30 (onConnection upConnection) as s ∧ s.context.state = .kExpectHeaders ∧
    (∃ p, parseRequest 30 s.buf s.context Timestamp.invalid = some (.ok p)) ∧
    ∃ p, parseIteration Timestamp.invalid ⟨s.buf, s.context, true⟩ = .ok (.again p) ∧
      p.buf.readable.length + 2 ≤ s.buf.readable.length := by
  -- the two calls, computed
  have hrun : ((emptyServer.receive 30 (onConnection upConnection) (chunkOf firstPart (by decide))).any fun r =>
      Returns r fun s => s.context.state = .kExpectHeaders ∧
        Returns (s.buf.append secondPart secondPart.length) fun buf =>
          ((parseRequest 30 buf s.context Timestamp.invalid).any fun r => Returns r fun _ => True) = true ∧
            Returns (parseIteration Timestamp.invalid ⟨buf, s.context, true⟩) fun step =>
              (step matches .again _) = true) = true := by decide +kernel
  obtain ⟨r, hs, hrun⟩ := (Option.any_eq_true _ _).mp hrun
  obtain ⟨s, rfl, hstate, buf, hbuf, hparse, step, hstep, hagain⟩ := of_decide_eq_true hrun
  have hcall : Calls emptyServer 30 (onConnection upConnection)
      [chunkOf firstPart (by decide), chunkOf secondPart (by decide)] { s with buf } := .later hs (.first hbuf)
  have hassert : parseRequest 30 buf s.context Timestamp.invalid ≠ some (.error .assertion) := by
    intro heq
    rw [heq] at hparse
    cases hparse
  obtain ⟨-, hreturns, hiterations⟩ := parseRequest_terminates emptyServer outputs_upConnection _ (by decide) hcall
    Timestamp.invalid hassert
  refine ⟨_, _, rfl, hcall, hstate, hreturns, ?_⟩
  rcases hiterations _ .start with ⟨p', hleave⟩ | hagain'
  · obtain rfl := Except.ok.inj (hstep.symm.trans hleave)
    cases hagain
  · exact hagain'

end HttpServer

end Muduo.Net
