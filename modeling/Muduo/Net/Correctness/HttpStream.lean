import Muduo.Lib.Blocks
import Muduo.Net.Correctness.HttpRequestLine

/-!
# `Correctness.HttpStream` — a stream of requests, cut anywhere

The parser consumes a request line by line, so that between two calls of `onMessage` it may be anywhere in a
request (`At`), and the input buffer may hold any number of whole requests: `onMessage` looks for one of them
only. After every chunk the number of requests served grows by one if another one is complete, and by none
otherwise (`Synced.receive`), which determines the cuts by which all requests of a stream are served.
-/

namespace Muduo.Net

open Lib Blocks Buffer

/-! ## Requests as text -/

/-- A request without a body: the parts of its first line, and the lines of its headers. -/
structure RequestText where
  method : Method
  path : List UInt8
  version : Version
  headers : List (List UInt8)
deriving DecidableEq, Repr

/-- What a handler sees of a request, apart from the time. -/
structure Content where
  method : Method
  version : Version
  path : List UInt8
  headers : List UInt8 → Option (List UInt8)

def HttpRequest.content (req : HttpRequest) : Content := ⟨req.method, req.version, req.path, req.headers⟩

namespace RequestText

def requestLine (r : RequestText) : List UInt8 :=
  HttpRequest.methodString r.method ++ 0x20 :: (r.path ++ 0x20 :: versionText r.version)

def lines (r : RequestText) : List (List UInt8) := r.requestLine :: (r.headers ++ [[]])

/-- Lines with their ends. -/
def render (lines : List (List UInt8)) : List UInt8 := (lines.map (· ++ kCRLF)).flatten

def text (r : RequestText) : List UInt8 := render r.lines

/-- What the parser has made of the request after the header lines `hs`. -/
def upTo (r : RequestText) (t : Timestamp) (hs : List (List UInt8)) : HttpRequest :=
  hs.foldl HttpRequest.addLine ⟨r.method, r.version, r.path, t, fun _ => none⟩

/-- What a handler is to see. -/
def content (r : RequestText) : Content := (r.upTo Timestamp.invalid r.headers).content

/-- The request can be read back: it has one of the methods and versions there are, no space in its path, a
    colon in each header, and no line end inside a line. -/
structure WellFormed (r : RequestText) : Prop where
  method : r.method ≠ .kInvalid
  version : r.version ≠ .kUnknown
  path : 0x20 ∉ r.path
  requestLine : FirstAt kCRLF r.requestLine
  headers : ∀ h ∈ r.headers, 0x3a ∈ h ∧ FirstAt kCRLF h

end RequestText

open RequestText

variable {r : RequestText} {req : HttpRequest} {l q : List UInt8} {ls : List (List UInt8)} {t t' : Timestamp}
variable {b : Buffer} {pre : Bool} {c c' : HttpContext} {fuel : Nat}

@[simp] theorem render_nil : render [] = [] := rfl

@[simp] theorem render_cons : render (l :: ls) = l ++ kCRLF ++ render ls := by
  unfold render
  rw [List.map_cons, List.flatten_cons]

theorem length_le_render : ls.length ≤ (render ls).length := by
  induction ls with
  | nil => exact Nat.le_refl _
  | cons l ls ih =>
      have : kCRLF.length = 2 := rfl
      rw [render_cons, List.length_append, List.length_append, List.length_cons]
      omega

/-- The time of the request line is carried along, and nothing depends on it. -/
theorem content_addLine {req₁ req₂ : HttpRequest} (h : req₁.content = req₂.content) (l : List UInt8) :
    (req₁.addLine l).content = (req₂.addLine l).content := by
  simp only [HttpRequest.content, Content.mk.injEq] at h
  obtain ⟨hmethod, hversion, hpath, hheaders⟩ := h
  simp only [HttpRequest.content, HttpRequest.addLine, HttpRequest.addHeader, hmethod, hversion, hpath, hheaders]

theorem content_upTo (r : RequestText) (t : Timestamp) : (r.upTo t r.headers).content = r.content := by
  unfold RequestText.content upTo
  generalize r.headers = hs
  have hbase : (⟨r.method, r.version, r.path, t, fun _ => none⟩ : HttpRequest).content =
      (⟨r.method, r.version, r.path, Timestamp.invalid, fun _ => none⟩ : HttpRequest).content := rfl
  revert hbase
  generalize (⟨r.method, r.version, r.path, t, fun _ => none⟩ : HttpRequest) = req₁
  generalize (⟨r.method, r.version, r.path, Timestamp.invalid, fun _ => none⟩ : HttpRequest) = req₂
  intro hbase
  induction hs generalizing req₁ req₂ with
  | nil => exact hbase
  | cons l hs ih => exact ih _ _ (content_addLine hbase l)

/-! ## The request line -/

theorem RequestText.WellFormed.isRequestLine (hr : r.WellFormed) :
    IsRequestLine r.requestLine r.method r.path r.version where
  eq := rfl
  method := hr.method
  path := hr.path
  version := hr.version

/-- **The request line of a well-formed request is accepted.** -/
theorem processRequestLine_wellFormed (hr : r.WellFormed) (hreq : req.method = .kInvalid) :
    processRequestLine r.requestLine req =
      .ok (true, { req with method := r.method, path := r.path, version := r.version }) :=
  hr.isRequestLine.accepted hreq

/-! ## Positions in a request -/

/-- A context between two requests; the version is that of the last one. -/
def HttpContext.idle (v : Version) : HttpContext := ⟨.kExpectRequestLine, { HttpRequest.new with version := v }⟩

/-- The context of a parser that has still to read the lines `ls` of `r`. -/
inductive At (r : RequestText) : List (List UInt8) → HttpContext → Prop where
  | fresh (v : Version) : At r r.lines (.idle v)
  | headers {hs₁ hs₂ : List (List UInt8)} (t : Timestamp) : r.headers = hs₁ ++ hs₂ →
      At r (hs₂ ++ [[]]) ⟨.kExpectHeaders, r.upTo t hs₁⟩

theorem At.state (h : At r ls c) : c.state = .kExpectRequestLine ∨ c.state = .kExpectHeaders := by
  cases h with
  | fresh v => exact Or.inl rfl
  | headers t heq => exact Or.inr rfl

theorem At.ne_nil (h : At r ls c) : ls ≠ [] := by
  cases h with
  | fresh v => simp [lines]
  | headers t heq => simp

theorem At.firstAt (h : At r (l :: ls) c) (hr : r.WellFormed) : FirstAt kCRLF l := by
  generalize hls : l :: ls = all at h
  cases h with
  | fresh v =>
      cases hls
      exact hr.requestLine
  | @headers hs₁ hs₂ t heq =>
      cases hs₂ with
      | nil =>
          cases hls
          decide
      | cons h hs₂ =>
          cases hls
          exact (hr.headers l (by rw [heq]; simp)).2

/-- **One line of a request**, the last or another one. -/
theorem At.iterate (h : At r (l :: ls) c) (hr : r.WellFormed) {rest : List UInt8}
    (hb : b.Rep (l ++ kCRLF ++ rest) pre) : ∃ b', b'.Rep rest pre ∧
      ((∃ c', At r ls c' ∧ parseIteration t ⟨b, c, true⟩ = .ok (.again ⟨b', c', true⟩)) ∨
       (ls = [] ∧ ∃ req, req.content = r.content ∧
        parseIteration t ⟨b, c, true⟩ = .ok (.leave ⟨b', ⟨.kGotAll, req⟩, true⟩))) := by
  have hq : StartsWith (l ++ kCRLF ++ rest) l rest := ⟨rfl, h.firstAt hr⟩
  generalize hls : l :: ls = all at h
  cases h with
  | fresh v =>
      cases hls
      obtain ⟨b', hb', hiter⟩ := parseIteration_requestLine t true hb hq
        (processRequestLine_wellFormed hr (show (HttpContext.idle v).request.method = _ from rfl))
      exact ⟨b', hb', Or.inl ⟨_, .headers t (List.nil_append r.headers).symm, hiter⟩⟩
  | @headers hs₁ hs₂ t₀ heq =>
      cases hs₂ with
      | nil =>
          cases hls
          obtain ⟨b', hb', hiter⟩ := parseIteration_end t (r.upTo t₀ hs₁) true hb hq
            (by simp)
          refine ⟨b', hb', Or.inr ⟨rfl, _, ?_, hiter⟩⟩
          rw [List.append_nil] at heq
          rw [← heq, content_upTo]
      | cons h hs₂ =>
          cases hls
          have hcolon := (hr.headers l (by rw [heq]; simp)).1
          obtain ⟨b', hb', hiter⟩ := parseIteration_header t (r.upTo t₀ hs₁) true hb hq hcolon
          refine ⟨b', hb', Or.inl ⟨_, ?_, hiter⟩⟩
          have hfold : (r.upTo t₀ hs₁).addLine l = r.upTo t₀ (hs₁ ++ [l]) := by simp [upTo]
          rw [hfold]
          exact .headers t₀ (by rw [heq, List.append_assoc]; rfl)

/-- **The rest of the request is there**: it is read, and nothing more. -/
theorem parseRequest_whole (h : At r ls c) (hr : r.WellFormed) {rest : List UInt8}
    (hb : b.Rep (render ls ++ rest) pre) (hfuel : ls.length ≤ fuel) :
    ∃ b' req, parseRequest fuel b c t = some (.ok ⟨b', ⟨.kGotAll, req⟩, true⟩) ∧ b'.Rep rest pre ∧
      req.content = r.content := by
  induction ls generalizing b c fuel with
  | nil => exact absurd rfl h.ne_nil
  | cons l ls ih =>
      obtain ⟨fuel, rfl⟩ := Nat.exists_eq_succ_of_ne_zero (Nat.ne_of_gt (lt_of_lt_of_le (Nat.succ_pos _) hfuel))
      rw [render_cons, List.append_assoc] at hb
      obtain ⟨b₁, hb₁, ⟨c₁, hc₁, hiter⟩ | ⟨rfl, req, hreq, hiter⟩⟩ := h.iterate (t := t) hr hb
      · obtain ⟨b₂, req, hrun, hb₂, hreq⟩ := ih hc₁ hb₁ (Nat.le_of_succ_le_succ hfuel)
        exact ⟨b₂, req, (Loop.run_again hiter).trans hrun, hb₂, hreq⟩
      · exact ⟨b₁, req, Loop.run_leave hiter, hb₁, hreq⟩

/-- **A part of the request is there**: its whole lines are read, and the last of them is not among these. -/
theorem parseRequest_part (h : At r ls c) (hr : r.WellFormed) (hb : b.Rep q pre) (hq : q <+: render ls)
    (hlen : q.length < (render ls).length) (hfuel : q.length < fuel) :
    ∃ b' c' consumed ls', parseRequest fuel b c t = some (.ok ⟨b', c', true⟩) ∧ At r ls' c' ∧
      render ls = consumed ++ render ls' ∧ q = consumed ++ b'.readable ∧ b'.Valid := by
  induction ls generalizing b c fuel q with
  | nil => exact absurd rfl h.ne_nil
  | cons l ls ih =>
      obtain ⟨fuel, rfl⟩ := Nat.exists_eq_succ_of_ne_zero (Nat.ne_of_gt (lt_of_le_of_lt (Nat.zero_le _) hfuel))
      rw [render_cons] at hq hlen ⊢
      by_cases hline : q.length < (l ++ kCRLF).length
      · -- the line is not complete
        have hpre : q <+: l ++ kCRLF := List.prefix_of_prefix_length_le hq (List.prefix_append _ _) hline.le
        have hwait := parseIteration_wait (t := t) (p := ⟨b, c, true⟩) hb
          ((h.firstAt hr).search_part hpre hline) h.state
        refine ⟨b, c, [], l :: ls, Loop.run_leave hwait, h, ?_, ?_, hb.toValid⟩
        · rw [render_cons, List.nil_append]
        · rw [hb.content, List.nil_append]
      · obtain ⟨q', rfl⟩ := List.prefix_of_prefix_length_le (List.prefix_append _ _) hq (not_lt.mp hline)
        rw [List.prefix_append_right_inj] at hq
        simp only [List.length_append] at hlen hfuel
        obtain ⟨b₁, hb₁, ⟨c₁, hc₁, hiter⟩ | ⟨rfl, req, -, -⟩⟩ := h.iterate (t := t) hr hb
        · have hshort : q'.length < fuel := by
            have : kCRLF.length = 2 := rfl
            omega
          obtain ⟨b₂, c₂, consumed, ls', hrun, hat, hrender, hq', hvalid⟩ := ih hc₁ hb₁ hq (by omega) hshort
          refine ⟨b₂, c₂, l ++ kCRLF ++ consumed, ls', (Loop.run_again hiter).trans hrun, hat, ?_, ?_, hvalid⟩
          · rw [hrender, List.append_assoc (l ++ kCRLF)]
          · rw [hq', List.append_assoc (l ++ kCRLF)]
        · rw [render_nil] at hlen
          exact absurd hlen (by simp)

/-! ## The stream -/

namespace HttpServer

variable {server : HttpServer} {s : HttpSession} {a : Received} {as : List Received} {rs done todo : List RequestText}
variable {R consumed : List UInt8}

/-- The bytes of the requests. -/
def stream (rs : List RequestText) : List UInt8 := (rs.map text).flatten

@[simp] theorem stream_cons : stream (r :: rs) = r.text ++ stream rs := by
  unfold stream
  rw [List.map_cons, List.flatten_cons]

theorem stream_append : stream (done ++ todo) = stream done ++ stream todo := by
  unfold stream
  rw [List.map_append, List.flatten_append]

/-- Where the parser is in the requests `todo`: it has consumed a part of the first of them. -/
inductive Position : List RequestText → List UInt8 → HttpContext → Prop where
  | finished (v : Version) : Position [] [] (.idle v)
  | reading {r : RequestText} {todo : List RequestText} {ls : List (List UInt8)} {consumed : List UInt8}
      {c : HttpContext} : At r ls c → r.text = consumed ++ render ls → Position (r :: todo) consumed c

theorem position_idle (todo : List RequestText) (v : Version) : Position todo [] (.idle v) := by
  cases todo with
  | nil => exact .finished v
  | cons r todo => exact .reading (.fresh v) rfl

/-- What holds after the bytes `R` of the stream of `rs` have been received: `done` has been served. -/
structure Synced (rs : List RequestText) (R : List UInt8) (s : HttpSession) (done todo : List RequestText) :
    Prop where
  split : rs = done ++ todo
  served : s.requests.map HttpRequest.content = done.map RequestText.content
  outputs : s.conn.Outputs
  valid : s.buf.Valid
  position : ∃ consumed, Position todo consumed s.context ∧ R = stream done ++ consumed ++ s.buf.readable

theorem synced_onConnection {conn : TcpConnection} (h : conn.Outputs) (rs : List RequestText) :
    Synced rs [] (onConnection conn) [] rs where
  split := rfl
  served := rfl
  outputs := h
  valid := new_rep.toValid
  position := ⟨[], position_idle rs _, new_rep.content.symm⟩

/-- Another request is complete exactly if the rest of the one being read is there. -/
theorem lt_wholes_iff (hsplit : rs = done ++ r :: todo) (htext : r.text = consumed ++ render ls) :
    done.length < wholes (rs.map text) (stream done ++ consumed ++ q).length ↔
      (render ls).length ≤ q.length := by
  have hlen : (stream done ++ consumed ++ q).length =
      (done.map text).flatten.length + (consumed.length + q.length) := by
    rw [List.length_append, List.length_append, Nat.add_assoc]
    rfl
  rw [hlen, hsplit, List.map_append, wholes_append, List.length_map, List.map_cons, wholes, htext,
    List.length_append]
  split <;> omega

/-- **The requests served after another chunk**: one more, if one more is complete. -/
def Advanced (rs : List RequestText) (R : List UInt8) (done : List RequestText) (s : HttpSession) : Prop :=
  ∃ done' todo', Synced rs R s done' todo' ∧
    done'.length = if done.length < wholes (rs.map text) R.length then done.length + 1 else done.length

/-- The rest of a request has arrived. -/
theorem Synced.receive_whole {rest : List UInt8} (h : Synced rs R s done (r :: todo)) (hr : r.WellFormed)
    (hat : At r ls s.context) (htext : r.text = consumed ++ render ls) (hb : b.Rep (render ls ++ rest) pre)
    (hfuel : ls.length ≤ fuel) : ∃ o, server.onMessage fuel { s with buf := b } a = some o ∧
      Safe o (Advanced rs (stream done ++ consumed ++ (render ls ++ rest)) done) := by
  obtain ⟨b', req, hparse, hb', hreq⟩ := parseRequest_whole (t := a.time) hat hr hb hfuel
  refine ⟨server.respond { s with buf := b } ⟨b', ⟨.kGotAll, req⟩, true⟩ a, ?_, ?_⟩
  · unfold onMessage
    rw [hparse, Loop.ok_andThen]
  · refine (respond_answered (s := { s with buf := b }) h.outputs _ a).mono ?_
    intro s' hans
    obtain ⟨hctx, hreqs⟩ := hans.served rfl
    have hbuf : s'.buf = b' := hans.buf
    refine ⟨done ++ [r], todo, ⟨?_, ?_, hans.outputs, by rw [hbuf]; exact hb'.toValid, [], ?_, ?_⟩, ?_⟩
    · rw [h.split, List.append_assoc]
      rfl
    · rw [hreqs, List.map_append, List.map_append, h.served]
      show _ ++ [req.content] = _
      rw [hreq]
      rfl
    · rw [hctx]
      exact position_idle todo _
    · rw [hbuf, hb'.content, stream_append]
      simp [stream, htext]
    · have hlt := (lt_wholes_iff (q := render ls ++ rest) h.split htext).mpr (by simp)
      rw [if_pos hlt, List.length_append]
      rfl

/-- A part of a request has arrived. -/
theorem Synced.receive_part (h : Synced rs R s done (r :: todo)) (hr : r.WellFormed)
    (hat : At r ls s.context) (htext : r.text = consumed ++ render ls) (hb : b.Rep q pre)
    (hq : q <+: render ls) (hlen : q.length < (render ls).length) (hfuel : q.length < fuel) :
    ∃ o, server.onMessage fuel { s with buf := b } a = some o ∧
      Safe o (Advanced rs (stream done ++ consumed ++ q) done) := by
  obtain ⟨b', c', more, ls', hparse, hat', hrender, hq', hvalid⟩ :=
    parseRequest_part (t := a.time) hat hr hb hq hlen hfuel
  refine ⟨server.respond { s with buf := b } ⟨b', c', true⟩ a, ?_, ?_⟩
  · unfold onMessage
    rw [hparse, Loop.ok_andThen]
  · refine (respond_answered (s := { s with buf := b }) h.outputs _ a).mono ?_
    intro s' hans
    have hnot : c'.gotAll = false := by
      unfold HttpContext.gotAll
      rcases hat'.state with hs | hs <;> rw [hs] <;> rfl
    obtain ⟨hctx, hreqs⟩ := hans.unserved hnot
    have hbuf : s'.buf = b' := hans.buf
    have hstays : ¬ done.length < wholes (rs.map text) (stream done ++ consumed ++ q).length := by
      rw [lt_wholes_iff h.split htext]
      exact not_le.mpr hlen
    refine ⟨done, r :: todo, ⟨h.split, by rw [hreqs]; exact h.served, hans.outputs, by rw [hbuf]; exact hvalid,
      consumed ++ more, ?_, ?_⟩, by rw [if_neg hstays]⟩
    · rw [hctx]
      exact .reading hat' (by rw [htext, hrender, List.append_assoc])
    · rw [hbuf, hq']
      simp [List.append_assoc]

/-- Nothing is left to arrive. -/
theorem Synced.receive_nothing (h : Synced rs R s done []) (hb : b.Rep [] pre) {v : Version}
    (hctx : s.context = .idle v) (hfuel : 0 < fuel) : ∃ o, server.onMessage fuel { s with buf := b } a = some o ∧
      Safe o (Advanced rs (stream done) done) := by
  obtain ⟨fuel, rfl⟩ := Nat.exists_eq_succ_of_ne_zero (Nat.ne_of_gt hfuel)
  have hwait := parseIteration_wait (t := a.time) (p := ⟨b, .idle v, true⟩) hb rfl (Or.inl rfl)
  refine ⟨server.respond { s with buf := b } ⟨b, .idle v, true⟩ a, ?_, ?_⟩
  · unfold onMessage parseRequest
    dsimp only
    rw [hctx, Loop.run_leave hwait, Loop.ok_andThen]
  · refine (respond_answered (s := { s with buf := b }) h.outputs _ a).mono ?_
    intro s' hans
    obtain ⟨hctx', hreqs⟩ := hans.unserved rfl
    have hbuf : s'.buf = b := hans.buf
    have hall : rs = done := by rw [h.split, List.append_nil]
    have hstays : ¬ done.length < wholes (rs.map text) (stream done).length := by
      have hle : wholes (rs.map text) (stream done).length ≤ (rs.map text).length := wholes_le_length
      rw [List.length_map, hall] at hle
      rw [hall]
      exact not_lt.mpr hle
    refine ⟨done, [], ⟨h.split, by rw [hreqs]; exact h.served, hans.outputs, by rw [hbuf]; exact hb.toValid,
      [], ?_, ?_⟩, by rw [if_neg hstays]⟩
    · rw [hctx']
      exact .finished v
    · rw [hbuf, hb.content, List.append_nil, List.append_nil]

/-- **One chunk.** -/
theorem Synced.receive (h : Synced rs R s done todo) (hrs : ∀ r ∈ rs, r.WellFormed) (server : HttpServer)
    (a : Received) (hpre : R ++ a.chunk.data <+: stream rs) (hfuel : (stream rs).length < fuel) :
    ∃ o, server.receive fuel s a = some o ∧ Safe o (Advanced rs (R ++ a.chunk.data) done) := by
  have happend := append_bytes_rep h.valid.rep a.chunk
  cases hb : s.buf.append a.chunk.data a.chunk.data.length with
  | error e =>
      rw [hb] at happend
      cases happend
      exact ⟨_, receive_throws hb, Safe.throws⟩
  | ok buf =>
      have hrep := happend.of_eq_ok hb
      obtain ⟨consumed, hpos, hR⟩ := h.position
      have hlen := hpre.length_le
      rw [receive_eq hb]
      rw [hR, List.append_assoc (stream done ++ consumed)] at hpre hlen ⊢
      generalize s.buf.readable ++ a.chunk.data = q at hrep hpre hlen ⊢
      have hqlen : q.length < fuel := by
        simp only [List.length_append] at hlen
        omega
      obtain ⟨ctx, hctx⟩ : ∃ ctx, s.context = ctx := ⟨_, rfl⟩
      rw [hctx] at hpos
      cases hpos with
      | finished v =>
          rw [h.split, List.append_nil, List.append_nil] at hpre
          obtain rfl : q = [] := by
            have := hpre.length_le
            rw [List.length_append] at this
            exact List.eq_nil_of_length_eq_zero (by omega)
          rw [List.append_nil, List.append_nil]
          exact h.receive_nothing hrep hctx (lt_of_le_of_lt (Nat.zero_le _) hfuel)
      | @reading r todo ls consumed c hat htext =>
          have hr : r.WellFormed := hrs r (by rw [h.split]; simp)
          rw [h.split, stream_append, stream_cons, htext, List.append_assoc, List.append_assoc,
            List.prefix_append_right_inj, List.prefix_append_right_inj] at hpre
          rw [← hctx] at hat
          by_cases hwhole : (render ls).length ≤ q.length
          · obtain ⟨rest, rfl⟩ := List.prefix_of_prefix_length_le (List.prefix_append _ _) hpre hwhole
            exact h.receive_whole hr hat htext hrep
              (length_le_render.trans (hwhole.trans hqlen.le))
          · have hpart := not_le.mp hwhole
            have hq := List.prefix_of_prefix_length_le hpre (List.prefix_append _ _) hpart.le
            exact h.receive_part hr hat htext hrep hq hpart hqlen

/-- The lengths of the chunks. -/
def lengths (as : List Received) : List Nat := as.map (·.chunk.data.length)

/-- The bytes of the chunks. -/
def bytes (as : List Received) : List UInt8 := (as.map (·.chunk.data)).flatten

theorem bytes_cons (a : Received) (as : List Received) : bytes (a :: as) = a.chunk.data ++ bytes as := by
  unfold bytes
  rw [List.map_cons, List.flatten_cons]

/-- **Any number of chunks**: at most one request is taken from the stream for each of them. -/
theorem Synced.receiveAll (h : Synced rs R s done todo) (hrs : ∀ r ∈ rs, r.WellFormed) (server : HttpServer)
    (hpre : R ++ bytes as <+: stream rs) (hfuel : (stream rs).length < fuel) :
    ∃ o, server.receiveAll fuel s as = some o ∧ Safe o fun s' => ∃ done' todo',
      Synced rs (R ++ bytes as) s' done' todo' ∧
      done'.length = taken (rs.map text) R.length done.length (lengths as) := by
  induction as generalizing R s done todo with
  | nil =>
      refine ⟨_, rfl, Safe.ok ⟨done, todo, ?_, rfl⟩⟩
      have hnil : bytes [] = [] := rfl
      rw [hnil, List.append_nil]
      exact h
  | cons a as ih =>
      have hbytes : R ++ bytes (a :: as) = R ++ a.chunk.data ++ bytes as := by
        unfold bytes
        rw [List.map_cons, List.flatten_cons, List.append_assoc]
      rw [hbytes] at hpre ⊢
      obtain ⟨o, ho, hsafe⟩ := h.receive hrs server a ((List.prefix_append _ _).trans hpre) hfuel
      rw [HttpServer.receiveAll, ho]
      cases hsafe with
      | throws => exact ⟨_, rfl, Safe.throws⟩
      | ok hadv =>
          obtain ⟨done₁, todo₁, h₁, hcount⟩ := hadv
          obtain ⟨o', ho', hsafe'⟩ := ih h₁ hpre
          refine ⟨o', ho', hsafe'.mono ?_⟩
          rintro s' ⟨done', todo', h', hcount'⟩
          refine ⟨done', todo', h', ?_⟩
          rw [hcount', hcount, List.length_append]
          rfl

/-- For every `i`, no more requests are incomplete after the first `i` chunks than there are chunks to come. -/
def OneEach (rs : List RequestText) (as : List Received) : Prop :=
  ∀ i ≤ as.length, rs.length ≤ wholes (rs.map text) (bytes (as.take i)).length + (as.length - i)

theorem length_bytes : (bytes as).length = (lengths as).sum := by
  unfold bytes lengths
  rw [List.length_flatten, List.map_map]
  rfl

theorem wholes_zero : wholes (rs.map text) 0 = 0 := by
  cases rs with
  | nil => rfl
  | cons r rs =>
      rw [List.map_cons, wholes, if_neg]
      simp [text, lines, kCRLF]

theorem oneEach_iff : OneEach rs as ↔ rs.length ≤ taken (rs.map text) 0 0 (lengths as) := by
  have hlen : (lengths as).length = as.length := List.length_map _
  have htake : ∀ i, (bytes (as.take i)).length = ((lengths as).take i).sum := by
    intro i
    rw [length_bytes]
    unfold lengths
    rw [List.map_take]
  rw [le_taken_iff (Nat.zero_le _), hlen]
  unfold OneEach
  simp only [htake, Nat.zero_add]
  constructor
  · intro hall
    have hzero := hall 0 (Nat.zero_le _)
    rw [List.take_zero, List.sum_nil, wholes_zero, Nat.zero_add] at hzero
    exact ⟨hzero, fun i hi => hall (i + 1) hi⟩
  · rintro ⟨hzero, hrest⟩ i hi
    cases i with
    | zero => omega
    | succ i => exact hrest i hi

/-- One way to cut the stream. -/
theorem serves_all_iff {conn : TcpConnection} (hconn : conn.Outputs) (server : HttpServer)
    (hrs : ∀ r ∈ rs, r.WellFormed) (hbytes : bytes as = stream rs) (hfuel : (stream rs).length < fuel)
    (hroom : server.receiveAll fuel (onConnection conn) as ≠ some (.error .lengthError)) :
    ∃ s, server.receiveAll fuel (onConnection conn) as = some (.ok s) ∧
      (s.requests.map HttpRequest.content = rs.map RequestText.content ↔ OneEach rs as) := by
  obtain ⟨o, ho, hsafe⟩ := (synced_onConnection hconn rs).receiveAll hrs server
    (show [] ++ bytes as <+: stream rs by rw [hbytes]; exact List.prefix_refl _) hfuel
  obtain ⟨s, rfl, done, todo, h, hcount⟩ := hsafe.exists_ok (fun heq => hroom (by rw [ho, heq]))
  refine ⟨s, ho, ?_⟩
  have hserved : rs.length ≤ done.length ↔ OneEach rs as := by
    rw [oneEach_iff, hcount]
    rfl
  rw [h.served, ← hserved]
  have hsplit := h.split
  constructor
  · intro heq
    have := congrArg List.length heq
    rw [List.length_map, List.length_map] at this
    exact this.ge
  · intro hle
    obtain rfl : todo = [] := by
      rw [hsplit, List.length_append] at hle
      exact List.eq_nil_of_length_eq_zero (by omega)
    rw [hsplit, List.append_nil]

/-- **When serving does not depend on the segmentation.** For every stream of well-formed requests without a
    body and every two ways of cutting it into chunks, all requests are passed to `httpCallback_` in order in
    both cases if and only if in both cuts, for every `i`, no more requests are incomplete after the first `i`
    chunks than there are chunks to come. -/
theorem requests_served_iff (server : HttpServer) {conn : TcpConnection} (hconn : conn.Outputs)
    (rs : List RequestText) (hrs : ∀ r ∈ rs, r.WellFormed) (as₁ as₂ : List Received)
    (hbytes₁ : bytes as₁ = stream rs) (hbytes₂ : bytes as₂ = stream rs) {fuel : Nat}
    (hfuel : (stream rs).length < fuel)
    (hroom₁ : server.receiveAll fuel (onConnection conn) as₁ ≠ some (.error .lengthError))
    (hroom₂ : server.receiveAll fuel (onConnection conn) as₂ ≠ some (.error .lengthError)) :
    ∃ s₁ s₂, server.receiveAll fuel (onConnection conn) as₁ = some (.ok s₁) ∧
      server.receiveAll fuel (onConnection conn) as₂ = some (.ok s₂) ∧
      ((s₁.requests.map HttpRequest.content = s₂.requests.map HttpRequest.content ∧
        s₁.requests.map HttpRequest.content = rs.map RequestText.content) ↔
        OneEach rs as₁ ∧ OneEach rs as₂) := by
  obtain ⟨s₁, hs₁, hiff₁⟩ := serves_all_iff hconn server hrs hbytes₁ hfuel hroom₁
  obtain ⟨s₂, hs₂, hiff₂⟩ := serves_all_iff hconn server hrs hbytes₂ hfuel hroom₂
  refine ⟨s₁, s₂, hs₁, hs₂, ?_⟩
  rw [← hiff₁, ← hiff₂]
  constructor
  · rintro ⟨hsame, hall⟩
    exact ⟨hall, hsame ▸ hall⟩
  · rintro ⟨hall₁, hall₂⟩
    exact ⟨hall₁.trans hall₂.symm, hall₁⟩

/-- `GET / HTTP/1.1`, without headers. -/
def getRequest : RequestText := ⟨.kGet, chars ['/'], .kHttp11, []⟩

theorem getRequest_wellFormed : getRequest.WellFormed where
  method := by decide
  version := by decide
  path := by decide
  requestLine := by decide
  headers := by simp [getRequest]

theorem emptyServer_onRequest (req : HttpRequest) : emptyServer.onRequest upConnection req (.wrote 1024) =
    .ok (if wantsClose req then upConnection.shutdown else upConnection) := by
  obtain ⟨b, hb, hrep⟩ := append_ok (d := []) new_rep (by decide)
  have hsend : upConnection.sendBuffer b (.wrote 1024) = .ok (upConnection, b.retrieveAll) := by
    unfold TcpConnection.sendBuffer
    rw [hrep.content, hrep.readableBytes_eq]
    rfl
  unfold onRequest
  show (Buffer.new.append [] ([] : List UInt8).length >>= _) = _
  rw [hb, ok_bind, hsend]
  rfl

/-- With nothing to write, the server that answers with an empty text returns from every call that refuses
    nothing. -/
theorem emptyServer_returns {p : Parse} {data : List UInt8} (hdata : data.length < maxObject)
    {ctx : HttpContext} (requests : List HttpRequest) {b₀ : Buffer} (hb : b₀.append data data.length = .ok b)
    (hparse : parseRequest fuel b ctx Timestamp.invalid = some (.ok p)) (hok : p.ok = true) :
    ∃ conn ctx' requests', emptyServer.receive fuel ⟨upConnection, b₀, ctx, requests⟩ (chunkOf data hdata) =
      some (.ok ⟨conn, p.buf, ctx', requests'⟩) ∧
      (p.context.gotAll = false → conn = upConnection ∧ ctx' = p.context) ∧
      (p.context.gotAll = true → conn = (if wantsClose p.context.request then upConnection.shutdown else upConnection) ∧
        requests' = requests ++ [p.context.request]) := by
  obtain ⟨b', c', ok⟩ := p
  obtain rfl : ok = true := hok
  rw [receive_eq (s := ⟨upConnection, b₀, ctx, requests⟩) (a := chunkOf data hdata) hb]
  unfold onMessage
  show ∃ conn ctx' requests', Loop.andThen (parseRequest fuel b ctx Timestamp.invalid) _ = _ ∧ _ ∧ _
  rw [hparse, Loop.ok_andThen]
  unfold respond
  dsimp only
  rw [if_pos rfl, ok_bind]
  split
  · next hall =>
      show ∃ conn ctx' requests',
        some (emptyServer.onRequest upConnection c'.request (.wrote 1024) >>= _) = _ ∧ _ ∧ _
      rw [emptyServer_onRequest, ok_bind]
      exact ⟨_, _, _, rfl, fun hnot => absurd hall (by simp [hnot]), fun _ => ⟨rfl, rfl⟩⟩
  · next hall => exact ⟨_, _, _, rfl, fun _ => ⟨rfl, rfl⟩, fun hgot => absurd hgot hall⟩

/-- One request, whole and cut after its method, is served in both cases. -/
theorem requests_served_cut : ∃ as₁ as₂ : List Received, lengths as₁ = [18] ∧ lengths as₂ = [3, 15] ∧
    ∃ s₁ s₂, emptyServer.receiveAll 19 (onConnection upConnection) as₁ = some (.ok s₁) ∧
      emptyServer.receiveAll 19 (onConnection upConnection) as₂ = some (.ok s₂) ∧
      s₁.requests.map HttpRequest.content = s₂.requests.map HttpRequest.content ∧
      s₁.requests.map HttpRequest.content = [getRequest.content] := by
  have hsplit : getRequest.text = chars ['G', 'E', 'T'] ++ getRequest.text.drop 3 := rfl
  obtain ⟨b₁, hb₁, h₁⟩ := append_ok (d := getRequest.text) new_rep (by decide)
  obtain ⟨b₂, hb₂, h₂⟩ := append_ok (d := chars ['G', 'E', 'T']) new_rep (by decide)
  obtain ⟨b₃, hb₃, h₃⟩ := append_ok (d := getRequest.text.drop 3) h₂ (by decide)
  rw [List.nil_append] at h₁ h₂ h₃
  rw [← hsplit] at h₃
  have hwhole : ∀ {b : Buffer}, b.Rep getRequest.text false → ∃ p : Parse, p.ok = true ∧
      parseRequest 19 b HttpContext.new Timestamp.invalid = some (.ok p) := by
    intro b hb
    have hlines : getRequest.lines.length ≤ 19 := by decide
    rw [← List.append_nil getRequest.text] at hb
    obtain ⟨b', req, hparse, -, -⟩ := parseRequest_whole (At.fresh .kUnknown) getRequest_wellFormed hb hlines
    exact ⟨_, rfl, hparse⟩
  -- the whole request
  obtain ⟨p₁, hok₁, hparse₁⟩ := hwhole h₁
  obtain ⟨conn₁, ctx₁, reqs₁, hrun₁, -⟩ := emptyServer_returns (by decide) [] hb₁ hparse₁ hok₁
  -- its first three bytes, and the rest
  have hwait : parseRequest 19 b₂ HttpContext.new Timestamp.invalid = some (.ok ⟨b₂, HttpContext.new, true⟩) :=
    Loop.run_leave (parseIteration_wait h₂ (show search kCRLF _ = _ by decide) (Or.inl rfl))
  obtain ⟨conn₂, ctx₂, reqs₂, hrun₂, hsame, -⟩ := emptyServer_returns (by decide) [] hb₂ hwait rfl
  obtain ⟨rfl, rfl⟩ := hsame rfl
  obtain ⟨p₃, hok₃, hparse₃⟩ := hwhole h₃
  obtain ⟨conn₃, ctx₃, reqs₃, hrun₃, -⟩ := emptyServer_returns (by decide) reqs₂ hb₃ hparse₃ hok₃
  refine ⟨[chunkOf getRequest.text (by decide)], [chunkOf (chars ['G', 'E', 'T']) (by decide),
    chunkOf (getRequest.text.drop 3) (by decide)], by decide, by decide, ?_⟩
  have hfuel : (stream [getRequest]).length < 19 := by decide
  obtain ⟨s₁, s₂, hs₁, hs₂, hiff⟩ := requests_served_iff emptyServer outputs_upConnection [getRequest]
    (by simpa using getRequest_wellFormed) [chunkOf getRequest.text (by decide)]
    [chunkOf (chars ['G', 'E', 'T']) (by decide), chunkOf (getRequest.text.drop 3) (by decide)] (by rfl) (by rfl)
    hfuel (by rw [receiveAll, onConnection, hrun₁]; simp [receiveAll])
    (by rw [receiveAll, onConnection, hrun₂, Loop.ok_andThen, receiveAll, hrun₃]; simp [receiveAll])
  exact ⟨s₁, s₂, hs₁, hs₂, hiff.mpr (by unfold OneEach; decide)⟩

/-- Two requests in one chunk: the second one is not served. -/
theorem requests_pipelined : ∃ (a : Received) (s : HttpSession), bytes [a] = stream [getRequest, getRequest] ∧
    emptyServer.receiveAll 37 (onConnection upConnection) [a] = some (.ok s) ∧
    s.requests.map HttpRequest.content ≠ [getRequest, getRequest].map RequestText.content := by
  have hbytes : bytes [chunkOf (getRequest.text ++ getRequest.text) (by decide)] =
      stream [getRequest, getRequest] := by rfl
  obtain ⟨b, hb, h⟩ := append_ok (d := getRequest.text ++ getRequest.text) new_rep (by decide)
  rw [List.nil_append] at h
  have hlines : getRequest.lines.length ≤ 37 := by decide
  have hfuel : (stream [getRequest, getRequest]).length < 37 := by decide
  have hat : At getRequest getRequest.lines HttpContext.new := .fresh .kUnknown
  obtain ⟨b', req, hparse, -, -⟩ := parseRequest_whole hat getRequest_wellFormed h hlines
  obtain ⟨conn, ctx, reqs, hrun, -⟩ := emptyServer_returns (by decide) [] hb hparse rfl
  obtain ⟨s, hs, hiff⟩ := serves_all_iff outputs_upConnection emptyServer
    (by simpa using getRequest_wellFormed) hbytes hfuel (by rw [receiveAll, onConnection, hrun]; simp [receiveAll])
  refine ⟨_, s, hbytes, hs, ?_⟩
  intro hall
  -- both are incomplete before the only chunk
  have hzero := hiff.mp hall 0 (Nat.zero_le _)
  exact absurd hzero (by decide)

end HttpServer

end Muduo.Net
