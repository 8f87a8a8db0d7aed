import Muduo.Examples.Correctness.HubRuns
import Muduo.Examples.Hub.Client

/-!
# `Correctness.HubClient` — from one client through the hub to another

A client that reads has been called back with what was published in the messages it has read (`receiveAll_spec`), and
one that sends requests has them in its stream as messages (`performAll_said`). With the invariant of the hub this
gives both directions: what a client has requested is what is executed for its connection, and what is heard on a
connection is what its client is called back with.
-/

namespace Muduo.Examples.PubSubClient

open Lib Net Buffer HubMessage

variable {client client' : PubSubClient} {cb : SubscribeCallback} {ms : List HubMessage} {m : HubMessage}
variable {received q rest : List UInt8} {fuel : Nat} {r : WriteResult} {tcp : TcpConnection}

/-! ## Reading -/

/-- What a message has to say to the user. -/
def published (m : HubMessage) : Option (List UInt8 × List UInt8) :=
  if m.cmd = pub then some (m.topic, m.content) else none

/-- The client has read the messages `ms`, of the bytes `received`. -/
structure Has (cb : SubscribeCallback) (received : List UInt8) (ms : List HubMessage) (client : PubSubClient) :
    Prop where
  split : received = ms.flatMap render ++ client.buf.readable
  valid : ∀ m ∈ ms, m.Valid
  rep : client.buf.Rep client.buf.readable false
  callback : client.subscribeCallback = some cb
  calls : client.calls = ms.filterMap published

/-- There is no whole message left. -/
def Waits (client : PubSubClient) : Prop := HubPart client.buf.readable ∨ HubRefused client.buf.readable

theorem Has.next (h : Has cb received ms client) (hq : client.buf.readable = m.render ++ rest) (hm : m.Valid)
    {buf : Buffer} (hbuf : buf.Rep rest false) :
    Has cb received (ms ++ [m]) ({ client with buf }.callback m) ∧ ({ client with buf }.callback m).buf = buf := by
  have hcb : { client with buf }.subscribeCallback = some cb := h.callback
  have hsame : ({ client with buf }.callback m).buf = buf ∧
      ({ client with buf }.callback m).subscribeCallback = some cb ∧
      ({ client with buf }.callback m).calls = client.calls ++ (published m).toList := by
    unfold PubSubClient.callback published
    rw [hcb]
    dsimp only
    split
    · exact ⟨rfl, rfl, rfl⟩
    · exact ⟨rfl, rfl, (List.append_nil _).symm⟩
  obtain ⟨hbuf', hcb', hcalls⟩ := hsame
  refine ⟨⟨?_, fun m' hm' => ?_, ?_, hcb', ?_⟩, hbuf'⟩
  · rw [hbuf', hbuf.content, h.split, hq, List.flatMap_append, List.flatMap_singleton, List.append_assoc]
  · rcases List.mem_append.mp hm' with hm' | hm'
    · exact h.valid m' hm'
    · rw [List.mem_singleton.mp hm']
      exact hm
  · rw [hbuf', hbuf.content]
    exact hbuf
  · rw [hcalls, h.calls, List.filterMap_append]
    cases hp : published m with
    | none => simp [hp]
    | some x => simp [hp]

/-- **`onMessage`** reads all messages that have arrived. -/
theorem onMessage_spec (h : Has cb received ms client) (hfuel : client.buf.readable.length < fuel) :
    ∃ client', onMessage fuel client = some (.ok client') ∧ (∃ ms', Has cb received ms' client') ∧ client'.Waits := by
  have hstep : ∀ client : PubSubClient, (∃ ms, Has cb received ms client) →
      (∃ client', iterate client = .ok (.leave client') ∧ (∃ ms', Has cb received ms' client') ∧ client'.Waits) ∨
      ∃ client', iterate client = .ok (.again client') ∧ (∃ ms', Has cb received ms' client') ∧
        client'.buf.readable.length < client.buf.readable.length := by
    rintro client ⟨ms, h⟩
    unfold iterate
    rcases front_cases client.buf.readable with hq | hq | ⟨m, rest, hm, hq⟩
    · obtain ⟨m, hparse⟩ := parseMessage_part h.rep hq
      rw [hparse]
      exact Or.inl ⟨client, rfl, ⟨ms, h⟩, Or.inl hq⟩
    · obtain ⟨m, hparse⟩ := parseMessage_refused h.rep hq
      rw [hparse]
      exact Or.inl ⟨client.shutdown, rfl, ⟨ms, h.split, h.valid, h.rep, h.callback, h.calls⟩, Or.inr hq⟩
    · obtain ⟨buf, hparse, hbuf⟩ := parseMessage_message (hq ▸ h.rep) hm
      obtain ⟨hnext, hsame⟩ := h.next hq hm hbuf
      rw [hparse]
      refine Or.inr ⟨_, rfl, ⟨_, hnext⟩, ?_⟩
      have hpos := length_render_pos m
      rw [hsame, hbuf.content, hq, List.length_append]
      omega
  obtain ⟨client', hrun, hmessages, hwaits⟩ :=
    Loop.run_of_measure (fun client : PubSubClient => client.buf.readable.length) hstep ⟨ms, h⟩ hfuel
  exact ⟨client', hrun, hmessages, hwaits⟩

/-- **Every sequence of chunks**: the client has read whole messages, and what it keeps starts with none. -/
theorem receiveAll_spec {chunks : List Bytes} (h : Has cb received ms client) (hwaits : client.Waits)
    (hfits : (received ++ (chunks.map Bytes.data).flatten).length < maxObject)
    (hfuel : (received ++ (chunks.map Bytes.data).flatten).length < fuel) :
    ∃ client' ms', client.receiveAll fuel chunks = some (.ok client') ∧
      Has cb (received ++ (chunks.map Bytes.data).flatten) ms' client' ∧ client'.Waits := by
  induction chunks generalizing received ms client with
  | nil =>
      rw [List.map_nil, List.flatten_nil, List.append_nil]
      exact ⟨client, ms, rfl, h, hwaits⟩
  | cons chunk chunks ih =>
      rw [List.map_cons, List.flatten_cons, ← List.append_assoc] at hfits hfuel ⊢
      have hlen : client.buf.readable.length ≤ received.length := by
        rw [h.split, List.length_append]
        exact Nat.le_add_left _ _
      have hroom : 2 * chunk.data.length + client.buf.readable.length + kCheapPrepend ≤ maxSize := by
        rw [List.length_append, List.length_append] at hfits
        unfold maxObject at hfits
        unfold maxSize kCheapPrepend
        omega
      obtain ⟨buf, hbuf, hrep⟩ := append_ok h.rep hroom
      have hhas : Has cb (received ++ chunk.data) ms { client with buf } := by
        refine ⟨?_, h.valid, ?_, h.callback, h.calls⟩
        · show _ = _ ++ buf.readable
          rw [hrep.content, h.split, List.append_assoc]
        · show buf.Rep buf.readable false
          rw [hrep.content]
          exact hrep
      have hsmall : buf.readable.length < fuel := by
        rw [List.length_append, List.length_append] at hfuel
        rw [hrep.content, List.length_append]
        omega
      obtain ⟨client₁, hone, ⟨ms₁, hhas₁⟩, hwaits₁⟩ := onMessage_spec hhas hsmall
      obtain ⟨client', ms', hrun, hresult⟩ := ih hhas₁ hwaits₁ hfits hfuel
      refine ⟨client', ms', ?_, hresult⟩
      rw [receiveAll, receive, hbuf, Loop.ok_andThen, hone, Loop.ok_andThen]
      exact hrun

/-! ## Sending -/

/-- What a user asks the client for. -/
inductive Request where
  | subscribe (topic : List UInt8) (cb : SubscribeCallback)
  | unsubscribe (topic : List UInt8)
  | publish (topic content : List UInt8)

/-- The message for a request. -/
def Request.message : Request → HubMessage
  | .subscribe topic _ => ⟨sub, topic, []⟩
  | .unsubscribe topic => ⟨unsub, topic, []⟩
  | .publish topic content => ⟨pub, topic, content⟩

/-- There is no line end in the topic or the content, and an `int` counts the message. -/
structure Request.Sendable (req : Request) : Prop where
  topic : ¬ kCRLF <:+: req.message.topic
  content : ¬ kCRLF <:+: req.message.content
  length : req.message.render.length < 2 ^ 31

theorem Request.Sendable.valid {req : Request} (h : req.Sendable) : req.message.Valid := by
  have hcmd : 0x20 ∉ req.message.cmd ∧ ¬ kCRLF <:+: req.message.cmd := by
    cases req with
    | subscribe => exact ⟨show 0x20 ∉ sub by decide, show ¬ kCRLF <:+: sub by decide⟩
    | unsubscribe => exact ⟨show 0x20 ∉ unsub by decide, show ¬ kCRLF <:+: unsub by decide⟩
    | publish => exact ⟨show 0x20 ∉ pub by decide, show ¬ kCRLF <:+: pub by decide⟩
  refine ⟨hcmd.1, not_infix_firstLine hcmd.2 h.topic, h.content, fun hne => ?_⟩
  cases req with
  | subscribe => rfl
  | unsubscribe => rfl
  | publish => exact absurd rfl hne

theorem Request.known (req : Request) : ¬ req.message.Unknown := by
  rintro ⟨hpub, hsub, hunsub⟩
  cases req with
  | subscribe => exact hsub rfl
  | unsubscribe => exact hunsub rfl
  | publish => exact hpub rfl

/-- The call for a request; `r` answers the write. -/
def perform (client : PubSubClient) (req : Request) (r : WriteResult) : Outcome PubSubClient :=
  match req with
  | .subscribe topic cb => do
      let (_, client) ← client.subscribe topic cb r
      .ok client
  | .unsubscribe topic => client.unsubscribe topic r
  | .publish topic content => do
      let (_, client) ← client.publish topic content r
      .ok client

/-- Requests made one after the other. -/
def performAll (client : PubSubClient) : List (Request × WriteResult) → Outcome PubSubClient
  | [] => .ok client
  | (req, r) :: reqs => do
      let client ← client.perform req r
      performAll client reqs

/-- The client is connected, and has `said` so much. -/
def Said (said : List UInt8) (client : PubSubClient) : Prop :=
  ∃ tcp, client.conn = some tcp ∧ tcp.state = .kConnected ∧ tcp.Outputs ∧ tcp.stream = said

theorem send_said {said message : List UInt8} (client : PubSubClient) (h : Said said client)
    (hlen : message.length < 2 ^ 31) (hr : r ≠ .failed .EPIPE) : Safe (client.send message r) fun sent => Said (said ++ message) sent.2 := by
  obtain ⟨tcp, hconn, hstate, hout, hsaid⟩ := h
  have hup : tcp.connected = true := by
    rw [TcpConnection.connected, hstate]
    rfl
  unfold send
  rw [hconn]
  dsimp only
  rw [if_pos hup]
  refine Safe.bind (TcpConnection.sendPiece_said hout ⟨message, hlen.trans (by decide)⟩ hlen hr) ?_
  rintro tcp' ⟨hout', hsaid'⟩
  rw [TcpConnection.said, TcpConnection.said, hstate] at hsaid'
  obtain ⟨hstate', hstream'⟩ := Prod.mk.inj hsaid'
  exact Safe.ok ⟨tcp', rfl, hstate', hout', by rw [hstream', hsaid]⟩

theorem perform_said {said : List UInt8} {req : Request} (h : Said said client) (hreq : req.Sendable)
    (hr : r ≠ .failed .EPIPE) : Safe (client.perform req r) (Said (said ++ req.message.render)) := by
  have hlen := hreq.length
  cases req with
  | subscribe topic cb =>
      have hrender : (Request.subscribe topic cb).message.render = sub ++ [0x20] ++ topic ++ kCRLF := by
        rw [render_other (show sub ≠ pub by decide), firstLine, List.append_assoc sub]
        rfl
      rw [hrender] at hlen ⊢
      refine Safe.bind (send_said { client with subscribeCallback := some cb } h hlen hr) ?_
      exact fun sent hsent => Safe.ok hsent
  | unsubscribe topic =>
      have hrender : (Request.unsubscribe topic).message.render = unsub ++ [0x20] ++ topic ++ kCRLF := by
        rw [render_other (show unsub ≠ pub by decide), firstLine, List.append_assoc unsub]
        rfl
      rw [hrender] at hlen ⊢
      exact Safe.bind (send_said client h hlen hr) fun sent hsent => Safe.ok hsent
  | publish topic content =>
      have hrender : (Request.publish topic content).message.render =
          pub ++ [0x20] ++ topic ++ kCRLF ++ content ++ kCRLF := by
        rw [render_pub rfl, firstLine, List.append_assoc pub, List.append_assoc _ content]
        rfl
      rw [hrender] at hlen ⊢
      exact Safe.bind (send_said client h hlen hr) fun sent hsent => Safe.ok hsent

theorem performAll_said {said : List UInt8} {reqs : List (Request × WriteResult)} (h : Said said client)
    (hreqs : ∀ x ∈ reqs, x.1.Sendable ∧ x.2 ≠ .failed .EPIPE) :
    Safe (client.performAll reqs) (Said (said ++ (reqs.map (·.1.message)).flatMap render)) := by
  induction reqs generalizing client said with
  | nil =>
      rw [List.map_nil, List.flatMap_nil, List.append_nil]
      exact Safe.ok h
  | cons x reqs ih =>
      obtain ⟨req, r⟩ := x
      obtain ⟨⟨hreq, hr⟩, hreqs⟩ := List.forall_mem_cons.mp hreqs
      rw [List.map_cons, List.flatMap_cons, ← List.append_assoc]
      exact Safe.bind (perform_said h hreq hr) fun client₁ h₁ => ih h₁ hreqs

/-! ## Through the hub -/

section Hub

open PubSubServer PubSub

variable {Conn : Type} [LinearOrder Conn] {kernel : Conn → Nat → WriteResult} {s : PubSubServer Conn} {c : Conn}
variable {as : List (HubAction Conn)}

/-- **What is requested is executed.** A client that is connected makes requests with topics and contents without a line
    end. In every run of the hub, whatever else happens: while what has arrived from the client is a part of what it has
    sent, the commands executed for its connection are the first of its requests, in their order, and once all has
    arrived they are all of them, and nothing waits. -/
theorem requests_executed (h : (system kernel).ReachedBy as s) {reqs : List (Request × WriteResult)}
    (hclient : Said [] client) (hreqs : ∀ x ∈ reqs, x.1.Sendable ∧ x.2 ≠ .failed .EPIPE)
    (hsent : client.performAll reqs = .ok client') : ∃ tcp, client'.conn = some tcp ∧
      (receivedBy as c <+: tcp.stream → s.commands c <+: reqs.map (·.1.message)) ∧
      (receivedBy as c = tcp.stream → s.commands c = reqs.map (·.1.message) ∧ s.waiting c = []) := by
  obtain ⟨tcp, hconn, -, -, hstream⟩ := (performAll_said hclient hreqs).of_eq_ok hsent
  rw [List.nil_append] at hstream
  obtain ⟨hinv, hended⟩ := rests_of_reachedBy h
  have hxs : ∀ m ∈ reqs.map (·.1.message), m.Valid := by
    intro m hm
    obtain ⟨x, hx, rfl⟩ := List.mem_map.mp hm
    exact (hreqs x hx).1.valid
  have hsplit : ∀ tail, receivedBy as c ++ tail = tcp.stream → ∃ more,
      reqs.map (·.1.message) = s.commands c ++ more ∧ s.waiting c ++ tail = more.flatMap render := by
    intro tail heq
    rw [hinv.input.split c, List.append_assoc, hstream] at heq
    exact flatMap_render_prefix (hinv.input.valid c) hxs heq
  refine ⟨tcp, hconn, ?_, fun heq => ?_⟩
  · rintro ⟨tail, heq⟩
    obtain ⟨more, hmore, -⟩ := hsplit tail heq
    exact ⟨more, hmore.symm⟩
  · obtain ⟨more, hmore, hrest⟩ := hsplit [] (by rw [List.append_nil, heq])
    rw [List.append_nil] at hrest
    have hnone : more = [] := by
      refine eq_nil_of_flatMap_render (fun m hm => hxs m (hmore ▸ List.mem_append_right _ hm)) ?_
      rw [← hrest]
      rcases hended c with hpart | hrefused | ⟨m, hlast, hunknown⟩
      · exact Or.inl hpart
      · exact Or.inr hrefused
      · have hmem : m ∈ reqs.map (·.1.message) := hmore ▸ List.mem_append_left _ (List.mem_of_getLast? hlast)
        obtain ⟨x, -, rfl⟩ := List.mem_map.mp hmem
        exact absurd hunknown x.1.known
    rw [hnone, List.append_nil] at hmore
    exact ⟨hmore.symm, by rw [hrest, hnone, List.flatMap_nil]⟩

/-- The message in which something is heard. -/
def toMessage (x : List UInt8 × List UInt8 × Timestamp) : HubMessage := ⟨pub, x.1, x.2.1⟩

/-- **What is published is heard.** In every run of the hub, whoever connects, sends what it likes in any chunks,
    becomes writable and goes, for every connection on which no write meets a peer that is gone: a client at its other
    end that has a callback and reads a part of what the hub has to send, in any pieces, is called back with the first
    of what is heard on that connection, and when it has read everything, with all of it. -/
theorem published_heard (h : (system kernel).ReachedBy as s) (hreads : Reads kernel c) (client : PubSubClient)
    (hcallback : client.subscribeCallback = some cb) (hbuf : client.buf = Buffer.new) (hcalls : client.calls = [])
    (pieces : List Bytes) (fuel : Nat) (hpieces : (pieces.map Bytes.data).flatten <+: (s.connections c).conn.stream)
    (hfits : (pieces.map Bytes.data).flatten.length < maxObject)
    (hfuel : (pieces.map Bytes.data).flatten.length < fuel) : ∃ client',
      client.receiveAll fuel pieces = some (.ok client') ∧
      client'.calls <+: (heard kept c s.history).map (fun x => (x.1, x.2.1)) ∧
      ((pieces.map Bytes.data).flatten = (s.connections c).conn.stream →
        client'.calls = (heard kept c s.history).map fun x => (x.1, x.2.1)) := by
  obtain ⟨hinv, -⟩ := rests_of_reachedBy h
  have hempty : client.buf.readable = [] := by rw [hbuf, new_rep.content]
  have hstart : Has cb [] [] client := by
    refine ⟨by rw [hempty]; rfl, fun m hm => absurd hm List.not_mem_nil, ?_, hcallback, hcalls⟩
    rw [hempty, hbuf]
    exact new_rep
  have hwaits : client.Waits := by
    unfold Waits
    rw [hempty]
    exact Or.inl (Or.inl noLine_nil)
  obtain ⟨client', ms, hrun, hhas, hwaits'⟩ := receiveAll_spec hstart hwaits
    (show ([] ++ _ : List UInt8).length < _ from hfits) (show ([] ++ _ : List UInt8).length < fuel from hfuel)
  rw [List.nil_append] at hhas
  have hxs : ∀ m ∈ (heard kept c s.history).map toMessage, m.Valid := by
    intro m hm
    obtain ⟨x, hx, rfl⟩ := List.mem_map.mp hm
    obtain ⟨htopic, hcontent, -⟩ := hinv.holds.clean x.1 x.2 (mem_of_heard hx)
    exact ⟨show 0x20 ∉ pub by decide, not_infix_firstLine (show ¬ kCRLF <:+: pub by decide) htopic, hcontent,
      fun hne => absurd rfl hne⟩
  have hstream : (s.connections c).conn.stream = ((heard kept c s.history).map toMessage).flatMap render := by
    rw [(hinv.holds.connections c).stream hreads, List.flatMap_map]
    rfl
  have hsplit : ∀ tail, (pieces.map Bytes.data).flatten ++ tail = (s.connections c).conn.stream → ∃ more,
      (heard kept c s.history).map toMessage = ms ++ more ∧ client'.buf.readable ++ tail = more.flatMap render := by
    intro tail heq
    rw [hhas.split, List.append_assoc, hstream] at heq
    exact flatMap_render_prefix hhas.valid hxs heq
  have hall : (heard kept c s.history).map (fun x => (x.1, x.2.1)) =
      ((heard kept c s.history).map toMessage).filterMap published := by
    rw [List.filterMap_map, ← List.filterMap_eq_map]
    rfl
  refine ⟨client', hrun, ?_, fun heq => ?_⟩
  · obtain ⟨tail, htail⟩ := hpieces
    obtain ⟨more, hmore, -⟩ := hsplit tail htail
    rw [hall, hmore, hhas.calls, List.filterMap_append]
    exact List.prefix_append _ _
  · obtain ⟨more, hmore, hrest⟩ := hsplit [] (by rw [List.append_nil, heq])
    rw [List.append_nil] at hrest
    have hnone : more = [] := by
      refine eq_nil_of_flatMap_render (fun m hm => hxs m (hmore ▸ List.mem_append_right _ hm)) ?_
      rw [← hrest]
      exact hwaits'
    rw [hall, hmore, hnone, List.append_nil, hhas.calls]

/-- `"pub a\r\nb\r\n"`. -/
def publishLines : Bytes := ⟨[0x70, 0x75, 0x62, 0x20, 0x61, 0x0d, 0x0a, 0x62, 0x0d, 0x0a], by decide⟩

/-- Connection 9 publishes when connection 7 has subscribed; what 7 is sent is read in two pieces. -/
theorem published_heard_seven : ∃ (s : PubSubServer ℕ) (client' : PubSubClient),
    (system fun _ _ => .wrote 9).ReachedBy
      [.connect 7, .receive 7 subscribeLine 1, .connect 9, .receive 9 publishLines 2] s ∧
    receiveAll 11 ⟨none, some fun conn _ _ => conn, Buffer.new, []⟩
      [⟨publishLines.data.take 6, by decide⟩, ⟨publishLines.data.drop 6, by decide⟩] = some (.ok client') ∧
    client'.calls = (heard kept 7 s.history).map fun x => (x.1, x.2.1) := by
  obtain ⟨s, hreached, hstream⟩ := System.ReachedBy.exists_of_perform (system fun _ _ : ℕ => .wrote 9)
    [.connect 7, .receive 7 subscribeLine 1, .connect 9, .receive 9 publishLines 2] (s := PubSubServer.new)
    (P := fun s => (s.connections 7).conn.stream = publishLines.data) rfl (by decide +kernel)
  have hread : ∀ n, (fun _ _ => .wrote 9 : ℕ → ℕ → WriteResult) 7 n ≠ .failed .EPIPE := by simp
  obtain ⟨client', hrun, -, hall⟩ := published_heard hreached hread
    ⟨none, some fun conn _ _ => conn, Buffer.new, []⟩ rfl rfl rfl
    [⟨publishLines.data.take 6, by decide⟩, ⟨publishLines.data.drop 6, by decide⟩] 11
    (by rw [hstream]; decide) (by decide) (by decide)
  exact ⟨s, client', hreached, hrun, hall (by rw [hstream]; decide)⟩

/-- A client that has subscribed, by what connection 7 has sent. -/
theorem requests_executed_seven : ∃ (s : PubSubServer ℕ) (client client' : PubSubClient) (tcp : TcpConnection),
    (system fun _ _ => .wrote 9).ReachedBy [.connect 7, .receive 7 subscribeLine 1] s ∧ Said [] client ∧
    client.performAll [(.subscribe [0x61] fun conn _ _ => conn, .wrote 3)] = .ok client' ∧
    client'.conn = some tcp ∧ tcp.stream = subscribeLine.data ∧
    s.commands 7 = [(Request.subscribe [0x61] fun conn _ _ => conn).message] := by
  obtain ⟨s, hreached, -⟩ := System.ReachedBy.exists_of_perform (system fun _ _ : ℕ => .wrote 9)
    [.connect 7, .receive 7 subscribeLine 1] (s := PubSubServer.new) (P := fun s => s.Here 7) rfl (by decide +kernel)
  let client : PubSubClient := ⟨some ((TcpConnection.new false false).setState .kConnected), none, Buffer.new, []⟩
  have hout := TcpConnection.outputs_new false false
  have hclient : Said [] client := by
    refine ⟨_, rfl, rfl, ⟨hout.rep, hout.interest⟩, ?_⟩
    show [] ++ Buffer.new.readable = []
    rw [new_rep.content]
    rfl
  have hsendable : (Request.subscribe [0x61] fun conn _ _ => conn).Sendable :=
    ⟨show ¬ kCRLF <:+: [0x61] by decide, show ¬ kCRLF <:+: [] by decide, by
      show (HubMessage.render ⟨sub, [0x61], []⟩).length < _
      decide⟩
  have hreqs : ∀ x ∈ [((Request.subscribe [0x61] fun conn _ _ => conn), WriteResult.wrote 3)],
      x.1.Sendable ∧ x.2 ≠ .failed .EPIPE := by
    intro x hx
    rw [List.mem_singleton.mp hx]
    exact ⟨hsendable, by simp⟩
  cases hsent : client.performAll [(.subscribe [0x61] fun conn _ _ => conn, .wrote 3)] with
  | error e =>
      have hreturns : (client.performAll [(.subscribe [0x61] fun conn _ _ => conn, .wrote 3)]).isOk = true := by
        decide +kernel
      rw [hsent] at hreturns
      cases hreturns
  | ok client' =>
      obtain ⟨tcp, hconn, -, -, hstream⟩ := (performAll_said hclient hreqs).of_eq_ok hsent
      obtain ⟨tcp', hconn', -, hall⟩ := requests_executed (c := 7) hreached hclient hreqs hsent
      obtain rfl := Option.some.inj (hconn.symm.trans hconn')
      have hline : tcp.stream = subscribeLine.data := hstream
      exact ⟨s, client, client', tcp, hreached, hclient, hsent, hconn, hline, (hall (by rw [hline]; rfl)).1⟩

end Hub

end Muduo.Examples.PubSubClient
