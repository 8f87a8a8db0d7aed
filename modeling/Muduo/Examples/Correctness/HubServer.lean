import Muduo.Examples.Correctness.HubCodec
import Muduo.Examples.Hub.Server
import Muduo.Lib.PubSub
import Muduo.Net.Correctness.TcpSays

/-!
# `Correctness.HubServer` — the hub does what publishing and subscribing mean

`Holds h s` says that the topics and connections are as they have to be after the history `h`: who is in the audience of
a topic is subscribed to it, what a topic keeps is the latest, and what a connection has to send is what it hears
(`Lib.PubSub`). Each operation of the server adds its entry to the history.
-/

namespace Muduo.Examples.PubSubServer

open Lib Net PubSub HubMessage

/-! ## The history -/

/-- The history of a hub: what is published is a content, at a time. -/
abbrev History (Conn : Type) := List (Entry Conn (List UInt8) (List UInt8 × Timestamp))

/-- What was published at a valid time is kept. -/
def kept (a : List UInt8 × Timestamp) : Bool := a.2.valid

/-- The message for something that is heard. -/
def text (x : List UInt8 × List UInt8 × Timestamp) : List UInt8 := (⟨pub, x.1, x.2.1⟩ : HubMessage).render

variable {Conn : Type} [LinearOrder Conn] {kernel : Conn → Nat → WriteResult}
variable {s s' : PubSubServer Conn} {h : History Conn} {e : Entry Conn (List UInt8) (List UInt8 × Timestamp)}
variable {c conn : Conn} {x x' x₁ x₂ : HubConnection} {t content message d : List UInt8} {time : Timestamp}

/-- All that was published can be sent, and be read back. -/
def Clean (h : History Conn) : Prop :=
  ∀ t a, .publish t a ∈ h → ¬ Buffer.kCRLF <:+: t ∧ ¬ Buffer.kCRLF <:+: a.1 ∧ (text (t, a)).length < 2 ^ 31

/-- The topic `t` after the history `h`. -/
structure TopicHolds (h : History Conn) (t : List UInt8) (x : Topic Conn) : Prop where
  topic : x.topic = t
  audiences : ∀ c, c ∈ x.audiences ↔ Subscribed c t h
  latest : (latest t h).elim (x.lastPubTime = Timestamp.invalid) fun a => x.content = a.1 ∧ x.lastPubTime = a.2

/-- No message to the connection is lost because its peer has gone. -/
def Reads (kernel : Conn → Nat → WriteResult) (c : Conn) : Prop := ∀ n, kernel c n ≠ .failed .EPIPE

/-- The connection `c` after the history `h`. -/
structure ConnHolds (kernel : Conn → Nat → WriteResult) (h : History Conn) (c : Conn) (x : HubConnection) : Prop where
  context : ∀ t, t ∈ x.context ↔ Subscribed c t h
  outputs : x.conn.state ≠ .kDisconnected → x.conn.Outputs
  connecting : x.conn.state = .kConnecting → (∀ t, .subscribe c t ∉ h) ∧ .leave c ∉ h
  connected : x.conn.state = .kConnected → .leave c ∉ h
  disconnecting : x.conn.state = .kDisconnecting → .leave c ∈ h
  disconnected : x.conn.state = .kDisconnected → ∀ t, ¬ Subscribed c t h
  stream : Reads kernel c → x.conn.stream = (heard kept c h).flatMap text

/-- The server after the history `h`. -/
structure Holds (kernel : Conn → Nat → WriteResult) (h : History Conn) (s : PubSubServer Conn) : Prop where
  clean : Clean h
  topics : ∀ t, TopicHolds h t (s.getTopic t)
  connections : ∀ c, ConnHolds kernel h c (s.connections c)

/-! ## Parts of the state -/

@[simp] theorem setConnection_self (s : PubSubServer Conn) (c : Conn) (x : HubConnection) :
    (s.setConnection c x).connections c = x := Function.update_self ..

theorem setConnection_of_ne (s : PubSubServer Conn) (hne : c ≠ conn) (x : HubConnection) :
    (s.setConnection conn x).connections c = s.connections c := Function.update_of_ne hne ..

theorem setContext_spec (s : PubSubServer Conn) (conn c : Conn) (context : Finset (List UInt8)) :
    ((s.setContext conn context).connections c).conn = (s.connections c).conn ∧
    ((s.setContext conn context).connections c).buf = (s.connections c).buf ∧
    ((s.setContext conn context).connections c).context = if c = conn then context else (s.connections c).context := by
  unfold setContext
  by_cases hc : c = conn
  · rw [hc, setConnection_self, if_pos rfl]
    exact ⟨rfl, rfl, rfl⟩
  · rw [setConnection_of_ne s hc, if_neg hc]
    exact ⟨rfl, rfl, rfl⟩

omit [LinearOrder Conn] in
theorem getTopic_setTopic (s : PubSubServer Conn) (t t' : List UInt8) (x : Topic Conn) :
    (s.setTopic t x).getTopic t' = if t' = t then x else s.getTopic t' := by
  unfold getTopic setTopic
  dsimp only
  by_cases ht : t' = t
  · rw [ht, Function.update_self, if_pos rfl]
    rfl
  · rw [Function.update_of_ne ht, if_neg ht]

/-! ## Sending -/

/-- `x'` is `x`, when `d` has been sent on the connection. -/
structure Tells (kernel : Conn → Nat → WriteResult) (c : Conn) (x x' : HubConnection) (d : List UInt8) : Prop where
  buf : x'.buf = x.buf
  context : x'.context = x.context
  state : x'.conn.state = x.conn.state
  outputs : x'.conn.state ≠ .kDisconnected → x'.conn.Outputs
  stream : Reads kernel c → x'.conn.stream = x.conn.stream ++ if x.conn.state = .kConnected then d else []

omit [LinearOrder Conn] in
theorem Tells.nothing (hout : x.conn.state ≠ .kDisconnected → x.conn.Outputs) : Tells kernel c x x [] :=
  ⟨rfl, rfl, rfl, hout, fun _ => by rw [ite_self, List.append_nil]⟩

omit [LinearOrder Conn] in
theorem Tells.trans {d₁ d₂ : List UInt8} (h₁ : Tells kernel c x x₁ d₁) (h₂ : Tells kernel c x₁ x₂ d₂) :
    Tells kernel c x x₂ (d₁ ++ d₂) where
  buf := h₂.buf.trans h₁.buf
  context := h₂.context.trans h₁.context
  state := h₂.state.trans h₁.state
  outputs := h₂.outputs
  stream hreads := by
    rw [h₂.stream hreads, h₁.stream hreads, h₁.state]
    split
    · rw [List.append_assoc]
    · rw [List.append_nil]

/-- What the sends in a list add to the connection `c`. -/
def sentTo (c : Conn) (sends : List (Conn × List UInt8)) : List UInt8 := (sends.filter (·.1 = c)).flatMap Prod.snd

/-- Everything but the connections' output is as before. -/
structure Told (kernel : Conn → Nat → WriteResult) (s s' : PubSubServer Conn) (sends : List (Conn × List UInt8)) :
    Prop where
  topics : s'.topics = s.topics
  executed : s'.executed = s.executed
  tells : ∀ c, Tells kernel c (s.connections c) (s'.connections c) (sentTo c sends)

/-- What is said on a connection, as a change of its stream. -/
theorem stream_of_said {tcp tcp' : TcpConnection}
    (h : TcpConnection.said tcp' = TcpConnection.say message false (TcpConnection.said tcp)) :
    tcp'.stream = tcp.stream ++ if tcp.state = .kConnected then message else [] := by
  have hstream : tcp'.stream = (TcpConnection.say message false (TcpConnection.said tcp)).2 := congrArg Prod.snd h
  rw [hstream]
  by_cases hup : tcp.state = .kConnected
  · rw [if_pos hup, TcpConnection.said, hup]
    rfl
  · rw [if_neg hup, TcpConnection.say_of_ne hup, List.append_nil]
    rfl

theorem sentTo_cons (c : Conn) (x : Conn × List UInt8) (sends : List (Conn × List UInt8)) :
    sentTo c (x :: sends) = (if x.1 = c then x.2 else []) ++ sentTo c sends := by
  unfold sentTo
  by_cases hc : x.1 = c
  · rw [List.filter_cons_of_pos (by simpa using hc), if_pos hc, List.flatMap_cons]
  · rw [List.filter_cons_of_neg (by simpa using hc), if_neg hc, List.nil_append]

/-- No connection has lost track of its output. -/
def Live (s : PubSubServer Conn) : Prop :=
  ∀ c, (s.connections c).conn.state ≠ .kDisconnected → (s.connections c).conn.Outputs

theorem send_told (hlive : Live s) (hlen : message.length < 2 ^ 31) :
    Safe (s.send kernel conn message) fun s' => Told kernel s s' [(conn, message)] := by
  have hmessage : message.length < maxObject := hlen.trans (by decide)
  unfold send
  refine Safe.bind (TcpConnection.sendPiece_kept (hlive conn) ⟨message, hmessage⟩ hlen _) ?_
  rintro tcp ⟨hout, hstate, hsaid⟩
  refine Safe.ok ⟨rfl, rfl, fun c => ?_⟩
  have hsent : sentTo c [(conn, message)] = if conn = c then message else [] := by
    rw [sentTo_cons]
    exact List.append_nil _
  rw [hsent]
  by_cases hc : c = conn
  · subst hc
    rw [setConnection_self, if_pos rfl]
    exact ⟨rfl, rfl, hstate, hout, fun hreads => stream_of_said (hsaid (hreads _))⟩
  · rw [setConnection_of_ne s hc, if_neg (Ne.symm hc)]
    exact Tells.nothing (hlive c)

theorem sendAll_told {sends : List (Conn × List UInt8)} (hlive : Live s)
    (hlen : ∀ x ∈ sends, x.2.length < 2 ^ 31) : Safe (s.sendAll kernel sends) fun s' => Told kernel s s' sends := by
  induction sends generalizing s with
  | nil => exact Safe.ok ⟨rfl, rfl, fun c => Tells.nothing (hlive c)⟩
  | cons x sends ih =>
      obtain ⟨conn, message⟩ := x
      obtain ⟨hfirst, hrest⟩ := List.forall_mem_cons.mp hlen
      unfold sendAll
      refine Safe.bind (send_told hlive hfirst) ?_
      intro s₁ htold
      refine (ih (fun c => (htold.tells c).outputs) hrest).mono ?_
      intro s₂ htold'
      refine ⟨htold'.topics.trans htold.topics, htold'.executed.trans htold.executed, fun c => ?_⟩
      have hfirst := htold.tells c
      rw [sentTo_cons, sentTo, List.filter_nil, List.flatMap_nil, List.append_nil] at hfirst
      rw [sentTo_cons]
      exact hfirst.trans (htold'.tells c)

/-- A message to all members of a set. -/
theorem sentTo_map (audiences : Finset Conn) (c : Conn) (message : List UInt8) :
    sentTo c ((OrderedSet.elements audiences).map (·, message)) = if c ∈ audiences then message else [] := by
  have hlist : ∀ l : List Conn, l.Nodup → sentTo c (l.map (·, message)) = if c ∈ l then message else [] := by
    intro l hl
    induction l with
    | nil => rfl
    | cons a l ih =>
        obtain ⟨hnot, hl⟩ := List.nodup_cons.mp hl
        rw [List.map_cons, sentTo_cons, ih hl]
        by_cases ha : a = c
        · subst ha
          rw [if_pos rfl, if_neg hnot, if_pos (List.mem_cons_self ..), List.append_nil]
        · rw [if_neg ha, List.nil_append]
          simp [Ne.symm ha]
  rw [hlist _ OrderedSet.nodup_elements]
  simp

/-! ## One more entry -/

/-- The connection is there, and may have been shut down. -/
def Up (x : HubConnection) : Prop := x.conn.state = .kConnected ∨ x.conn.state = .kDisconnecting

omit [LinearOrder Conn] in
/-- What an entry adds to what is heard: nothing, where the connection is not up. -/
theorem ConnHolds.heard_append (hx : ConnHolds kernel h c x) (he : ∀ t, e = .subscribe c t → Up x) :
    heard kept c (h ++ [e]) = heard kept c h ++ if x.conn.state = .kConnected then hears kept c h e else [] := by
  by_cases hleave : .leave c ∈ h
  · have hdown : x.conn.state ≠ .kConnected := fun hup => hx.connected hup hleave
    rw [heard_append_of_leave hleave, if_neg hdown, List.append_nil]
  rw [PubSub.heard_append hleave]
  by_cases hup : x.conn.state = .kConnected
  · rw [if_pos hup]
  have haway : ¬ Up x := by
    rintro (hconnected | hdisconnecting)
    · exact hup hconnected
    · exact hleave (hx.disconnecting hdisconnecting)
  have hnone : ∀ t, ¬ Subscribed c t h := by
    cases hstate : x.conn.state with
    | kConnected => exact absurd hstate hup
    | kDisconnecting => exact absurd (Or.inr hstate) haway
    | kConnecting => exact fun t => not_subscribed_of_forall (hx.connecting hstate).1
    | kDisconnected => exact hx.disconnected hstate
  rw [hears_eq_nil hnone fun t heq => haway (he t heq), if_neg hup]

omit [LinearOrder Conn] in
/-- An entry that is not the connection's last. -/
theorem ConnHolds.next (hx : ConnHolds kernel h c x) (hne : e ≠ .leave c) (he : ∀ t, e = .subscribe c t → Up x)
    (hcontext : ∀ t, t ∈ x'.context ↔ Subscribed c t (h ++ [e])) (hstate : x'.conn.state = x.conn.state)
    (hout : x'.conn.state ≠ .kDisconnected → x'.conn.Outputs)
    (hstream : Reads kernel c → x'.conn.stream = x.conn.stream ++
      if x.conn.state = .kConnected then (hears kept c h e).flatMap text else []) :
    ConnHolds kernel (h ++ [e]) c x' := by
  have hleave : .leave c ∈ h ++ [e] ↔ .leave c ∈ h := by simp [Ne.symm hne]
  have hsubscribe : ¬ Up x → ∀ t, e ≠ .subscribe c t := fun haway t heq => haway (he t heq)
  refine ⟨hcontext, hout, fun hs => ?_, fun hs => ?_, fun hs => ?_, fun hs t => ?_, fun hreads => ?_⟩
  · rw [hstate] at hs
    have haway : ¬ Up x := by simp [Up, hs]
    refine ⟨fun t hmem => ?_, mt hleave.mp (hx.connecting hs).2⟩
    rcases List.mem_append.mp hmem with hmem | hmem
    · exact (hx.connecting hs).1 t hmem
    · exact hsubscribe haway t (List.mem_singleton.mp hmem).symm
  · exact mt hleave.mp (hx.connected (hstate ▸ hs))
  · exact hleave.mpr (hx.disconnecting (hstate ▸ hs))
  · rw [hstate] at hs
    have haway : ¬ Up x := by simp [Up, hs]
    rw [subscribed_append]
    rintro (heq | ⟨hsubscribed, -⟩)
    · exact hsubscribe haway t heq
    · exact hx.disconnected hs t hsubscribed
  · rw [hx.heard_append he, List.flatMap_append, ← hx.stream hreads, hstream hreads]
    split
    · rfl
    · rfl

/-! ## Topics -/

variable {x : Topic Conn}

omit [LinearOrder Conn] in
theorem makeMessage_eq (x : Topic Conn) : x.makeMessage = text (x.topic, x.content, x.lastPubTime) := by
  rw [text, render_pub rfl, firstLine, Topic.makeMessage]
  simp only [List.append_assoc, List.singleton_append]

omit [LinearOrder Conn] in
/-- An entry that is about other topics. -/
theorem TopicHolds.other (hx : TopicHolds h t x) (hon : e.on t = none) (hs : ∀ c, e ≠ .subscribe c t)
    (hu : ∀ c, e ≠ .unsubscribe c t) : TopicHolds (h ++ [e]) t x where
  topic := hx.topic
  audiences c := by
    rw [hx.audiences c, subscribed_append]
    simp [hs c, hu c]
  latest := by
    rw [latest_append, hon]
    exact hx.latest

/-- What has been executed, and what waits in the buffers, is as before. -/
structure Keeps (s s' : PubSubServer Conn) : Prop where
  executed : s'.executed = s.executed
  buf : ∀ c, (s'.connections c).buf = (s.connections c).buf

/-- Nothing but topics, contexts and output changes. -/
structure Frame (s s' : PubSubServer Conn) : Prop extends Keeps s s' where
  state : ∀ c, (s'.connections c).conn.state = (s.connections c).conn.state

omit [LinearOrder Conn] in
theorem Holds.live (hs : Holds kernel h s) : Live s := fun c => (hs.connections c).outputs

omit [LinearOrder Conn] in
theorem getTopic_of_topics (heq : s'.topics = s.topics) (t : List UInt8) : s'.getTopic t = s.getTopic t := by
  rw [getTopic, getTopic, heq]

theorem doPublish_holds (hs : Holds kernel h s) (hclean : Clean (h ++ [.publish t (content, time)])) :
    Safe (s.doPublish kernel t content time) fun s' =>
      Holds kernel (h ++ [.publish t (content, time)]) s' ∧ Frame s s' := by
  have htopic := hs.topics t
  let x' : Topic Conn := { s.getTopic t with content, lastPubTime := time }
  have hmessage : x'.makeMessage = text (t, content, time) := by rw [makeMessage_eq, ← htopic.topic]
  have hlen := (hclean t _ (List.mem_append_right _ (List.mem_singleton_self _))).2.2
  have hsends : ∀ y ∈ (OrderedSet.elements x'.audiences).map (·, x'.makeMessage), y.2.length < 2 ^ 31 := by
    intro y hy
    obtain ⟨c, -, rfl⟩ := List.mem_map.mp hy
    rw [hmessage]
    exact hlen
  unfold doPublish Topic.publish
  refine (sendAll_told (s := s.setTopic t x') hs.live hsends).mono ?_
  intro s' htold
  refine ⟨⟨hclean, fun t' => ?_, fun c => ?_⟩, ⟨htold.executed, fun c => (htold.tells c).buf⟩,
    fun c => (htold.tells c).state⟩
  · rw [getTopic_of_topics htold.topics, getTopic_setTopic]
    by_cases ht : t' = t
    · subst ht
      rw [if_pos rfl]
      refine ⟨htopic.topic, fun c => ?_, ?_⟩
      · rw [subscribed_append]
        simp [x', htopic.audiences c]
      · rw [latest_append, Entry.on, if_pos rfl]
        exact ⟨rfl, rfl⟩
    · rw [if_neg ht]
      exact (hs.topics t').other (if_neg (Ne.symm ht)) (fun _ => by simp) (fun _ => by simp)
  · have htells := htold.tells c
    refine (hs.connections c).next (by simp) (by simp) (fun t' => ?_) htells.state htells.outputs fun hreads => ?_
    · rw [htells.context, subscribed_append]
      exact ((hs.connections c).context t').trans (by simp)
    · rw [htells.stream hreads, sentTo_map, hmessage, hears]
      have haudience : c ∈ x'.audiences ↔ Subscribed c t h := htopic.audiences c
      by_cases hc : Subscribed c t h
      · rw [if_pos (haudience.mpr hc), if_pos hc, List.flatMap_singleton]
        rfl
      · rw [if_neg (mt haudience.mp hc), if_neg hc]
        rfl

omit [LinearOrder Conn] in
/-- An entry that publishes nothing. -/
theorem Clean.other (h' : Clean h) (he : ∀ t a, e ≠ .publish t a) : Clean (h ++ [e]) := by
  intro t a hmem
  rcases List.mem_append.mp hmem with hmem | hmem
  · exact h' t a hmem
  · exact absurd (List.mem_singleton.mp hmem).symm (he t a)

omit [LinearOrder Conn] in
/-- What a topic has to tell to a new member of its audience. -/
theorem hears_subscribe (hx : TopicHolds h t x) (conn : Conn) : hears kept conn h (.subscribe conn t) =
    if x.lastPubTime.valid then [(t, x.content, x.lastPubTime)] else [] := by
  have hlatest := hx.latest
  rw [hears, if_pos rfl]
  cases hl : latest t h with
  | none =>
      rw [hl] at hlatest
      rw [show x.lastPubTime = Timestamp.invalid from hlatest]
      rfl
  | some a =>
      rw [hl] at hlatest
      obtain ⟨hcontent, htime⟩ := hlatest
      rw [hcontent, htime, Option.filter_some, kept]
      split
      · rfl
      · rfl

omit [LinearOrder Conn] in
/-- What a topic keeps can be sent. -/
theorem TopicHolds.length_text (hx : TopicHolds h t x) (hclean : Clean h) (hvalid : x.lastPubTime.valid) :
    (text (t, x.content, x.lastPubTime)).length < 2 ^ 31 := by
  have hlatest := hx.latest
  cases hl : PubSub.latest t h with
  | none =>
      rw [hl] at hlatest
      rw [show x.lastPubTime = Timestamp.invalid from hlatest] at hvalid
      cases hvalid
  | some a =>
      rw [hl] at hlatest
      obtain ⟨hcontent, htime⟩ := hlatest
      rw [hcontent, htime]
      exact (hclean t a (mem_of_latest hl)).2.2

theorem doSubscribe_holds (hs : Holds kernel h s) (hup : s.Here conn) :
    Safe (s.doSubscribe kernel conn t) fun s' => Holds kernel (h ++ [.subscribe conn t]) s' ∧ Frame s s' := by
  have htopic := hs.topics t
  let s₁ := s.setContext conn (insert t (s.connections conn).context)
  let x' : Topic Conn := { s.getTopic t with audiences := insert conn (s.getTopic t).audiences }
  have hconn : ∀ c, (s₁.connections c).conn = (s.connections c).conn := fun c => (setContext_spec s conn c _).1
  have hlive : Live s₁ := by
    intro c
    rw [hconn c]
    exact hs.live c
  have hmessage : x'.makeMessage = text (t, x'.content, x'.lastPubTime) := by rw [makeMessage_eq, ← htopic.topic]
  have hsends : ∀ y ∈ (if x'.lastPubTime.valid then [(conn, x'.makeMessage)] else []), y.2.length < 2 ^ 31 := by
    intro y hy
    split_ifs at hy with hvalid
    · rw [List.mem_singleton.mp hy, hmessage]
      exact htopic.length_text hs.clean hvalid
    · exact absurd hy List.not_mem_nil
  have hsent : ∀ c, sentTo c (if x'.lastPubTime.valid then [(conn, x'.makeMessage)] else []) =
      (hears kept c h (.subscribe conn t)).flatMap text := by
    intro c
    by_cases hc : conn = c
    · subst hc
      rw [hears_subscribe htopic]
      split
      · rw [sentTo_cons, if_pos rfl, hmessage]
        rfl
      · rfl
    · rw [hears, if_neg hc]
      split
      · rw [sentTo_cons, if_neg hc]
        rfl
      · rfl
  unfold doSubscribe Topic.add
  refine (sendAll_told (s := s₁.setTopic t x') hlive hsends).mono ?_
  intro s' htold
  have htells : ∀ c, Tells kernel c (s₁.connections c) (s'.connections c) _ := htold.tells
  refine ⟨⟨hs.clean.other (by simp), fun t' => ?_, fun c => ?_⟩,
    ⟨htold.executed, fun c => (htells c).buf.trans (setContext_spec s conn c _).2.1⟩,
    fun c => (htells c).state.trans (by rw [hconn c])⟩
  · rw [getTopic_of_topics htold.topics, getTopic_setTopic]
    by_cases ht : t' = t
    · subst ht
      rw [if_pos rfl]
      refine ⟨htopic.topic, fun c => ?_, ?_⟩
      · rw [subscribed_append]
        simp [x', htopic.audiences c, eq_comm]
      · rw [latest_append, Entry.on_subscribe]
        exact htopic.latest
    · rw [if_neg ht]
      refine (hs.topics t').other rfl (fun c heq => ht ?_) (fun _ => by simp)
      exact (Entry.subscribe.inj heq).2.symm
  · have hc := htells c
    rw [hsent c] at hc
    refine (hs.connections c).next (by simp) ?_ (fun t' => ?_) (hc.state.trans (by rw [hconn c])) hc.outputs ?_
    · intro t' heq
      obtain ⟨rfl, -⟩ := Entry.subscribe.inj heq
      exact hup
    · rw [hc.context, (setContext_spec s conn c _).2.2, subscribed_append, ← (hs.connections c).context t']
      by_cases heq : c = conn
      · subst heq
        simp [eq_comm]
      · simp [heq, Ne.symm heq]
    · intro hreads
      rw [hc.stream hreads, hconn c]

/-- The command `unsub`. -/
theorem doUnsubscribe_holds (hs : Holds kernel h s) (conn : Conn) (t : List UInt8) :
    ∃ s', s.doUnsubscribe conn t false = .ok s' ∧
    Holds kernel (h ++ [.unsubscribe conn t]) s' ∧ Frame s s' := by
  have htopic := hs.topics t
  let s₁ := s.setContext conn ((s.connections conn).context.erase t)
  have hconn : ∀ c, (s₁.connections c).conn = (s.connections c).conn := fun c => (setContext_spec s conn c _).1
  refine ⟨s₁.setTopic t ((s.getTopic t).remove conn), rfl, ⟨hs.clean.other (by simp), fun t' => ?_, fun c => ?_⟩,
    ⟨rfl, fun c => (setContext_spec s conn c _).2.1⟩, fun c => congrArg TcpConnection.state (hconn c)⟩
  · rw [getTopic_setTopic]
    by_cases ht : t' = t
    · subst ht
      rw [if_pos rfl]
      refine ⟨htopic.topic, fun c => ?_, ?_⟩
      · rw [subscribed_append, ← htopic.audiences c]
        simp [Topic.remove, eq_comm, and_comm]
      · rw [latest_append, Entry.on_unsubscribe]
        exact htopic.latest
    · rw [if_neg ht]
      refine (hs.topics t').other rfl (fun _ => by simp) (fun c heq => ht ?_)
      exact (Entry.unsubscribe.inj heq).2.symm
  · refine (hs.connections c).next (by simp) (by simp) (fun t' => ?_) (congrArg TcpConnection.state (hconn c)) ?_
      fun _ => ?_
    · show t' ∈ (s₁.connections c).context ↔ _
      rw [(setContext_spec s conn c _).2.2, subscribed_append, ← (hs.connections c).context t']
      by_cases heq : c = conn
      · subst heq
        simp [eq_comm, and_comm]
      · simp [heq, Ne.symm heq]
    · show (s₁.connections c).conn.state ≠ _ → (s₁.connections c).conn.Outputs
      rw [hconn c]
      exact (hs.connections c).outputs
    · show (s₁.connections c).conn.stream = _
      rw [hconn c]
      simp

/-- A connection that is shut down hears nothing more. -/
theorem shutdown_holds (hs : Holds kernel h s) (hup : s.Here conn) :
    Holds kernel (h ++ [.leave conn]) (s.shutdown conn) := by
  have hsubscribed : ∀ c t, Subscribed c t (h ++ [.leave conn]) ↔ Subscribed c t h := by
    intro c t
    rw [subscribed_append]
    simp
  refine ⟨hs.clean.other (by simp), fun t => (hs.topics t).other rfl (fun _ => by simp) (fun _ => by simp), fun c => ?_⟩
  have hx := hs.connections c
  unfold shutdown setConn
  by_cases hc : c = conn
  · subst hc
    rw [setConnection_self]
    have hleft : .leave c ∈ h ++ [.leave c] := List.mem_append_right _ (List.mem_singleton_self _)
    have hsaid := TcpConnection.said_shutdown (s.connections c).conn
    have hdown : (s.connections c).conn.shutdown.state = .kDisconnecting := by
      refine (congrArg Prod.fst hsaid).trans ?_
      rcases hup with hs | hs
      · exact if_pos hs
      · exact (if_neg (by rw [hs]; simp)).trans hs
    have hlive : (s.connections c).conn.state ≠ .kDisconnected := by
      rcases hup with hs | hs
      · simp [hs]
      · simp [hs]
    refine ⟨fun t => (hx.context t).trans (hsubscribed c t).symm, fun _ => (hx.outputs hlive).shutdown, ?_, ?_,
      fun _ => hleft, ?_, fun hreads => ?_⟩
    · simp [hdown]
    · simp [hdown]
    · simp [hdown]
    · show (s.connections c).conn.shutdown.stream = _
      rw [hx.heard_append (by simp), hears_leave, ite_self, List.append_nil, ← hx.stream hreads]
      exact congrArg Prod.snd hsaid
  · rw [setConnection_of_ne s hc]
    refine hx.next (by simp [Ne.symm hc]) (by simp) (fun t => ?_) rfl hx.outputs fun _ => ?_
    · exact (hx.context t).trans (hsubscribed c t).symm
    · simp

end Muduo.Examples.PubSubServer
