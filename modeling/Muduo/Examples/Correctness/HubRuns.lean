import Muduo.Examples.Correctness.HubServer

/-!
# `Correctness.HubRuns` — the hub over every run

The invariant `Inv` has two halves: the server is as its history says (`Holds`), and what has arrived on each
connection is the commands executed from it, in their order, followed by what is in its buffer (`Input`).
`iterate_spec` is the step lemma for the loop of `onMessage`, and `exec_inv` for what happens on the loop thread.
-/

namespace Muduo.Examples

open Lib Net PubSub HubMessage

/-- The entry of the history for what was executed. -/
def Executed.entry {Conn : Type} : Executed Conn → Entry Conn (List UInt8) (List UInt8 × Timestamp)
  | .command conn m time =>
      if m.cmd = pub then .publish m.topic (m.content, time)
      else if m.cmd = sub then .subscribe conn m.topic
      else if m.cmd = unsub then .unsubscribe conn m.topic
      else .leave conn
  | .refused conn => .leave conn
  | .timePublish now text => .publish PubSubServer.utcTime (text, now)

/-- The command, if it came from `c`. -/
def Executed.commandOf {Conn : Type} [DecidableEq Conn] (c : Conn) : Executed Conn → Option HubMessage
  | .command conn m _ => if conn = c then some m else none
  | _ => none

/-- A command that the hub does not know. -/
def HubMessage.Unknown (m : HubMessage) : Prop := m.cmd ≠ pub ∧ m.cmd ≠ sub ∧ m.cmd ≠ unsub

namespace PubSubServer

variable {Conn : Type} [LinearOrder Conn] {kernel : Conn → Nat → WriteResult}
variable {s s' s₁ : PubSubServer Conn} {h : History Conn} {c conn : Conn} {m : HubMessage} {a : HubAction Conn}
variable {received : Conn → List UInt8} {rest : List UInt8} {time : Timestamp} {as : List (HubAction Conn)}

/-! ## The invariant -/

/-- What has been executed, as a history. -/
def history (s : PubSubServer Conn) : History Conn := s.executed.map Executed.entry

/-- The commands executed that came from `c`, oldest first. -/
def commands (s : PubSubServer Conn) (c : Conn) : List HubMessage := s.executed.filterMap (Executed.commandOf c)

/-- The bytes that wait in the buffer of `c`. -/
def waiting (s : PubSubServer Conn) (c : Conn) : List UInt8 := (s.connections c).buf.readable

structure Input (received : Conn → List UInt8) (s : PubSubServer Conn) : Prop where
  split : ∀ c, received c = (s.commands c).flatMap render ++ s.waiting c
  valid : ∀ c, ∀ m ∈ s.commands c, m.Valid
  rep : ∀ c, (s.connections c).buf.Rep (s.waiting c) false
  short : ∀ c, (s.waiting c).length < 2 ^ 31

/-- The invariant. -/
structure Inv (kernel : Conn → Nat → WriteResult) (received : Conn → List UInt8) (s : PubSubServer Conn) : Prop where
  holds : Holds kernel s.history s
  input : Input received s

/-- No message waits in the buffer of `c`, unless the last was an unknown command. -/
def Ended (s : PubSubServer Conn) (c : Conn) : Prop :=
  HubPart (s.waiting c) ∨ HubRefused (s.waiting c) ∨ ∃ m, (s.commands c).getLast? = some m ∧ m.Unknown

/-- To all other connections, nothing has come. -/
def Others (conn : Conn) (s s' : PubSubServer Conn) : Prop :=
  ∀ c, c ≠ conn → s'.waiting c = s.waiting c ∧ s'.commands c = s.commands c

theorem Others.trans (h₁ : Others conn s s₁) (h₂ : Others conn s₁ s') : Others conn s s' := fun c hc =>
  ⟨((h₂ c hc).1).trans (h₁ c hc).1, ((h₂ c hc).2).trans (h₁ c hc).2⟩

theorem Others.ended (h : Others conn s s') (hc : c ≠ conn) (hs : s.Ended c) : s'.Ended c := by
  unfold Ended
  rw [(h c hc).1, (h c hc).2]
  exact hs

/-! ## What an operation leaves alone -/

theorem commands_record (s : PubSubServer Conn) (x : Executed Conn) (c : Conn) :
    (s.record x).commands c = s.commands c ++ (x.commandOf c).toList := by
  unfold commands record
  dsimp only
  rw [List.filterMap_append]
  cases hx : x.commandOf c with
  | none => simp [hx]
  | some m => simp [hx]

/-- What is recorded is no command. -/
theorem commands_record_other (s : PubSubServer Conn) {x : Executed Conn} (hx : ∀ c, x.commandOf c = none) (c : Conn) :
    (s.record x).commands c = s.commands c := by
  rw [commands_record, hx c]
  exact List.append_nil _

theorem Input.record (hs : Input received s) {x : Executed Conn} (hx : ∀ c, x.commandOf c = none) :
    Input received (s.record x) where
  split c := by
    rw [commands_record_other s hx]
    exact hs.split c
  valid c := by
    rw [commands_record_other s hx]
    exact hs.valid c
  rep := hs.rep
  short := hs.short

omit [LinearOrder Conn] in
theorem history_record (s : PubSubServer Conn) (x : Executed Conn) : (s.record x).history = s.history ++ [x.entry] :=
  List.map_append

theorem Keeps.commands (h : Keeps s s') (c : Conn) : s'.commands c = s.commands c := by
  unfold PubSubServer.commands
  rw [h.executed]

omit [LinearOrder Conn] in
theorem Keeps.history (h : Keeps s s') : s'.history = s.history := by
  unfold PubSubServer.history
  rw [h.executed]

omit [LinearOrder Conn] in
theorem Keeps.waiting (h : Keeps s s') (c : Conn) : s'.waiting c = s.waiting c := by
  unfold PubSubServer.waiting
  rw [h.buf c]

theorem Keeps.others (h : Keeps s s') : Others conn s s' := fun c _ => ⟨h.waiting c, h.commands c⟩

theorem Keeps.input (h : Keeps s s') (hs : Input received s) : Input received s' where
  split c := by
    rw [h.commands, h.waiting]
    exact hs.split c
  valid c := by
    rw [h.commands]
    exact hs.valid c
  rep c := by
    rw [h.buf, h.waiting]
    exact hs.rep c
  short c := by
    rw [h.waiting]
    exact hs.short c

theorem Keeps.ended (h : Keeps s s') (hs : s.Ended c) : s'.Ended c := by
  unfold Ended
  rw [h.waiting, h.commands]
  exact hs

theorem keeps_setConn (s : PubSubServer Conn) (conn : Conn) (tcp : TcpConnection) : Keeps s (s.setConn conn tcp) := by
  refine ⟨rfl, fun c => ?_⟩
  unfold setConn
  by_cases hc : c = conn
  · rw [hc, setConnection_self]
  · rw [setConnection_of_ne s hc]

theorem keeps_setContext (s : PubSubServer Conn) (conn : Conn) (context : Finset (List UInt8)) :
    Keeps s (s.setContext conn context) := ⟨rfl, fun c => (setContext_spec s conn c context).2.1⟩

/-- Another state of one connection, which is as the history has it. -/
theorem Holds.setConnection {x : HubConnection} (hs : Holds kernel h s) (hx : ConnHolds kernel h conn x) :
    Holds kernel h (s.setConnection conn x) := by
  refine ⟨hs.clean, hs.topics, fun c => ?_⟩
  by_cases hc : c = conn
  · subst hc
    rw [setConnection_self]
    exact hx
  · rw [setConnection_of_ne s hc]
    exact hs.connections c

/-- The buffer has no part in the history. -/
theorem Holds.setBuf (hs : Holds kernel h s) (conn : Conn) (buf : Buffer) : Holds kernel h (s.setBuf conn buf) := by
  have hx := hs.connections conn
  exact hs.setConnection
    ⟨hx.context, hx.outputs, hx.connecting, hx.connected, hx.disconnecting, hx.disconnected, hx.stream⟩

theorem setBuf_here (s : PubSubServer Conn) (conn c : Conn) (buf : Buffer) : (s.setBuf conn buf).Here c ↔ s.Here c := by
  unfold Here setBuf
  by_cases hc : c = conn
  · rw [hc, setConnection_self]
  · rw [setConnection_of_ne s hc]

theorem setBuf_self (s : PubSubServer Conn) (conn : Conn) : s.setBuf conn (s.connections conn).buf = s := by
  unfold setBuf setConnection
  rw [Function.update_eq_self]

theorem setBuf_buf (s : PubSubServer Conn) (conn c : Conn) (buf : Buffer) :
    ((s.setBuf conn buf).connections c).buf = if c = conn then buf else (s.connections c).buf := by
  unfold setBuf
  by_cases hc : c = conn
  · rw [hc, setConnection_self, if_pos rfl]
  · rw [setConnection_of_ne s hc, if_neg hc]

/-! ## One iteration -/

/-- A message is taken out of the buffer, and recorded. -/
theorem Input.take (hs : Input received s) (hq : s.waiting conn = m.render ++ rest) (hm : m.Valid) {buf : Buffer}
    (hbuf : buf.Rep rest false) (time : Timestamp) : Input received ((s.setBuf conn buf).record (.command conn m time)) ∧
      Others conn s ((s.setBuf conn buf).record (.command conn m time)) ∧
      ((s.setBuf conn buf).record (.command conn m time)).waiting conn = rest ∧
      ((s.setBuf conn buf).record (.command conn m time)).commands conn = s.commands conn ++ [m] := by
  have hwaiting : ∀ c, ((s.setBuf conn buf).record (.command conn m time)).waiting c =
      if c = conn then rest else s.waiting c := by
    intro c
    show ((s.setBuf conn buf).connections c).buf.readable = _
    rw [setBuf_buf]
    split
    · exact hbuf.content
    · rfl
  have hcommands : ∀ c, ((s.setBuf conn buf).record (.command conn m time)).commands c =
      s.commands c ++ if conn = c then [m] else [] := by
    intro c
    rw [commands_record, Executed.commandOf]
    split
    · rfl
    · rfl
  refine ⟨⟨fun c => ?_, fun c m' hm' => ?_, fun c => ?_, fun c => ?_⟩, fun c hc => ?_, ?_, ?_⟩
  · rw [hwaiting, hcommands, hs.split c]
    by_cases hc : c = conn
    · subst hc
      rw [if_pos rfl, if_pos rfl, hq, List.flatMap_append, List.flatMap_singleton, List.append_assoc]
    · rw [if_neg hc, if_neg (Ne.symm hc), List.append_nil]
  · rw [hcommands] at hm'
    rcases List.mem_append.mp hm' with hm' | hm'
    · exact hs.valid c m' hm'
    · split_ifs at hm'
      · rw [List.mem_singleton.mp hm']
        exact hm
      · exact absurd hm' List.not_mem_nil
  · rw [hwaiting]
    show (((s.setBuf conn buf).connections c).buf).Rep _ false
    rw [setBuf_buf]
    split
    · exact hbuf
    · exact hs.rep c
  · rw [hwaiting]
    split
    · have hshort := hs.short conn
      rw [hq, List.length_append] at hshort
      omega
    · exact hs.short c
  · rw [hwaiting, hcommands, if_neg hc, if_neg (Ne.symm hc), List.append_nil]
    exact ⟨rfl, rfl⟩
  · rw [hwaiting, if_pos rfl]
  · rw [hcommands, if_pos rfl]

omit [LinearOrder Conn] in
theorem Clean.publish {t content : List UInt8} (time : Timestamp) (hclean : Clean h) (ht : ¬ Buffer.kCRLF <:+: t)
    (hcontent : ¬ Buffer.kCRLF <:+: content) (hlen : (text (t, content, time)).length < 2 ^ 31) :
    Clean (h ++ [.publish t (content, time)]) := by
  intro t' a hmem
  rcases List.mem_append.mp hmem with hmem | hmem
  · exact hclean t' a hmem
  · obtain ⟨rfl, rfl⟩ := Entry.publish.inj (List.mem_singleton.mp hmem)
    exact ⟨ht, hcontent, hlen⟩

/-- What a command publishes is the command itself. -/
theorem text_of_pub (hpub : m.cmd = pub) : text (m.topic, m.content, time) = m.render := by
  rw [text, render_pub rfl, render_pub hpub, hpub]

/-- What holds when the loop is left. -/
def Left (kernel : Conn → Nat → WriteResult) (received : Conn → List UInt8) (conn : Conn) (s s' : PubSubServer Conn) :
    Prop :=
  Inv kernel received s' ∧ s'.Ended conn ∧ Others conn s s'

/-- What holds when the loop goes on. -/
def Again (kernel : Conn → Nat → WriteResult) (received : Conn → List UInt8) (conn : Conn) (s s' : PubSubServer Conn) :
    Prop :=
  (Inv kernel received s' ∧ s'.Here conn ∧ Others conn s s') ∧ (s'.waiting conn).length < (s.waiting conn).length

/-- A command has been executed; its entry is in the history. -/
theorem Keeps.inv (h : Keeps s s') (hs : Input received s) (hholds : Holds kernel s.history s') :
    Inv kernel received s' := by
  refine ⟨?_, h.input hs⟩
  rw [h.history]
  exact hholds

theorem iterate_part (hs : Inv kernel received s) (hq : HubPart (s.waiting conn)) :
    Safe (iterate kernel conn time s) (Loop.Step.Ends (Left kernel received conn s) (Again kernel received conn s)) := by
  obtain ⟨m, hparse⟩ := parseMessage_part (hs.input.rep conn) hq
  unfold iterate
  rw [hparse, ok_bind]
  dsimp only
  rw [setBuf_self]
  exact Safe.ok ⟨hs, Or.inl hq, fun _ _ => ⟨rfl, rfl⟩⟩

theorem iterate_refused (hs : Inv kernel received s) (hup : s.Here conn) (hq : HubRefused (s.waiting conn)) :
    Safe (iterate kernel conn time s) (Loop.Step.Ends (Left kernel received conn s) (Again kernel received conn s)) := by
  obtain ⟨m, hparse⟩ := parseMessage_refused (hs.input.rep conn) hq
  unfold iterate
  rw [hparse, ok_bind]
  dsimp only
  rw [setBuf_self]
  let s₁ := s.record (.refused conn)
  have hinput : Input received s₁ := hs.input.record fun _ => rfl
  have hkeeps : Keeps s₁ (s₁.shutdown conn) := keeps_setConn _ _ _
  have hholds : Holds kernel s₁.history (s₁.shutdown conn) := by
    rw [history_record]
    exact shutdown_holds (s := s₁) ⟨hs.holds.clean, hs.holds.topics, hs.holds.connections⟩ hup
  have hothers : Others conn s s₁ := fun c _ => ⟨rfl, commands_record_other s (fun _ => rfl) c⟩
  exact Safe.ok ⟨hkeeps.inv hinput hholds, hkeeps.ended (Or.inr (Or.inl hq)), hothers.trans hkeeps.others⟩

theorem iterate_message (hs : Inv kernel received s) (hup : s.Here conn) (hq : s.waiting conn = m.render ++ rest)
    (hm : m.Valid) :
    Safe (iterate kernel conn time s) (Loop.Step.Ends (Left kernel received conn s) (Again kernel received conn s)) := by
  obtain ⟨buf, hparse, hbuf⟩ := parseMessage_message (hq ▸ hs.input.rep conn) hm
  obtain ⟨hinput, hothers, hrest, hcommands⟩ := hs.input.take hq hm hbuf time
  have hholds := hs.holds.setBuf conn buf
  have hup' := (setBuf_here s conn conn buf).mpr hup
  have hlen : m.render.length < 2 ^ 31 ∧ rest.length < (s.waiting conn).length := by
    have hshort := hs.input.short conn
    have hpos := length_render_pos m
    rw [hq, List.length_append] at hshort ⊢
    omega
  unfold iterate
  rw [hparse, ok_bind]
  dsimp only
  generalize hs₁ : (s.setBuf conn buf).record (.command conn m time) = s₁ at hinput hothers hrest hcommands
  have hhistory : s₁.history = s.history ++ [Executed.entry (.command conn m time)] := by
    rw [← hs₁, history_record]
    rfl
  have hholds₁ : Holds kernel s.history s₁ := by
    rw [← hs₁]
    exact ⟨hholds.clean, hholds.topics, hholds.connections⟩
  have hup₁ : s₁.Here conn := by
    rw [← hs₁]
    exact hup'
  -- what every command that is known leads to
  have hagain : ∀ s', Holds kernel s₁.history s' ∧ Frame s₁ s' → Again kernel received conn s s' := by
    rintro s' ⟨hholds', hframe⟩
    refine ⟨⟨hframe.toKeeps.inv hinput hholds', ?_, hothers.trans hframe.toKeeps.others⟩, ?_⟩
    · unfold Here at hup₁ ⊢
      rw [hframe.state]
      exact hup₁
    · rw [hframe.toKeeps.waiting, hrest]
      exact hlen.2
  by_cases hpub : m.cmd = pub
  · rw [if_pos hpub]
    have hentry : s₁.history = s.history ++ [.publish m.topic (m.content, time)] := by
      rw [hhistory, Executed.entry, if_pos hpub]
    have hclean := hs.holds.clean.publish time hm.topic hm.content (by rw [text_of_pub hpub]; exact hlen.1)
    refine Safe.bind (doPublish_holds hholds₁ hclean) fun s' hs' => Safe.ok ?_
    rw [← hentry] at hs'
    exact hagain s' hs'
  rw [if_neg hpub]
  by_cases hsub : m.cmd = sub
  · rw [if_pos hsub]
    have hentry : s₁.history = s.history ++ [.subscribe conn m.topic] := by
      rw [hhistory, Executed.entry, if_neg hpub, if_pos hsub]
    refine Safe.bind (doSubscribe_holds hholds₁ hup₁) fun s' hs' => Safe.ok ?_
    rw [← hentry] at hs'
    exact hagain s' hs'
  rw [if_neg hsub]
  by_cases hunsub : m.cmd = unsub
  · rw [if_pos hunsub]
    have hentry : s₁.history = s.history ++ [.unsubscribe conn m.topic] := by
      rw [hhistory, Executed.entry, if_neg hpub, if_neg hsub, if_pos hunsub]
    obtain ⟨s', hexec, hs'⟩ := doUnsubscribe_holds hholds₁ conn m.topic
    rw [hexec, ok_bind]
    rw [← hentry] at hs'
    exact Safe.ok (hagain s' hs')
  rw [if_neg hunsub]
  have hentry : s₁.history = s.history ++ [.leave conn] := by
    rw [hhistory, Executed.entry, if_neg hpub, if_neg hsub, if_neg hunsub]
  have hkeeps : Keeps s₁ (s₁.shutdown conn) := keeps_setConn _ _ _
  have hholds' := shutdown_holds hholds₁ hup₁
  rw [← hentry] at hholds'
  refine Safe.ok ⟨hkeeps.inv hinput hholds', hkeeps.ended ?_, hothers.trans hkeeps.others⟩
  exact Or.inr (Or.inr ⟨m, by rw [hcommands, List.getLast?_concat], hpub, hsub, hunsub⟩)

/-- **One iteration** keeps the invariant, and takes bytes out of the buffer if it is not the last. -/
theorem iterate_spec (hs : Inv kernel received s) (hup : s.Here conn) :
    Safe (iterate kernel conn time s) (Loop.Step.Ends (Left kernel received conn s) (Again kernel received conn s)) := by
  rcases front_cases (s.waiting conn) with hq | hq | ⟨m, rest, hm, hq⟩
  · exact iterate_part hs hq
  · exact iterate_refused hs hup hq
  · exact iterate_message hs hup hq hm

/-- **`onMessage`** executes all commands that have arrived, up to one it does not know. -/
theorem onMessage_spec (hs : Inv kernel received s) (hup : s.Here conn) :
    Safe (s.onMessage kernel conn time) (Left kernel received conn s) := by
  have hstep : ∀ s', Inv kernel received s' ∧ s'.Here conn ∧ Others conn s s' → Safe (iterate kernel conn time s')
      (Loop.Step.Ends (Left kernel received conn s) fun s'' =>
        (Inv kernel received s'' ∧ s''.Here conn ∧ Others conn s s'') ∧
        (s''.waiting conn).length < (s'.waiting conn).length) := by
    rintro s' ⟨hs', hup', hothers⟩
    refine (iterate_spec hs' hup').mono ?_
    rintro (s'' | s'') hends
    · exact ⟨hends.1, hends.2.1, hothers.trans hends.2.2⟩
    · exact ⟨⟨hends.1.1, hends.1.2.1, hothers.trans hends.1.2.2⟩, hends.2⟩
  have hfuel : (s.waiting conn).length < (s.connections conn).buf.readableBytes + 1 := by
    rw [(hs.input.rep conn).readableBytes_eq]
    exact Nat.lt_succ_self _
  obtain ⟨r, hrun, hr⟩ := Loop.run_safe (fun s' : PubSubServer Conn => (s'.waiting conn).length) hstep
    ⟨hs, hup, fun _ _ => ⟨rfl, rfl⟩⟩ hfuel
  unfold onMessage
  rw [hrun]
  exact hr

/-! ## What happens on the loop thread -/

theorem connectEstablished_nil {tcp : TcpConnection} (hs : tcp.state = .kConnecting) : ∃ tcp',
    tcp.connectEstablished [] = .ok tcp' ∧ tcp'.state = .kConnected ∧ (tcp.Outputs → tcp'.Outputs) ∧
    tcp'.stream = tcp.stream := by
  unfold TcpConnection.connectEstablished
  rw [assert_pos hs, ok_bind]
  refine ⟨_, rfl, rfl, fun hout => ⟨hout.rep, ?_⟩, rfl⟩
  show tcp.channel.tie.enableReading.isWriting = true ↔ _
  rw [Channel.isWriting_enableReading]
  exact hout.interest

theorem handleClose_nil {tcp : TcpConnection} (hs : tcp.state = .kConnected ∨ tcp.state = .kDisconnecting) : ∃ tcp',
    tcp.handleClose [] = .ok tcp' ∧ tcp'.state = .kDisconnected ∧ tcp'.stream = tcp.stream := by
  unfold TcpConnection.handleClose
  rw [assert_pos hs, ok_bind]
  exact ⟨_, rfl, rfl, rfl⟩

theorem mem_elements {t : List UInt8} {context : Finset (List UInt8)} : t ∈ elements context ↔ t ∈ context :=
  @OrderedSet.mem_elements _ stringOrder context t

theorem elements_empty : elements ∅ = [] := @OrderedSet.elements_empty _ stringOrder

/-- What arrives on `c` with an action. -/
def arrived (a : HubAction Conn) (c : Conn) : List UInt8 :=
  match a with
  | .receive conn chunk _ => if conn = c then chunk.data else []
  | _ => []

/-- What has arrived on `c` with the actions `as`. -/
def receivedBy (as : List (HubAction Conn)) (c : Conn) : List UInt8 := as.flatMap fun a => arrived a c

/-- The connection that goes is subscribed to something. -/
def Faulty (s : PubSubServer Conn) (a : HubAction Conn) : Prop :=
  ∃ conn t, a = .disconnect conn ∧ Subscribed conn t s.history

/-- The invariant, between two actions. -/
def Rests (kernel : Conn → Nat → WriteResult) (received : Conn → List UInt8) (s : PubSubServer Conn) : Prop :=
  Inv kernel received s ∧ ∀ c, s.Ended c

theorem Keeps.rests (h : Keeps s s') (hs : Rests kernel received s) (hholds : Holds kernel s.history s') :
    Rests kernel received s' := ⟨h.inv hs.1.input hholds, fun c => h.ended (hs.2 c)⟩

theorem connect_rests (hs : Rests kernel received s) (hnew : (s.connections conn).conn.state = .kConnecting) :
    Safe (exec kernel s (.connect conn)) (Rests kernel received) := by
  have hx := hs.1.holds.connections conn
  obtain ⟨tcp, htcp, hstate, hout, hstream⟩ := connectEstablished_nil hnew
  obtain ⟨hnone, hleave⟩ := hx.connecting hnew
  have hup : ((s.setConn conn tcp).connections conn).conn.connected = true := by
    rw [setConn, setConnection_self, TcpConnection.connected, hstate]
    rfl
  have hx' : ConnHolds kernel s.history conn { s.connections conn with conn := tcp, context := ∅ } := by
    refine ⟨fun t => ?_, fun _ => hout (hx.outputs (by simp [hnew])), ?_, fun _ => hleave, ?_, ?_, fun hreads => ?_⟩
    · simp [not_subscribed_of_forall hnone]
    · simp [hstate]
    · simp [hstate]
    · simp [hstate]
    · exact hstream.trans (hx.stream hreads)
  have hsame : (s.setConn conn tcp).setContext conn ∅ =
      s.setConnection conn { s.connections conn with conn := tcp, context := ∅ } := by
    unfold setContext setConn
    rw [setConnection_self]
    unfold setConnection
    rw [Function.update_idem]
  unfold exec onConnection
  dsimp only
  rw [htcp, ok_bind, if_pos hup, hsame]
  refine Safe.ok (Keeps.rests ?_ hs (hs.1.holds.setConnection hx'))
  rw [← hsame]
  have h₁ := keeps_setConn s conn tcp
  have h₂ := keeps_setContext (s.setConn conn tcp) conn ∅
  exact ⟨h₂.executed.trans h₁.executed, fun c => (h₂.buf c).trans (h₁.buf c)⟩

theorem disconnect_rests (hs : Rests kernel received s) (hup : s.Here conn)
    (hnone : ∀ t, ¬ Subscribed conn t s.history) : Safe (exec kernel s (.disconnect conn)) (Rests kernel received) := by
  have hx := hs.1.holds.connections conn
  obtain ⟨tcp, htcp, hstate, hstream⟩ := handleClose_nil hup
  have hempty : (s.connections conn).context = ∅ :=
    Finset.eq_empty_of_forall_notMem fun t ht => hnone t ((hx.context t).mp ht)
  have hx' : ConnHolds kernel s.history conn { s.connections conn with conn := tcp } := by
    refine ⟨hx.context, ?_, ?_, ?_, ?_, fun _ => hnone, fun hreads => hstream.trans (hx.stream hreads)⟩
    · simp [hstate]
    · simp [hstate]
    · simp [hstate]
    · simp [hstate]
  have hself : (s.setConn conn tcp).connections conn = { s.connections conn with conn := tcp } := setConnection_self ..
  have hdown : ¬ (((s.setConn conn tcp).connections conn).conn.connected = true) := by
    rw [hself, TcpConnection.connected, hstate]
    decide
  unfold exec onConnection
  dsimp only
  rw [htcp, ok_bind, if_neg hdown, hself, hempty, elements_empty, unsubscribeAll]
  exact Safe.ok ((keeps_setConn s conn tcp).rests hs (hs.1.holds.setConnection hx'))

/-- The first element that `onConnection` removes is the string it then looks for. -/
theorem disconnect_faults (hs : Rests kernel received s) (hup : s.Here conn) {t : List UInt8}
    (ht : Subscribed conn t s.history) : exec kernel s (.disconnect conn) = .error .badAccess := by
  obtain ⟨tcp, htcp, hstate, -⟩ := handleClose_nil hup
  have hself : (s.setConn conn tcp).connections conn = { s.connections conn with conn := tcp } := setConnection_self ..
  have hdown : ¬ (((s.setConn conn tcp).connections conn).conn.connected = true) := by
    rw [hself, TcpConnection.connected, hstate]
    decide
  have hmem : t ∈ elements (s.connections conn).context :=
    mem_elements.mpr (((hs.1.holds.connections conn).context t).mpr ht)
  unfold exec onConnection
  dsimp only
  rw [htcp, ok_bind, if_neg hdown, hself]
  cases hl : elements (s.connections conn).context with
  | nil =>
      rw [hl] at hmem
      exact absurd hmem List.not_mem_nil
  | cons topic topics => rfl

theorem receive_rests {chunk : Bytes} (hs : Rests kernel received s) (ha : s.Enabled (.receive conn chunk time)) :
    Safe (exec kernel s (.receive conn chunk time))
      (Rests kernel fun c => received c ++ arrived (.receive conn chunk time) c) := by
  obtain ⟨hup, hshort⟩ := ha
  have hinput := hs.1.input
  rw [(hinput.rep conn).readableBytes_eq] at hshort
  unfold exec
  refine Safe.bind (Buffer.append_bytes_rep (hinput.rep conn) chunk) fun buf hbuf => ?_
  have hwaiting : ∀ c, (s.setBuf conn buf).waiting c = s.waiting c ++ arrived (.receive conn chunk time) c := by
    intro c
    show ((s.setBuf conn buf).connections c).buf.readable = _
    rw [setBuf_buf, arrived]
    by_cases hc : c = conn
    · rw [hc, if_pos rfl, if_pos rfl]
      exact hbuf.content
    · rw [if_neg hc, if_neg (Ne.symm hc), List.append_nil]
      rfl
  have hinput' : Input (fun c => received c ++ arrived (.receive conn chunk time) c) (s.setBuf conn buf) := by
    refine ⟨fun c => ?_, hinput.valid, fun c => ?_, fun c => ?_⟩
    · rw [hwaiting, hinput.split c, List.append_assoc]
      rfl
    · rw [hwaiting, setBuf_buf, arrived]
      by_cases hc : c = conn
      · rw [hc, if_pos rfl, if_pos rfl]
        exact hbuf
      · rw [if_neg hc, if_neg (Ne.symm hc), List.append_nil]
        exact hinput.rep c
    · rw [hwaiting, arrived]
      by_cases hc : c = conn
      · rw [hc, if_pos rfl, List.length_append]
        exact hshort
      · rw [if_neg (Ne.symm hc), List.append_nil]
        exact hinput.short c
  refine (onMessage_spec ⟨hs.1.holds.setBuf conn buf, hinput'⟩ ((setBuf_here s conn conn buf).mpr hup)).mono ?_
  rintro s' ⟨hinv, hended, hothers⟩
  refine ⟨hinv, fun c => ?_⟩
  by_cases hc : c = conn
  · exact hc ▸ hended
  · refine hothers.ended hc ?_
    have hother := hs.2 c
    unfold Ended at hother ⊢
    rw [hwaiting, arrived, if_neg (Ne.symm hc), List.append_nil]
    exact hother

theorem writable_rests {r : WriteResult} (hs : Rests kernel received s) (hup : s.Here conn) :
    Safe (exec kernel s (.writable conn r)) (Rests kernel received) := by
  have hx := hs.1.holds.connections conn
  have hlive : (s.connections conn).conn.state ≠ .kDisconnected := by
    rcases hup with hstate | hstate
    · simp [hstate]
    · simp [hstate]
  obtain ⟨tcp, htcp, hwrites⟩ := TcpConnection.handleWrite_spec (hx.outputs hlive) r
  have hx' : ConnHolds kernel s.history conn { s.connections conn with conn := tcp } := by
    refine ⟨hx.context, fun _ => hwrites.outputs, ?_, ?_, ?_, ?_, fun hreads => hwrites.stream.trans (hx.stream hreads)⟩
    · rw [hwrites.frame.state]
      exact hx.connecting
    · rw [hwrites.frame.state]
      exact hx.connected
    · rw [hwrites.frame.state]
      exact hx.disconnecting
    · rw [hwrites.frame.state]
      exact hx.disconnected
  unfold exec
  dsimp only
  rw [htcp, ok_bind]
  exact Safe.ok ((keeps_setConn s conn tcp).rests hs (hs.1.holds.setConnection hx'))

omit [LinearOrder Conn] in
/-- What the timer publishes can be sent. -/
theorem Formatted.clean {content : List UInt8} (hformatted : Formatted content) (hclean : Clean h) (now : Timestamp) :
    Clean (h ++ [.publish utcTime (content, now)]) := by
  obtain ⟨hlen, hchars⟩ := hformatted
  refine hclean.publish now (by decide) (fun hin => ?_) ?_
  · have hmem : (0x0d : UInt8) ∈ content := hin.subset (List.mem_cons_self ..)
    exact absurd (hchars _ hmem) (by decide)
  · rw [text, render_pub rfl, firstLine]
    simp only [List.length_append, List.length_cons]
    have hutc : utcTime.length = 8 := rfl
    have hpub : pub.length = 3 := rfl
    have hcrlf : Buffer.kCRLF.length = 2 := rfl
    omega

theorem timePublish_rests {content : List UInt8} (hs : Rests kernel received s) (hformatted : Formatted content) :
    Safe (exec kernel s (.timePublish time content)) (Rests kernel received) := by
  let s₁ := s.record (.timePublish time content)
  have hhistory : s₁.history = s.history ++ [.publish utcTime (content, time)] := history_record ..
  have hholds : Holds kernel s.history s₁ := ⟨hs.1.holds.clean, hs.1.holds.topics, hs.1.holds.connections⟩
  have hinput : Input received s₁ := hs.1.input.record fun _ => rfl
  have hended : ∀ c, s₁.Ended c := by
    intro c
    have hs' := hs.2 c
    unfold Ended at hs' ⊢
    rw [commands_record_other s fun _ => rfl]
    exact hs'
  refine (doPublish_holds hholds (hformatted.clean hs.1.holds.clean time)).mono ?_
  rintro s' ⟨hholds', hframe⟩
  rw [← hhistory] at hholds'
  exact ⟨hframe.toKeeps.inv hinput hholds', fun c => hframe.toKeeps.ended (hended c)⟩

/-- **One thing that happens** keeps the invariant; it faults if a connection goes that is subscribed to something, and
    in no other case. -/
theorem exec_rests (hs : Rests kernel received s) (ha : s.Enabled a) :
    (s.Faulty a → exec kernel s a = .error .badAccess) ∧
    (¬ s.Faulty a → Safe (exec kernel s a) (Rests kernel fun c => received c ++ arrived a c)) := by
  have hnothing : (∀ c, arrived a c = []) → (fun c => received c ++ arrived a c) = received := by
    intro hnil
    funext c
    rw [hnil c, List.append_nil]
  constructor
  · rintro ⟨conn, t, rfl, ht⟩
    exact disconnect_faults hs ha ht
  · intro hfault
    cases a with
    | connect conn =>
        rw [hnothing fun _ => rfl]
        exact connect_rests hs ha
    | receive conn chunk time => exact receive_rests hs ha
    | writable conn r =>
        rw [hnothing fun _ => rfl]
        exact writable_rests hs ha
    | disconnect conn =>
        rw [hnothing fun _ => rfl]
        exact disconnect_rests hs ha fun t ht => hfault ⟨conn, t, rfl, ht⟩
    | timePublish now content =>
        rw [hnothing fun _ => rfl]
        exact timePublish_rests hs ha

/-! ## Every run -/

theorem rests_new : Rests kernel (fun _ => []) (new : PubSubServer Conn) := by
  have hnone : ∀ (c : Conn) t, ¬ Subscribed c t (new : PubSubServer Conn).history := fun c t => not_subscribed_nil
  refine ⟨⟨⟨?_, fun t => ?_, fun c => ?_⟩, fun c => ?_, ?_, fun c => ?_, fun c => ?_⟩, fun c => ?_⟩
  · exact fun t a hmem => absurd hmem List.not_mem_nil
  · exact ⟨rfl, fun c => ⟨fun hmem => absurd hmem (Finset.notMem_empty c), fun ht => absurd ht (hnone c t)⟩, rfl⟩
  · refine ⟨fun t => ?_, fun _ => TcpConnection.outputs_new false false, ?_, ?_, ?_, ?_, ?_⟩
    · exact ⟨fun hmem => absurd hmem (Finset.notMem_empty t), fun ht => absurd ht (hnone c t)⟩
    · exact fun _ => ⟨fun _ => List.not_mem_nil, List.not_mem_nil⟩
    · exact fun hstate => nomatch hstate
    · exact fun hstate => nomatch hstate
    · exact fun hstate => nomatch hstate
    · intro _
      show [] ++ Buffer.new.readable = []
      rw [Buffer.new_rep.content]
      rfl
  · show [] = [] ++ Buffer.new.readable
    rw [Buffer.new_rep.content]
    rfl
  · exact fun c m hm => absurd hm List.not_mem_nil
  · show Buffer.new.Rep Buffer.new.readable false
    rw [Buffer.new_rep.content]
    exact Buffer.new_rep
  · show Buffer.new.readable.length < _
    rw [Buffer.new_rep.content]
    decide
  · refine Or.inl (Or.inl ?_)
    show NoLine Buffer.new.readable
    rw [Buffer.new_rep.content]
    exact noLine_nil

/-- **Every run** keeps the invariant. -/
theorem rests_of_reachedBy (h : (system kernel).ReachedBy as s) : Rests kernel (receivedBy as) s := by
  refine System.ReachedBy.keeps (S := system kernel) (I := fun as s => Rests kernel (receivedBy as) s) ?_ ?_ h
  · rintro s rfl
    exact rests_new
  · intro as s a s' hs ha hexec
    obtain ⟨hfaulty, hsafe⟩ := exec_rests hs ha
    have hnot : ¬ s.Faulty a := by
      intro hf
      have hfault : exec kernel s a = .error .badAccess := hfaulty hf
      rw [show exec kernel s a = .ok s' from hexec] at hfault
      cases hfault
    have hrests := (hsafe hnot).of_eq_ok hexec
    have hreceived : (fun c => receivedBy as c ++ arrived a c) = receivedBy (as ++ [a]) := by
      funext c
      rw [receivedBy, receivedBy, List.flatMap_append, List.flatMap_singleton]
    exact hreceived ▸ hrests

/-- **When the hub faults.** Whatever happens in whatever order: an action faults exactly if a connection goes that has
    subscribed to a topic and not unsubscribed since, since `onConnection` then looks for a topic by a string that it has
    just destroyed. No assertion ever fails. -/
theorem faults_iff_leaves_subscribed (h : (system kernel).ReachedBy as s) (ha : (system kernel).enabled s a) :
    (exec kernel s a = .error .badAccess ↔ ∃ conn t, a = .disconnect conn ∧ Subscribed conn t s.history) ∧
    exec kernel s a ≠ .error .assertion := by
  obtain ⟨hfaulty, hsafe⟩ := exec_rests (rests_of_reachedBy h) ha
  by_cases hf : s.Faulty a
  · refine ⟨⟨fun _ => hf, fun _ => hfaulty hf⟩, ?_⟩
    rw [hfaulty hf]
    simp
  · exact ⟨⟨fun hfault => absurd hfault (hsafe hf).ne_badAccess, fun hf' => absurd hf' hf⟩, (hsafe hf).ne_assertion⟩

/-- `"sub a\r\n"`. -/
def subscribeLine : Bytes := ⟨[0x73, 0x75, 0x62, 0x20, 0x61, 0x0d, 0x0a], by decide⟩

/-- Connection 7 subscribes, and goes. -/
theorem faults_iff_leaves_subscribed_seven : ∃ s : PubSubServer ℕ,
    (system fun _ _ => .wrote 9).ReachedBy [.connect 7, .receive 7 subscribeLine 1] s ∧
    exec (fun _ _ => .wrote 9) s (.disconnect 7) = .error .badAccess := by
  obtain ⟨s, hreached, hhere, hmem⟩ := System.ReachedBy.exists_of_perform (system fun _ _ : ℕ => .wrote 9)
    [.connect 7, .receive 7 subscribeLine 1] (s := new) (P := fun s => s.Here 7 ∧ [0x61] ∈ (s.connections 7).context)
    rfl (by decide +kernel)
  have hsubscribed := (((rests_of_reachedBy hreached).1.holds.connections 7).context _).mp hmem
  exact ⟨s, hreached, (faults_iff_leaves_subscribed (a := .disconnect 7) hreached hhere).1.mpr ⟨7, _, rfl, hsubscribed⟩⟩

end PubSubServer

end Muduo.Examples
