import Muduo.Net.TcpThreads
import Muduo.Net.Correctness.EventLoopWakeup
import Muduo.Net.Correctness.TcpOutput

/-!
# `Correctness.TcpShutdown` — when a graceful shutdown keeps its promise

`state_` changes at once in the thread that calls `shutdown`, whereas its `send` and `shutdown` functors travel
through the queue, and `handleWrite` reacts to `kDisconnecting` on its own. So the write half of the socket can
be shut down while an accepted message is still in flight, and then the message is lost.

That is the only way to lose one: as long as no accepted message is in flight when `shutdownWrite` is called,
every accepted message has been written when it is called. The proof locates every accepted message, in
flight or handed to `sendInLoop`, and uses the stream theorem of `TcpOutput` for the latter.
-/

namespace Muduo.Net

open Lib

/-- `m` is on the wire: the bytes taken by the kernel start with all messages up to and including `m`. -/
def Message.Written (m : Message) (wire : List UInt8) (sent : List Message) : Prop :=
  m.bytes = [] ∨ ∃ before after, sent = before ++ m :: after ∧
    (before.map Message.bytes).flatten ++ m.bytes <+: wire

theorem Message.Written.mono {m : Message} {wire wire' : List UInt8} {sent sent' : List Message}
    (h : m.Written wire sent) (hw : wire <+: wire') (hs : sent <+: sent') : m.Written wire' sent' := by
  rcases h with hnil | ⟨before, after, rfl, hpre⟩
  · exact Or.inl hnil
  · obtain ⟨more, rfl⟩ := hs
    exact Or.inr ⟨before, after ++ more, by simp, hpre.trans hw⟩

/-- Once everything sent is on the wire, each message of it is. -/
theorem Message.written_of_mem {m : Message} {sent : List Message} (hm : m ∈ sent) :
    m.Written (sent.map Message.bytes).flatten sent := by
  obtain ⟨before, after, rfl⟩ := List.append_of_mem hm
  exact Or.inr ⟨before, after, rfl, (after.map Message.bytes).flatten, by simp⟩

namespace SharedConn

variable {τ : Type} {s s' : SharedConn τ}

/-- The functors waiting to be run. -/
def tasks (s : SharedConn τ) : List (Pending τ ConnTask) := s.loop.functors ++ s.loop.pendingFunctors

/-- `m` was accepted by `send` on another thread, and its `sendInLoop` has not been run. -/
def InFlight (s : SharedConn τ) (m : Message) : Prop :=
  (∃ t, s.calls t = .sending m) ∨ ∃ f ∈ s.tasks, f.cb = .sendInLoop m

/-- The step calls `socket_->shutdownWrite()`. -/
def ShutsDown (s : SharedConn τ) : SharedOp τ → Prop
  | .handleWrite n => s.conn.state = .kDisconnecting ∧ s.conn.drains (.wrote n) = true
  | .shutdown => s.conn.state = .kConnected ∧ s.conn.channel.isWriting = false
  | .runNext _ => (∃ f fs, s.loop.functors = f :: fs ∧ f.cb = .shutdownInLoop) ∧
      s.conn.channel.isWriting = false
  | _ => False

/-- The write half is not shut down over the head of a message in flight, and a message that has to travel
    through the queue is short enough for the `int` length of a `StringPiece`. -/
def Orderly (s : SharedConn τ) (a : SharedOp τ) : Prop :=
  (s.ShutsDown a → ∀ m, s.InFlight m → m.bytes = []) ∧
  ∀ t data, a = .sendCheck t data → data.data.length < 2 ^ 31

/-- The bytes that a thread is about to queue. -/
def callBytes : CallPoint → List UInt8
  | .sending m => m.bytes
  | .idle | .stopping | .stopped => []

/-- The bytes that a functor carries. -/
def taskBytes : ConnTask → List UInt8
  | .sendInLoop m => m.bytes
  | .shutdownInLoop => []

/-- No byte is in flight. -/
theorem inFlight_nil_iff : (∀ m, s.InFlight m → m.bytes = []) ↔
    (∀ t, callBytes (s.calls t) = []) ∧ ∀ f ∈ s.tasks, taskBytes f.cb = [] := by
  constructor
  · intro h
    refine ⟨fun t => ?_, fun f hf => ?_⟩
    · cases hc : s.calls t with
      | sending m => exact h m (Or.inl ⟨t, hc⟩)
      | idle | stopping | stopped => rfl
    · cases hc : f.cb with
      | sendInLoop m => exact h m (Or.inr ⟨f, hf, hc⟩)
      | shutdownInLoop => rfl
  · rintro ⟨hcalls, htasks⟩ m (⟨t, ht⟩ | ⟨f, hf, hcb⟩)
    · simpa [callBytes, ht] using hcalls t
    · simpa [taskBytes, hcb] using htasks f hf

instance decidableShutsDown (s : SharedConn τ) : DecidablePred s.ShutsDown
  | .handleWrite n => inferInstanceAs (Decidable (s.conn.state = .kDisconnecting ∧ s.conn.drains (.wrote n) = true))
  | .shutdown => inferInstanceAs (Decidable (s.conn.state = .kConnected ∧ s.conn.channel.isWriting = false))
  | .runNext _ =>
      decidable_of_iff ((s.loop.functors.head?.any fun f => f.cb = .shutdownInLoop) = true ∧
          s.conn.channel.isWriting = false) <| and_congr_left fun _ => by
        cases s.loop.functors <;> simp
  | .loop _ | .send _ _ | .sendCheck _ _ | .sendQueue _ | .shutdownCheck _ | .shutdownSet _ | .shutdownQueue _ =>
      inferInstanceAs (Decidable False)

/-- A message that has to travel through the queue is short. -/
def short : SharedOp τ → Bool
  | .sendCheck _ data => data.data.length < 2 ^ 31
  | _ => true

theorem short_iff {a : SharedOp τ} : short a = true ↔ ∀ t data, a = .sendCheck t data → data.data.length < 2 ^ 31 := by
  cases a <;> simp [short]

instance decidableOrderly [Fintype τ] (s : SharedConn τ) : DecidablePred s.Orderly := fun _ =>
  decidable_of_iff _ (and_congr (imp_congr_right fun _ => inFlight_nil_iff.symm) short_iff)

/-- What holds between any two steps. -/
structure Inv (s : SharedConn τ) : Prop where
  loop : s.loop.Inv
  outputs : TcpConnection.Outputs s.conn
  stream : s.conn.stream = (s.sent.map Message.bytes).flatten
  state : s.conn.state = .kConnected ∨ s.conn.state = .kDisconnecting
  /-- Every accepted message is in flight or has reached `sendInLoop`. -/
  located : ∀ m ∈ s.accepted, m ∈ s.sent ∨ s.InFlight m
  short : ∀ m, s.InFlight m → m.bytes.length < 2 ^ 31
  /-- A `shutdownInLoop` on its way, or executed, means that `state_` has been set. -/
  stopped : (∃ t, s.calls t = .stopped) ∨ (∃ f ∈ s.tasks, f.cb = .shutdownInLoop) ∨
    s.conn.shutdownWrites ≠ 0 → s.conn.state = .kDisconnecting
  written : s.conn.shutdownWrites ≠ 0 → ∀ m ∈ s.accepted, m.Written s.conn.accepted s.sent

theorem Inv.state_ne (h : s.Inv) : s.conn.state ≠ .kDisconnected := by
  rcases h.state with hs | hs <;> rw [hs] <;> decide

/-- While `state_` is `kConnected`, nothing has been shut down. -/
theorem Inv.not_shut (h : s.Inv) (hs : s.conn.state = .kConnected) : s.conn.shutdownWrites = 0 := by
  by_contra hne
  have hd := h.stopped (Or.inr (Or.inr hne))
  rw [hs] at hd
  exact absurd hd (by decide)

/-! ## The steps on the connection -/

/-- Write interest off and nothing in flight: everything accepted is on the wire. -/
theorem Inv.all_written (h : s.Inv) (hw : s.conn.channel.isWriting = false)
    (hclear : ∀ m, s.InFlight m → m.bytes = []) :
    ∀ m ∈ s.accepted, m.Written s.conn.accepted s.sent := by
  intro m hm
  have hwire : s.conn.accepted = (s.sent.map Message.bytes).flatten := by
    rw [← h.stream]
    unfold TcpConnection.stream
    rw [h.outputs.readable_nil hw, List.append_nil]
  rcases h.located m hm with hsent | hfly
  · rw [hwire]
    exact Message.written_of_mem hsent
  · exact Or.inl (hclear m hfly)

/-- `sendInLoop` with a message that is in memory as a whole. -/
theorem Inv.sends (h : s.Inv) {c : TcpConnection} {m : Message}
    (hc : TcpConnection.Sends s.conn c m.bytes) :
    TcpConnection.Outputs c ∧ c.stream = ((s.sent ++ [m]).map Message.bytes).flatten ∧
    (c.state = .kConnected ∨ c.state = .kDisconnecting) ∧
    (c.shutdownWrites ≠ 0 → ∀ m' ∈ s.accepted, m'.Written c.accepted (s.sent ++ [m])) := by
  refine ⟨hc.outputs, ?_, by rw [hc.frame.state]; exact h.state, ?_⟩
  · rw [hc.stream, h.stream]
    simp
  · intro hne m' hm'
    rw [hc.shutdownWrites] at hne
    exact (h.written hne m' hm').mono hc.accepted (List.prefix_append _ _)

theorem Inv.handleWrite (h : s.Inv) {n : Nat}
    (hclear : s.conn.state = .kDisconnecting ∧ s.conn.drains (.wrote n) = true →
      ∀ m, s.InFlight m → m.bytes = []) :
    ∃ c, s.conn.handleWrite (.wrote n) = .ok c ∧ Inv { s with conn := c } := by
  obtain ⟨c, hret, hc⟩ := TcpConnection.handleWrite_spec h.outputs (.wrote n)
  have hstate : c.state = s.conn.state := hc.frame.state
  refine ⟨c, hret, h.loop, hc.outputs, hc.stream.trans h.stream, by rw [hstate]; exact h.state, h.located,
    h.short, ?_, ?_⟩
  · show _ ∨ _ ∨ c.shutdownWrites ≠ 0 → c.state = _
    rw [hc.shutdownWrites, hstate]
    split
    · next hd => exact fun _ => hd.1
    · exact h.stopped
  · show c.shutdownWrites ≠ 0 → ∀ m ∈ s.accepted, m.Written c.accepted s.sent
    rw [hc.shutdownWrites]
    split
    · -- the backlog is drained and `shutdownInLoop` is called from here
      next hd =>
        have hwire : c.accepted = (s.sent.map Message.bytes).flatten := by
          rw [← h.stream, ← hc.stream]
          unfold TcpConnection.stream
          rw [hc.drained hd.2, List.append_nil]
        intro _ m hm
        rcases h.located m hm with hsent | hfly
        · rw [hwire]
          exact Message.written_of_mem hsent
        · exact Or.inl (hclear hd m hfly)
    · exact fun hne m hm => (h.written hne m hm).mono hc.accepted (List.prefix_refl _)

/-- `shutdownInLoop`, wherever it is called from. -/
theorem Inv.shutdownInLoop (h : s.Inv) (hd : s.conn.state = .kDisconnecting)
    (hclear : s.conn.channel.isWriting = false → ∀ m, s.InFlight m → m.bytes = []) :
    Inv { s with conn := s.conn.shutdownInLoop } := by
  by_cases hw : s.conn.channel.isWriting = true
  · have hsame : s.conn.shutdownInLoop = s.conn := if_pos hw
    rw [hsame]
    exact h
  · have hnw : s.conn.channel.isWriting = false := by simpa using hw
    rw [TcpConnection.shutdownInLoop_of_not_writing hnw]
    exact ⟨h.loop, ⟨h.outputs.rep, h.outputs.interest⟩, h.stream, h.state, h.located, h.short, fun _ => hd,
      fun _ => h.all_written hnw (hclear hnw)⟩

/-- `setState(kDisconnecting)`, on any thread. -/
theorem Inv.setState (h : s.Inv) : Inv { s with conn := s.conn.setState .kDisconnecting } :=
  ⟨h.loop, ⟨h.outputs.rep, h.outputs.interest⟩, h.stream, Or.inr rfl, h.located, h.short, fun _ => rfl,
    h.written⟩

theorem Inv.shutdown (h : s.Inv)
    (hclear : s.conn.state = .kConnected ∧ s.conn.channel.isWriting = false →
      ∀ m, s.InFlight m → m.bytes = []) :
    Inv { s with conn := s.conn.shutdown } := by
  unfold TcpConnection.shutdown
  split
  · next hs => exact h.setState.shutdownInLoop rfl fun hw => hclear ⟨hs, hw⟩
  · exact h

theorem kept_wrote (c : TcpConnection) (data : Bytes) (n : Nat) : c.kept data (.wrote n) = data.data := by
  simp [TcpConnection.kept, TcpConnection.discards]

theorem Inv.send (h : s.Inv) (data : Bytes) (n : Nat) : Safe (s.conn.send data (.wrote n)) (fun conn =>
    if s.conn.connected = true then
      Inv { s with conn, accepted := s.accepted ++ [s.message data], sent := s.sent ++ [s.message data] }
    else Inv { s with conn }) := by
  unfold TcpConnection.send
  by_cases hs : s.conn.state = .kConnected
  · have hc : s.conn.connected = true := by simp [TcpConnection.connected, hs]
    simp only [if_pos hs, if_pos hc]
    refine (TcpConnection.sendInLoop_spec h.outputs h.state_ne data (.wrote n)).mono ?_
    intro c hsend
    rw [kept_wrote] at hsend
    obtain ⟨hO, hS, hst, -⟩ := h.sends (m := s.message data) hsend
    have hnot : c.shutdownWrites = 0 := hsend.shutdownWrites.trans (h.not_shut hs)
    refine ⟨h.loop, hO, hS, hst, ?_, h.short, ?_, fun hne => absurd hnot hne⟩
    · intro m hm
      rcases List.mem_append.mp hm with hm | hm
      · exact (h.located m hm).imp_left (List.mem_append_left _)
      · exact Or.inl (List.mem_append_right _ hm)
    · show _ ∨ _ ∨ c.shutdownWrites ≠ 0 → c.state = _
      rw [hsend.shutdownWrites, hsend.frame.state]
      exact h.stopped
  · have hc : ¬ s.conn.connected = true := by simpa [TcpConnection.connected] using hs
    simp only [if_neg hs, if_neg hc]
    exact Safe.ok h

/-! ## The steps on the queue -/

/-- The first functor of the vector is run. -/
theorem Inv.runTask (h : s.Inv) {l : EventLoop τ ConnTask} {f : Pending τ ConnTask} {n : Nat} (hl : l.Inv)
    (htasks : s.tasks = f :: (l.functors ++ l.pendingFunctors))
    (hclear : f.cb = .shutdownInLoop → s.conn.channel.isWriting = false →
      ∀ m, s.InFlight m → m.bytes = []) :
    Safe ({ s with loop := l }.runTask n f.cb) Inv := by
  have hrest : ∀ g ∈ l.functors ++ l.pendingFunctors, g ∈ s.tasks := by
    intro g hg
    rw [htasks]
    exact List.mem_cons_of_mem _ hg
  have hfly : ∀ m, InFlight { s with loop := l } m → s.InFlight m :=
    fun m hm => hm.imp_right fun ⟨g, hg, hcb⟩ => ⟨g, hrest g hg, hcb⟩
  have hstop : (∃ t, s.calls t = .stopped) ∨ (∃ g ∈ l.functors ++ l.pendingFunctors, g.cb = .shutdownInLoop) ∨
      s.conn.shutdownWrites ≠ 0 → s.conn.state = .kDisconnecting :=
    fun hor => h.stopped (hor.imp_right (Or.imp_left fun ⟨g, hg, hcb⟩ => ⟨g, hrest g hg, hcb⟩))
  cases hcb : f.cb with
  | sendInLoop m =>
      -- the message leaves the queue and joins the stream; its length survives the `StringPiece`
      have hhead : s.InFlight m := Or.inr ⟨f, by rw [htasks]; exact List.mem_cons_self, hcb⟩
      have hlen := h.short m hhead
      have hpiece : s.conn.sendInLoopPiece (StringPiece.ofString m.bytes) (.wrote n)
          = s.conn.sendInLoop m.bytes m.bytes.length (.wrote n) := by
        unfold TcpConnection.sendInLoopPiece StringPiece.ofString
        rw [toInt32_eq (by omega) (by omega), toSizeT_natCast (by omega)]
      show Safe (s.conn.sendInLoopPiece (StringPiece.ofString m.bytes) (.wrote n) >>= _) _
      rw [hpiece]
      refine Safe.bind (TcpConnection.sendInLoop_spec h.outputs h.state_ne m.data (.wrote n)) ?_
      intro c hc
      rw [kept_wrote] at hc
      obtain ⟨hO, hS, hst, hwr⟩ := h.sends (m := m) hc
      refine Safe.ok ⟨hl, hO, hS, hst, ?_, fun m' hm' => h.short m' (hfly m' hm'), ?_, hwr⟩
      · intro m' hm'
        rcases h.located m' hm' with hsent | ht | ⟨g, hg, hgcb⟩
        · exact Or.inl (List.mem_append_left _ hsent)
        · exact Or.inr (Or.inl ht)
        · rw [htasks] at hg
          rcases List.mem_cons.mp hg with rfl | hg
          · obtain rfl : m = m' := by simpa [hcb] using hgcb
            exact Or.inl (List.mem_append_right _ (List.mem_singleton.mpr rfl))
          · exact Or.inr (Or.inr ⟨g, hg, hgcb⟩)
      · show _ ∨ _ ∨ c.shutdownWrites ≠ 0 → c.state = _
        rw [hc.shutdownWrites, hc.frame.state]
        exact hstop
  | shutdownInLoop =>
      have hd : s.conn.state = .kDisconnecting :=
        h.stopped (Or.inr (Or.inl ⟨f, by rw [htasks]; exact List.mem_cons_self, hcb⟩))
      have hinv : Inv { s with loop := l } := by
        refine ⟨hl, h.outputs, h.stream, h.state, ?_, fun m' hm' => h.short m' (hfly m' hm'), hstop, h.written⟩
        intro m' hm'
        rcases h.located m' hm' with hsent | ht | ⟨g, hg, hgcb⟩
        · exact Or.inl hsent
        · exact Or.inr (Or.inl ht)
        · rw [htasks] at hg
          rcases List.mem_cons.mp hg with rfl | hg
          · rw [hcb] at hgcb
            exact absurd hgcb (by simp)
          · exact Or.inr (Or.inr ⟨g, hg, hgcb⟩)
      exact Safe.ok (hinv.shutdownInLoop hd fun hw m hm => hclear hcb hw m (hfly m hm))

/-- A change of the loop that keeps the same functors waiting. -/
theorem Inv.setLoop (h : s.Inv) {l : EventLoop τ ConnTask} (hl : l.Inv)
    (htasks : ∀ f, f ∈ l.functors ++ l.pendingFunctors ↔ f ∈ s.tasks) : Inv { s with loop := l } := by
  have hfly : ∀ m, InFlight { s with loop := l } m ↔ s.InFlight m := by
    intro m
    refine or_congr Iff.rfl ⟨fun ⟨f, hf, hcb⟩ => ⟨f, (htasks f).mp hf, hcb⟩,
      fun ⟨f, hf, hcb⟩ => ⟨f, (htasks f).mpr hf, hcb⟩⟩
  refine ⟨hl, h.outputs, h.stream, h.state, ?_, ?_, ?_, h.written⟩
  · intro m hm
    exact (h.located m hm).imp_right (hfly m).mpr
  · intro m hm
    exact h.short m ((hfly m).mp hm)
  · rintro (ht | ⟨f, hf, hcb⟩ | hne)
    · exact h.stopped (Or.inl ht)
    · exact h.stopped (Or.inr (Or.inl ⟨f, (htasks f).mp hf, hcb⟩))
    · exact h.stopped (Or.inr (Or.inr hne))

variable [DecidableEq τ]

theorem wakeup_queues (l : EventLoop τ ConnTask) (t : τ) :
    (l.wakeup.threadReturns t).functors = l.functors ∧
    (l.wakeup.threadReturns t).pendingFunctors = l.pendingFunctors := by
  obtain ⟨n, hn, -⟩ := EventLoop.wakeup_eq l
  rw [hn]
  unfold EventLoop.threadReturns
  split <;> exact ⟨rfl, rfl⟩

/-- Of the steps that queue and run nothing, only the swap moves functors, and it moves all of them. -/
theorem mem_tasks_of_controls {l l' : EventLoop τ ConnTask} {a : EventLoop.LoopOp τ ConnTask}
    (hc : controls a = true) (h : l.exec a = .ok l') (f : Pending τ ConnTask) :
    f ∈ l'.functors ++ l'.pendingFunctors ↔ f ∈ l.functors ++ l.pendingFunctors := by
  cases a with
  | queueInLoop cb => exact Bool.noConfusion hc
  | runNext => exact Bool.noConfusion hc
  | push t cb => exact Bool.noConfusion hc
  | loop =>
      obtain ⟨-, -, h⟩ := bind_eq_ok.mp h
      cases h
      rfl
  | test =>
      cases h
      split <;> rfl
  | swap =>
      cases h
      show f ∈ l.pendingFunctors ++ l.functors ↔ _
      rw [List.mem_append, List.mem_append, or_comm]
  | wakeup t =>
      cases h
      rw [(wakeup_queues l t).1, (wakeup_queues l t).2]
  | pollReturn w => cases h; rfl
  | handleRead => cases h; rfl
  | quit => cases h; rfl
  | doPendingFunctors => cases h; rfl
  | endFunctors => cases h; rfl
  | destroyed => cases h; rfl
  | setQuit t => cases h; rfl

/-- Who is sending what after thread `t` has gone on to `p`. -/
theorem inFlight_setCall {t : τ} {p : CallPoint} {m : Message} (ht : ∀ m, s.calls t ≠ .sending m) :
    (s.setCall t p).InFlight m ↔ s.InFlight m ∨ p = .sending m := by
  have hcalls : (∃ t', Function.update s.calls t p t' = .sending m) ↔
      (∃ t', s.calls t' = .sending m) ∨ p = .sending m := by
    constructor
    · rintro ⟨t', h⟩
      by_cases heq : t' = t
      · rw [heq, Function.update_self] at h
        exact Or.inr h
      · rw [Function.update_of_ne heq] at h
        exact Or.inl ⟨t', h⟩
    · rintro (⟨t', h⟩ | rfl)
      · refine ⟨t', ?_⟩
        have heq : t' ≠ t := fun heq => ht m (heq ▸ h)
        rw [Function.update_of_ne heq]
        exact h
      · exact ⟨t, Function.update_self _ _ _⟩
  show (∃ t', Function.update s.calls t p t' = .sending m) ∨ (∃ f ∈ s.tasks, f.cb = .sendInLoop m) ↔ _
  rw [hcalls]
  exact or_right_comm

theorem stopped_setCall {t t' : τ} {p : CallPoint} (hp : p ≠ .stopped)
    (h : (s.setCall t p).calls t' = .stopped) : s.calls t' = .stopped := by
  have h' : Function.update s.calls t p t' = .stopped := h
  by_cases heq : t' = t
  · rw [heq, Function.update_self] at h'
    exact absurd h' hp
  · rwa [Function.update_of_ne heq] at h'

/-- A thread that is not sending goes on to a point where it still is not. -/
theorem Inv.setCall (h : s.Inv) {t : τ} {p : CallPoint} (ht : ∀ m, s.calls t ≠ .sending m)
    (hp : ∀ m, p ≠ .sending m) (hstop : p = .stopped → s.conn.state = .kDisconnecting) :
    (s.setCall t p).Inv := by
  have hfly : ∀ m, (s.setCall t p).InFlight m ↔ s.InFlight m := by
    intro m
    rw [inFlight_setCall ht]
    exact or_iff_left (hp m)
  refine ⟨h.loop, h.outputs, h.stream, h.state, fun m hm => ?_, fun m hm => h.short m ((hfly m).mp hm), ?_,
    h.written⟩
  · exact (h.located m hm).imp_right (hfly m).mpr
  · rintro (⟨t', ht'⟩ | hrest)
    · by_cases hps : p = .stopped
      · exact hstop hps
      · exact h.stopped (Or.inl ⟨t', stopped_setCall hps ht'⟩)
    · exact h.stopped (Or.inr hrest)

/-- A `send` on another thread finds the connection connected. -/
theorem Inv.sendCheck (h : s.Inv) {t : τ} {data : Bytes} (hs : s.conn.state = .kConnected)
    (ht : s.calls t = .idle) (hlen : data.data.length < 2 ^ 31) :
    Inv { s.setCall t (.sending (s.message data)) with accepted := s.accepted ++ [s.message data] } := by
  have hfly : ∀ m, (s.setCall t (.sending (s.message data))).InFlight m ↔
      s.InFlight m ∨ CallPoint.sending (s.message data) = .sending m :=
    fun m => inFlight_setCall (by simp [ht])
  refine ⟨h.loop, h.outputs, h.stream, h.state, fun m hm => ?_, fun m hm => ?_, ?_,
    fun hne => absurd (h.not_shut hs) hne⟩
  · rcases List.mem_append.mp hm with hm | hm
    · exact (h.located m hm).imp_right fun hf => (hfly m).mpr (Or.inl hf)
    · obtain rfl : m = s.message data := by simpa using hm
      exact Or.inr ((hfly _).mpr (Or.inr rfl))
  · rcases (hfly m).mp hm with hm | hm
    · exact h.short m hm
    · obtain rfl : s.message data = m := by simpa using hm
      exact hlen
  · rintro (⟨t', ht'⟩ | hrest)
    · exact h.stopped (Or.inl ⟨t', stopped_setCall (by simp) ht'⟩)
    · exact h.stopped (Or.inr hrest)

theorem queue_eq (s : SharedConn τ) (t : τ) (f : ConnTask) : ∃ l, s.queue t f = .ok { s with loop := l } ∧
    s.loop.exec (.push t f) = .ok l ∧
    l.functors ++ l.pendingFunctors = s.tasks ++ [⟨s.loop.pushed.length, some t, f⟩] :=
  ⟨_, rfl, rfl, (List.append_assoc _ _ _).symm⟩

/-- The message of thread `t` goes from its hands into the queue. -/
theorem Inv.sendQueue (h : s.Inv) {t : τ} {m : Message} (ht : s.calls t = .sending m)
    (hidle : s.loop.threads t = .idle) : Safe ((s.setCall t .idle).queue t (.sendInLoop m)) Inv := by
  obtain ⟨l, hq, hl, htasks⟩ := queue_eq (s.setCall t .idle) t (.sendInLoop m)
  have htasks' : l.functors ++ l.pendingFunctors = s.tasks ++ [⟨s.loop.pushed.length, some t, .sendInLoop m⟩] :=
    htasks
  have hlinv : l.Inv := (h.loop.exec (a := .push t (.sendInLoop m)) hidle).of_eq_ok hl
  rw [hq]
  have hfly : ∀ m', InFlight { s.setCall t .idle with loop := l } m' ↔ s.InFlight m' := by
    intro m'
    have hcalls : (∃ t', Function.update s.calls t .idle t' = .sending m') ∨ m' = m ↔
        (∃ t', s.calls t' = .sending m') ∨ m' = m := by
      constructor
      · rintro (⟨t', ht'⟩ | rfl)
        · by_cases heq : t' = t
          · rw [heq, Function.update_self] at ht'
            exact absurd ht' (by simp)
          · rw [Function.update_of_ne heq] at ht'
            exact Or.inl ⟨t', ht'⟩
        · exact Or.inr rfl
      · rintro (⟨t', ht'⟩ | rfl)
        · by_cases heq : t' = t
          · rw [heq, ht] at ht'
            exact Or.inr (by simpa using ht'.symm)
          · exact Or.inl ⟨t', by rw [Function.update_of_ne heq]; exact ht'⟩
        · exact Or.inr rfl
    have hpush : (∃ f ∈ l.functors ++ l.pendingFunctors, f.cb = ConnTask.sendInLoop m') ↔
        m' = m ∨ ∃ f ∈ s.tasks, f.cb = .sendInLoop m' := by
      rw [htasks']
      simp only [List.mem_append, List.mem_singleton]
      constructor
      · rintro ⟨f, hf | rfl, hcb⟩
        · exact Or.inr ⟨f, hf, hcb⟩
        · exact Or.inl (by simpa using hcb.symm)
      · rintro (rfl | ⟨f, hf, hcb⟩)
        · exact ⟨_, Or.inr rfl, rfl⟩
        · exact ⟨f, Or.inl hf, hcb⟩
    have hm : m' = m → ∃ t', s.calls t' = .sending m' := fun heq => ⟨t, heq ▸ ht⟩
    show (∃ t', Function.update s.calls t .idle t' = .sending m') ∨
      (∃ f ∈ l.functors ++ l.pendingFunctors, f.cb = .sendInLoop m') ↔ _
    rw [hpush, ← or_assoc, hcalls, or_iff_left_of_imp hm]
    rfl
  refine Safe.ok ⟨hlinv, h.outputs, h.stream, h.state, fun m' hm' => ?_,
    fun m' hm' => h.short m' ((hfly m').mp hm'), ?_, h.written⟩
  · exact (h.located m' hm').imp_right (hfly m').mpr
  · rintro (⟨t', ht'⟩ | ⟨f, hf, hcb⟩ | hne)
    · exact h.stopped (Or.inl ⟨t', stopped_setCall (by simp) ht'⟩)
    · have hf' : f ∈ l.functors ++ l.pendingFunctors := hf
      rw [htasks'] at hf'
      rcases List.mem_append.mp hf' with hf' | hf'
      · exact h.stopped (Or.inr (Or.inl ⟨f, hf', hcb⟩))
      · obtain rfl : f = _ := List.mem_singleton.mp hf'
        exact absurd hcb (by simp)
    · exact h.stopped (Or.inr (Or.inr hne))

/-- `shutdownInLoop` goes into the queue; `state_` was set before. -/
theorem Inv.shutdownQueue (h : s.Inv) {t : τ} (ht : s.calls t = .stopped) (hidle : s.loop.threads t = .idle) :
    Safe ((s.setCall t .idle).queue t .shutdownInLoop) Inv := by
  have hd := h.stopped (Or.inl ⟨t, ht⟩)
  have h' : (s.setCall t .idle).Inv := h.setCall (by simp [ht]) (by simp) (by simp)
  obtain ⟨l, hq, hl, htasks⟩ := queue_eq (s.setCall t .idle) t .shutdownInLoop
  have hlinv : l.Inv := (h.loop.exec (a := .push t .shutdownInLoop) hidle).of_eq_ok hl
  rw [hq]
  have hfly : ∀ m, InFlight { s.setCall t .idle with loop := l } m ↔ (s.setCall t .idle).InFlight m := by
    intro m
    refine or_congr Iff.rfl ?_
    show (∃ f ∈ l.functors ++ l.pendingFunctors, f.cb = .sendInLoop m) ↔ _
    rw [htasks]
    simp only [List.mem_append, List.mem_singleton]
    constructor
    · rintro ⟨f, hf | rfl, hcb⟩
      · exact ⟨f, hf, hcb⟩
      · exact absurd hcb (by simp)
    · exact fun ⟨f, hf, hcb⟩ => ⟨f, Or.inl hf, hcb⟩
  refine Safe.ok ⟨hlinv, h'.outputs, h'.stream, h'.state, fun m hm => ?_,
    fun m hm => h'.short m ((hfly m).mp hm), fun _ => hd, h'.written⟩
  exact (h'.located m hm).imp_right (hfly m).mpr

/-! ## Every interleaving -/

theorem Inv.exec (h : s.Inv) {a : SharedOp τ} (ha : s.enabled a) (hord : s.Orderly a) :
    Safe (s.exec a) Inv := by
  cases a with
  | loop a =>
      refine Safe.bind (h.loop.exec ha.2).attach ?_
      rintro l ⟨hl, hinv⟩
      exact Safe.ok (h.setLoop hinv (mem_tasks_of_controls ha.1 hl))
  | handleWrite n =>
      obtain ⟨c, hc, hinv⟩ := h.handleWrite hord.1
      show Safe (s.conn.handleWrite (.wrote n) >>= _) _
      rw [hc, ok_bind]
      exact Safe.ok hinv
  | send data n =>
      refine Safe.bind (h.send data n) ?_
      intro c hc
      split
      · next hcon => exact Safe.ok (by rwa [if_pos hcon] at hc)
      · next hcon => exact Safe.ok (by rwa [if_neg hcon] at hc)
  | shutdown => exact Safe.ok (h.shutdown hord.1)
  | runNext n =>
      refine Safe.bind (h.loop.exec (a := .runNext) ha).attach ?_
      rintro l ⟨hl, hinv⟩
      obtain ⟨f, fs, hfs⟩ := List.exists_cons_of_ne_nil ha.2
      rw [hfs]
      refine h.runTask hinv ?_ fun hcb hw => hord.1 ⟨⟨f, fs, hfs, hcb⟩, hw⟩
      cases hl
      unfold tasks EventLoop.runNext
      rw [hfs]
      rfl
  | sendCheck t data =>
      refine Safe.ok ?_
      split
      · next hcon =>
          exact h.sendCheck (by simpa [TcpConnection.connected] using hcon) ha.1 (hord.2 t data rfl)
      · exact h
  | sendQueue t =>
      obtain ⟨⟨m, hm⟩, hidle⟩ := ha
      unfold SharedConn.exec
      dsimp only
      rw [hm]
      exact h.sendQueue hm hidle
  | shutdownCheck t =>
      refine Safe.ok ?_
      split
      · exact h.setCall (by simp [ha.1]) (by simp) (by simp)
      · exact h
  | shutdownSet t =>
      have ht : s.calls t = .stopping := ha
      exact Safe.ok (h.setState.setCall (t := t) (p := .stopped) (by simp [ht]) (by simp) fun _ => rfl)
  | shutdownQueue t => exact h.shutdownQueue ha.1 ha.2

theorem init_inv (h : (sharedSystem τ).init s) : s.Inv := by
  obtain ⟨hs, hb, hw, ha, hsw, hl, hf, hp, hc, hacc, hsent⟩ := h
  have hnil : s.conn.outputBuffer.readable = [] := by rw [hb]; exact Buffer.new_rep.content
  have htasks : s.tasks = [] := by unfold tasks; rw [hf, hp]; rfl
  have hfly : ∀ m, ¬ s.InFlight m := by
    rintro m (⟨t, ht⟩ | ⟨f, hf', -⟩)
    · rw [hc t] at ht
      exact absurd ht (by simp)
    · rw [htasks] at hf'
      exact absurd hf' List.not_mem_nil
  refine ⟨EventLoop.reachable_inv hl, ⟨?_, by simp [hw, hnil]⟩, ?_, Or.inl hs, by simp [hacc],
    fun m hm => absurd hm (hfly m), ?_, fun hne => absurd hsw hne⟩
  · rw [hnil, hb]
    exact Buffer.new_rep
  · unfold TcpConnection.stream
    rw [ha, hnil, hsent]
    rfl
  · rintro (⟨t, ht⟩ | ⟨f, hf', -⟩ | hne)
    · rw [hc t] at ht
      exact absurd ht (by simp)
    · rw [htasks] at hf'
      exact absurd hf' List.not_mem_nil
    · exact absurd hsw hne

/-- **A shutdown that does not overtake a message in flight cuts off nothing.** In every run in which
    `shutdownWrite` is only called while no accepted message is in flight, every message accepted by `send`, on
    any thread, is on the wire from the first call of `shutdownWrite` on. -/
theorem shutdown_after_accepted_data (h : ((sharedSystem τ).when Orderly).Reachable s)
    (hs : s.conn.shutdownWrites ≠ 0) : ∀ m ∈ s.accepted, m.Written s.conn.accepted s.sent := by
  have hinv : s.Inv := by
    refine System.inv (S := (sharedSystem τ).when Orderly) ?_ ?_ h
    · exact fun _ => init_inv
    · exact fun _ _ hs ha => hs.exec ha.1 ha.2
  exact hinv.written hs

/-- A connection that has just been established, on a loop that is handling events. -/
def established : SharedConn Unit where
  conn := (TcpConnection.new false false).setState .kConnected
  loop := { EventLoop.new Unit ConnTask with looping := true, phase := .handling }
  calls := fun _ => .idle
  accepted := []
  sent := []

theorem established_init : (sharedSystem Unit).init established := by
  have h₁ : (EventLoop.loopSystem Unit ConnTask).Step (EventLoop.new Unit ConnTask) .loop
      { EventLoop.new Unit ConnTask with looping := true, phase := .head } := ⟨rfl, rfl⟩
  have h₂ : (EventLoop.loopSystem Unit ConnTask).Step
      { EventLoop.new Unit ConnTask with looping := true, phase := .head } .test
      { EventLoop.new Unit ConnTask with looping := true, phase := .polling } := ⟨rfl, rfl⟩
  have h₃ : (EventLoop.loopSystem Unit ConnTask).Step
      { EventLoop.new Unit ConnTask with looping := true, phase := .polling } (.pollReturn false)
      established.loop := ⟨⟨rfl, by decide⟩, rfl⟩
  have hloop := System.Reachable.step (.step (.step (.init rfl) h₁) h₂) h₃
  exact ⟨rfl, rfl, by decide, rfl, rfl, hloop, rfl, rfl, fun _ => rfl, rfl, rfl⟩

theorem established_outputs : TcpConnection.Outputs established.conn :=
  ⟨(TcpConnection.outputs_new false false).rep, (TcpConnection.outputs_new false false).interest⟩

theorem established_idle : established.conn.idle = true := by
  rw [established_outputs.idle_eq]
  decide

/-- The same connection after a first `send` of the loop thread, which left `c`. -/
def afterSend (data : Bytes) (c : TcpConnection) : SharedConn Unit :=
  { established with conn := c, accepted := [⟨0, data⟩], sent := [⟨0, data⟩] }

theorem exec_send_established {data : Bytes} {n : Nat} {c : TcpConnection}
    (h : established.conn.send data (.wrote n) = .ok c) :
    established.exec (.send data n) = .ok (afterSend data c) := by
  show (established.conn.send data (.wrote n) >>= _) = _
  rw [h, ok_bind]
  rfl

/-- Another thread sends a byte and shuts down, while a byte of the loop's message is waiting. The two functors are
    run before the socket becomes writable again, and all that was accepted is on the wire. -/
theorem shutdown_after_accepted_data_queued : ∃ s : SharedConn Unit, s.conn.shutdownWrites = 1 ∧
    s.accepted.map Message.bytes = [[0, 1], [2]] ∧ s.conn.accepted = [0, 1, 2] ∧
    ∀ m ∈ s.accepted, m.Written s.conn.accepted s.sent := by
  obtain ⟨s, hreached, hshut, haccepted, hwire⟩ := System.ReachedBy.exists_of_perform
    ((sharedSystem Unit).when Orderly)
    [.send ⟨[0, 1], by decide⟩ 1, .loop .doPendingFunctors, .loop .swap, .loop .endFunctors, .loop .destroyed,
      .loop .test, .sendCheck () ⟨[2], by decide⟩, .sendQueue (), .loop (.wakeup ()), .shutdownCheck (),
      .shutdownSet (), .shutdownQueue (), .loop (.wakeup ()), .loop (.pollReturn true), .loop .handleRead,
      .loop .doPendingFunctors, .loop .swap, .runNext 1, .runNext 1, .loop .endFunctors, .loop .destroyed,
      .loop .test, .loop (.pollReturn false), .handleWrite 2]
    (P := fun s => s.conn.shutdownWrites = 1 ∧ s.accepted.map Message.bytes = [[0, 1], [2]] ∧
      s.conn.accepted = [0, 1, 2])
    established_init (by decide +kernel)
  refine ⟨s, hshut, haccepted, hwire, shutdown_after_accepted_data hreached.reachable (by omega)⟩

/-- **A backlog that drains at the wrong moment.** Of the loop's message the kernel takes one byte, so one is
    left in the output buffer. Another thread sends a byte and calls `shutdown`; before its two functors are
    run, the socket becomes writable, `handleWrite` drains the buffer, finds `kDisconnecting`, and shuts the
    write half down. The byte accepted from the other thread is not on the wire. -/
theorem shutdown_cuts_off_message_in_flight : ∃ s : SharedConn Unit, (sharedSystem Unit).Reachable s ∧
    s.conn.shutdownWrites = 1 ∧ ∃ m ∈ s.accepted, m.bytes = [2] ∧
      s.loop.pendingFunctors.map (fun f => (f.thread, f.cb))
        = [(some (), .sendInLoop m), (some (), .shutdownInLoop)] ∧
      ¬ m.Written s.conn.accepted s.sent := by
  have hfits : ([0, 1] : List UInt8).length < maxObject := by decide
  have hfits' : ([2] : List UInt8).length < maxObject := by decide
  -- the loop's own message, half written
  have hrep : ((established.conn.accept [0]).outputBuffer).Rep [] false := Buffer.new_rep
  obtain ⟨c₁, hc₁, hrest, hwr, hacc, hsw, hf⟩ :=
    (TcpConnection.bufferRest_spec hrep (show ([1] : List UInt8).length ≤ maxSize by decide)).exists_ok
      (TcpConnection.bufferRest_returns (hrep.content.symm ▸ hrep) (by rw [hrep.content]; decide))
  have hsend : established.conn.send ⟨[0, 1], hfits⟩ (.wrote 1) = .ok c₁ := by
    show established.conn.sendInLoop [0, 1] 2 (.wrote 1) = _
    rw [TcpConnection.sendInLoop_eq_of_idle (by decide) established_idle rfl]
    exact hc₁
  have hO : TcpConnection.Outputs c₁ := by
    have hspec := TcpConnection.sendInLoop_spec established_outputs (by decide) ⟨[0, 1], hfits⟩ (.wrote 1)
    exact (hspec.of_eq_ok hsend).outputs
  have hconn : c₁.state = .kConnected := hf.state
  -- `handleWrite` writes what is left
  have hO' : TcpConnection.Outputs (c₁.setState .kDisconnecting) := ⟨hO.rep, hO.interest⟩
  obtain ⟨c₂, hc₂, hwrites⟩ := TcpConnection.handleWrite_spec hO' (.wrote 1)
  have hdrains : (c₁.setState .kDisconnecting).drains (.wrote 1) = true := by
    have hlen : c₁.outputBuffer.readableBytes = 1 := hrest.readableBytes_eq
    show (c₁.channel.isWriting && decide (c₁.outputBuffer.readableBytes ≤ 1)) = true
    rw [hwr, hlen]
    rfl
  have hshut : c₂.shutdownWrites = 1 := by
    rw [hwrites.shutdownWrites, if_pos ⟨rfl, hdrains⟩]
    show c₁.shutdownWrites + 1 = 1
    rw [hsw]
    rfl
  have h₁ : (sharedSystem Unit).Reachable (afterSend ⟨[0, 1], hfits⟩ c₁) :=
    .next (.init established_init) (.send ⟨[0, 1], hfits⟩ 1) rfl (exec_send_established hsend)
  -- the iteration ends, and the loop blocks in `poll`
  have h₂ := h₁.next (.loop .doPendingFunctors) ⟨rfl, rfl, rfl⟩ rfl
  have h₃ := h₂.next (.loop .swap) ⟨rfl, rfl⟩ rfl
  have h₄ := h₃.next (.loop .endFunctors) ⟨rfl, rfl, rfl⟩ rfl
  have h₅ := h₄.next (.loop .destroyed) ⟨rfl, rfl⟩ rfl
  have h₆ := h₅.next (.loop .test) ⟨rfl, rfl⟩ rfl
  -- the other thread sends and shuts down
  have hcheck : ∀ s : SharedConn Unit, s.conn = c₁ → s.exec (.sendCheck () ⟨[2], hfits'⟩) =
      .ok { s.setCall () (.sending (s.message ⟨[2], hfits'⟩)) with
        accepted := s.accepted ++ [s.message ⟨[2], hfits'⟩] } := by
    rintro s rfl
    show Except.ok (if s.conn.connected = true then _ else s) = _
    rw [if_pos (by simp [TcpConnection.connected, hconn])]
  have hstop : ∀ s : SharedConn Unit, s.conn = c₁ →
      s.exec (.shutdownCheck ()) = .ok (s.setCall () .stopping) := by
    rintro s rfl
    show Except.ok (if s.conn.connected = true then _ else s) = _
    rw [if_pos (by simp [TcpConnection.connected, hconn])]
  have h₇ := h₆.next (.sendCheck () ⟨[2], hfits'⟩) ⟨rfl, rfl⟩ (hcheck _ rfl)
  have h₈ := h₇.next (.sendQueue ()) ⟨⟨_, rfl⟩, rfl⟩ rfl
  have h₉ := h₈.next (.loop (.wakeup ())) ⟨rfl, ThreadPoint.noConfusion⟩ rfl
  have h₁₀ := h₉.next (.shutdownCheck ()) ⟨rfl, rfl⟩ (hstop _ rfl)
  have h₁₁ := h₁₀.next (.shutdownSet ()) rfl rfl
  have h₁₂ := h₁₁.next (.shutdownQueue ()) ⟨rfl, rfl⟩ rfl
  have h₁₃ := h₁₂.next (.loop (.wakeup ())) ⟨rfl, ThreadPoint.noConfusion⟩ rfl
  have h₁₄ := h₁₃.next (.loop (.pollReturn true)) ⟨rfl, rfl, fun _ => Nat.succ_ne_zero _⟩ rfl
  -- the backlog drains
  have hlast : ∀ s : SharedConn Unit, s.conn = c₁.setState .kDisconnecting →
      s.exec (.handleWrite 1) = .ok { s with conn := c₂ } := by
    intro s hs
    show (s.conn.handleWrite (.wrote 1) >>= _) = _
    rw [hs, hc₂, ok_bind]
  have h₁₅ := h₁₄.next (.handleWrite 1) rfl (hlast _ rfl)
  have hnot : ¬ Message.Written ⟨1, [2], hfits'⟩ c₂.accepted [⟨0, [0, 1], hfits⟩] := by
    rintro (hnil | ⟨before, after, hsent, -⟩)
    · exact List.cons_ne_nil _ _ hnil
    · have hmem : (⟨1, [2], hfits'⟩ : Message) ∈ [⟨0, [0, 1], hfits⟩] := by rw [hsent]; simp
      exact absurd (List.mem_singleton.mp hmem) (by simp)
  have hmem : (⟨1, [2], hfits'⟩ : Message) ∈ [⟨0, [0, 1], hfits⟩, ⟨1, [2], hfits'⟩] :=
    List.mem_cons_of_mem _ (List.mem_singleton.mpr rfl)
  exact ⟨_, h₁₅, hshut, ⟨1, [2], hfits'⟩, hmem, rfl, rfl, hnot⟩

end SharedConn

end Muduo.Net
