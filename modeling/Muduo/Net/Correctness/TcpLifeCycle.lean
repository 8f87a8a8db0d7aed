import Mathlib.Data.List.Chain
import Muduo.Net.Correctness.TcpOutput

/-!
# `Correctness.TcpLifeCycle` — a connection is announced once and closed once

On its loop thread a connection is `Open` (connected, or shutting down its write half) until `handleClose`
makes it `Closed`. `handleClose` can be entered from two places of one dispatch, user callbacks call back into
the connection, and `connectDestroyed` comes later, through the queue. What keeps these apart is that an open
connection has no `connectDestroyed` queued, and a closed one has no interest left in its channel.

Both phases carry the history of callbacks and of `state_` as an index, so one lemma per handler says which
callbacks it adds and where the connection is afterwards.
-/

namespace Muduo.Net

open Lib

/-- The moves of `state_`. -/
inductive StateE.Next : StateE → StateE → Prop where
  | established : Next .kConnecting .kConnected
  | shutdown : Next .kConnected .kDisconnecting
  | closed : Next .kConnected .kDisconnected
  | closedAfterShutdown : Next .kDisconnecting .kDisconnected

namespace TcpConnection

/-- `states` leads from the constructor's state to the current one, along the moves of `state_`. -/
structure Walk (c : TcpConnection) : Prop where
  first : c.states.head? = some .kConnecting
  last : c.states.getLast? = some c.state
  moves : c.states.IsChain StateE.Next

/-- Connected or shutting down; `k` are the callbacks called so far. -/
structure Open (c : TcpConnection) (k : List Callback) : Prop where
  state : c.state = .kConnected ∨ c.state = .kDisconnecting
  outputs : Outputs c
  input : c.inputBuffer.Rep c.inputBuffer.readable false
  calls : c.calls = k
  queued : ConnFunctor.connectDestroyed ∉ c.queued
  walk : Walk c

/-- After `handleClose`; `k` are the callbacks called so far. -/
structure Closed (c : TcpConnection) (k : List Callback) : Prop where
  state : c.state = .kDisconnected
  noInterest : c.channel.isNoneEvent = true
  input : c.inputBuffer.Rep c.inputBuffer.readable false
  calls : c.calls = k
  walk : Walk c

variable {c c' : TcpConnection} {k : List Callback}

/-! ## Steps that stay in a phase -/

theorem Walk.setState (h : Walk c) {s : StateE} (hs : StateE.Next c.state s) : Walk (c.setState s) where
  first := by
    show (c.states ++ [s]).head? = _
    rw [List.head?_append, h.first]
    rfl
  last := by simp [TcpConnection.setState]
  moves := by
    refine h.moves.append (List.isChain_singleton s) ?_
    intro x hx y hy
    rw [h.last] at hx
    obtain rfl : c.state = x := by simpa using hx
    obtain rfl : s = y := by simpa using hy
    exact hs

theorem Walk.congr (h : Walk c) (hs : c'.state = c.state) (hss : c'.states = c.states) : Walk c' :=
  ⟨hss ▸ h.first, by rw [hss, hs]; exact h.last, hss ▸ h.moves⟩

theorem Open.state_ne (h : Open c k) : c.state ≠ .kDisconnected := by
  rcases h.state with hs | hs <;> rw [hs] <;> decide

/-- The sending functions keep an open connection open. -/
theorem Open.of_frame (h : Open c k) (hO : Outputs c') (hf : Frame c c') : Open c' k where
  state := by rw [hf.state]; exact h.state
  outputs := hO
  input := by rw [hf.inputBuffer]; exact h.input
  calls := hf.calls.trans h.calls
  queued := by
    obtain ⟨fs, hfs, hn⟩ := hf.queued
    rw [hfs, List.mem_append, not_or]
    exact ⟨h.queued, hn⟩
  walk := h.walk.congr hf.state hf.states

theorem Open.shutdown (h : Open c k) : Open c.shutdown k := by
  unfold TcpConnection.shutdown
  by_cases hs : c.state = .kConnected
  · rw [if_pos hs]
    have hset : Open (c.setState .kDisconnecting) k :=
      ⟨Or.inr rfl, ⟨h.outputs.rep, h.outputs.interest⟩, h.input, h.calls, h.queued,
        h.walk.setState (hs ▸ .shutdown)⟩
    unfold shutdownInLoop
    split
    · exact hset
    · exact hset.of_frame ⟨h.outputs.rep, h.outputs.interest⟩ (Frame.output _ _ _ _ _)
  · rw [if_neg hs]
    exact h

/-- `retrieve` on the input buffer, as user code calls it. -/
theorem retrieve_input (h : c.inputBuffer.Rep c.inputBuffer.readable false) (n : Nat) :
    ∃ b, c.userCall (.retrieve n) = .ok { c with inputBuffer := b } ∧ b.Rep b.readable false := by
  have hle : min n c.inputBuffer.readableBytes ≤ c.inputBuffer.readable.length := by
    rw [h.readableBytes_eq]
    exact Nat.min_le_right _ _
  obtain ⟨b, hb, hrep⟩ := Buffer.retrieve_rep h hle
  refine ⟨b, ?_, hrep.content ▸ hrep⟩
  show (c.inputBuffer.retrieve (min n c.inputBuffer.readableBytes) >>= _) = _
  rw [hb, ok_bind]

theorem userCall_open (h : Open c k) (u : UserCall) : Safe (c.userCall u) (Open · k) := by
  cases u with
  | send data r =>
      show Safe (if c.state = .kConnected then c.sendInLoop data.data data.data.length r else .ok c) _
      split
      · exact (sendInLoop_spec h.outputs h.state_ne data r).mono fun _ hs => h.of_frame hs.outputs hs.frame
      · exact Safe.ok h
  | shutdown => exact Safe.ok h.shutdown
  | retrieve n =>
      obtain ⟨b, hb, hrep⟩ := retrieve_input h.input n
      rw [hb]
      exact Safe.ok ⟨h.state, ⟨h.outputs.rep, h.outputs.interest⟩, hrep, h.calls, h.queued,
        h.walk.congr rfl rfl⟩

/-- A closed connection ignores `send` and `shutdown`. -/
theorem userCall_closed (h : Closed c k) (u : UserCall) : Safe (c.userCall u) (Closed · k) := by
  have hs : c.state ≠ .kConnected := by simp [h.state]
  cases u with
  | send data r =>
      show Safe (if c.state = .kConnected then c.sendInLoop data.data data.data.length r else .ok c) _
      rw [if_neg hs]
      exact Safe.ok h
  | shutdown =>
      show Safe (.ok (if c.state = .kConnected then _ else c)) _
      rw [if_neg hs]
      exact Safe.ok h
  | retrieve n =>
      obtain ⟨b, hb, hrep⟩ := retrieve_input h.input n
      rw [hb]
      exact Safe.ok ⟨h.state, h.noInterest, hrep, h.calls, h.walk.congr rfl rfl⟩

/-- What every single call keeps, a whole callback keeps. -/
theorem userCalls_inv {I : TcpConnection → Prop} (hI : ∀ c u, I c → Safe (c.userCall u) I) (h : I c)
    (us : List UserCall) : Safe (c.userCalls us) I := by
  induction us generalizing c with
  | nil => exact Safe.ok h
  | cons u us ih => exact Safe.bind (hI c u h) fun _ h' => ih h'

theorem userCalls_open (h : Open c k) (us : List UserCall) : Safe (c.userCalls us) (Open · k) :=
  userCalls_inv (fun _ u h => userCall_open h u) h us

theorem userCalls_closed (h : Closed c k) (us : List UserCall) : Safe (c.userCalls us) (Closed · k) :=
  userCalls_inv (fun _ u h => userCall_closed h u) h us

/-! ## The handlers -/

theorem connectEstablished_spec (hs : c.state = .kConnecting) (hw : Walk c) (hO : Outputs c)
    (hin : c.inputBuffer.Rep c.inputBuffer.readable false) (hc : c.calls = []) (hq : c.queued = [])
    (us : List UserCall) :
    Safe (c.connectEstablished us) (Open · [.connection true]) := by
  unfold connectEstablished
  rw [assert_pos hs, ok_bind]
  dsimp only
  refine userCalls_open (k := [.connection true]) ?_ us
  refine ⟨Or.inl rfl, ⟨hO.rep, ?_⟩, hin, ?_, ?_, ?_⟩
  · show c.channel.tie.enableReading.isWriting = true ↔ _
    rw [Channel.isWriting_enableReading]
    exact hO.interest
  · show c.calls ++ [.connection true] = _
    rw [hc]
    rfl
  · show ConnFunctor.connectDestroyed ∉ c.queued
    simp [hq]
  · exact (hw.setState (hs ▸ .established)).congr rfl rfl

/-- The connection as `handleClose` shows it to the connection callback. -/
theorem Open.closing (h : Open c k) : Closed
    ({ c.setState .kDisconnected with channel := c.channel.disableAll }.called (.connection false))
    (k ++ [.connection false]) := by
  have hnext : StateE.Next c.state .kDisconnected := by
    rcases h.state with hs | hs <;> rw [hs]
    · exact .closed
    · exact .closedAfterShutdown
  refine ⟨rfl, Channel.isNoneEvent_disableAll, h.input, ?_, (h.walk.setState hnext).congr rfl rfl⟩
  show c.calls ++ [.connection false] = _
  rw [h.calls]

/-- **`handleClose` reports the end of the connection**, to the user and to the owner. -/
theorem handleClose_spec (h : Open c k) (us : List UserCall) :
    Safe (c.handleClose us) (Closed · (k ++ [.connection false, .close])) := by
  unfold handleClose
  rw [assert_pos h.state, ok_bind]
  dsimp only
  refine Safe.bind (userCalls_closed h.closing us) ?_
  intro c' h'
  refine Safe.ok ⟨h'.state, h'.noInterest, h'.input, ?_, h'.walk.congr rfl rfl⟩
  show c'.calls ++ [.close] = _
  rw [h'.calls, List.append_assoc]
  rfl

theorem handleWrite_open (h : Open c k) (r : WriteResult) : Safe (c.handleWrite r) (Open · k) := by
  obtain ⟨c', hc', hw⟩ := handleWrite_spec h.outputs r
  rw [hc']
  exact Safe.ok (h.of_frame hw.outputs hw.frame)

/-- A closed connection has lost its write interest, whatever is left in the output buffer. -/
theorem handleWrite_closed (h : Closed c k) (r : WriteResult) : c.handleWrite r = .ok c := by
  unfold handleWrite
  rw [if_neg (by simp [Channel.isWriting_of_isNoneEvent h.noInterest])]

/-- The kernel delivers no more than the buffers given to `readv` hold. -/
def ReadFits (c : TcpConnection) (r : ReadResult) : Prop :=
  ∀ bytes, r = .data bytes → bytes.length ≤ c.inputBuffer.writableBytes + Buffer.kExtraBuf

/-- A read leads to the message callback, to the end of the connection, or to nothing. -/
theorem handleRead_spec (h : Open c k) {r : ReadResult} (hr : ReadFits c r) (us : List UserCall) :
    Safe (c.handleRead r us) (fun c' => Open c' k ∨ Open c' (k ++ [.message]) ∨
      Closed c' (k ++ [.connection false, .close])) := by
  unfold handleRead
  cases r with
  | failed e =>
      have hread : c.inputBuffer.readFd (.failed e) = .ok (-1, c.inputBuffer) := rfl
      rw [hread, ok_bind]
      exact Safe.ok (Or.inl h)
  | data bytes =>
      refine Safe.bind (Buffer.readFd_rep h.input (hr bytes rfl)) ?_
      rintro ⟨n, b⟩ ⟨hn, hrep⟩
      have hopen : Open { c with inputBuffer := b } k :=
        ⟨h.state, ⟨h.outputs.rep, h.outputs.interest⟩, hrep.content ▸ hrep, h.calls, h.queued,
          h.walk.congr rfl rfl⟩
      dsimp only
      split
      · refine (userCalls_open (k := k ++ [.message]) ?_ us).mono fun _ h' => Or.inr (Or.inl h')
        refine ⟨hopen.state, ⟨hopen.outputs.rep, hopen.outputs.interest⟩, hopen.input, ?_, hopen.queued,
          hopen.walk.congr rfl rfl⟩
        show c.calls ++ [.message] = _
        rw [h.calls]
      · -- end of file, or an error that leaves everything as it was
        split
        · exact (handleClose_spec hopen us).mono fun _ h' => Or.inr (Or.inr h')
        · exact Safe.ok (Or.inl hopen)

/-! ## One dispatch -/

/-- The callbacks of an open connection: connected, then any number of messages. -/
def announced (n : Nat) : List Callback := .connection true :: List.replicate n .message

/-- Open, or closed; in both cases with the right history of callbacks. -/
def Phase (c : TcpConnection) : Prop :=
  ∃ n, Open c (announced n) ∨ Closed c (announced n ++ [.connection false, .close])

theorem announced_succ (n : Nat) : announced n ++ [.message] = announced (n + 1) := by
  unfold announced
  rw [List.replicate_succ', List.cons_append]

theorem handleWrite_phase (h : Phase c) (r : WriteResult) : Safe (c.handleWrite r) Phase := by
  obtain ⟨n, h | h⟩ := h
  · exact (handleWrite_open h r).mono fun _ h' => ⟨n, Or.inl h'⟩
  · rw [handleWrite_closed h]
    exact Safe.ok ⟨n, Or.inr h⟩

theorem handleRead_phase {n : Nat} (h : Open c (announced n)) {r : ReadResult} (hr : ReadFits c r)
    (us : List UserCall) : Safe (c.handleRead r us) Phase := by
  refine (handleRead_spec h hr us).mono ?_
  rintro c' (h' | h' | h')
  · exact ⟨n, Or.inl h'⟩
  · exact ⟨n + 1, Or.inl (announced_succ n ▸ h')⟩
  · exact ⟨n, Or.inr h'⟩

/-- What the poller may report: no readiness to read besides a hang-up that leaves nothing to read. -/
def MaskOk (revents : EventMask) : Prop :=
  revents.has POLLHUP = true → revents.has POLLIN = false →
    revents.has POLLPRI = false ∧ revents.has POLLRDHUP = false

/-- **One dispatch keeps the phases apart.** If the hang-up branch closes the connection then the read branch
    is not entered, and the write branch finds the write interest gone. -/
theorem handleEvent_phase {n : Nat} (h : Open c (announced n)) {d : Dispatch} (hm : MaskOk d.revents)
    (hr : ReadFits c d.read) : Safe (c.handleEvent d) Phase := by
  have hopen : Open { c with channel := c.channel.set_revents d.revents } (announced n) :=
    ⟨h.state, ⟨h.outputs.rep, h.outputs.interest⟩, h.input, h.calls, h.queued, h.walk.congr rfl rfl⟩
  have herror : ∀ b c', Channel.whenever b (callbacks d).errorCallback c' = .ok c' := by
    intro b c'
    cases b <;> rfl
  have hwrite : ∀ b c', Phase c' → Safe (Channel.whenever b (callbacks d).writeCallback c') Phase :=
    fun b c' h' => Channel.whenever_inv h' (handleWrite_phase h' d.write)
  show Safe (Channel.handleEvent _ true (callbacks d) _) Phase
  unfold Channel.handleEvent
  rw [Bool.not_true, Bool.and_false, if_neg (by decide)]
  show Safe (Channel.handleEventWithGuard d.revents (callbacks d) _) Phase
  by_cases hhup : (d.revents.has POLLHUP && !d.revents.has POLLIN) = true
  · -- `handleClose` runs here, and nothing else may run it a second time
    simp only [Bool.and_eq_true, Bool.not_eq_true'] at hhup
    obtain ⟨hpri, hrdhup⟩ := hm hhup.1 hhup.2
    rw [Channel.handleEventWithGuard_hup hhup.1 hhup.2 hpri hrdhup]
    refine Safe.bind (handleClose_spec hopen d.onClose) ?_
    intro c₁ h₁
    rw [herror, ok_bind]
    exact hwrite _ _ ⟨n, Or.inr h₁⟩
  · rw [Channel.handleEventWithGuard_noHup (by simpa using hhup), herror, ok_bind]
    refine Safe.bind (P := Phase) ?_ (hwrite _)
    exact Channel.whenever_inv ⟨n, Or.inl hopen⟩ (handleRead_phase hopen hr d.onRead)

/-! ## Every run of one connection -/

/-- What can happen to a connection on its loop thread. -/
inductive LifeOp where
  | connectEstablished (us : List UserCall)
  | handleEvent (d : Dispatch)
  | call (u : UserCall)
  | functor (f : ConnFunctor) (us : List UserCall)

/-- A connection, and whether `connectEstablished` has been called on it. -/
structure LifeRun where
  conn : TcpConnection
  established : Bool

def LifeRun.exec (s : LifeRun) : LifeOp → Outcome LifeRun
  | .connectEstablished us => do
      let conn ← s.conn.connectEstablished us
      .ok ⟨conn, true⟩
  | .handleEvent d => do
      let conn ← s.conn.handleEvent d
      .ok { s with conn }
  | .call u => do
      let conn ← s.conn.userCall u
      .ok { s with conn }
  | .functor f us => do
      let conn ← { s.conn with queued := s.conn.queued.erase f }.runFunctor f us
      .ok { s with conn }

/-- `connectEstablished` comes first and once; a channel without interest is not reported; only queued
    functors are run, in any order. -/
def LifeRun.enabled (s : LifeRun) : LifeOp → Prop
  | .connectEstablished _ => s.established = false
  | .handleEvent d => s.established = true ∧ s.conn.channel.isNoneEvent = false ∧ MaskOk d.revents ∧
      ReadFits s.conn d.read
  | .call _ => s.established = true
  | .functor f _ => s.established = true ∧ f ∈ s.conn.queued

/-- Any connection as the owner constructs it. -/
def lifeSystem : System LifeRun LifeOp where
  init s := s.established = false ∧
    ∃ wc hw mark, s.conn = { TcpConnection.new wc hw with highWaterMark := mark }
  enabled := LifeRun.enabled
  exec := LifeRun.exec

/-- Not yet established and untouched, or in one of the two phases. -/
structure LifeRun.Inv (s : LifeRun) : Prop where
  fresh : s.established = false →
    ∃ wc hw mark, s.conn = { TcpConnection.new wc hw with highWaterMark := mark }
  phase : s.established = true → Phase s.conn

/-- A closed connection has nothing left to report, and its channel can be removed. -/
theorem connectDestroyed_closed (h : Closed c k) (us : List UserCall) : c.connectDestroyed us = .ok c := by
  have hs : ¬ (c.state = .kConnected) := by simp [h.state]
  unfold connectDestroyed
  rw [if_neg hs, ok_bind]
  unfold Channel.remove
  rw [assert_pos h.noInterest, ok_bind]

theorem runFunctor_phase (h : Phase c) {f : ConnFunctor} (hf : f ∈ c.queued) (us : List UserCall) :
    Safe ({ c with queued := c.queued.erase f }.runFunctor f us) Phase := by
  obtain ⟨n, h | h⟩ := h
  · have hopen : Open { c with queued := c.queued.erase f } (announced n) :=
      ⟨h.state, ⟨h.outputs.rep, h.outputs.interest⟩, h.input, h.calls,
        fun hm => h.queued (List.mem_of_mem_erase hm), h.walk.congr rfl rfl⟩
    have hcall := (userCalls_open hopen us).mono (Q := Phase) fun _ h' => ⟨n, Or.inl h'⟩
    cases f with
    | writeComplete => exact hcall
    | highWaterMark size => exact hcall
    | connectDestroyed =>
        -- only `handleClose` queues it
        exact absurd hf h.queued
  · have hclosed : Closed { c with queued := c.queued.erase f }
        (announced n ++ [.connection false, .close]) :=
      ⟨h.state, h.noInterest, h.input, h.calls, h.walk.congr rfl rfl⟩
    have hcall := (userCalls_closed hclosed us).mono (Q := Phase) fun _ h' => ⟨n, Or.inr h'⟩
    cases f with
    | writeComplete => exact hcall
    | highWaterMark size => exact hcall
    | connectDestroyed =>
        show Safe (connectDestroyed _ us) Phase
        rw [connectDestroyed_closed hclosed]
        exact Safe.ok ⟨n, Or.inr hclosed⟩

theorem LifeRun.exec_inv {s : LifeRun} (h : s.Inv) {a : LifeOp} (ha : s.enabled a) :
    Safe (s.exec a) LifeRun.Inv := by
  have hphase : ∀ c', s.established = true → Phase c' → LifeRun.Inv { s with conn := c' } := by
    intro c' he h'
    exact ⟨fun hne => by rw [he] at hne; exact absurd hne (by decide), fun _ => h'⟩
  cases a with
  | connectEstablished us =>
      obtain ⟨wc, hw, mark, hc⟩ := h.fresh ha
      have hO : Outputs s.conn := by
        rw [hc]
        exact ⟨(outputs_new wc hw).rep, (outputs_new wc hw).interest⟩
      have hin : s.conn.inputBuffer.Rep s.conn.inputBuffer.readable false := by
        rw [hc]
        exact Buffer.new_rep.content.symm ▸ Buffer.new_rep
      have hwalk : Walk s.conn := by
        rw [hc]
        exact ⟨rfl, rfl, List.isChain_singleton _⟩
      refine Safe.bind (connectEstablished_spec (by rw [hc]; rfl) hwalk hO hin (by rw [hc]; rfl)
        (by rw [hc]; rfl) us) ?_
      intro c' h'
      exact Safe.ok ⟨fun hne => Bool.noConfusion hne, fun _ => ⟨0, Or.inl h'⟩⟩
  | handleEvent d =>
      obtain ⟨he, hi, hm, hr⟩ := ha
      obtain ⟨n, ho | hcl⟩ := h.phase he
      · refine Safe.bind (handleEvent_phase ho hm hr) ?_
        intro c' h'
        exact Safe.ok (hphase c' he h')
      · -- a closed connection has no interest, so the poller does not report it
        rw [hcl.noInterest] at hi
        exact absurd hi (by decide)
  | call u =>
      obtain ⟨n, ho | hcl⟩ := h.phase ha
      · exact Safe.bind (userCall_open ho u) fun c' h' => Safe.ok (hphase c' ha ⟨n, Or.inl h'⟩)
      · exact Safe.bind (userCall_closed hcl u) fun c' h' => Safe.ok (hphase c' ha ⟨n, Or.inr h'⟩)
  | functor f us =>
      exact Safe.bind (runFunctor_phase (h.phase ha.1) ha.2 us) fun c' h' => Safe.ok (hphase c' ha.1 h')

theorem LifeRun.init_inv {s : LifeRun} (h : lifeSystem.init s) : s.Inv :=
  ⟨fun _ => h.2, fun he => by rw [h.1] at he; exact absurd he (by decide)⟩

theorem LifeRun.reachable_inv {s : LifeRun} (h : lifeSystem.Reachable s) : s.Inv := by
  refine System.inv (S := lifeSystem) ?_ ?_ h
  · exact fun _ => LifeRun.init_inv
  · exact fun _ _ hs ha => LifeRun.exec_inv hs ha

/-- **The life cycle of a connection.** In every run the callbacks called are: connected, any number of
    messages, and then nothing, or disconnected and close, once each. `state_` moves forward only. No handler
    and no functor fails an assertion, in `handleClose`, in `Channel::remove` or elsewhere. -/
theorem connection_life_cycle {s : LifeRun} (h : lifeSystem.Reachable s) :
    (s.established = false → s.conn.calls = []) ∧
    (s.established = true → ∃ n,
      s.conn.calls = .connection true :: List.replicate n .message ∨
      s.conn.calls = .connection true :: List.replicate n .message ++ [.connection false, .close]) ∧
    s.conn.states.head? = some .kConnecting ∧ s.conn.states.getLast? = some s.conn.state ∧
    s.conn.states.IsChain StateE.Next ∧
    ∀ a, lifeSystem.enabled s a →
      lifeSystem.exec s a ≠ .error .assertion ∧ lifeSystem.exec s a ≠ .error .badAccess := by
  have hinv := LifeRun.reachable_inv h
  have hcalls : s.established = false → s.conn.calls = [] := by
    intro he
    obtain ⟨wc, hw, mark, hc⟩ := hinv.fresh he
    rw [hc]
    rfl
  have hhist : s.established = true → ∃ n, s.conn.calls = announced n ∨
      s.conn.calls = announced n ++ [.connection false, .close] := by
    intro he
    obtain ⟨n, ho | hcl⟩ := hinv.phase he
    · exact ⟨n, Or.inl ho.calls⟩
    · exact ⟨n, Or.inr hcl.calls⟩
  have hwalk : Walk s.conn := by
    cases he : s.established with
    | false =>
        obtain ⟨wc, hw, mark, hc⟩ := hinv.fresh he
        rw [hc]
        exact ⟨rfl, rfl, List.isChain_singleton _⟩
    | true =>
        obtain ⟨n, ho | hcl⟩ := hinv.phase he
        · exact ho.walk
        · exact hcl.walk
  refine ⟨hcalls, hhist, hwalk.first, hwalk.last, hwalk.moves, ?_⟩
  intro a ha
  have hsafe := LifeRun.exec_inv hinv ha
  exact ⟨hsafe.ne_assertion, hsafe.ne_badAccess⟩

/-- A connection whose connection callback shuts it down, and whose peer then hangs up. -/
theorem connection_life_cycle_hup : ∃ s : LifeRun,
    s.conn.calls = [.connection true, .connection false, .close] ∧
    s.conn.states = [.kConnecting, .kConnected, .kDisconnecting, .kDisconnected] ∧
    s.conn.states.IsChain StateE.Next := by
  have hinit : lifeSystem.init ⟨TcpConnection.new false false, false⟩ := ⟨rfl, false, false, _, rfl⟩
  obtain ⟨c₁, c₂, h₁, h₂, hch, hcalls, hstates⟩ : ∃ c₁ c₂,
      (TcpConnection.new false false).connectEstablished [.shutdown] = .ok c₁ ∧
      c₁.handleEvent ⟨POLLHUP, .failed 0, .wrote 0, [], []⟩ = .ok c₂ ∧ c₁.channel.isNoneEvent = false ∧
      c₂.calls = [.connection true, .connection false, .close] ∧
      c₂.states = [.kConnecting, .kConnected, .kDisconnecting, .kDisconnected] :=
    ⟨_, _, rfl, rfl, by decide, rfl, rfl⟩
  have hmask : MaskOk POLLHUP := fun _ _ => ⟨by decide, by decide⟩
  have hstep₁ : lifeSystem.Step ⟨TcpConnection.new false false, false⟩ (.connectEstablished [.shutdown])
      ⟨c₁, true⟩ := by
    refine ⟨rfl, ?_⟩
    show ((TcpConnection.new false false).connectEstablished [.shutdown] >>= _) = _
    rw [h₁, ok_bind]
  have hstep₂ : lifeSystem.Step ⟨c₁, true⟩ (.handleEvent ⟨POLLHUP, .failed 0, .wrote 0, [], []⟩)
      ⟨c₂, true⟩ := by
    refine ⟨⟨rfl, hch, hmask, fun bytes hb => nomatch hb⟩, ?_⟩
    show (c₁.handleEvent ⟨POLLHUP, .failed 0, .wrote 0, [], []⟩ >>= _) = _
    rw [h₂, ok_bind]
  have hreach := System.Reachable.step (.step (.init hinit) hstep₁) hstep₂
  exact ⟨_, hcalls, hstates, (connection_life_cycle hreach).2.2.2.2.1⟩

end TcpConnection

end Muduo.Net
