import Muduo.Net.ChannelDispatch
import Muduo.Net.Correctness.TcpClient

/-!
# `Correctness.ChannelDispatch` — when no event is dispatched to a removed channel

A connection is removed by a functor, after the events are handled, and a connector removes its channel in that
channel's own handler. The exception is `stop()`, which does so at once, whoever calls it. Unless the channel is among
the active ones and not the current one (`Spares`), this does no harm: in such runs the assertion of `removeChannel`
holds, and `handleEvent` is only called on registered channels (`no_event_after_removal`).

The invariant is about what the iteration has not come to: these channels are registered, and a channel that is
removed while events are handled is not among them (`Inv`). A channel of a connector is registered only while the
attempt it belongs to is in progress, so that a handler removes its own.
-/

namespace Muduo.Net

open Lib

/-! ## What a call does to the channel of a connector -/

namespace Connector

variable {c c' : Connector} {e : ConnectErrno} {sockfd : Nat}

/-- Nothing. -/
def Unmoved (c c' : Connector) : Prop :=
  c'.channel = c.channel ∧ c'.resets = c.resets ∧ c'.handed = c.handed ∧
    (c.state = .kConnecting → c'.state = .kConnecting)

/-- There is a new channel. -/
def Started (c c' : Connector) : Prop :=
  c.state ≠ .kConnecting ∧ c.channel = none ∧ c'.channel.isSome = true ∧ c'.resets = c.resets ∧
    c'.handed = c.handed ∧ c'.state = .kConnecting

/-- The channel of the attempt in progress is removed. -/
def Ended (c c' : Connector) : Prop :=
  c.state = .kConnecting ∧ c.channel.isSome = true ∧ c'.channel.isSome = true ∧ c'.resets = c.resets + 1 ∧
    c'.state ≠ .kConnecting

theorem startInLoop_moves (h : c.startInLoop e = .ok c') : Unmoved c c' ∨ Started c c' := by
  obtain ⟨hs, hcases⟩ := startInLoop_cases h
  have hne : c.state ≠ .kConnecting := by simp [hs]
  rcases hcases with ⟨-, rfl⟩ | ⟨-, ⟨-, hch, rfl⟩ | ⟨-, rfl⟩ | ⟨-, rfl⟩⟩
  -- `connect_` is false
  · exact Or.inl ⟨rfl, rfl, rfl, id⟩
  · exact Or.inr ⟨hne, hch, rfl, rfl, rfl, rfl⟩
  · obtain ⟨-, hhanded, -, hch, hresets⟩ := retry_frame c.opened c.created
    exact Or.inl ⟨hch, hresets, hhanded, fun hs' => absurd hs' hne⟩
  · exact Or.inl ⟨rfl, rfl, rfl, id⟩

theorem detached_channel (h : c.channel.map (·.fd) = some sockfd) :
    c.channel.isSome = true ∧ c.detached.channel.isSome = true := by
  cases hch : c.channel with
  | none =>
      rw [hch] at h
      cases h
  | some ch => exact ⟨rfl, by simp [detached, hch]⟩

theorem Finished.ended (h : Finished c sockfd c') (hs : c.state = .kConnecting)
    (hfd : c.channel.map (·.fd) = some sockfd) : Ended c c' := by
  obtain ⟨hsome, hsome'⟩ := detached_channel hfd
  rcases h with rfl | ⟨-, rfl⟩ | ⟨-, rfl⟩
  · obtain ⟨-, -, -, hch, hresets⟩ := retry_frame c.detached sockfd
    exact ⟨hs, hsome, by rw [hch]; exact hsome', hresets, by simp⟩
  · exact ⟨hs, hsome, hsome', rfl, nofun⟩
  · exact ⟨hs, hsome, hsome', rfl, nofun⟩

theorem stopInLoop_moves (h : c.stopInLoop = .ok c') :
    c' = c ∧ c.state ≠ .kConnecting ∨ Ended c c' := by
  rcases stopInLoop_cases h with ⟨hs, rfl⟩ | ⟨sockfd, hs, hfd, hc'⟩
  · exact Or.inl ⟨rfl, hs⟩
  · exact Or.inr (Finished.ended (Or.inl hc') hs hfd)

theorem Unmoved.refl (c : Connector) : Unmoved c c := ⟨rfl, rfl, rfl, id⟩

end Connector

namespace DispatchLoop

open Connector

variable {κ : Type} [DecidableEq κ] {s s' : DispatchLoop κ} {a : DispatchAction κ} {k : κ} {t' : TcpClient}
  {ch : LoopChannel κ} {conn : LoopConnection κ} {f : LoopFunctor κ} {e : ConnectErrno} {d : Connector.Dispatch}

/-! ## The condition -/

/-- `stop()` is not called while a connector is connecting whose channel is among the active ones and not the
    current one. -/
def Spares (s : DispatchLoop κ) : DispatchAction κ → Prop
  | .stop k => s.eventHandling = true → (s.clients k).connector.state = .kConnecting →
      ∀ ch, (s.clients k).connector.channel = some ch → LoopChannel.connector k ch.fd ∈ s.activeChannels →
        s.currentActiveChannel = some (.connector k ch.fd)
  | _ => True

/-! ## The invariant -/

structure Inv (s : DispatchLoop κ) : Prop where
  sound : ∀ k, Sound (s.clients k).connector
  connection : ∀ k, (s.clients k).connection.isSome = true → (s.clients k).connector.state = .kConnected
  connector : ∀ k sockfd, s.registered (.connector k sockfd) = true →
    (s.clients k).connector.state = .kConnecting ∧ (s.clients k).connector.channel.map (·.fd) = some sockfd
  resets : ∀ k, s.pendingFunctors.count (.resetChannel k) + s.functors.count (.resetChannel k) =
    (s.clients k).connector.resets
  rest : ∀ ch ∈ s.rest, s.registered ch = true ∧ ch ∈ s.activeChannels
  nodup : s.rest.Nodup
  current : ∀ ch, s.currentActiveChannel = some ch → ch ∉ s.rest
  running : s.eventHandling = false → s.rest = []
  functors : s.eventHandling = true → s.functors = []
  safe : s.failed = false ∧ s.stale = false

theorem Inv.new : Inv (new κ) where
  sound _ := Sound.new
  connection _ := by rintro ⟨⟩
  connector _ _ := by rintro ⟨⟩
  resets _ := rfl
  rest := by rintro _ ⟨⟩
  nodup := List.nodup_nil
  current := by rintro _ ⟨⟩
  running _ := rfl
  functors _ := rfl
  safe := ⟨rfl, rfl⟩

/-! ## Steps that do not concern a connector -/

omit [DecidableEq κ] in
theorem connection_ne {sockfd : Nat} : LoopChannel.connection conn ≠ .connector k sockfd := nofun

theorem failed_of_removable (h : s.Removable ch) : (s.removeChannel ch).failed = s.failed := by
  show (s.failed || !decide (s.Removable ch)) = _
  rw [decide_eq_true h]
  simp

theorem failed_of_not_removable (h : ¬ s.Removable ch) : (s.removeChannel ch).failed = true := by
  show (s.failed || !decide (s.Removable ch)) = _
  rw [decide_eq_false h]
  simp

theorem Inv.updateChannel (h : s.Inv) (hch : ∀ k sockfd, ch ≠ .connector k sockfd) : Inv (s.updateChannel ch) := by
  have hkeep : ∀ ch', s.registered ch' = true → (s.updateChannel ch).registered ch' = true := by
    intro ch' hreg
    by_cases heq : ch' = ch
    · rw [heq]
      exact Function.update_self ..
    · exact (Function.update_of_ne heq ..).trans hreg
  refine { h with connector := ?_, rest := ?_ }
  · intro k sockfd hreg
    exact h.connector k sockfd ((Function.update_of_ne (hch k sockfd).symm ..).symm.trans hreg)
  · intro ch' hmem
    exact ⟨hkeep ch' (h.rest ch' hmem).1, (h.rest ch' hmem).2⟩

theorem Inv.queueInLoop (h : s.Inv) (hf : ∀ k, f ≠ .resetChannel k) : Inv (s.queueInLoop f) := by
  refine { h with resets := ?_ }
  intro k
  show (s.pendingFunctors ++ [f]).count _ + _ = _
  rw [List.count_append, List.count_singleton, if_neg (by simpa using hf k), Nat.add_zero]
  exact h.resets k

theorem Inv.setState (h : s.Inv) (state : StateE) : Inv (s.setState conn state) := { h with }

theorem Inv.established (h : s.Inv) : Inv (s.established conn) :=
  (h.setState _).updateChannel fun _ _ => connection_ne

omit [DecidableEq κ] in
/-- Functors may remove any channel. -/
theorem removable_of_running (hrun : s.eventHandling = false) (ch : LoopChannel κ) : s.Removable ch := by
  intro hhandling
  rw [hrun] at hhandling
  cases hhandling

/-- A connection is removed by a functor: no events are being handled. -/
theorem Inv.removeConnection (h : s.Inv) (hrun : s.eventHandling = false) :
    Inv (s.removeChannel (.connection conn)) := by
  have hremovable := removable_of_running hrun (.connection conn)
  refine { h with
    connector := ?_
    rest := ?_
    safe := ⟨(failed_of_removable hremovable).trans h.safe.1, h.safe.2⟩ }
  · intro k sockfd hreg
    have hreg : Function.update s.registered (.connection conn) false (.connector k sockfd) = true := hreg
    rw [Function.update_of_ne connection_ne.symm] at hreg
    exact h.connector k sockfd hreg
  · intro ch hmem
    have hmem : ch ∈ s.rest := hmem
    rw [h.running hrun] at hmem
    cases hmem

theorem Inv.connectDestroyed (h : s.Inv) (hrun : s.eventHandling = false) : Inv (s.connectDestroyed conn) := by
  unfold DispatchLoop.connectDestroyed
  dsimp only
  split
  · exact ((h.setState _).updateChannel fun _ _ => connection_ne).removeConnection hrun
  · exact h.removeConnection hrun

/-! ## Steps of a client -/

theorem setClient_unmoved (h : Unmoved (s.clients k).connector t'.connector) :
    s.setClient k t' = { s with clients := Function.update s.clients k t' } := by
  obtain ⟨hch, hresets, hhanded, -⟩ := h
  unfold setClient
  dsimp only
  rw [hhanded, List.drop_length, hch, hresets]
  cases (s.clients k).connector.channel with
  | none => rfl
  | some ch => simp

theorem setClient_started (h : Started (s.clients k).connector t'.connector) {ch : ConnectorChannel}
    (hch : t'.connector.channel = some ch) : s.setClient k t' =
      { s with clients := Function.update s.clients k t' }.updateChannel (.connector k ch.fd) := by
  obtain ⟨-, hnone, -, -, hhanded, -⟩ := h
  unfold setClient
  dsimp only
  rw [hhanded, List.drop_length, hnone, hch]
  rfl

theorem setClient_ended (h : Ended (s.clients k).connector t'.connector) {ch : ConnectorChannel}
    (hch : (s.clients k).connector.channel = some ch) : s.setClient k t' =
      (t'.connector.handed.drop (s.clients k).connector.handed.length).foldl
        (fun s sockfd => s.established (.client k sockfd))
        (({ s with clients := Function.update s.clients k t' }.removeChannel (.connector k ch.fd)).queueInLoop
          (.resetChannel k)) := by
  obtain ⟨-, -, -, hresets, -⟩ := h
  unfold setClient
  dsimp only
  rw [hch]
  dsimp only
  rw [if_pos (by omega)]

/-- The new client is sound, and so is its connection. -/
structure Fit (t' : TcpClient) : Prop where
  sound : Sound t'.connector
  connection : t'.connection.isSome = true → t'.connector.state = .kConnected

/-- The clients, when one of them has become another. -/
theorem Inv.clients (h : s.Inv) (hfit : Fit t') (k' : κ) :
    Sound (Function.update s.clients k t' k').connector ∧
      ((Function.update s.clients k t' k').connection.isSome = true →
        (Function.update s.clients k t' k').connector.state = .kConnected) := by
  by_cases heq : k' = k
  · rw [heq, Function.update_self]
    exact ⟨hfit.sound, hfit.connection⟩
  · rw [Function.update_of_ne heq]
    exact ⟨h.sound k', h.connection k'⟩

theorem Inv.setClient_unmoved (h : s.Inv) (hfit : Fit t') (hmoved : Unmoved (s.clients k).connector t'.connector) :
    Inv (s.setClient k t') := by
  rw [DispatchLoop.setClient_unmoved hmoved]
  obtain ⟨hch, hresets, -, hstate⟩ := hmoved
  refine { h with
    sound := fun k' => (h.clients hfit k').1
    connection := fun k' => (h.clients hfit k').2
    connector := ?_
    resets := ?_ }
  · intro k' sockfd hreg
    obtain ⟨hs, hfd⟩ := h.connector k' sockfd hreg
    dsimp only
    by_cases heq : k' = k
    · subst heq
      rw [Function.update_self, hch]
      exact ⟨hstate hs, hfd⟩
    · rw [Function.update_of_ne heq]
      exact ⟨hs, hfd⟩
  · intro k'
    rw [h.resets k']
    dsimp only
    by_cases heq : k' = k
    · rw [heq, Function.update_self, hresets]
    · rw [Function.update_of_ne heq]

theorem Inv.setClient_started (h : s.Inv) (hfit : Fit t') (hmoved : Started (s.clients k).connector t'.connector) :
    Inv (s.setClient k t') := by
  obtain ⟨ch, hch⟩ := Option.isSome_iff_exists.mp hmoved.2.2.1
  rw [DispatchLoop.setClient_started hmoved hch]
  obtain ⟨hne, -, -, hresets, -, hconnecting⟩ := hmoved
  refine { h with
    sound := fun k' => (h.clients hfit k').1
    connection := fun k' => (h.clients hfit k').2
    connector := ?_
    resets := ?_
    rest := ?_ }
  · intro k' sockfd hreg
    show (Function.update s.clients k t' k').connector.state = _ ∧
      (Function.update s.clients k t' k').connector.channel.map _ = _
    have hreg : Function.update s.registered _ true _ = true := hreg
    by_cases heq : k' = k
    · subst heq
      rw [Function.update_self, hch]
      refine ⟨hconnecting, ?_⟩
      by_cases hfd : sockfd = ch.fd
      · rw [hfd]
        rfl
      · -- an older channel is not registered any more
        rw [Function.update_of_ne (by simpa using hfd)] at hreg
        exact absurd (h.connector k' sockfd hreg).1 hne
    · rw [Function.update_of_ne (by simp [heq])] at hreg
      rw [Function.update_of_ne heq]
      exact h.connector k' sockfd hreg
  · intro k'
    show _ = (Function.update s.clients k t' k').connector.resets
    refine (h.resets k').trans ?_
    by_cases heq : k' = k
    · rw [heq, Function.update_self, hresets]
    · rw [Function.update_of_ne heq]
  · intro ch' hmem
    refine ⟨?_, (h.rest ch' hmem).2⟩
    show Function.update s.registered _ true ch' = true
    by_cases heq : ch' = .connector k ch.fd
    · rw [heq, Function.update_self]
    · rw [Function.update_of_ne heq]
      exact (h.rest ch' hmem).1

theorem Inv.establishAll (h : s.Inv) (sockfds : List Nat) :
    Inv (sockfds.foldl (fun s sockfd => s.established (.client k sockfd)) s) := by
  induction sockfds generalizing s with
  | nil => exact h
  | cons sockfd sockfds ih => exact ih h.established

/-- A channel is removed that may be, and that the iteration does not come to any more. -/
theorem Inv.setClient_ended (h : s.Inv) (hfit : Fit t') (hmoved : Ended (s.clients k).connector t'.connector)
    {ch : ConnectorChannel} (hch : (s.clients k).connector.channel = some ch)
    (hremovable : s.Removable (.connector k ch.fd)) (hrest : LoopChannel.connector k ch.fd ∉ s.rest) :
    Inv (s.setClient k t') := by
  rw [DispatchLoop.setClient_ended hmoved hch]
  obtain ⟨hs, -, -, hresets, -⟩ := hmoved
  have hremovable' : Removable { s with clients := Function.update s.clients k t' } (.connector k ch.fd) := hremovable
  apply Inv.establishAll
  refine { h with
    sound := fun k' => (h.clients hfit k').1
    connection := fun k' => (h.clients hfit k').2
    connector := ?_
    resets := ?_
    rest := ?_
    safe := ⟨(failed_of_removable hremovable').trans h.safe.1, h.safe.2⟩ }
  · intro k' sockfd hreg
    show (Function.update s.clients k t' k').connector.state = _ ∧
      (Function.update s.clients k t' k').connector.channel.map _ = _
    have hreg : Function.update s.registered _ false _ = true := hreg
    by_cases heq : LoopChannel.connector k' sockfd = .connector k ch.fd
    · rw [heq, Function.update_self] at hreg
      cases hreg
    · rw [Function.update_of_ne heq] at hreg
      obtain ⟨hs', hfd'⟩ := h.connector k' sockfd hreg
      -- a client has one channel, and this one is another
      have hne : k' ≠ k := by
        rintro rfl
        rw [hch] at hfd'
        exact heq (by rw [← Option.some.inj hfd'])
      rw [Function.update_of_ne hne]
      exact ⟨hs', hfd'⟩
  · intro k'
    show (s.pendingFunctors ++ [_]).count _ + s.functors.count _ =
      (Function.update s.clients k t' k').connector.resets
    have hcount := h.resets k'
    rw [List.count_append, List.count_singleton]
    by_cases heq : k' = k
    · subst heq
      -- the functor that is queued is the one `resets` counts
      rw [Function.update_self, hresets, if_pos (by simp)]
      omega
    · rw [Function.update_of_ne heq, if_neg (by simpa using Ne.symm heq)]
      omega
  · intro ch' hmem
    have hmem : ch' ∈ s.rest := hmem
    have hne : ch' ≠ .connector k ch.fd := by
      rintro rfl
      exact hrest hmem
    refine ⟨?_, (h.rest ch' hmem).2⟩
    show Function.update s.registered _ false ch' = true
    rw [Function.update_of_ne hne]
    exact (h.rest ch' hmem).1

/-! ## The functions of a client -/

/-- A step of a client whose connector does not remove a channel. -/
theorem Inv.setClient (h : s.Inv) (hfit : Fit t')
    (hmoves : Unmoved (s.clients k).connector t'.connector ∨ Started (s.clients k).connector t'.connector) :
    Inv (s.setClient k t') := by
  rcases hmoves with hmoved | hmoved
  · exact h.setClient_unmoved hfit hmoved
  · exact h.setClient_started hfit hmoved

/-- While the state is not `kConnected` there is no connection. -/
theorem Inv.no_connection (h : s.Inv) (hs : (s.clients k).connector.state ≠ .kConnected) :
    (s.clients k).connection.isSome = false := by
  by_contra hsome
  exact hs (h.connection k ((Bool.not_eq_false _).mp hsome))

/-- Without a connection there is nothing to say about it. -/
theorem Fit.of_none (hsound : Sound t'.connector) (hnone : t'.connection.isSome = false) : Fit t' where
  sound := hsound
  connection hsome := by
    rw [hnone] at hsome
    cases hsome

/-- `startInLoop`, however it is called. -/
theorem Inv.startInLoop (h : s.Inv) {wanted : Bool} {timers : Nat} {c' : Connector}
    (hc : Connector.startInLoop { (s.clients k).connector with wanted, timers } e = .ok c') (ht : t'.connector = c')
    (hconn : t'.connection = (s.clients k).connection) : Inv (s.setClient k t') := by
  have hs : (s.clients k).connector.state = .kDisconnected := (startInLoop_cases hc).1
  have hsound := (((h.sound k).update wanted timers (s.clients k).connector.retryDelayMs).startInLoop hc).sound
  -- the flag and the timers are not among what it moves
  have hmoves := startInLoop_moves hc
  subst ht
  refine h.setClient (Fit.of_none hsound ?_) hmoves
  rw [hconn]
  exact h.no_connection (by simp [hs])

theorem Inv.connect (h : s.Inv) (ht : (s.clients k).connect e = .ok t') : Inv (s.setClient k t') := by
  obtain ⟨c', hc, ht'⟩ := bind_eq_ok.mp ht
  obtain rfl := Except.ok.inj ht'
  exact h.startInLoop hc rfl rfl

theorem Inv.handleTimer (h : s.Inv) (ht : (s.clients k).handleTimer e = .ok t') : Inv (s.setClient k t') := by
  obtain ⟨c', hc, ht'⟩ := bind_eq_ok.mp ht
  obtain rfl := Except.ok.inj ht'
  exact h.startInLoop hc rfl rfl

/-- The attempt of the client ends: its connector was connecting, so there was no connection. -/
theorem Inv.fit_ended (h : s.Inv) (hmoved : Ended (s.clients k).connector t'.connector)
    (hsound : Sound t'.connector)
    (hconn : t'.connection = (s.clients k).connection ∨ t'.connector.state = .kConnected) : Fit t' where
  sound := hsound
  connection := by
    intro hsome
    rcases hconn with hsame | hs
    -- the attempt has not led to a connection
    · rw [hsame, h.no_connection (k := k) (by simp [hmoved.1])] at hsome
      cases hsome
    · exact hs

/-- `stopInLoop`, however it is called: it may end the attempt in progress. -/
theorem Inv.stopInLoop (h : s.Inv) {wanted : Bool} {c' : Connector} {t' : TcpClient}
    (hc : Connector.stopInLoop { (s.clients k).connector with wanted } = .ok c') (ht : t'.connector = c')
    (hconn : t'.connection = (s.clients k).connection)
    (hspared : (s.clients k).connector.state = .kConnecting →
      ∀ ch, (s.clients k).connector.channel = some ch →
        s.Removable (.connector k ch.fd) ∧ LoopChannel.connector k ch.fd ∉ s.rest) : Inv (s.setClient k t') := by
  have hsound : Sound t'.connector :=
    ht ▸ (((h.sound k).update wanted _ (s.clients k).connector.retryDelayMs).stopInLoop hc).sound
  rcases stopInLoop_moves hc with ⟨rfl, -⟩ | hended
  · refine h.setClient_unmoved ⟨hsound, ?_⟩ (by rw [ht]; exact ⟨rfl, rfl, rfl, id⟩)
    rw [hconn, ht]
    exact h.connection k
  · have hended' : Ended (s.clients k).connector t'.connector := by
      rw [ht]
      exact hended
    obtain ⟨ch, hch⟩ := Option.isSome_iff_exists.mp hended'.2.1
    obtain ⟨hremovable, hrest⟩ := hspared hended'.1 ch hch
    exact h.setClient_ended (h.fit_ended hended' hsound (Or.inl hconn)) hended' hch hremovable hrest

/-- A call that does not touch the connector, but for `connect_`. -/
theorem Inv.setFlags (h : s.Inv) (retry wanted wanted' : Bool) :
    Inv (s.setClient k { s.clients k with
      retry, wanted, connector := { (s.clients k).connector with wanted := wanted' } }) :=
  h.setClient_unmoved ⟨(h.sound k).update wanted' _ _, h.connection k⟩ ⟨rfl, rfl, rfl, id⟩

theorem Inv.setWanted (h : s.Inv) (wanted : Bool) : Inv (s.setWanted k wanted) := by
  have hinv := h.setFlags (k := k) (s.clients k).retry wanted wanted
  rwa [DispatchLoop.setClient_unmoved (by exact ⟨rfl, rfl, rfl, id⟩)] at hinv

theorem Inv.shutdown (h : s.Inv) : Inv (s.shutdown conn) := by
  unfold DispatchLoop.shutdown
  split
  · exact h.setState _
  · exact h

theorem Inv.disconnect (h : s.Inv) : Inv (s.disconnect k) := by
  have hinv : Inv (s.setClient k (s.clients k).disconnect) :=
    h.setFlags (s.clients k).retry false (s.clients k).connector.wanted
  unfold DispatchLoop.disconnect
  dsimp only
  split
  · exact hinv
  · exact hinv.shutdown

theorem Inv.send (h : s.Inv) {more : Bool} : Inv (s.send conn more) := by
  unfold DispatchLoop.send
  split
  · exact h.updateChannel fun _ _ => connection_ne
  · exact h

/-- **`stop()` under the condition** does not touch what the iteration has still to come to. -/
theorem Inv.stop (h : s.Inv) (hspares : s.Spares (.stop k)) (ht : (s.clients k).stop = .ok t') :
    Inv (s.setClient k t') := by
  obtain ⟨c', hc, ht'⟩ := bind_eq_ok.mp ht
  obtain rfl := Except.ok.inj ht'
  refine h.stopInLoop hc rfl rfl fun hs ch hch => ⟨?_, ?_⟩
  -- the assertion is what the condition says
  · intro hhandling
    by_cases hmem : LoopChannel.connector k ch.fd ∈ s.activeChannels
    · exact Or.inl (hspares hhandling hs ch hch hmem)
    · exact Or.inr hmem
  · intro hmem
    -- something is left of the iteration, so events are being handled
    have hhandling : s.eventHandling = true := by
      by_contra hrun
      rw [h.running (by simpa using hrun)] at hmem
      cases hmem
    exact h.current _ (hspares hhandling hs ch hch (h.rest _ hmem).2) hmem

/-- The close callback of a client's connection; `restart` does not find an attempt in progress. -/
theorem Inv.removed (h : s.Inv) {conn : ClientConnection} (hconn : (s.clients k).connection = some conn)
    (ht : (s.clients k).removeConnection conn e = .ok t') : Inv (s.setClient k t') := by
  have hs := h.connection k (by rw [hconn]; rfl)
  have hne : (s.clients k).connector.state ≠ .kConnecting := by simp [hs]
  obtain ⟨_, -, ht⟩ := bind_eq_ok.mp ht
  dsimp only at ht
  by_cases hretry : ((s.clients k).retry && (s.clients k).wanted) = true
  · rw [if_pos hretry] at ht
    obtain ⟨c', hc, ht⟩ := bind_eq_ok.mp ht
    obtain rfl := Except.ok.inj ht
    refine h.setClient (Fit.of_none ((h.sound k).restart hne hc).1 rfl) ?_
    -- `restart` has set the state back, so that its own view of it is another one
    rcases startInLoop_moves hc with ⟨hch, hresets, hhanded, -⟩ | ⟨-, hmoved⟩
    · exact Or.inl ⟨hch, hresets, hhanded, fun hconnecting => absurd hconnecting hne⟩
    · exact Or.inr ⟨hne, hmoved⟩
  · rw [if_neg hretry] at ht
    obtain rfl := Except.ok.inj ht
    exact h.setClient (Fit.of_none (h.sound k) rfl) (Or.inl (Unmoved.refl _))

theorem Inv.handleClose (h : s.Inv) (hs' : s.handleClose conn = .ok s') : s'.Inv := by
  obtain ⟨_, -, hs'⟩ := bind_eq_ok.mp hs'
  obtain rfl := Except.ok.inj hs'
  have hinv : Inv ((s.setState conn .kDisconnected).updateChannel (.connection conn)) :=
    (h.setState _).updateChannel fun _ _ => connection_ne
  exact { hinv with }

theorem Inv.closeCallback (h : s.Inv) {here : Bool} (hs' : s.closeCallback e here conn = .ok s') : s'.Inv := by
  cases conn with
  | client k sockfd =>
      unfold DispatchLoop.closeCallback at hs'
      dsimp only at hs'
      cases hconn : (s.clients k).connection with
      | none =>
          rw [hconn] at hs'
          cases hs'
      | some conn =>
          rw [hconn] at hs'
          obtain ⟨_, -, hs'⟩ := bind_eq_ok.mp hs'
          obtain ⟨t', ht', hs'⟩ := bind_eq_ok.mp hs'
          obtain rfl := Except.ok.inj hs'
          have hinv : Inv (s.queueInLoop (.connectDestroyed (.client k sockfd))) := h.queueInLoop nofun
          exact hinv.removed hconn ht'
  | server n =>
      obtain rfl := Except.ok.inj hs'
      cases here with
      | true => exact h.queueInLoop nofun
      | false =>
          exact { h with }

/-! ## The steps of the loop -/

/-- The next channel is registered, and it is not among those that come after it. -/
theorem Inv.next (h : s.Inv) {rest : List (LoopChannel κ)} (hrest : s.rest = ch :: rest)
    (hhandling : s.eventHandling = true) :
    Inv { s with rest, currentActiveChannel := some ch, stale := s.stale || !s.registered ch } := by
  have hnodup := h.nodup
  rw [hrest] at hnodup
  obtain ⟨hnot, hnodup⟩ := List.nodup_cons.mp hnodup
  have hreg := (h.rest ch (by rw [hrest]; exact List.mem_cons_self)).1
  refine { h with rest := ?_, nodup := hnodup, current := ?_, running := ?_, safe := ⟨h.safe.1, ?_⟩ }
  · intro ch' hmem
    exact h.rest ch' (by rw [hrest]; exact List.mem_cons_of_mem _ hmem)
  · rintro ch' ⟨⟩
    exact hnot
  · intro hrun
    simp [hhandling] at hrun
  · show (s.stale || !s.registered ch) = false
    rw [h.safe.2, hreg]
    rfl

/-- The handler of a connector's channel removes that channel, which is the current one. -/
theorem Inv.handled (h : s.Inv) {sockfd : Nat} (hcurrent : s.currentActiveChannel = some (.connector k sockfd))
    (hreg : s.registered (.connector k sockfd) = true) (ht : (s.clients k).handleEvent d = .ok t') :
    Inv (s.setClient k t') := by
  obtain ⟨-, hfd⟩ := h.connector k sockfd hreg
  obtain ⟨c', hc, -⟩ := bind_eq_ok.mp ht
  have hsound := ((h.sound k).handleEvent hc).sound
  rcases TcpClient.handleEvent_cases ht with rfl | ⟨sockfd', c'', hs, hfd', hfin, hc'', hconn⟩
  -- a late event, which the connector ignores
  · exact h.setClient_unmoved ⟨h.sound k, h.connection k⟩ (Unmoved.refl _)
  · have hended : Ended (s.clients k).connector t'.connector := hc'' ▸ hfin.ended hs hfd'
    have hsound' : Sound t'.connector := hc'' ▸ ((h.sound k).finished hs hfd' hfin).sound
    obtain ⟨ch, hch⟩ := Option.isSome_iff_exists.mp hended.2.1
    -- the channel that is removed is the current one
    have hcur : s.currentActiveChannel = some (.connector k ch.fd) := by
      rw [hch] at hfd
      rw [hcurrent, ← Option.some.inj hfd]
    refine h.setClient_ended (h.fit_ended hended hsound' (hc''.symm ▸ hconn)) hended hch ?_ (h.current _ hcur)
    exact fun _ => Or.inl hcur

theorem Inv.handleEvent (h : s.Inv) (ha : s.enabled (.handleEvent d)) (hs' : s.exec (.handleEvent d) = .ok s') :
    s'.Inv := by
  unfold exec at hs'
  dsimp only at hs'
  cases hrest : s.rest with
  | nil => exact absurd hrest ha.2.1
  | cons ch rest =>
      rw [hrest] at hs'
      have hnext := h.next hrest ha.1
      have hreg := (h.rest ch (by rw [hrest]; exact List.mem_cons_self)).1
      cases ch with
      | connector k sockfd =>
          obtain ⟨t', ht', hs'⟩ := bind_eq_ok.mp hs'
          obtain rfl := Except.ok.inj hs'
          exact hnext.handled rfl hreg ht'
      | wakeup =>
          obtain rfl := Except.ok.inj hs'
          exact hnext
      | timerfd =>
          obtain rfl := Except.ok.inj hs'
          exact hnext
      | acceptor n =>
          obtain rfl := Except.ok.inj hs'
          exact hnext
      | connection conn =>
          obtain rfl := Except.ok.inj hs'
          exact hnext

theorem Inv.poll (h : s.Inv) {activeChannels : List (LoopChannel κ)} (ha : s.enabled (.poll activeChannels)) :
    Inv { s with
      activeChannels, rest := activeChannels, currentActiveChannel := none, eventHandling := true } where
  sound := h.sound
  connection := h.connection
  connector := h.connector
  resets := h.resets
  rest ch hmem := ⟨ha.2.2.2 ch hmem, hmem⟩
  nodup := ha.2.2.1
  current := by rintro _ ⟨⟩
  running := by rintro ⟨⟩
  functors _ := ha.2.1
  safe := h.safe

/-- The functors queued so far are run next. -/
theorem Inv.doPendingFunctors (h : s.Inv) (ha : s.enabled .doPendingFunctors) :
    Inv { s with
      currentActiveChannel := none
      eventHandling := false
      functors := s.pendingFunctors
      pendingFunctors := [] } where
  sound := h.sound
  connection := h.connection
  connector := h.connector
  resets k := by
    have hcount := h.resets k
    rw [h.functors ha.1] at hcount
    rw [← hcount]
    exact Nat.add_comm _ _
  rest := h.rest
  nodup := h.nodup
  current := by rintro _ ⟨⟩
  running _ := ha.2.1
  functors := by rintro ⟨⟩
  safe := h.safe

/-- A functor that is not `resetChannel` is taken out. -/
theorem Inv.taken (h : s.Inv) {functors : List (LoopFunctor κ)} (hfunctors : s.functors = f :: functors)
    (hf : ∀ k, f ≠ .resetChannel k) (hrun : s.eventHandling = false) : Inv { s with functors } := by
  refine { h with resets := ?_, functors := ?_ }
  · intro k
    have hcount := h.resets k
    rw [hfunctors, List.count_cons_of_ne (hf k)] at hcount
    exact hcount
  · intro hhandling
    simp [hrun] at hhandling

/-- `resetChannel` does not find an attempt in progress. -/
theorem Inv.resetChannel (h : s.Inv) {functors : List (LoopFunctor κ)}
    (hfunctors : s.functors = .resetChannel k :: functors) (hrun : s.eventHandling = false) :
    Inv { s with
      functors, clients := Function.update s.clients k (s.clients k).resetChannel } := by
  have hpos : 0 < (s.clients k).connector.resets := by
    rw [← h.resets k, hfunctors, List.count_cons_self]
    omega
  have hne : (s.clients k).connector.state ≠ .kConnecting := by
    intro hs
    -- a connector that is connecting has no reset to come
    have hzero := ((h.sound k).connecting hs).2
    omega
  have hfit : Fit (s.clients k).resetChannel := ⟨((h.sound k).resetChannel hpos).sound, h.connection k⟩
  refine { h with
    sound := fun k' => (h.clients hfit k').1
    connection := fun k' => (h.clients hfit k').2
    connector := ?_
    resets := ?_
    functors := ?_ }
  · intro k' sockfd hreg
    obtain ⟨hs', hfd'⟩ := h.connector k' sockfd hreg
    have hne' : k' ≠ k := by
      rintro rfl
      exact hne hs'
    dsimp only
    rw [Function.update_of_ne hne']
    exact ⟨hs', hfd'⟩
  · intro k'
    have hcount := h.resets k'
    rw [hfunctors] at hcount
    dsimp only
    by_cases heq : k' = k
    · subst heq
      rw [List.count_cons_self] at hcount
      rw [Function.update_self]
      show _ = (s.clients k').connector.resets - 1
      omega
    · rw [List.count_cons_of_ne (by simpa using Ne.symm heq)] at hcount
      rw [Function.update_of_ne heq]
      exact hcount
  · intro hhandling
    simp [hrun] at hhandling

theorem Inv.runFunctor (h : s.Inv) (ha : s.enabled .runFunctor) (hs' : s.exec .runFunctor = .ok s') : s'.Inv := by
  obtain ⟨hrun, hnonempty⟩ := ha
  unfold exec at hs'
  dsimp only at hs'
  cases hfunctors : s.functors with
  | nil => exact absurd hfunctors hnonempty
  | cons f functors =>
      rw [hfunctors] at hs'
      cases f with
      | resetChannel k =>
          obtain rfl := Except.ok.inj hs'
          exact h.resetChannel hfunctors hrun
      | startInLoop k e =>
          obtain ⟨c', hc, hs'⟩ := bind_eq_ok.mp hs'
          obtain rfl := Except.ok.inj hs'
          exact (h.taken hfunctors nofun hrun).startInLoop hc rfl rfl
      | stopInLoop k =>
          obtain ⟨c', hc, hs'⟩ := bind_eq_ok.mp hs'
          obtain rfl := Except.ok.inj hs'
          -- as a functor it may remove any channel
          refine (h.taken hfunctors nofun hrun).stopInLoop hc rfl rfl fun _ ch _ => ⟨removable_of_running hrun _, ?_⟩
          have hnil : s.rest = [] := h.running hrun
          simp [hnil]
      | connectEstablished conn =>
          obtain ⟨_, -, hs'⟩ := bind_eq_ok.mp hs'
          obtain rfl := Except.ok.inj hs'
          exact (h.taken hfunctors nofun hrun).established
      | connectDestroyed conn =>
          obtain rfl := Except.ok.inj hs'
          exact (h.taken hfunctors nofun hrun).connectDestroyed hrun

/-! ## Every run -/

/-- One action. -/
theorem Inv.exec (h : s.Inv) (ha : s.enabled a) (hspares : s.Spares a) (hs' : s.exec a = .ok s') : s'.Inv := by
  cases a with
  | poll activeChannels =>
      obtain rfl := Except.ok.inj hs'
      exact h.poll ha
  | handleEvent d => exact h.handleEvent ha hs'
  | doPendingFunctors =>
      obtain rfl := Except.ok.inj hs'
      exact h.doPendingFunctors ha
  | runFunctor => exact h.runFunctor ha hs'
  | connect k e =>
      obtain ⟨t', ht', hs'⟩ := bind_eq_ok.mp hs'
      obtain rfl := Except.ok.inj hs'
      exact h.connect ht'
  | disconnect k =>
      obtain rfl := Except.ok.inj hs'
      exact h.disconnect
  | stop k =>
      obtain ⟨t', ht', hs'⟩ := bind_eq_ok.mp hs'
      obtain rfl := Except.ok.inj hs'
      exact h.stop hspares ht'
  | enableRetry k =>
      obtain rfl := Except.ok.inj hs'
      exact h.setFlags true (s.clients k).wanted (s.clients k).connector.wanted
  | send conn more =>
      obtain rfl := Except.ok.inj hs'
      exact h.send
  | shutdown conn =>
      obtain rfl := Except.ok.inj hs'
      exact h.shutdown
  | listen n =>
      obtain rfl := Except.ok.inj hs'
      exact h.updateChannel nofun
  | handleClose =>
      obtain ⟨-, -, conn, hcurrent⟩ := ha
      unfold DispatchLoop.exec at hs'
      dsimp only at hs'
      rw [hcurrent] at hs'
      exact h.handleClose hs'
  | closeCallback e here =>
      unfold DispatchLoop.exec at hs'
      dsimp only at hs'
      split at hs'
      · refine Inv.closeCallback ?_ hs'
        exact { h with }
      · cases hs'
  | handleTimer k e =>
      obtain ⟨t', ht', hs'⟩ := bind_eq_ok.mp hs'
      obtain rfl := Except.ok.inj hs'
      exact h.handleTimer ht'
  | accept =>
      obtain rfl := Except.ok.inj hs'
      refine Inv.established ?_
      exact { h with }
  | queueStart k e =>
      obtain rfl := Except.ok.inj hs'
      exact (h.setWanted true).queueInLoop nofun
  | queueStop k =>
      obtain rfl := Except.ok.inj hs'
      exact (h.setWanted false).queueInLoop nofun
  | queueEstablished =>
      obtain rfl := Except.ok.inj hs'
      refine Inv.queueInLoop ?_ nofun
      exact { h with }
  | queueDestroyed n =>
      obtain rfl := Except.ok.inj hs'
      refine Inv.queueInLoop ?_ nofun
      exact { h with }

theorem reachable_inv (h : ((dispatchSystem κ).when Spares).Reachable s) : s.Inv := by
  refine System.keeps (I := Inv) ?_ ?_ h
  · rintro s rfl
    exact Inv.new
  · rintro s a s' hinv ⟨ha, hspares⟩ hs'
    exact hinv.exec ha hspares hs'

theorem establishAll_failed (s : DispatchLoop κ) (k : κ) (sockfds : List Nat) :
    (sockfds.foldl (fun s sockfd => s.established (.client k sockfd)) s).failed = s.failed := by
  induction sockfds generalizing s with
  | nil => rfl
  | cons sockfd sockfds ih => exact ih _

/-- The condition is what the assertion needs. -/
theorem stop_failed (ht : (s.clients k).stop = .ok t') (hspares : ¬ s.Spares (.stop k)) :
    (s.setClient k t').failed = true := by
  obtain ⟨c', hc, ht'⟩ := bind_eq_ok.mp ht
  obtain rfl := Except.ok.inj ht'
  simp only [Spares, not_forall] at hspares
  obtain ⟨hhandling, hs, ch, hch, hmem, hcurrent⟩ := hspares
  have hremovable : ¬ s.Removable (.connector k ch.fd) := fun hremovable =>
    (hremovable hhandling).elim hcurrent fun hnot => hnot hmem
  rcases stopInLoop_moves hc with ⟨-, hs'⟩ | hended
  · exact absurd hs hs'
  -- the assertion fails at the removal, and nothing takes that back
  · rw [setClient_ended hended hch, establishAll_failed]
    refine failed_of_not_removable ?_
    exact hremovable

/-- **No event is dispatched to a removed channel**, in the runs in which `stop()` spares the active channels: the
    assertion of `removeChannel` has not failed, and `handleEvent` was not called on a channel that is not registered.
    A call of `stop()` keeps it so exactly when it spares them. -/
theorem no_event_after_removal (h : ((dispatchSystem κ).when Spares).Reachable s) :
    s.failed = false ∧ s.stale = false ∧
      ∀ k s', s.exec (.stop k) = .ok s' → (s'.failed = false ↔ s.Spares (.stop k)) := by
  have hinv := reachable_inv h
  refine ⟨hinv.safe.1, hinv.safe.2, ?_⟩
  intro k s' hs'
  obtain ⟨t', ht', hs'⟩ := bind_eq_ok.mp hs'
  obtain rfl := Except.ok.inj hs'
  constructor
  · intro hfailed
    by_contra hspares
    rw [stop_failed ht' hspares] at hfailed
    cases hfailed
  · intro hspares
    exact (hinv.stop hspares ht').safe.1

/-- A callback stops a client whose channel has no event. -/
theorem no_event_after_removal_spared : ∃ s : DispatchLoop Bool, ((dispatchSystem Bool).when Spares).Reachable s ∧
    s.eventHandling = true ∧ s.registered (.connector true 0) = false ∧ s.failed = false ∧ s.stale = false := by
  have h := (System.Reachable.init (S := (dispatchSystem Bool).when Spares) rfl)
    |>.next (.connect false .EINPROGRESS) ⟨nofun, trivial⟩ rfl
    |>.next (.connect true .EINPROGRESS) ⟨nofun, trivial⟩ rfl
    |>.next (.poll [.connector false 0]) ⟨⟨rfl, rfl, by decide, by decide⟩, trivial⟩ rfl
    |>.next (.handleEvent ⟨POLLOUT, 0, false⟩) ⟨⟨rfl, nofun, rfl⟩, trivial⟩ rfl
    |>.next (.stop true) ⟨fun _ => rfl, by rintro - - ch ⟨⟩; decide⟩ rfl
  obtain ⟨hfailed, hstale, -⟩ := no_event_after_removal h
  exact ⟨_, h, rfl, rfl, hfailed, hstale⟩

/-- Two clients become connected in the same poll, and the connection callback of the first stops the second, whose
    event is handled next. -/
theorem event_after_removal : ∃ s : DispatchLoop Bool, (dispatchSystem Bool).ReachedBy
    [.connect false .EINPROGRESS, .connect true .EINPROGRESS, .poll [.connector false 0, .connector true 0],
      .handleEvent ⟨POLLOUT, 0, false⟩, .stop true, .handleEvent ⟨POLLOUT, 0, false⟩] s ∧
    s.failed = true ∧ s.stale = true := by
  have h := (System.ReachedBy.init (S := dispatchSystem Bool) rfl)
    |>.next (.connect false .EINPROGRESS) nofun rfl
    |>.next (.connect true .EINPROGRESS) nofun rfl
    |>.next (.poll [.connector false 0, .connector true 0]) ⟨rfl, rfl, by decide, by decide⟩ rfl
    |>.next (.handleEvent ⟨POLLOUT, 0, false⟩) ⟨rfl, nofun, rfl⟩ rfl
    |>.next (.stop true) (fun _ => rfl) rfl
    |>.next (.handleEvent ⟨POLLOUT, 0, false⟩) ⟨rfl, nofun, rfl⟩ rfl
  exact ⟨_, h, rfl, rfl⟩

end DispatchLoop

end Muduo.Net
