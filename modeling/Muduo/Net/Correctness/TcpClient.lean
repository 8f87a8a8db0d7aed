import Muduo.Net.Correctness.Connector
import Muduo.Net.TcpClient

/-!
# `Correctness.TcpClient` — when a client does one thing at a time

`connect()` does not look at what the connector is doing, `stop()` does not cancel the timer of a retry, a
connection that has closed leaves `state_` at `kConnected`, and `channel_` is only reset in the next turn of the
loop. `Ready` says when none of this matters, and `activities_le_one` that it is exactly then that a client
has at most one attempt, scheduled retry or connection.
-/

namespace Muduo.Net

open Lib

namespace Connector

variable {c c' : Connector} {e : ConnectErrno} {sockfd : Nat}

theorem retry_timers (c : Connector) (sockfd : Nat) :
    (c.retry sockfd).timers = c.timers + if c.wanted = true then 1 else 0 := by
  unfold retry
  dsimp only
  split
  · next hw =>
      have hw : c.wanted = true := hw
      rw [if_pos hw]
      rfl
  · next hw =>
      have hw : ¬ c.wanted = true := hw
      rw [if_neg hw]
      rfl

/-- `startInLoop` adds an attempt or a timer, unless it is not to connect or the error is final. -/
theorem startInLoop_adds (h : c.startInLoop e = .ok c') : c.state = .kDisconnected ∧ c'.resets = c.resets ∧
    (c'.state = .kDisconnected ∧
        c'.timers = c.timers + (if c.wanted = true ∧ e.case ≠ .fail then 1 else 0) ∨
      c'.state = .kConnecting ∧ c'.timers = c.timers ∧ c.wanted = true ∧ e.case = .connecting) := by
  obtain ⟨hs, hcases⟩ := startInLoop_cases h
  refine ⟨hs, ?_⟩
  rcases hcases with ⟨hw, rfl⟩ | ⟨hw, ⟨he, -, rfl⟩ | ⟨he, rfl⟩ | ⟨he, rfl⟩⟩
  · exact ⟨rfl, Or.inl ⟨hs, by simp [hw]⟩⟩
  · exact ⟨rfl, Or.inr ⟨rfl, rfl, hw, he⟩⟩
  · obtain ⟨-, -, -, -, hresets⟩ := retry_frame c.opened c.created
    refine ⟨hresets, Or.inl ⟨retry_state, ?_⟩⟩
    have hw' : c.opened.wanted = true := hw
    rw [retry_timers, if_pos hw', if_pos ⟨hw, by simp [he]⟩]
    rfl
  · refine ⟨rfl, Or.inl ⟨hs, ?_⟩⟩
    rw [if_neg (fun hnot => hnot.2 he)]
    rfl

end Connector

namespace TcpClient

open Connector

variable {t t' : TcpClient} {c : Connector} {e : ConnectErrno} {d : Connector.Dispatch}

/-- The attempt in progress, the scheduled retries and the established connection. -/
def activities (t : TcpClient) : Nat :=
  (if t.connector.state = .kConnecting then 1 else 0) + t.connector.timers +
    if t.connection.isSome = true then 1 else 0

/-- The client between two steps. -/
structure Exclusive (t : TcpClient) : Prop where
  sound : Sound t.connector
  timers : t.connector.timers ≤ if t.connector.state = .kDisconnected then 1 else 0
  connection : t.connection.isSome = true → t.connector.state = .kConnected

theorem Exclusive.activities_le (h : Exclusive t) : t.activities ≤ 1 := by
  have htimers := h.timers
  unfold activities
  cases hs : t.connector.state with
  | kDisconnected =>
      have hnone : ¬ t.connection.isSome = true := by
        intro hsome
        rw [h.connection hsome] at hs
        cases hs
      simpa [hs, hnone] using htimers
  | kConnecting =>
      have hnone : ¬ t.connection.isSome = true := by
        intro hsome
        rw [h.connection hsome] at hs
        cases hs
      simpa [hs, hnone] using htimers
  | kConnected =>
      have hzero : t.connector.timers = 0 := by simpa [hs] using htimers
      rw [hzero]
      simp only [reduceCtorEq, if_false]
      split <;> omega

theorem Exclusive.no_connection (h : Exclusive t) (hs : t.connector.state ≠ .kConnected) : t.connection = none := by
  cases hconn : t.connection with
  | none => rfl
  | some conn => exact absurd (h.connection (by rw [hconn]; rfl)) hs

theorem Exclusive.new : Exclusive new where
  sound := Sound.new
  timers := Nat.zero_le _
  connection := by rintro ⟨⟩

/-! ## The operations -/

/-- After `startInLoop`, if there was no timer or none is added. -/
theorem Exclusive.started (hsound : Sound c) (hconn : t'.connection = none)
    (h : c.startInLoop e = .ok t'.connector)
    (htimers : c.timers + (if c.wanted = true ∧ e.case ≠ .fail then 1 else 0) ≤ 1) : Exclusive t' where
  sound := (hsound.startInLoop h).sound
  timers := by
    obtain ⟨-, -, ⟨hs, ht⟩ | ⟨hs, ht, hw, he⟩⟩ := startInLoop_adds h
    · rw [if_pos hs, ht]
      exact htimers
    · rw [if_pos ⟨hw, by simp [he]⟩] at htimers
      rw [hs, ht]
      simp only [reduceCtorEq, if_false]
      omega
  connection := by
    rw [hconn]
    rintro ⟨⟩

/-- While an attempt is in progress there is nothing else. -/
theorem Exclusive.connecting (h : Exclusive t) (hs : t.connector.state = .kConnecting) :
    t.connector.timers = 0 ∧ t.connection = none := by
  have htimers := h.timers
  rw [hs] at htimers
  exact ⟨Nat.le_zero.mp htimers, h.no_connection (by simp [hs])⟩

/-- The attempt in progress ends in a retry, or in nothing. -/
theorem Exclusive.retried {sockfd : Nat} (hsound : Sound (c.detached.retry sockfd)) (hzero : c.timers = 0)
    (hc : t'.connector = c.detached.retry sockfd) (hconn : t'.connection = none) : Exclusive t' where
  sound := by rwa [hc]
  timers := by
    rw [hc, retry_timers, retry_state]
    have hzero : c.detached.timers = 0 := hzero
    rw [hzero]
    split <;> simp
  connection := by
    rw [hconn]
    rintro ⟨⟩

theorem handleEvent_cases (h : t.handleEvent d = .ok t') :
    t' = t ∨ ∃ sockfd c', t.connector.state = .kConnecting ∧ t.connector.channel.map (·.fd) = some sockfd ∧
      Finished t.connector sockfd c' ∧ t'.connector = c' ∧
      (t'.connection = t.connection ∨ c'.state = .kConnected) := by
  obtain ⟨c', hc, ht'⟩ := bind_eq_ok.mp h
  obtain rfl := Except.ok.inj ht'
  rcases Connector.handleEvent_cases hc with rfl | ⟨sockfd, hs, hfd, hfin⟩
  · left
    rw [List.drop_length]
    rfl
  · right
    refine ⟨sockfd, c', hs, hfd, hfin, ?_⟩
    rcases hfin with rfl | ⟨-, rfl⟩ | ⟨-, rfl⟩
    · obtain ⟨-, hhanded, -⟩ := retry_frame t.connector.detached sockfd
      have hsame : (t.connector.detached.retry sockfd).handed = t.connector.handed := hhanded
      rw [hsame, List.drop_length]
      exact ⟨rfl, Or.inl rfl⟩
    · have hnew : ((t.connector.detached.setState .kConnected).newConnectionCallback sockfd).handed =
          t.connector.handed ++ [sockfd] := rfl
      rw [hnew, List.drop_left]
      exact ⟨rfl, Or.inr rfl⟩
    · have hsame : ((t.connector.detached.setState .kConnected).close sockfd).handed = t.connector.handed := rfl
      rw [hsame, List.drop_length]
      exact ⟨rfl, Or.inr rfl⟩

theorem Exclusive.handleEvent (h : Exclusive t) (ht : t.handleEvent d = .ok t') : Exclusive t' := by
  rcases handleEvent_cases ht with rfl | ⟨sockfd, c', hs, hfd, hfin, hc, hconn⟩
  · exact h
  · obtain ⟨hzero, hnone⟩ := h.connecting hs
    have hsound := (h.sound.finished hs hfd hfin).sound
    rcases hfin with rfl | hfin
    · have hstate : (t.connector.detached.retry sockfd).state ≠ .kConnected := by
        rw [retry_state]
        decide
      exact Exclusive.retried hsound hzero hc ((hconn.resolve_right hstate).trans hnone)
    · have hboth : c'.state = .kConnected ∧ c'.timers = 0 := by
        rcases hfin with ⟨-, rfl⟩ | ⟨-, rfl⟩
        · exact ⟨rfl, hzero⟩
        · exact ⟨rfl, hzero⟩
      refine ⟨hc ▸ hsound, ?_, fun _ => hc ▸ hboth.1⟩
      rw [hc, hboth.2]
      exact Nat.zero_le _

/-- `stop()` ends the attempt in progress, and leaves a scheduled retry and a connection alone. -/
theorem Exclusive.stop (h : Exclusive t) (ht : t.stop = .ok t') : Exclusive t' ∧
    (t.connector.state ≠ .kConnecting ∧ t' = { t with wanted := false, connector := { t.connector with wanted := false } } ∨
      t.connector.state = .kConnecting ∧ t'.connection = none ∧ t'.connector.resets = t.connector.resets + 1) := by
  obtain ⟨c', hc, ht'⟩ := bind_eq_ok.mp ht
  obtain rfl := Except.ok.inj ht'
  have hsound := (h.sound.stop hc).sound
  rcases stopInLoop_cases hc with ⟨hs, rfl⟩ | ⟨sockfd, hs, hfd, rfl⟩
  · exact ⟨⟨hsound, h.timers, h.connection⟩, Or.inl ⟨hs, rfl⟩⟩
  · obtain ⟨hzero, hnone⟩ := h.connecting hs
    refine ⟨Exclusive.retried hsound hzero rfl hnone, Or.inr ⟨hs, hnone, ?_⟩⟩
    obtain ⟨-, -, -, -, hresets⟩ := retry_frame ({ t.connector with wanted := false } : Connector).detached sockfd
    exact hresets

end TcpClient

namespace ClientLoop

open Connector TcpClient

variable {s s' : ClientLoop} {a : ClientAction} {t' : TcpClient} {e : ConnectErrno}

/-! ## The condition -/

/-- The action calls `startInLoop`. -/
def starts : ClientAction → Bool
  | .connect _ | .handleTimer _ | .closeConnection _ => true
  | _ => false

/-- The action fails no assertion of `startInLoop` or `connecting`, and leaves at most one activity. -/
def Clean (s : ClientLoop) (a : ClientAction) : Prop :=
  (starts a = true → ∃ s', s.exec a = .ok s') ∧ ∀ s', s.exec a = .ok s' → s'.client.activities ≤ 1

/-- `connect()` is called when the connector is idle: no attempt, no connection, no timer, and, if there is to be
    a new channel, not the old one any more. A timer must not come before `resetChannel` either. -/
def Ready (s : ClientLoop) : ClientAction → Prop
  | .connect e =>
      s.client.connector.state = .kDisconnected ∧
      (e.case = .connecting → s.client.connector.channel = none) ∧
      (e.case ≠ .fail → s.client.connector.timers = 0)
  | .handleTimer e =>
      s.client.connector.wanted = true → e.case = .connecting → s.client.connector.channel = none
  | _ => True

/-! ## The invariant -/

/-- `batch` counts functors that are queued; a connection that can close has outlived the channel. -/
structure Inv (s : ClientLoop) : Prop where
  client : Exclusive s.client
  batch : s.batch ≤ s.client.connector.resets
  handling : s.phase = .handling → s.batch = 0
  running : s.phase = .running → s.client.connection.isSome = true → s.client.connector.resets = s.batch
  polled : s.polled = true → s.client.connection.isSome = true ∧ s.client.connector.channel = none

theorem Inv.not_polled (h : s.Inv) (hs : s.client.connector.state ≠ .kConnected) : s.polled = false := by
  by_contra hpolled
  exact hs (h.client.connection (h.polled (by simpa using hpolled)).1)

/-- A step after which there is no connection. -/
theorem Inv.without (h : s.Inv) (hx : Exclusive t') (hconn : t'.connection = none)
    (hresets : s.client.connector.resets ≤ t'.connector.resets) :
    Inv { s with client := t', polled := false } where
  client := hx
  batch := h.batch.trans hresets
  handling := h.handling
  running _ hsome := by
    rw [hconn] at hsome
    cases hsome
  polled := by rintro ⟨⟩

/-- A step that handles an event, when no connection was polled. -/
theorem Inv.handled (h : s.Inv) (hphase : s.phase = .handling) (hpolled : s.polled = false) (hx : Exclusive t') :
    Inv { s with client := t' } where
  client := hx
  batch := by
    have hzero := h.handling hphase
    show s.batch ≤ _
    omega
  handling := h.handling
  running hrunning := by
    rw [show s.phase = .running from hrunning] at hphase
    cases hphase
  polled hp := by
    rw [show s.polled = true from hp] at hpolled
    cases hpolled

theorem unpolled (h : s.polled = false) (t : TcpClient) :
    { s with client := t, polled := false } = { s with client := t } := by
  rw [← h]

theorem Inv.connect (h : s.Inv) (hr : s.Ready (.connect e)) (hs' : s.exec (.connect e) = .ok s') : s'.Inv := by
  obtain ⟨hs, -, htimers⟩ := hr
  obtain ⟨t', ht', hset⟩ := bind_eq_ok.mp hs'
  obtain rfl := Except.ok.inj hset
  obtain ⟨c', hc, hset'⟩ := bind_eq_ok.mp ht'
  obtain rfl := Except.ok.inj hset'
  have hne : s.client.connector.state ≠ .kConnected := by simp [hs]
  have hnone := h.client.no_connection hne
  have hx : Exclusive { s.client with wanted := true, connector := c' } := by
    refine Exclusive.started (h.client.sound.update true s.client.connector.timers _) hnone hc ?_
    have hle := h.client.timers
    rw [if_pos hs] at hle
    by_cases he : e.case = .fail
    · simpa [he] using hle
    · simp [he, htimers he]
  rw [← unpolled (h.not_polled hne)]
  exact h.without hx hnone (startInLoop_adds hc).2.1.ge

theorem Inv.handleTimer (h : s.Inv) (ha : s.enabled (.handleTimer e)) (hs' : s.exec (.handleTimer e) = .ok s') :
    s'.Inv := by
  obtain ⟨hphase, hpos⟩ := ha
  obtain ⟨t', ht', hset⟩ := bind_eq_ok.mp hs'
  obtain rfl := Except.ok.inj hset
  obtain ⟨c', hc, hset'⟩ := bind_eq_ok.mp ht'
  obtain rfl := Except.ok.inj hset'
  have hs : s.client.connector.state = .kDisconnected := (startInLoop_adds hc).1
  have hne : s.client.connector.state ≠ .kConnected := by simp [hs]
  have hle := h.client.timers
  rw [if_pos hs] at hle
  refine h.handled hphase (h.not_polled hne) ?_
  refine Exclusive.started (h.client.sound.update s.client.connector.wanted (s.client.connector.timers - 1) _)
    (h.client.no_connection hne) hc ?_
  dsimp only
  split <;> omega

theorem Inv.stop (h : s.Inv) (hs' : s.exec .stop = .ok s') : s'.Inv := by
  obtain ⟨t', ht', hset⟩ := bind_eq_ok.mp hs'
  obtain rfl := Except.ok.inj hset
  obtain ⟨hx, ⟨-, rfl⟩ | ⟨hs, hconn, hresets⟩⟩ := h.client.stop ht'
  · exact ⟨hx, h.batch, h.handling, h.running, h.polled⟩
  · rw [← unpolled (h.not_polled (by simp [hs]))]
    exact h.without hx hconn (by rw [hresets]; exact Nat.le_succ _)

theorem Inv.handleEvent {d : Connector.Dispatch} (h : s.Inv) (ha : s.enabled (.handleEvent d))
    (hs' : s.exec (.handleEvent d) = .ok s') : s'.Inv := by
  obtain ⟨hphase, hsome⟩ := ha
  obtain ⟨t', ht', hset⟩ := bind_eq_ok.mp hs'
  obtain rfl := Except.ok.inj hset
  refine h.handled hphase ?_ (h.client.handleEvent ht')
  -- the channel is still there, so the connection, if there is one, is new
  by_contra hpolled
  rw [(h.polled (by simpa using hpolled)).2] at hsome
  cases hsome

theorem Inv.poll (h : s.Inv) (ha : s.enabled .poll) :
    Inv { s with phase := .handling, polled := s.client.connection.isSome } where
  client := h.client
  batch := h.batch
  handling _ := ha.2
  running := by rintro ⟨⟩
  polled hsome := by
    refine ⟨hsome, ?_⟩
    have hresets := h.client.sound.resets (by simp [h.client.connection hsome])
    rw [h.running ha.1 hsome, ha.2] at hresets
    by_contra hch
    rw [if_pos (Option.isSome_iff_ne_none.mpr hch)] at hresets
    cases hresets

theorem Inv.resetChannel (h : s.Inv) (ha : s.enabled .resetChannel) :
    Inv { s with client := s.client.resetChannel, batch := s.batch - 1 } where
  client :=
    have hpos := lt_of_lt_of_le ha.2 h.batch
    ⟨(h.client.sound.resetChannel hpos).sound, h.client.timers, h.client.connection⟩
  batch := Nat.sub_le_sub_right h.batch 1
  handling hphase := by
    have hrunning := ha.1
    rw [show s.phase = .handling from hphase] at hrunning
    cases hrunning
  running hphase hsome := congrArg (· - 1) (h.running hphase hsome)
  polled hp := ⟨(h.polled hp).1, rfl⟩

/-- **A close is harmless**: the channel of the attempt is gone by then, and `restart` puts the state back. -/
theorem Inv.closeConnection (h : s.Inv) (ha : s.enabled (.closeConnection e)) :
    ∃ s', s.exec (.closeConnection e) = .ok s' ∧ s'.Inv := by
  obtain ⟨hsome, hch⟩ := h.polled ha.2
  obtain ⟨conn, hconn⟩ := Option.isSome_iff_exists.mp hsome
  have hs := h.client.connection hsome
  have hzero : s.client.connector.timers = 0 := by
    have hle := h.client.timers
    rw [hs] at hle
    exact Nat.le_zero.mp hle
  suffices hremove : ∃ t', s.client.removeConnection conn e = .ok t' ∧ Exclusive t' ∧ t'.connection = none ∧
      s.client.connector.resets ≤ t'.connector.resets by
    obtain ⟨t', ht', hx, hnone, hresets⟩ := hremove
    refine ⟨{ s with client := t', polled := false }, ?_, h.without hx hnone hresets⟩
    unfold exec
    rw [hconn]
    exact bind_eq_ok.mpr ⟨t', ht', rfl⟩
  unfold removeConnection
  rw [assert_pos hconn, ok_bind]
  dsimp only
  by_cases hretry : (s.client.retry && s.client.wanted) = true
  · rw [if_pos hretry]
    have hreturns : ∃ c', s.client.connector.restart e = .ok c' :=
      startInLoop_returns.mpr ⟨rfl, fun _ _ => hch⟩
    obtain ⟨c', hc⟩ := hreturns
    rw [hc, ok_bind]
    refine ⟨_, rfl, ?_, rfl, (startInLoop_adds hc).2.1.ge⟩
    refine Exclusive.started
      ((h.client.sound.rearm (by simp [hs])).update true s.client.connector.timers kInitRetryDelayMs) rfl hc ?_
    dsimp only
    rw [hzero]
    split <;> omega
  · rw [if_neg hretry]
    refine ⟨_, rfl, ⟨h.client.sound, h.client.timers, ?_⟩, rfl, le_rfl⟩
    rintro ⟨⟩

/-! ## Every run -/

theorem Inv.init : Inv ⟨TcpClient.new, .running, 0, false⟩ where
  client := Exclusive.new
  batch := Nat.zero_le _
  handling _ := rfl
  running _ := by rintro ⟨⟩
  polled := by rintro ⟨⟩

theorem Inv.exec (h : s.Inv) (ha : s.enabled a) (hr : s.Ready a) (hs' : s.exec a = .ok s') : s'.Inv := by
  cases a with
  | connect e => exact h.connect hr hs'
  | disconnect =>
      obtain rfl := Except.ok.inj hs'
      exact ⟨⟨h.client.sound, h.client.timers, h.client.connection⟩, h.batch, h.handling, h.running, h.polled⟩
  | stop => exact h.stop hs'
  | enableRetry =>
      obtain rfl := Except.ok.inj hs'
      exact ⟨⟨h.client.sound, h.client.timers, h.client.connection⟩, h.batch, h.handling, h.running, h.polled⟩
  | poll =>
      obtain rfl := Except.ok.inj hs'
      exact h.poll ha
  | handleEvent d => exact h.handleEvent ha hs'
  | handleTimer e => exact h.handleTimer ha hs'
  | closeConnection e =>
      obtain ⟨s'', hs'', hinv⟩ := h.closeConnection ha
      obtain rfl := Except.ok.inj (hs''.symm.trans hs')
      exact hinv
  | doPendingFunctors =>
      obtain rfl := Except.ok.inj hs'
      exact ⟨h.client, le_rfl, by rintro ⟨⟩, fun _ _ => rfl, h.polled⟩
  | resetChannel =>
      obtain rfl := Except.ok.inj hs'
      exact h.resetChannel ha

theorem connect_returns : (∃ s', s.exec (.connect e) = .ok s') ↔ s.client.connector.state = .kDisconnected ∧
    (e.case = .connecting → s.client.connector.channel = none) := by
  constructor
  · rintro ⟨s', hs'⟩
    obtain ⟨t', ht', -⟩ := bind_eq_ok.mp hs'
    obtain ⟨c', hc, -⟩ := bind_eq_ok.mp ht'
    obtain ⟨hs, hch⟩ := startInLoop_returns.mp ⟨c', hc⟩
    exact ⟨hs, hch rfl⟩
  · rintro ⟨hs, hch⟩
    have hreturns : ∃ c', s.client.connector.start e = .ok c' := startInLoop_returns.mpr ⟨hs, fun _ => hch⟩
    obtain ⟨c', hc⟩ := hreturns
    exact ⟨_, bind_eq_ok.mpr ⟨_, bind_eq_ok.mpr ⟨c', hc, rfl⟩, rfl⟩⟩

theorem handleTimer_returns : (∃ s', s.exec (.handleTimer e) = .ok s') ↔
    s.client.connector.state = .kDisconnected ∧ s.Ready (.handleTimer e) := by
  constructor
  · rintro ⟨s', hs'⟩
    obtain ⟨t', ht', -⟩ := bind_eq_ok.mp hs'
    obtain ⟨c', hc, -⟩ := bind_eq_ok.mp ht'
    have hreturns := startInLoop_returns.mp ⟨c', by exact hc⟩
    exact hreturns
  · intro hready
    have hreturns : ∃ c', s.client.connector.handleTimer e = .ok c' := startInLoop_returns.mpr hready
    obtain ⟨c', hc⟩ := hreturns
    exact ⟨_, bind_eq_ok.mpr ⟨_, bind_eq_ok.mpr ⟨c', hc, rfl⟩, rfl⟩⟩

/-- A `connect()` that leaves one activity has found none. -/
theorem connect_timers (hs' : s.exec (.connect e) = .ok s') (hone : s'.client.activities ≤ 1)
    (he : e.case ≠ .fail) : s.client.connector.timers = 0 := by
  obtain ⟨t', ht', hset⟩ := bind_eq_ok.mp hs'
  obtain rfl := Except.ok.inj hset
  obtain ⟨c', hc, hset'⟩ := bind_eq_ok.mp ht'
  obtain rfl := Except.ok.inj hset'
  have hsum : (if c'.state = .kConnecting then 1 else 0) + c'.timers ≤ 1 := le_trans (Nat.le_add_right _ _) hone
  obtain ⟨-, -, ⟨hs, ht⟩ | ⟨hs, ht, -, -⟩⟩ := startInLoop_adds hc
  · rw [if_pos ⟨rfl, he⟩] at ht
    dsimp only at ht
    omega
  · rw [if_pos hs] at hsum
    dsimp only at ht
    omega

/-- In a state where all is well, an action is clean exactly when it is ready. -/
theorem Inv.clean_iff (h : s.Inv) (ha : s.enabled a) : s.Clean a ↔ s.Ready a := by
  constructor
  · rintro ⟨hreturns, hone⟩
    cases a with
    | connect e =>
        obtain ⟨s', hs'⟩ := hreturns rfl
        obtain ⟨hs, hch⟩ := connect_returns.mp ⟨s', hs'⟩
        exact ⟨hs, hch, connect_timers hs' (hone s' hs')⟩
    | handleTimer e => exact (handleTimer_returns.mp (hreturns rfl)).2
    | _ => trivial
  · intro hr
    refine ⟨?_, fun s' hs' => (h.exec ha hr hs').client.activities_le⟩
    intro hstarts
    cases a with
    | connect e => exact connect_returns.mpr ⟨hr.1, hr.2.1⟩
    | handleTimer e =>
        refine handleTimer_returns.mpr ⟨?_, hr⟩
        have hle := h.client.timers
        have hpos : 0 < s.client.connector.timers := ha.2
        by_contra hs
        rw [if_neg hs] at hle
        omega
    | closeConnection e =>
        obtain ⟨s', hs', -⟩ := h.closeConnection ha
        exact ⟨s', hs'⟩
    | _ => cases hstarts

/-- **One thing at a time, exactly while the client is used with care.** In every run whose `connect()` calls and
    timers are `Ready`, there is at most one of an attempt, a scheduled retry and a connection, and the next
    action keeps this, and the assertions of `startInLoop` and `connecting`, exactly when it is `Ready` too. -/
theorem activities_le_one (h : (clientSystem.when Ready).Reachable s) :
    s.client.activities ≤ 1 ∧ ∀ a, s.enabled a → (s.Clean a ↔ s.Ready a) := by
  have hinv : s.Inv := by
    refine System.keeps (S := clientSystem.when Ready) ?_ ?_ h
    · rintro s rfl
      exact Inv.init
    · exact fun _ _ _ hs ha hs' => hs.exec ha.1 ha.2 hs'
  exact ⟨hinv.client.activities_le, fun a ha => hinv.clean_iff ha⟩

/-- The state before the first call. -/
def fresh : ClientLoop := ⟨TcpClient.new, .running, 0, false⟩

/-- `connect()` is refused, and a retry is scheduled. -/
def refused : ClientLoop :=
  { fresh with client.connector := ({ Connector.new with wanted := true } : Connector).opened.retry 0 }

/-- A refused client: waiting for the timer is fine, a second `connect()` that is in progress is not. -/
theorem activities_le_one_refused : (clientSystem.when Ready).Reachable refused ∧ refused.client.activities ≤ 1 ∧
    ¬ refused.Clean (.connect .EINPROGRESS) := by
  have hreach : (clientSystem.when Ready).Reachable refused := by
    refine System.Reachable.next (.init (s := fresh) rfl) (.connect .ECONNREFUSED) ⟨trivial, rfl, ?_, ?_⟩ rfl
    · rintro ⟨⟩
    · exact fun _ => rfl
  obtain ⟨hone, hclean⟩ := activities_le_one hreach
  refine ⟨hreach, hone, ?_⟩
  rw [hclean (.connect .EINPROGRESS) trivial]
  rintro ⟨-, -, htimers⟩
  exact absurd (htimers (by decide)) (by decide)

/-- **A second `connect()` while a retry is scheduled.** The first is refused; the second is in progress when the
    timer of the first fires, and `startInLoop` finds `kConnecting`. -/
theorem two_attempts : ∃ s₁ s₂ : ClientLoop, clientSystem.Reachable s₁ ∧ s₁.client.activities = 2 ∧
    clientSystem.Reachable s₂ ∧ s₂.enabled (.handleTimer .EINPROGRESS) ∧
    s₂.exec (.handleTimer .EINPROGRESS) = .error .assertion := by
  let s₁ : ClientLoop := { refused with client.connector := refused.client.connector.attempting }
  let s₂ : ClientLoop := { s₁ with phase := .handling }
  have h₁ : clientSystem.Reachable s₁ := by
    refine System.Reachable.next (s := refused) ?_ (.connect .EINPROGRESS) trivial rfl
    exact System.Reachable.next (.init (s := fresh) rfl) (.connect .ECONNREFUSED) trivial rfl
  have h₂ : clientSystem.Reachable s₂ := h₁.next .poll ⟨rfl, rfl⟩ rfl
  exact ⟨s₁, s₂, h₁, rfl, h₂, ⟨rfl, Nat.one_pos⟩, rfl⟩

end ClientLoop

end Muduo.Net
