import Muduo.Net.Connector

/-!
# `Correctness.Connector` — every connecting socket is disposed of once

First what each function of the connector can do, as a disjunction of the states it can return (`*_cases`);
everything about runs is derived from these. Then the books: `Disposed c o` says that all sockets but `o` were
closed or handed out, once. Between two steps `o` is the socket of the attempt in progress, which is the
channel's while `state_` is `kConnecting` (`Sound`).
-/

namespace Muduo.Net

open Lib

namespace Connector

variable {c c' : Connector} {e : ConnectErrno} {d : Dispatch} {sockfd : Nat} {o : Option Nat}

/-! ## What the functions can do -/

/-- The connector when `createNonblockingOrDie` has returned. -/
def opened (c : Connector) : Connector := { c with created := c.created + 1 }

/-- The connector when `connecting` has returned, for the socket that was opened last. -/
def attempting (c : Connector) : Connector :=
  { c.opened with state := .kConnecting, channel := some ⟨c.created, Channel.new.enableWriting⟩ }

/-- The connector when `removeAndResetChannel` has returned. -/
def detached (c : Connector) : Connector :=
  { c with
    channel := c.channel.map fun ch => { ch with channel := ch.channel.disableAll }
    resets := c.resets + 1 }

@[simp] theorem retry_state : (c.retry sockfd).state = .kDisconnected := by
  unfold retry
  dsimp only
  split <;> rfl

theorem connecting_none (h : c.channel = none) : c.connecting sockfd =
    .ok { c with state := .kConnecting, channel := some ⟨sockfd, Channel.new.enableWriting⟩ } := by
  have hnone : (c.setState .kConnecting).channel = none := h
  unfold connecting
  dsimp only
  rw [assert_pos hnone]
  rfl

theorem removeAndResetChannel_some {ch : ConnectorChannel} (h : c.channel = some ch) :
    c.removeAndResetChannel = .ok (ch.fd, c.detached) := by
  unfold removeAndResetChannel detached
  rw [h]
  simp only [Channel.remove, assert_pos Channel.isNoneEvent_disableAll, ok_bind, Option.map_some]

theorem removeAndResetChannel_cases (h : c.removeAndResetChannel = .ok (sockfd, c')) :
    c.channel.map (·.fd) = some sockfd ∧ c' = c.detached := by
  cases hch : c.channel with
  | none =>
      unfold removeAndResetChannel at h
      rw [hch] at h
      cases h
  | some ch =>
      rw [removeAndResetChannel_some hch] at h
      cases h
      exact ⟨rfl, rfl⟩

/-- `startInLoop` returns exactly when neither its assertion nor that of `connecting` fails. -/
theorem startInLoop_returns : (∃ c', c.startInLoop e = .ok c') ↔
    c.state = .kDisconnected ∧ (c.wanted = true → e.case = .connecting → c.channel = none) := by
  unfold startInLoop connect dial connecting
  by_cases hs : c.state = .kDisconnected
  · rw [assert_pos hs]
    by_cases hw : c.wanted = true
    · cases he : e.case <;> by_cases hch : c.channel = none <;>
        simp [hs, hw, hch, setState, assert, Bind.bind, Except.bind]
    · simp [hs, hw]
  · rw [assert_neg hs]
    simp [hs, Bind.bind, Except.bind]

/-- **What `startInLoop` can do**: nothing, start an attempt, set a timer, or give up. -/
theorem startInLoop_cases (h : c.startInLoop e = .ok c') : c.state = .kDisconnected ∧
    (c.wanted = false ∧ c' = c ∨ c.wanted = true ∧
      (e.case = .connecting ∧ c.channel = none ∧ c' = c.attempting ∨
       e.case = .retry ∧ c' = c.opened.retry c.created ∨
       e.case = .fail ∧ c' = c.opened.close c.created)) := by
  obtain ⟨hs, hch⟩ := startInLoop_returns.mp ⟨c', h⟩
  refine ⟨hs, ?_⟩
  unfold startInLoop at h
  rw [assert_pos hs, ok_bind] at h
  by_cases hw : c.wanted = true
  · right
    refine ⟨hw, ?_⟩
    rw [if_pos hw] at h
    unfold connect dial at h
    cases he : e.case with
    | connecting =>
        have hnone := hch hw he
        simp only [he] at h
        rw [connecting_none (by exact hnone)] at h
        exact Or.inl ⟨rfl, hnone, (Except.ok.inj h).symm⟩
    | retry =>
        simp only [he, ok_bind] at h
        exact Or.inr (Or.inl ⟨rfl, (Except.ok.inj h).symm⟩)
    | fail =>
        simp only [he, ok_bind] at h
        exact Or.inr (Or.inr ⟨rfl, (Except.ok.inj h).symm⟩)
  · left
    rw [if_neg hw] at h
    exact ⟨by simpa using hw, (Except.ok.inj h).symm⟩

/-- `stopInLoop` gives up the attempt in progress, if there is one. -/
theorem stopInLoop_cases (h : c.stopInLoop = .ok c') :
    c.state ≠ .kConnecting ∧ c' = c ∨
    ∃ sockfd, c.state = .kConnecting ∧ c.channel.map (·.fd) = some sockfd ∧ c' = c.detached.retry sockfd := by
  unfold stopInLoop at h
  by_cases hs : c.state = .kConnecting
  · rw [if_pos hs] at h
    obtain ⟨⟨sockfd, c₁⟩, hr, h⟩ := bind_eq_ok.mp h
    obtain ⟨hfd, rfl⟩ := removeAndResetChannel_cases hr
    -- `retry` sets the state once more
    exact Or.inr ⟨sockfd, hs, hfd, (Except.ok.inj h).symm⟩
  · rw [if_neg hs] at h
    exact Or.inl ⟨hs, (Except.ok.inj h).symm⟩

theorem handleError_cases (h : c.handleError = .ok c') :
    ∃ sockfd, c.state = .kConnecting ∧ c.channel.map (·.fd) = some sockfd ∧ c' = c.detached.retry sockfd := by
  unfold handleError at h
  obtain ⟨_, hs, h⟩ := bind_eq_ok.mp h
  obtain ⟨⟨sockfd, c₁⟩, hr, h⟩ := bind_eq_ok.mp h
  obtain ⟨hfd, rfl⟩ := removeAndResetChannel_cases hr
  exact ⟨sockfd, of_assert hs, hfd, (Except.ok.inj h).symm⟩

/-- The three ways in which an attempt on `sockfd` ends when the channel is dispatched. -/
def Finished (c : Connector) (sockfd : Nat) (c' : Connector) : Prop :=
  c' = c.detached.retry sockfd ∨
  c.wanted = true ∧ c' = (c.detached.setState .kConnected).newConnectionCallback sockfd ∨
  c.wanted = false ∧ c' = (c.detached.setState .kConnected).close sockfd

theorem handleWrite_cases {err : Nat} {self : Bool} (h : c.handleWrite err self = .ok c') :
    c.state = .kDisconnected ∧ c' = c ∨
    ∃ sockfd, c.state = .kConnecting ∧ c.channel.map (·.fd) = some sockfd ∧ Finished c sockfd c' := by
  unfold handleWrite at h
  by_cases hs : c.state = .kConnecting
  · rw [if_pos hs] at h
    obtain ⟨⟨sockfd, c₁⟩, hr, h⟩ := bind_eq_ok.mp h
    obtain ⟨hfd, rfl⟩ := removeAndResetChannel_cases hr
    refine Or.inr ⟨sockfd, hs, hfd, ?_⟩
    dsimp only at h
    by_cases herr : err ≠ 0
    · rw [if_pos herr] at h
      exact Or.inl (Except.ok.inj h).symm
    · rw [if_neg herr] at h
      cases self with
      | true => exact Or.inl (Except.ok.inj h).symm
      | false =>
          replace h := (Except.ok.inj h).symm
          cases hw : c.wanted with
          | true => exact Or.inr (Or.inl ⟨hw, by simpa [setState, detached, hw] using h⟩)
          | false => exact Or.inr (Or.inr ⟨hw, by simpa [setState, detached, hw] using h⟩)
  · rw [if_neg hs] at h
    obtain ⟨_, hd, h⟩ := bind_eq_ok.mp h
    exact Or.inl ⟨of_assert hd, (Except.ok.inj h).symm⟩

/-- The close and the read callback of the channel are empty. -/
theorem handleEvent_eq : c.handleEvent d = (do
    let c ← Channel.whenever (d.revents.has (POLLERR ||| POLLNVAL)) handleError c
    Channel.whenever (d.revents.has POLLOUT) (fun c => c.handleWrite d.err d.self) c) := by
  have hempty : ∀ (b : Bool) (c : Connector), Channel.whenever b Except.ok c = .ok c := by
    intro b c
    cases b <;> rfl
  unfold handleEvent Channel.handleEventWithGuard callbacks
  simp only [hempty, ok_bind]

/-- **One dispatch ends the attempt at most once**, also when both callbacks are called: after `handleError`
    the state is `kDisconnected`, and `handleWrite` does nothing. -/
theorem handleEvent_cases (h : c.handleEvent d = .ok c') :
    c' = c ∨
    ∃ sockfd, c.state = .kConnecting ∧ c.channel.map (·.fd) = some sockfd ∧ Finished c sockfd c' := by
  rw [handleEvent_eq] at h
  obtain ⟨c₁, herror, hwrite⟩ := bind_eq_ok.mp h
  have hone : c₁ = c ∨ ∃ sockfd, c.state = .kConnecting ∧ c.channel.map (·.fd) = some sockfd ∧
      c₁ = c.detached.retry sockfd := by
    unfold Channel.whenever at herror
    split at herror
    · exact Or.inr (handleError_cases herror)
    · exact Or.inl (Except.ok.inj herror).symm
  have htwo : c' = c₁ ∨ ∃ sockfd, c₁.state = .kConnecting ∧ c₁.channel.map (·.fd) = some sockfd ∧
      Finished c₁ sockfd c' := by
    unfold Channel.whenever at hwrite
    split at hwrite
    · exact (handleWrite_cases hwrite).imp_left And.right
    · exact Or.inl (Except.ok.inj hwrite).symm
  rcases hone with rfl | ⟨sockfd, hs, hfd, rfl⟩
  · exact htwo
  · rcases htwo with rfl | ⟨_, hs', _⟩
    · exact Or.inr ⟨sockfd, hs, hfd, Or.inl rfl⟩
    · rw [retry_state] at hs'
      cases hs'

/-! ## The books -/

/-- The socket of the attempt in progress. -/
def attempt (c : Connector) : Option Nat :=
  if c.state = .kConnecting then c.channel.map (·.fd) else none

/-- Every socket that was created was closed or handed out, once, except for `o`; no other socket was. -/
structure Disposed (c : Connector) (o : Option Nat) : Prop where
  count : ∀ fd, c.closed.count fd + c.handed.count fd = if fd < c.created ∧ o ≠ some fd then 1 else 0
  created : ∀ fd, o = some fd → fd < c.created

/-- The books only look at three fields. -/
theorem Disposed.congr (h : Disposed c o) (hclosed : c'.closed = c.closed) (hhanded : c'.handed = c.handed)
    (hcreated : c'.created = c.created) : Disposed c' o where
  count := by rw [hclosed, hhanded, hcreated]; exact h.count
  created := by rw [hcreated]; exact h.created

theorem Disposed.opened (h : Disposed c none) : Disposed c.opened (some c.created) where
  count := by
    intro fd
    have hcount := h.count fd
    simp only [ne_eq, reduceCtorEq, not_false_eq_true, and_true] at hcount
    show c.closed.count fd + c.handed.count fd = if fd < c.created + 1 ∧ some c.created ≠ some fd then 1 else 0
    rw [hcount]
    have hiff : fd < c.created + 1 ∧ some c.created ≠ some fd ↔ fd < c.created := by
      simp only [ne_eq, Option.some.injEq]
      omega
    simp only [hiff]
  created := by
    rintro fd ⟨⟩
    exact Nat.lt_succ_self _

/-- Disposing of the one socket that is left, in either way. -/
theorem Disposed.settle (h : Disposed c (some sockfd)) (hcreated : c'.created = c.created)
    (hcount : ∀ fd, c'.closed.count fd + c'.handed.count fd =
      c.closed.count fd + c.handed.count fd + if sockfd = fd then 1 else 0) : Disposed c' none where
  count := by
    intro fd
    rw [hcount fd, h.count fd, hcreated]
    have hlt := h.created sockfd rfl
    by_cases hfd : sockfd = fd
    · subst hfd
      simp [hlt]
    · simp [hfd]
  created := by
    rintro fd ⟨⟩

theorem Disposed.close (h : Disposed c (some sockfd)) : Disposed (c.close sockfd) none := by
  refine h.settle ?_ ?_
  · rfl
  intro fd
  simp only [Connector.close, List.count_append, List.count_singleton, beq_iff_eq]
  omega

theorem Disposed.newConnectionCallback (h : Disposed c (some sockfd)) :
    Disposed (c.newConnectionCallback sockfd) none := by
  refine h.settle ?_ ?_
  · rfl
  intro fd
  simp only [Connector.newConnectionCallback, List.count_append, List.count_singleton, beq_iff_eq]
  omega

/-- What `retry` leaves alone. -/
theorem retry_frame (c : Connector) (sockfd : Nat) : (c.retry sockfd).closed = (c.close sockfd).closed ∧
    (c.retry sockfd).handed = c.handed ∧ (c.retry sockfd).created = c.created ∧
    (c.retry sockfd).channel = c.channel ∧ (c.retry sockfd).resets = c.resets := by
  unfold retry
  dsimp only
  split <;> exact ⟨rfl, rfl, rfl, rfl, rfl⟩

theorem Disposed.retry (h : Disposed c (some sockfd)) : Disposed (c.retry sockfd) none := by
  obtain ⟨hclosed, hhanded, hcreated, -, -⟩ := retry_frame c sockfd
  exact h.close.congr hclosed hhanded hcreated

/-- The connector between two steps. -/
structure Sound (c : Connector) : Prop where
  disposed : Disposed c c.attempt
  connecting : c.state = .kConnecting → c.channel.isSome = true ∧ c.resets = 0
  resets : c.state ≠ .kConnecting → c.resets = if c.channel.isSome = true then 1 else 0

theorem attempt_of_ne (h : c.state ≠ .kConnecting) : c.attempt = none := if_neg h

theorem Sound.new : Sound new where
  disposed := ⟨fun _ => rfl, by rintro fd ⟨⟩⟩
  connecting := by rintro ⟨⟩
  resets _ := rfl

/-- `connect_`, the timers and the delay are not in it. -/
theorem Sound.update (h : Sound c) (wanted : Bool) (timers retryDelayMs : Nat) :
    Sound { c with wanted, timers, retryDelayMs } where
  disposed := h.disposed.congr rfl rfl rfl
  connecting := h.connecting
  resets := h.resets

/-- While no attempt is in progress all sockets are disposed of. -/
theorem Sound.idle (h : Sound c) (hs : c.state ≠ .kConnecting) : Disposed c none := by
  have hd := h.disposed
  rwa [attempt_of_ne hs] at hd

/-- One call: either nothing is handed out, and an established connection stays one; or the attempt in progress
    has succeeded. -/
structure Moved (c c' : Connector) : Prop where
  sound : Sound c'
  handed : c'.handed = c.handed ∧ (c.state = .kConnected → c'.state = .kConnected) ∨
    c.state = .kConnecting ∧ c'.state = .kConnected ∧ ∃ sockfd, c'.handed = c.handed ++ [sockfd]

theorem Sound.startInLoop (h : Sound c) (hc : c.startInLoop e = .ok c') : Moved c c' := by
  obtain ⟨hs, hcases⟩ := startInLoop_cases hc
  have hne : c.state ≠ .kConnecting := by simp [hs]
  have hout : c.state = .kConnected → c'.state = .kConnected := by
    rw [hs]
    rintro ⟨⟩
  have hdisposed := (h.idle hne).opened
  rcases hcases with ⟨-, rfl⟩ | ⟨-, ⟨-, hch, rfl⟩ | ⟨-, rfl⟩ | ⟨-, rfl⟩⟩
  · exact ⟨h, Or.inl ⟨rfl, hout⟩⟩
  · refine ⟨⟨hdisposed.congr rfl rfl rfl, ?_, ?_⟩, Or.inl ⟨rfl, hout⟩⟩
    · intro _
      have hresets := h.resets hne
      rw [hch] at hresets
      exact ⟨rfl, hresets⟩
    · intro hnot
      exact absurd rfl hnot
  · obtain ⟨hclosed, hhanded, hcreated, hch, hresets⟩ := retry_frame c.opened c.created
    refine ⟨⟨?_, ?_, ?_⟩, Or.inl ⟨hhanded, hout⟩⟩
    · rw [attempt_of_ne (by simp [retry_state])]
      exact hdisposed.retry
    · rw [retry_state]
      rintro ⟨⟩
    · intro _
      rw [hresets, hch]
      exact h.resets hne
  · refine ⟨⟨?_, ?_, ?_⟩, Or.inl ⟨rfl, hout⟩⟩
    · rw [attempt_of_ne (by exact hne)]
      exact hdisposed.close
    · intro hs'
      exact absurd hs' hne
    · exact h.resets

/-- The attempt in progress ends. -/
theorem Sound.finished (h : Sound c) (hs : c.state = .kConnecting) (hfd : c.channel.map (·.fd) = some sockfd)
    (hc : Finished c sockfd c') : Moved c c' := by
  have hout : c.state = .kConnected → c'.state = .kConnected := by
    rw [hs]
    rintro ⟨⟩
  have hdisposed : Disposed c.detached (some sockfd) := by
    have hd := h.disposed
    unfold attempt at hd
    rw [if_pos hs, hfd] at hd
    exact hd.congr rfl rfl rfl
  obtain ⟨hsome, hzero⟩ := h.connecting hs
  have hresets : c.detached.resets = if c.detached.channel.isSome = true then 1 else 0 := by
    unfold detached
    rw [hzero, Option.isSome_map, if_pos hsome]
  rcases hc with rfl | ⟨-, rfl⟩ | ⟨-, rfl⟩
  · obtain ⟨hclosed, hhanded, hcreated, hch, hresets'⟩ := retry_frame c.detached sockfd
    refine ⟨⟨?_, ?_, ?_⟩, Or.inl ⟨hhanded, hout⟩⟩
    · rw [attempt_of_ne (by simp [retry_state])]
      exact hdisposed.retry
    · rw [retry_state]
      rintro ⟨⟩
    · intro _
      rw [hresets', hch]
      exact hresets
  · refine ⟨⟨?_, by rintro ⟨⟩, fun _ => hresets⟩, Or.inr ⟨hs, rfl, sockfd, rfl⟩⟩
    exact (hdisposed.congr rfl rfl rfl : Disposed (c.detached.setState .kConnected) _).newConnectionCallback
  · refine ⟨⟨?_, by rintro ⟨⟩, fun _ => hresets⟩, Or.inl ⟨rfl, fun _ => rfl⟩⟩
    exact (hdisposed.congr rfl rfl rfl : Disposed (c.detached.setState .kConnected) _).close

theorem Sound.stopInLoop (h : Sound c) (hc : c.stopInLoop = .ok c') : Moved c c' := by
  rcases stopInLoop_cases hc with ⟨-, rfl⟩ | ⟨sockfd, hs, hfd, hc'⟩
  · exact ⟨h, Or.inl ⟨rfl, id⟩⟩
  · exact h.finished hs hfd (Or.inl hc')

theorem Sound.handleEvent (h : Sound c) (hc : c.handleEvent d = .ok c') : Moved c c' := by
  rcases handleEvent_cases hc with rfl | ⟨sockfd, hs, hfd, hc'⟩
  · exact ⟨h, Or.inl ⟨rfl, id⟩⟩
  · exact h.finished hs hfd hc'

theorem Sound.resetChannel (h : Sound c) (hr : 0 < c.resets) : Moved c c.resetChannel := by
  have hne : c.state ≠ .kConnecting := by
    intro hs
    have hzero := (h.connecting hs).2
    omega
  have hone : c.resets - 1 = 0 := by
    have hresets := h.resets hne
    split at hresets <;> omega
  refine ⟨⟨?_, fun hs => absurd hs hne, fun _ => hone⟩, Or.inl ⟨rfl, id⟩⟩
  rw [attempt_of_ne (by exact hne)]
  exact (h.idle hne).congr rfl rfl rfl

theorem Sound.stop (h : Sound c) (hc : c.stop = .ok c') : Moved c c' :=
  let ⟨hsound, hhanded⟩ := (h.update false c.timers c.retryDelayMs).stopInLoop hc
  ⟨hsound, hhanded⟩

theorem Sound.start (h : Sound c) (hc : c.start e = .ok c') : Moved c c' :=
  let ⟨hsound, hhanded⟩ := (h.update true c.timers c.retryDelayMs).startInLoop hc
  ⟨hsound, hhanded⟩

theorem Sound.handleTimer (h : Sound c) (hc : c.handleTimer e = .ok c') : Moved c c' :=
  let ⟨hsound, hhanded⟩ := (h.update c.wanted (c.timers - 1) c.retryDelayMs).startInLoop hc
  ⟨hsound, hhanded⟩

/-- `restart` puts the state back by hand; no attempt may be in progress. -/
theorem Sound.rearm (h : Sound c) (hs : c.state ≠ .kConnecting) : Sound c.rearm where
  disposed := (h.idle hs).congr rfl rfl rfl
  connecting := by rintro ⟨⟩
  resets _ := h.resets hs

theorem Sound.restart (h : Sound c) (hs : c.state ≠ .kConnecting) (hc : c.restart e = .ok c') :
    Sound c' ∧ c'.handed = c.handed := by
  have hmoved := ((h.rearm hs).update true c.timers kInitRetryDelayMs).startInLoop hc
  refine ⟨hmoved.sound, ?_⟩
  rcases hmoved.handed with ⟨hhanded, -⟩ | ⟨hconnecting, -⟩
  · exact hhanded
  · cases hconnecting

/-! ## Every run -/

/-- At most one connection is alive, and only while `state_` is `kConnected`. -/
structure Run.Inv (s : Run) : Prop where
  sound : Sound s.connector
  alive : s.alive = [] ∨ s.connector.state = .kConnected ∧ ∃ sockfd, s.alive = [sockfd]

variable {s : Run}

theorem Run.Inv.moved (h : s.Inv) (hc : Moved s.connector c') : (s.set c').Inv where
  sound := hc.sound
  alive := by
    show s.alive ++ c'.handed.drop s.connector.handed.length = [] ∨ c'.state = .kConnected ∧ _
    rcases hc.handed with ⟨hhanded, hstays⟩ | ⟨hs, hs', sockfd, hhanded⟩
    · rw [hhanded, List.drop_length, List.append_nil]
      exact h.alive.imp_right fun ⟨hs, halive⟩ => ⟨hstays hs, by simpa [Run.set, hhanded] using halive⟩
    · right
      have hnone : s.alive = [] := h.alive.resolve_right fun ⟨hs', _⟩ => by rw [hs'] at hs; cases hs
      exact ⟨hs', sockfd, by simp [Run.set, hnone, hhanded]⟩

theorem Run.Inv.erase (h : s.Inv) (hmem : sockfd ∈ s.alive) :
    s.connector.state = .kConnected ∧ s.alive.erase sockfd = [] := by
  rcases h.alive with hnone | ⟨hs, fd, hone⟩
  · rw [hnone] at hmem
    cases hmem
  · rw [hone] at hmem ⊢
    obtain rfl := List.mem_singleton.mp hmem
    exact ⟨hs, by simp⟩

/-- A call of a function of the connector. -/
theorem Run.Inv.call (h : s.Inv) {f : Outcome Connector} (hf : ∀ c, f = .ok c → Moved s.connector c) {s' : Run}
    (hs' : (f >>= fun c => .ok (s.set c)) = .ok s') : s'.Inv := by
  obtain ⟨c, hc, hset⟩ := bind_eq_ok.mp hs'
  obtain rfl := Except.ok.inj hset
  exact h.moved (hf c hc)

theorem Run.Inv.exec (h : s.Inv) {a : Action} (ha : s.enabled a) {s' : Run} (hs' : s.exec a = .ok s') : s'.Inv := by
  cases a with
  | start e => exact h.call (fun _ hc => h.sound.start hc) hs'
  | stop => exact h.call (fun _ hc => h.sound.stop hc) hs'
  | handleEvent d => exact h.call (fun _ hc => h.sound.handleEvent hc) hs'
  | handleTimer e => exact h.call (fun _ hc => h.sound.handleTimer hc) hs'
  | resetChannel =>
      obtain rfl := Except.ok.inj hs'
      exact h.moved (h.sound.resetChannel ha)
  | restart sockfd e =>
      obtain ⟨hs, herase⟩ := h.erase ha
      obtain ⟨c, hc, hset⟩ := bind_eq_ok.mp hs'
      obtain rfl := Except.ok.inj hset
      obtain ⟨hsound, hhanded⟩ := h.sound.restart (by simp [hs]) hc
      exact ⟨hsound, Or.inl (by simp [Run.set, herase, hhanded])⟩
  | closeConnection sockfd =>
      obtain rfl := Except.ok.inj hs'
      exact ⟨h.sound, Or.inl (h.erase ha).2⟩

theorem connectorSystem_inv (h : connectorSystem.Reachable s) : s.Inv := by
  refine System.keeps (S := connectorSystem) ?_ ?_ h
  · rintro s rfl
    exact ⟨Sound.new, Or.inl rfl⟩
  · exact fun _ _ _ hs ha hs' => hs.exec ha hs'

/-- **Every connecting socket is disposed of exactly once.** A socket that was created was closed once and never
    handed out, or handed out once and never closed; neither has happened yet exactly while it is the socket of the
    attempt in progress. -/
theorem socket_disposed_once (h : connectorSystem.Reachable s) (fd : Nat) (hfd : fd < s.connector.created) :
    (s.connector.closed.count fd = 1 ∧ s.connector.handed.count fd = 0 ∨
      s.connector.closed.count fd = 0 ∧ s.connector.handed.count fd = 1) ∧
        ¬ (s.connector.state = .kConnecting ∧ s.connector.channel.map (·.fd) = some fd) ∨
    (s.connector.closed.count fd = 0 ∧ s.connector.handed.count fd = 0) ∧
      s.connector.state = .kConnecting ∧ s.connector.channel.map (·.fd) = some fd := by
  have hcount := (connectorSystem_inv h).sound.disposed.count fd
  have hiff : s.connector.attempt = some fd ↔
      s.connector.state = .kConnecting ∧ s.connector.channel.map (·.fd) = some fd := by
    unfold attempt
    split
    · next hs => simp [hs]
    · next hs => simp [hs]
  by_cases hattempt : s.connector.attempt = some fd
  · right
    simp only [hattempt, ne_eq, not_true_eq_false, and_false, if_false] at hcount
    exact ⟨by omega, hiff.mp hattempt⟩
  · left
    simp only [hattempt, hfd, ne_eq, not_false_eq_true, and_self, if_true] at hcount
    exact ⟨by omega, fun hc => hattempt (hiff.mpr hc)⟩

/-- The first attempt is refused, with both callbacks in one dispatch, and the second succeeds. -/
theorem socket_disposed_once_refused : ∃ s : Run, connectorSystem.Reachable s ∧
    s.connector.created = 2 ∧ s.connector.closed = [0] ∧ s.connector.handed = [1] ∧
    s.connector.closed.count 0 = 1 ∧ s.connector.handed.count 0 = 0 := by
  let s₁ : Run := ⟨{ new.attempting with wanted := true }, []⟩
  let s₂ : Run := ⟨s₁.connector.detached.retry 0, []⟩
  let s₃ : Run := ⟨s₂.connector.resetChannel, []⟩
  let s₄ : Run := ⟨{ s₃.connector with timers := 0 }.attempting, []⟩
  let s₅ : Run := ⟨(s₄.connector.detached.setState .kConnected).newConnectionCallback 1, [1]⟩
  have h₁ : connectorSystem.Reachable s₁ :=
    (System.Reachable.init rfl).next (.start .EINPROGRESS) trivial rfl
  have h₂ : connectorSystem.Reachable s₂ := h₁.next (.handleEvent ⟨POLLERR ||| POLLOUT, 111, false⟩) rfl rfl
  have h₃ : connectorSystem.Reachable s₃ := h₂.next .resetChannel Nat.one_pos rfl
  have h₄ : connectorSystem.Reachable s₄ := h₃.next (.handleTimer .EINPROGRESS) Nat.one_pos rfl
  have h₅ : connectorSystem.Reachable s₅ := h₄.next (.handleEvent ⟨POLLOUT, 0, false⟩) rfl rfl
  refine ⟨s₅, h₅, rfl, rfl, rfl, ?_⟩
  rcases socket_disposed_once h₅ 0 (by decide) with ⟨hclosed | ⟨hzero, -⟩, -⟩ | ⟨-, -, hch⟩
  · exact hclosed
  · exact absurd hzero (by decide)
  · exact absurd hch (by decide)

end Connector

end Muduo.Net
