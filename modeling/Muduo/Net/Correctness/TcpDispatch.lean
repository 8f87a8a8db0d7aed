import Muduo.Net.Correctness.TcpLifeCycle

/-!
# `Correctness.TcpDispatch` — one dispatch of an open connection, whatever it reports

`handleEvent_phase` needs the poller to report only masks that make sense. For an owner that merely has to
know whether the connection was closed, any mask will do: a dispatch that returns leaves the connection open,
or has run `closeCallback_`. A read event after the hang-up of the same dispatch finds the connection closed;
it may still call the message callback, and its end of file fails the assertion of `handleClose`.
-/

namespace Muduo.Net

open Lib

/-- Consuming input makes room, and never takes it. -/
theorem Buffer.retrieve_writableBytes {b b' : Buffer} {q : List UInt8} {p : Bool} (h : b.Rep q p) {len : Nat}
    (hb : b.retrieve len = .ok b') : b.writableBytes ≤ b'.writableBytes := by
  obtain ⟨_, _, hb⟩ := bind_eq_ok.mp hb
  split at hb
  · cases hb
    exact le_rfl
  · cases hb
    have hcheap := h.cheap_le
    rw [h.writableBytes_eq, (retrieveAll_rep h).writableBytes_eq]
    show b.buffer.length - b.writerIndex ≤ b.buffer.length - kCheapPrepend
    omega

namespace TcpConnection

variable {c c' : TcpConnection} {k : List Callback} {r : ReadResult}

/-- The connection was reported up once and down once. -/
def ReportedOnce (k : List Callback) : Prop :=
  k.count (.connection true) = 1 ∧ k.count (.connection false) = 1

theorem reportedOnce_closed (n : Nat) : ReportedOnce (announced n ++ [.connection false, .close]) := by
  unfold ReportedOnce announced
  simp [List.count_replicate]

theorem ReportedOnce.message (h : ReportedOnce k) : ReportedOnce (k ++ [.message]) := by
  unfold ReportedOnce at h ⊢
  simpa [List.count_cons] using h

/-- `handleClose` has run, and `closeCallback_` with it. -/
structure Ended (c : TcpConnection) : Prop where
  closed : ∃ k, Closed c k ∧ ReportedOnce k
  marked : ConnFunctor.connectDestroyed ∈ c.queued

theorem Open.unqueued (h : Open c k) : Open { c with queued := [] } k :=
  ⟨h.state, ⟨h.outputs.rep, h.outputs.interest⟩, h.input, h.calls, by simp, h.walk.congr rfl rfl⟩

theorem Closed.unqueued (h : Closed c k) : Closed { c with queued := [] } k :=
  ⟨h.state, h.noInterest, h.input, h.calls, h.walk.congr rfl rfl⟩

/-- What user code does to a closed connection: it may consume input. -/
theorem userCall_closed_eq (h : Closed c k) {u : UserCall} (hc : c.userCall u = .ok c') :
    c'.queued = c.queued ∧ ∀ r, ReadFits c r → ReadFits c' r := by
  have hs : c.state ≠ .kConnected := by simp [h.state]
  cases u with
  | send data w =>
      have hc : (if c.state = .kConnected then c.sendInLoop data.data data.data.length w else .ok c) = .ok c' :=
        hc
      rw [if_neg hs] at hc
      cases hc
      exact ⟨rfl, fun _ hr => hr⟩
  | shutdown =>
      have hc : Except.ok (if c.state = .kConnected then _ else c) = (.ok c' : Outcome TcpConnection) := hc
      rw [if_neg hs] at hc
      cases hc
      exact ⟨rfl, fun _ hr => hr⟩
  | retrieve n =>
      obtain ⟨b, hb, hc⟩ := bind_eq_ok.mp hc
      cases hc
      refine ⟨rfl, fun r hr bytes hbytes => (hr bytes hbytes).trans ?_⟩
      exact Nat.add_le_add_right (Buffer.retrieve_writableBytes h.input hb) _

theorem userCalls_ended (h : Ended c) (us : List UserCall) : Safe (c.userCalls us) Ended := by
  refine userCalls_inv ?_ h us
  intro c u h
  obtain ⟨k, hk, honce⟩ := h.closed
  refine (userCall_closed hk u).attach.mono ?_
  rintro c' ⟨hc, hk'⟩
  exact ⟨⟨k, hk', honce⟩, by rw [(userCall_closed_eq hk hc).1]; exact h.marked⟩

/-- User code keeps an open connection open and a closed one closed, and closes none. -/
theorem userCalls_keeps {us : List UserCall} (hc : c.userCalls us = .ok c') :
    (∀ k, Open c k → Open c' k) ∧ ∀ k, Closed c k → Closed c' k ∧ c'.queued = c.queued := by
  constructor
  · intro k hk
    exact (userCalls_open hk us).of_eq_ok hc
  · intro k hk
    refine (userCalls_inv (I := fun c' => Closed c' k ∧ c'.queued = c.queued) ?_ ⟨hk, rfl⟩ us).of_eq_ok hc
    intro c₁ u hI
    refine (userCall_closed hI.1 u).attach.mono ?_
    rintro c₂ ⟨hc₂, hk₂⟩
    exact ⟨hk₂, (userCall_closed_eq hI.1 hc₂).1.trans hI.2⟩

theorem userCalls_closed_fits (h : Closed c k) (hr : ReadFits c r) (us : List UserCall) :
    Safe (c.userCalls us) (fun c' => Closed c' k ∧ ReadFits c' r) := by
  refine userCalls_inv (I := fun c' => Closed c' k ∧ ReadFits c' r) ?_ ⟨h, hr⟩ us
  intro c u hI
  refine (userCall_closed hI.1 u).attach.mono ?_
  rintro c' ⟨hc, hk'⟩
  exact ⟨hk', (userCall_closed_eq hI.1 hc).2 r hI.2⟩

theorem handleClose_ended {n : Nat} (h : Open c (announced n)) (hr : ReadFits c r) {us : List UserCall}
    (hc : c.handleClose us = .ok c') : Ended c' ∧ ReadFits c' r := by
  have hclosed := (handleClose_spec h us).of_eq_ok hc
  obtain ⟨_, _, hc⟩ := bind_eq_ok.mp hc
  obtain ⟨c₁, hc₁, hc⟩ := bind_eq_ok.mp hc
  have hfits := (userCalls_closed_fits h.closing (by exact hr) us).of_eq_ok hc₁
  cases hc
  refine ⟨⟨⟨_, hclosed, reportedOnce_closed n⟩, ?_⟩, hfits.2⟩
  show ConnFunctor.connectDestroyed ∈ c₁.queued ++ [.connectDestroyed]
  simp

theorem readFd_input (h : c.inputBuffer.Rep c.inputBuffer.readable false) (hr : ReadFits c r) {n : Int}
    {b : Buffer} (hb : c.inputBuffer.readFd r = .ok (n, b)) : b.Rep b.readable false := by
  cases r with
  | failed e =>
      obtain ⟨-, rfl⟩ : -1 = n ∧ c.inputBuffer = b := by simpa [Buffer.readFd] using hb
      exact h
  | data bytes =>
      have hrep := ((Buffer.readFd_rep h (hr bytes rfl)).of_eq_ok hb).2
      exact hrep.content ▸ hrep

/-- Open, with the right history of callbacks, or closed by this very dispatch. -/
def Settled (c : TcpConnection) : Prop := (∃ n, Open c (announced n)) ∨ Ended c

theorem handleRead_settled {n : Nat} (h : Open c (announced n)) (hr : ReadFits c r) {us : List UserCall}
    (hc : c.handleRead r us = .ok c') : Settled c' := by
  obtain ⟨⟨m, b⟩, hb, hc⟩ := bind_eq_ok.mp hc
  have hopen : Open { c with inputBuffer := b } (announced n) :=
    ⟨h.state, ⟨h.outputs.rep, h.outputs.interest⟩, readFd_input h.input hr hb, h.calls, h.queued,
      h.walk.congr rfl rfl⟩
  dsimp only at hc
  split at hc
  · refine Or.inl ⟨n + 1, announced_succ n ▸ (userCalls_open ?_ us).of_eq_ok hc⟩
    refine ⟨hopen.state, ⟨hopen.outputs.rep, hopen.outputs.interest⟩, hopen.input, ?_, hopen.queued,
      hopen.walk.congr rfl rfl⟩
    show c.calls ++ [.message] = _
    rw [h.calls]
  · split at hc
    · exact Or.inr (handleClose_ended (r := .failed 0) hopen (fun _ hb => absurd hb (by simp)) hc).1
    · cases hc
      exact Or.inl ⟨n, hopen⟩

/-- A second read event of the same dispatch does not bring a closed connection back. -/
theorem handleRead_ended (h : Ended c) (hr : ReadFits c r) {us : List UserCall}
    (hc : c.handleRead r us = .ok c') : Ended c' := by
  obtain ⟨k, hk, honce⟩ := h.closed
  have hstate : ¬ (c.state = .kConnected ∨ c.state = .kDisconnecting) := by
    rw [hk.state]
    decide
  obtain ⟨⟨n, b⟩, hb, hc⟩ := bind_eq_ok.mp hc
  have hrep := readFd_input hk.input hr hb
  have hended : Ended { c with inputBuffer := b } :=
    ⟨⟨k, ⟨hk.state, hk.noInterest, hrep, hk.calls, hk.walk.congr rfl rfl⟩, honce⟩, h.marked⟩
  dsimp only at hc
  split at hc
  · refine (userCalls_ended ?_ us).of_eq_ok hc
    refine ⟨⟨k ++ [.message], ⟨hk.state, hk.noInterest, hrep, ?_, hk.walk.congr rfl rfl⟩, honce.message⟩,
      h.marked⟩
    show c.calls ++ [.message] = _
    rw [hk.calls]
  · split at hc
    · -- `handleClose` refuses a connection that is closed already
      obtain ⟨_, ha, _⟩ := bind_eq_ok.mp hc
      rw [assert_neg hstate] at ha
      exact absurd ha (by simp)
    · cases hc
      exact hended

/-- **A dispatch that returns** leaves the connection open, or has run `closeCallback_`. -/
theorem handleEvent_settled {n : Nat} (h : Open c (announced n)) {d : Dispatch} (hr : ReadFits c d.read)
    (hc : c.handleEvent d = .ok c') : Settled c' := by
  have hopen : Open { c with channel := c.channel.set_revents d.revents } (announced n) :=
    ⟨h.state, ⟨h.outputs.rep, h.outputs.interest⟩, h.input, h.calls, h.queued, h.walk.congr rfl rfl⟩
  have hc : Channel.handleEvent _ true (callbacks d) { c with channel := c.channel.set_revents d.revents } =
    .ok c' := hc
  unfold Channel.handleEvent at hc
  rw [Bool.not_true, Bool.and_false, if_neg (by decide)] at hc
  obtain ⟨c₁, hc₁, hrest⟩ := bind_eq_ok.mp hc
  obtain ⟨c₂, hc₂, hrest⟩ := bind_eq_ok.mp hrest
  obtain ⟨c₃, hc₃, hlast⟩ := bind_eq_ok.mp hrest
  have h₁ : (Open c₁ (announced n) ∨ Ended c₁) ∧ ReadFits c₁ d.read := by
    unfold Channel.whenever at hc₁
    split at hc₁
    · have hend := handleClose_ended hopen hr hc₁
      exact ⟨Or.inr hend.1, hend.2⟩
    · cases hc₁
      exact ⟨Or.inl hopen, hr⟩
  obtain rfl : c₁ = c₂ := by
    have herror : Channel.whenever (d.revents.has (POLLERR ||| POLLNVAL)) (callbacks d).errorCallback c₁ =
        .ok c₁ := by
      cases d.revents.has (POLLERR ||| POLLNVAL) <;> rfl
    have hc₂ : Channel.whenever (d.revents.has (POLLERR ||| POLLNVAL)) (callbacks d).errorCallback c₁ =
        .ok c₂ := hc₂
    rw [herror] at hc₂
    exact Except.ok.inj hc₂
  have h₃ : Settled c₃ := by
    unfold Channel.whenever at hc₃
    split at hc₃
    · rcases h₁ with ⟨ho | he, hfits⟩
      · exact handleRead_settled ho hfits hc₃
      · exact Or.inr (handleRead_ended he hfits hc₃)
    · cases hc₃
      exact h₁.1.imp_left fun ho => ⟨n, ho⟩
  unfold Channel.whenever at hlast
  split at hlast
  · obtain ⟨m, ho⟩ | he := h₃
    · exact Or.inl ⟨m, (handleWrite_open ho d.write).of_eq_ok hlast⟩
    · obtain ⟨k, hk, -⟩ := he.closed
      have hsame : c₃.handleWrite d.write = .ok c' := hlast
      rw [handleWrite_closed hk] at hsame
      cases hsame
      exact Or.inr he
  · cases hlast
    exact h₃

end TcpConnection

end Muduo.Net
