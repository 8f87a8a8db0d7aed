import Muduo.Net.ClientStop
import Muduo.Net.Correctness.TcpClient

/-!
# `Correctness.ClientStop` — when `TcpClient::stop()` is final

`removeConnection` tests `TcpClient::connect_` and then lets `restart` set `Connector::connect_`, whatever `stop()` has
done in between. As long as `Connector::connect_` is not set again once `stop()` has cleared it (`Heeds`), no connection
comes after `stopInLoop` (`no_connection_after_stop`); in the other order `stop()` is lost (`stop_lost`).
-/

namespace Muduo.Net

open Lib

namespace Connector

variable {c c' : Connector} {e : ConnectErrno} {d : Dispatch}

/-- The connector is still asked for the same thing, and has handed out nothing more. -/
def Quiet (c c' : Connector) : Prop := c'.wanted = c.wanted ∧ c'.handed = c.handed

theorem retry_quiet (c : Connector) (sockfd : Nat) : Quiet c (c.retry sockfd) := by
  unfold retry Quiet
  dsimp only
  split <;> exact ⟨rfl, rfl⟩

theorem dial_quiet {again : Option Nat} (h : c.dial e = .ok (c', again)) : Quiet c c' := by
  unfold dial at h
  cases he : e.case with
  | connecting =>
      simp only [he] at h
      obtain ⟨c₁, hc₁, hset⟩ := bind_eq_ok.mp h
      obtain ⟨_, _, hc₁⟩ := bind_eq_ok.mp hc₁
      obtain rfl := Except.ok.inj hc₁
      obtain ⟨rfl, -⟩ := Prod.mk.inj (Except.ok.inj hset)
      exact ⟨rfl, rfl⟩
  | retry =>
      simp only [he] at h
      obtain ⟨rfl, -⟩ := Prod.mk.inj (Except.ok.inj h)
      exact ⟨rfl, rfl⟩
  | fail =>
      simp only [he] at h
      obtain ⟨rfl, -⟩ := Prod.mk.inj (Except.ok.inj h)
      exact ⟨rfl, rfl⟩

theorem stopInLoop_quiet (h : c.stopInLoop = .ok c') : Quiet c c' := by
  rcases stopInLoop_cases h with ⟨-, rfl⟩ | ⟨sockfd, -, -, rfl⟩
  · exact ⟨rfl, rfl⟩
  · exact retry_quiet c.detached sockfd

/-- A dispatch hands out a socket only if it is wanted. -/
theorem Finished.quiet {sockfd : Nat} (h : Finished c sockfd c') (hw : c.wanted = false) : Quiet c c' := by
  rcases h with rfl | ⟨hw', -⟩ | ⟨-, rfl⟩
  · exact retry_quiet c.detached sockfd
  · rw [hw] at hw'
    cases hw'
  · exact ⟨rfl, rfl⟩

end Connector

namespace ClientStop

open Connector

variable {s s' : ClientStop} {a : StopAction}

/-- `Connector::connect_` is not set after `stop()` has cleared it: by `restart`, or by `connect()`. -/
def Heeds (s : ClientStop) : StopAction → Prop
  | .start | .restart => s.stop = .before ∨ s.stop = .cleared
  | _ => True

/-- From the second step of `stop()` on, `Connector::connect_` stays false. -/
def Inv (s : ClientStop) : Prop :=
  s.stop = .before ∨ s.stop = .cleared ∨
    s.client.connector.wanted = false ∧
      ∀ handed, s.stop = .executed handed → s.client.connector.handed = handed

/-- What is known once `stop()` has cleared both flags. -/
theorem Inv.late (h : s.Inv) (hbefore : s.stop ≠ .before) (hcleared : s.stop ≠ .cleared) :
    s.client.connector.wanted = false ∧
      ∀ handed, s.stop = .executed handed → s.client.connector.handed = handed :=
  (h.resolve_left hbefore).resolve_left hcleared

/-- A step of the loop thread. -/
theorem Inv.quiet (h : s.Inv) (hstop : s'.stop = s.stop)
    (hq : s.client.connector.wanted = false → Quiet s.client.connector s'.client.connector) : s'.Inv := by
  unfold Inv
  rw [hstop]
  refine h.imp_right (Or.imp_right ?_)
  rintro ⟨hw, hhanded⟩
  obtain ⟨hwanted', hhanded'⟩ := hq hw
  exact ⟨hwanted'.trans hw, fun l hl => hhanded'.trans (hhanded l hl)⟩

theorem Inv.runStartInLoop {e : ConnectErrno} (h : s.Inv) (hs' : s.runStartInLoop e = .ok s') : s'.Inv := by
  unfold ClientStop.runStartInLoop at hs'
  obtain ⟨_, _, hs'⟩ := bind_eq_ok.mp hs'
  split at hs'
  · obtain ⟨⟨c, again⟩, hc, hs'⟩ := bind_eq_ok.mp hs'
    have hq := dial_quiet hc
    cases again with
    | none =>
        obtain rfl := Except.ok.inj hs'
        exact h.quiet rfl fun _ => hq
    | some sockfd =>
        obtain rfl := Except.ok.inj hs'
        exact h.quiet rfl fun _ => hq
  · obtain rfl := Except.ok.inj hs'
    exact h.quiet rfl fun _ => ⟨rfl, rfl⟩

theorem Inv.handleEvent {d : Connector.Dispatch} {t : TcpClient} (h : s.Inv) (ht : s.client.handleEvent d = .ok t) :
    Inv { s with client := t } := by
  refine h.quiet rfl fun hw => ?_
  rcases TcpClient.handleEvent_cases ht with rfl | ⟨sockfd, c', -, -, hfin, hc, -⟩
  · exact ⟨rfl, rfl⟩
  · show Quiet _ t.connector
    rw [hc]
    exact hfin.quiet hw

theorem Inv.exec (h : s.Inv) (ha : s.enabled a) (hheeds : s.Heeds a) (hs' : s.exec a = .ok s') : s'.Inv := by
  cases a with
  | start | restart =>
      -- the flag is set: `stop()` has not come to it yet
      obtain rfl := Except.ok.inj hs'
      exact hheeds.imp_right Or.inl
  | connect | disconnect | enableRetry | removeConnection | handleTimer | resetChannel =>
      obtain rfl := Except.ok.inj hs'
      exact h.quiet rfl fun _ => ⟨rfl, rfl⟩
  | testRetry =>
      obtain rfl := Except.ok.inj hs'
      split
      · exact h.quiet rfl fun _ => ⟨rfl, rfl⟩
      · exact h.quiet rfl fun _ => ⟨rfl, rfl⟩
  | startInLoop e => exact h.runStartInLoop hs'
  | retry =>
      obtain ⟨sockfd, hloop⟩ := ha
      simp only [ClientStop.exec, hloop] at hs'
      obtain rfl := Except.ok.inj hs'
      exact h.quiet rfl fun _ => retry_quiet _ sockfd
  | handleEvent d =>
      obtain ⟨t, ht, hset⟩ := bind_eq_ok.mp hs'
      obtain rfl := Except.ok.inj hset
      exact h.handleEvent ht
  | clearClient =>
      obtain rfl := Except.ok.inj hs'
      exact Or.inr (Or.inl rfl)
  | clearConnector =>
      obtain rfl := Except.ok.inj hs'
      exact Or.inr (Or.inr ⟨rfl, by rintro l ⟨⟩⟩)
  | queueInLoop =>
      obtain rfl := Except.ok.inj hs'
      have hstop : s.stop = .stopped := ha
      have hw := (h.late (by simp [hstop]) (by simp [hstop])).1
      exact Or.inr (Or.inr ⟨hw, by rintro l ⟨⟩⟩)
  | stopInLoop =>
      obtain ⟨c, hc, hset⟩ := bind_eq_ok.mp hs'
      obtain rfl := Except.ok.inj hset
      have hstop : s.stop = .queued := ha.2
      have hw := (h.late (by simp [hstop]) (by simp [hstop])).1
      refine Or.inr (Or.inr ⟨(stopInLoop_quiet hc).1.trans hw, ?_⟩)
      rintro l ⟨⟩
      rfl

theorem stopSystem_inv (h : (stopSystem.when Heeds).Reachable s) : s.Inv := by
  refine System.keeps (S := stopSystem.when Heeds) ?_ ?_ h
  · rintro s rfl
    exact Or.inl rfl
  · exact fun _ _ _ hs ha hs' => hs.exec ha.1 ha.2 hs'

/-- **`stop()` is final when the connector's flag is left alone.** In every run in which `restart` and `connect()` do
    not set `Connector::connect_` once `stop()` has cleared it, `newConnectionCallback_` is not called after
    `stopInLoop`: the sockets handed out are those that had been handed out then. -/
theorem no_connection_after_stop (h : (stopSystem.when Heeds).Reachable s) (handed : List Nat)
    (hstop : s.stop = .executed handed) : s.client.connector.handed = handed := by
  have hlate := (stopSystem_inv h).late (by rw [hstop]; rintro ⟨⟩) (by rw [hstop]; rintro ⟨⟩)
  exact hlate.2 handed hstop

/-- `stop()` gives up the first attempt. -/
theorem no_connection_after_stop_connecting : ∃ s : ClientStop, (stopSystem.when Heeds).Reachable s ∧
    s.stop = .executed [] ∧ s.client.connector.closed = [0] ∧ s.client.connector.handed = [] := by
  have hreach := (System.Reachable.init (S := stopSystem.when Heeds) rfl)
    |>.next .connect ⟨⟨rfl, by rintro l ⟨⟩⟩, trivial⟩ rfl
    |>.next .start ⟨rfl, Or.inl rfl⟩ rfl
    |>.next (.startInLoop .EINPROGRESS) ⟨rfl, trivial⟩ rfl
    |>.next .clearClient ⟨rfl, trivial⟩ rfl
    |>.next .clearConnector ⟨rfl, trivial⟩ rfl
    |>.next .queueInLoop ⟨rfl, trivial⟩ rfl
    |>.next .stopInLoop ⟨⟨rfl, rfl⟩, trivial⟩ rfl
  exact ⟨_, hreach, rfl, rfl, no_connection_after_stop hreach [] rfl⟩

/-- **A lost `stop()`.** The connection closes and `removeConnection` finds that it is to reconnect; `stop()` clears
    both flags; `restart` sets its flag and starts an attempt. `stopInLoop` turns this into a retry, and the
    retry connects. -/
theorem stop_lost : ∃ s : ClientStop, stopSystem.Reachable s ∧
    s.stop = .executed [0] ∧ s.client.connector.handed = [0, 2] := by
  have hclosed := (System.Reachable.init (S := stopSystem) rfl)
    |>.next .enableRetry rfl rfl
    |>.next .connect ⟨rfl, by rintro l ⟨⟩⟩ rfl
    |>.next .start rfl rfl
    |>.next (.startInLoop .EINPROGRESS) rfl rfl
    |>.next (.handleEvent ⟨POLLOUT, 0, false⟩) ⟨rfl, rfl⟩ rfl
    |>.next .resetChannel ⟨rfl, Nat.one_pos⟩ rfl
    |>.next .removeConnection ⟨rfl, rfl⟩ rfl
  have hstopped := hclosed
    |>.next .testRetry rfl rfl
    |>.next .clearClient rfl rfl
    |>.next .clearConnector rfl rfl
    |>.next .restart rfl rfl
    |>.next (.startInLoop .EINPROGRESS) rfl rfl
    |>.next .queueInLoop rfl rfl
    |>.next .stopInLoop ⟨rfl, rfl⟩ rfl
  have hlate := hstopped
    |>.next .resetChannel ⟨rfl, Nat.one_pos⟩ rfl
    |>.next .handleTimer ⟨rfl, Nat.one_pos⟩ rfl
    |>.next (.startInLoop .EINPROGRESS) rfl rfl
    |>.next (.handleEvent ⟨POLLOUT, 0, false⟩) ⟨rfl, rfl⟩ rfl
  exact ⟨_, hlate, rfl, rfl⟩

end ClientStop

end Muduo.Net
