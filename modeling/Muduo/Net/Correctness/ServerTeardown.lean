import Muduo.Net.ServerTeardown
import Muduo.Net.Correctness.EPollPoller
import Muduo.Net.Correctness.SingleServer

/-!
# `Correctness.ServerTeardown` — when a server without threads can be destroyed

`~TcpServer` runs `connectDestroyed` for every connection in `connections_`. Unlike `handleClose`,
`connectDestroyed` clears the interest of a connection only if it is `kConnected`; a connection that is
`kDisconnecting` still has its read interest, and `Channel::remove` asserts that there is none. An open
connection that is not in the map, because another of the same name has replaced it, is not taken down at all.
-/

namespace Muduo.Net

open Lib

namespace PolledServer

open TcpConnection ServerRun

variable {fd : Nat → Int} {s s' : PolledServer} {id : Nat} {ids : List Nat} {o : ConnObject}
  {a : Interest Nat} {p p' : EPollPoller Nat} {us : Nat → List UserCall}

/-! ## The runs of the server on its loop -/

/-- The steps of the server; the operations on the channel lead to the mask the channel then has. -/
def enabled (bound : Nat) (s : PolledServer) (a : Action × List ChannelOp) : Prop :=
  s.run.enabled bound a.1 ∧
    ∀ run o, s.run.exec a.1 = .ok run → run.objects (subject s.run a.1) = some o →
      (a.2.foldl (fun ch op => op.apply ch) (s.poller.objects (subject s.run a.1)).channel).events =
        o.conn.channel.events

/-- A server without threads, on a loop whose poller is empty; `fd` are the descriptors of its connections. -/
def polledSystem (fd : Nat → Int) (bound : Nat) : System PolledServer (Action × List ChannelOp) where
  init s := (∃ listenAddr nameArg writeComplete,
      s.run.server = TcpServer.new listenAddr nameArg 0 writeComplete) ∧
    (∀ id, s.run.objects id = none) ∧ (∀ l, s.run.queues l = []) ∧ s.run.log = [] ∧
    s.poller = EPollPoller.new fd
  enabled := enabled bound
  exec := exec

theorem updateChannel_rep (hinj : Function.Injective fd) (h : EPollPoller.Rep fd p a) (id : Nat)
    (ops : List ChannelOp) : ∃ p' a', updateChannel p id ops = .ok p' ∧ EPollPoller.Rep fd p' a' := by
  induction ops generalizing p a with
  | nil => exact ⟨p, a, rfl, h⟩
  | cons op ops ih =>
      obtain ⟨p₁, hp₁, h₁⟩ := EPollPoller.perform_rep h (.update id op) trivial (Interest.free_of_injective hinj)
      obtain ⟨p', a', hp', h'⟩ := ih h₁
      refine ⟨p', a', ?_, h'⟩
      show (p.perform (.update id op) >>= fun p => updateChannel p id ops) = _
      rw [hp₁, ok_bind, hp']

/-- A removal that returned was one that the poller admits. -/
theorem remove_rep (hinj : Function.Injective fd) (h : EPollPoller.Rep fd p a)
    (hp : p.perform (.remove id) = .ok p') : ∃ a', EPollPoller.Rep fd p' a' := by
  have hassert : ∀ {q : Prop} [Decidable q], assert q = .ok () → q := by
    intro q _ hq
    by_contra hnot
    rw [assert_neg hnot] at hq
    exact absurd hq (by simp)
  have hadm : a.Admits (.remove id) := by
    obtain ⟨_, hnone, hp⟩ := bind_eq_ok.mp hp
    obtain ⟨_, _, hp⟩ := bind_eq_ok.mp hp
    obtain ⟨_, hchan, _⟩ := bind_eq_ok.mp hp
    have hnone := hassert hnone
    have hchan := hassert hchan
    rw [(h.objects id).2] at hnone
    exact ⟨((h.channels _ _).mp hchan).2, hnone⟩
  obtain ⟨p₁, hp₁, h₁⟩ := EPollPoller.perform_rep h (.remove id) hadm (Interest.free_of_injective hinj)
  obtain rfl : p₁ = p' := Except.ok.inj (hp₁.symm.trans hp)
  exact ⟨_, h₁⟩

/-- The server is as `Single` says, and the poller represents some interest. -/
structure Inv (fd : Nat → Int) (s : PolledServer) : Prop where
  single : s.run.Single
  poller : ∃ a, EPollPoller.Rep fd s.poller a

theorem init_inv {bound : Nat} (h : (polledSystem fd bound).init s) : s.Inv fd := by
  obtain ⟨⟨listenAddr, nameArg, writeComplete, hsv⟩, hobj, hqueue, _, hp⟩ := h
  refine ⟨⟨?_, ?_, ?_, ?_, ?_, ?_⟩, ?_⟩
  · rw [hsv]
    exact TcpServer.named_new listenAddr nameArg 0 writeComplete
  · rw [hsv]
    rfl
  · intro id o ho
    rw [hobj] at ho
    exact absurd ho (by simp)
  · intro id o ho
    rw [hobj] at ho
    exact absurd ho (by simp)
  · intro name id hl
    rw [hsv] at hl
    exact absurd hl (by simp [TcpServer.new])
  · intro l f hf
    rw [hqueue] at hf
    exact absurd hf (by simp)
  · rw [hp]
    exact ⟨_, EPollPoller.rep_new fd⟩

theorem exec_inv (hinj : Function.Injective fd) {bound : Nat} (h : s.Inv fd) {a : Action × List ChannelOp}
    (ha : enabled bound s a) (hs : s.exec a = .ok s') : s'.Inv fd := by
  obtain ⟨i, hrep⟩ := h.poller
  obtain ⟨run, hrun, hs⟩ := bind_eq_ok.mp hs
  obtain ⟨p, hp, hs⟩ := bind_eq_ok.mp hs
  obtain ⟨p', hp', hs⟩ := bind_eq_ok.mp hs
  cases hs
  refine ⟨exec_single h.single ha.1 hrun, ?_⟩
  obtain ⟨p₁, i₁, hp₁, hrep₁⟩ := updateChannel_rep hinj hrep (subject s.run a.1) a.2
  obtain rfl : p₁ = p := Except.ok.inj (hp₁.symm.trans hp)
  split at hp'
  · exact remove_rep hinj hrep₁ hp'
  · cases hp'
    exact ⟨i₁, hrep₁⟩

theorem reachable_inv (hinj : Function.Injective fd) {bound : Nat} (h : (polledSystem fd bound).Reachable s) :
    s.Inv fd := by
  refine System.keeps (S := polledSystem fd bound) ?_ ?_ h
  · exact fun _ hs => init_inv hs
  · exact fun _ _ _ hs ha hs' => exec_inv hinj hs ha hs'

/-! ## The destructor -/

end PolledServer

end Muduo.Net
