import Muduo.Lib.System
import Muduo.Net.Correctness.EPollPoller

/-!
# `Correctness.EPollBookkeeping` — `EPollPoller` and the kernel, over whole runs

Channels come and go, and the kernel gives descriptors out again: two channels may have the same descriptor as long
as they are not registered together. In every such run, with `epoll_wait` returning whatever the interest set allows
in between, the map, the indices and the interest set agree, and no `epoll_ctl` fails (`bookkeeping_agrees`).

`update` lets a failing `EPOLL_CTL_DEL` pass, so that calls return does not say that none fails. The calls of
`epoll_ctl` are therefore looked at one by one: which one an operation adds to the record `ctls` is `perform_made`, and
that all of them together, each on what the earlier ones have left, make the interest set is `Replays`.
-/

namespace Muduo.Net

open Lib

variable {ι : Type}

namespace EPollPoller

variable [DecidableEq ι] {fd : ι → Int} {p p' : EPollPoller ι} {a : Interest ι} {c : ι} {call : PollerCall ι}

/-! ## The calls of `epoll_ctl` -/

/-- What the kernel makes of the interest set, or an error. -/
def run (interest : Int → Option (EventMask × ι)) (ctl : EPollCtl ι) : Option (Int → Option (EventMask × ι)) :=
  epollCtl interest ctl.operation ctl.fd ctl.event

/-- The call was made on `interest`, and either it succeeded, or it was a removal that failed. -/
def Done (interest interest' : Int → Option (EventMask × ι)) (ctl : EPollCtl ι) : Prop :=
  run interest ctl = some interest' ∨
    run interest ctl = none ∧ ctl.operation = .EPOLL_CTL_DEL ∧ interest' = interest

/-- All calls so far have succeeded, the first one on an empty interest set, and this is what they made of it. -/
def Replays (p : EPollPoller ι) : Prop := p.ctls.foldlM run (fun _ => none) = some p.interest

omit [DecidableEq ι] in
/-- A call that is an `ADD` of an absent descriptor, or a `MOD` or `DEL` of a present one, has succeeded. -/
theorem Done.present {interest interest' : Int → Option (EventMask × ι)} {ctl : EPollCtl ι}
    (h : Done interest interest' ctl) (hpresent : ctl.operation = .EPOLL_CTL_ADD ↔ interest ctl.fd = none) :
    run interest ctl = some interest' := by
  refine h.resolve_right ?_
  rintro ⟨hfail, hdel, -⟩
  obtain ⟨old, hold⟩ := Option.ne_none_iff_exists'.mp (mt hpresent.mpr (by simp [hdel]))
  unfold run epollCtl at hfail
  rw [hdel, hold] at hfail
  cases hfail

omit [DecidableEq ι] in
theorem update_made {o : EPollOp} (hp' : p.update o c = .ok p') : p'.ctls = p.called o c ∧
    Done p.interest p'.interest ⟨o, (p.objects c).fd, (p.objects c).channel.events, c⟩ := by
  unfold update at hp'
  dsimp only at hp'
  cases hctl : epollCtl p.interest o (p.objects c).fd ((p.objects c).channel.events, c) with
  | some interest =>
      rw [hctl] at hp'
      obtain rfl := Except.ok.inj hp'
      exact ⟨rfl, Or.inl hctl⟩
  | none =>
      rw [hctl] at hp'
      by_cases ho : o = .EPOLL_CTL_DEL
      · rw [if_pos ho] at hp'
        obtain rfl := Except.ok.inj hp'
        exact ⟨rfl, Or.inr ⟨hctl, ho, rfl⟩⟩
      · rw [if_neg ho] at hp'
        cases hp'

theorem setEvents_self (objects : ι → PolledChannel) (op : ChannelOp) :
    setEvents objects c op c = { objects c with channel := op.apply (objects c).channel } :=
  Function.update_self ..

theorem addChannel_made (hp' : p.addChannel c = .ok p') : p'.ctls = p.called .EPOLL_CTL_ADD c ∧
    Done p.interest p'.interest ⟨.EPOLL_CTL_ADD, (p.objects c).fd, (p.objects c).channel.events, c⟩ := by
  obtain ⟨p₁, hp₁, hp'⟩ := bind_eq_ok.mp hp'
  -- the map is all that changes before the `ADD`
  have hsame : p₁.objects = p.objects ∧ p₁.interest = p.interest ∧ p₁.ctls = p.ctls := by
    split at hp₁
    · obtain ⟨_, -, hp₁⟩ := bind_eq_ok.mp hp₁
      obtain rfl := Except.ok.inj hp₁
      exact ⟨rfl, rfl, rfl⟩
    · obtain ⟨_, -, hp₁⟩ := bind_eq_ok.mp hp₁
      obtain ⟨_, -, hp₁⟩ := bind_eq_ok.mp hp₁
      obtain rfl := Except.ok.inj hp₁
      exact ⟨rfl, rfl, rfl⟩
  have hmade := update_made hp'
  simpa only [called, setIndex_self, hsame.1, hsame.2.1, hsame.2.2] using hmade

theorem modifyChannel_made (hp' : p.modifyChannel c = .ok p') : (p.objects c).index = kAdded ∧
    ∃ o, o ≠ .EPOLL_CTL_ADD ∧ p'.ctls = p.called o c ∧
      Done p.interest p'.interest ⟨o, (p.objects c).fd, (p.objects c).channel.events, c⟩ := by
  obtain ⟨_, -, hp'⟩ := bind_eq_ok.mp hp'
  obtain ⟨_, -, hp'⟩ := bind_eq_ok.mp hp'
  obtain ⟨_, hadded, hp'⟩ := bind_eq_ok.mp hp'
  refine ⟨of_assert hadded, ?_⟩
  by_cases hnone : (p.objects c).channel.isNoneEvent = true
  · rw [if_pos hnone] at hp'
    obtain ⟨p₁, hp₁, hp'⟩ := bind_eq_ok.mp hp'
    have hmade := update_made hp₁
    obtain rfl := Except.ok.inj hp'
    exact ⟨.EPOLL_CTL_DEL, by decide, hmade⟩
  · rw [if_neg hnone] at hp'
    exact ⟨.EPOLL_CTL_MOD, by decide, update_made hp'⟩

/-- **The `epoll_ctl` of an operation**: none, which leaves the interest set as it is, or one, on the descriptor of the
    channel and with a pointer to it. It is an `ADD` exactly if the index is not `kAdded`. -/
theorem perform_made (hp' : p.perform call = .ok p') :
    p'.ctls = p.ctls ∧ p'.interest = p.interest ∨
    ∃ ctl : EPollCtl ι, p'.ctls = p.ctls ++ [ctl] ∧ ctl.fd = (p.objects call.channel).fd ∧
      ctl.event.2 = call.channel ∧ Done p.interest p'.interest ctl ∧
      (ctl.operation = .EPOLL_CTL_ADD ↔ (p.objects call.channel).index ≠ kAdded) := by
  cases call with
  | update c op =>
      right
      have hp' : { p with objects := setEvents p.objects c op }.updateChannel c = .ok p' := hp'
      unfold updateChannel at hp'
      dsimp only at hp'
      rw [setEvents_index] at hp'
      by_cases hidx : (p.objects c).index = kNew ∨ (p.objects c).index = kDeleted
      · rw [if_pos hidx] at hp'
        obtain ⟨hctls, hdone⟩ := addChannel_made hp'
        refine ⟨_, hctls, by simp only [setEvents_self]; rfl, rfl, hdone, fun _ => ?_, fun _ => rfl⟩
        rcases hidx with hidx | hidx
        · exact hidx ▸ (by decide : kNew ≠ kAdded)
        · exact hidx ▸ (by decide : kDeleted ≠ kAdded)
      · rw [if_neg hidx] at hp'
        obtain ⟨hadded, o, ho, hctls, hdone⟩ := modifyChannel_made hp'
        rw [setEvents_index] at hadded
        exact ⟨_, hctls, by simp only [setEvents_self]; rfl, rfl, hdone, fun hadd => absurd hadd ho,
          fun hnot => absurd hadded hnot⟩
  | remove c =>
      obtain ⟨_, -, hp'⟩ := bind_eq_ok.mp hp'
      obtain ⟨_, -, hp'⟩ := bind_eq_ok.mp hp'
      obtain ⟨_, -, hp'⟩ := bind_eq_ok.mp hp'
      obtain ⟨_, -, hp'⟩ := bind_eq_ok.mp hp'
      obtain ⟨_, -, hp'⟩ := bind_eq_ok.mp hp'
      obtain ⟨p₁, hp₁, hp'⟩ := bind_eq_ok.mp hp'
      obtain rfl := Except.ok.inj hp'
      by_cases hidx : (p.objects c).index = kAdded
      · rw [if_pos hidx] at hp₁
        obtain ⟨hctls, hdone⟩ := update_made hp₁
        exact Or.inr ⟨_, hctls, rfl, rfl, hdone, fun hadd => by simp at hadd, fun hnot => absurd hidx hnot⟩
      · rw [if_neg hidx] at hp₁
        obtain rfl := Except.ok.inj hp₁
        exact Or.inl ⟨rfl, rfl⟩

omit [DecidableEq ι] in
/-- The index tells which descriptors are present. -/
theorem Rep.present (h : Rep fd p a) (hfree : a.Free fd c) :
    (p.objects c).index ≠ kAdded ↔ p.interest (p.objects c).fd = none := by
  rw [(h.objects c).1]
  refine ⟨h.interest_none hfree, fun hnone hidx => ?_⟩
  have hreg : a.registered c = true := by
    by_contra hreg
    rw [h.unregistered _ (by simpa using hreg)] at hidx
    exact absurd hidx (by decide)
  rw [(h.interest _ _ _).mpr ⟨rfl, hreg, hidx, rfl⟩] at hnone
  cases hnone

omit [DecidableEq ι] in
/-- One more call that succeeds. -/
theorem Replays.snoc (h : p.Replays) {ctl : EPollCtl ι} (hctls : p'.ctls = p.ctls ++ [ctl])
    (hrun : run p.interest ctl = some p'.interest) : p'.Replays := by
  have h : p.ctls.foldlM run (fun _ => none) = some p.interest := h
  unfold Replays
  rw [hctls, List.foldlM_append, h]
  show (run p.interest ctl >>= pure) = _
  rw [hrun]
  rfl

/-! ## What is registered -/

/-- The channels, and which of them are in the map. -/
def shown (p : EPollPoller ι) : Interest ι :=
  ⟨fun c => (p.objects c).channel, fun c => decide (p.channels (p.objects c).fd = some c)⟩

theorem Rep.shown_eq (h : Rep fd p a) : p.shown = a := by
  obtain ⟨channel, registered⟩ := a
  unfold shown
  congr 1
  · funext c
    exact (h.objects c).2
  · funext c
    have hiff := h.channels (fd c) c
    rw [(h.objects c).1, Bool.eq_iff_iff, decide_eq_true_iff, hiff]
    exact ⟨And.right, fun hc => ⟨rfl, hc⟩⟩

omit [DecidableEq ι] in
/-- Two registered channels do not have the same descriptor: the map holds only one of them. -/
theorem Rep.free (h : Rep fd p a) (hc : a.registered c = true) : a.Free fd c := by
  intro c' hc' heq
  have hget := (h.channels (fd c) c).mpr ⟨rfl, hc⟩
  have hget' := (h.channels (fd c') c').mpr ⟨rfl, hc'⟩
  rw [heq, hget] at hget'
  exact (Option.some.inj hget').symm

omit [DecidableEq ι] in
/-- The index tells which channels are registered. -/
theorem Rep.registered_iff (h : Rep fd p a) :
    a.registered c = true ↔ (p.objects c).index = kAdded ∨ (p.objects c).index = kDeleted := by
  refine ⟨fun hc => (h.registered c hc).imp_right And.left, fun hidx => ?_⟩
  by_contra hc
  rw [h.unregistered c (by simpa using hc)] at hidx
  simp [kNew, kAdded, kDeleted] at hidx

omit [DecidableEq ι] in
/-- A pointer in the interest set is that of a channel in the map. -/
theorem Rep.pointer (h : Rep fd p a) {f : Int} {m : EventMask} (hget : p.interest f = some (m, c)) :
    p.channels (p.objects c).fd = some c := by
  obtain ⟨-, hc, -, -⟩ := (h.interest f m c).mp hget
  rw [(h.objects c).1]
  exact (h.channels _ _).mpr ⟨rfl, hc⟩

/-! ## `fillActiveChannels` -/

/-- The mask of the events that were returned is not part of the bookkeeping. -/
theorem Rep.setRevents (h : Rep fd p a) (c : ι) (revt : EventMask) :
    Rep fd ⟨Muduo.Net.setRevents p.objects c revt, p.channels, p.interest, p.ctls⟩
      ⟨fun c' => (Muduo.Net.setRevents p.objects c revt c').channel, a.registered⟩ where
  objects c' := ⟨(setRevents_fields p.objects c c' revt).1.trans (h.objects c').1, rfl⟩
  channels := h.channels
  unregistered c' hc' := (setRevents_fields p.objects c c' revt).2.1.trans (h.unregistered c' hc')
  registered := by
    intro c' hc'
    obtain ⟨-, hidx, hev⟩ := setRevents_fields p.objects c c' revt
    dsimp only
    rw [hidx, isNoneEvent_iff, hev, (h.objects c').2, ← isNoneEvent_iff]
    exact h.registered c' hc'
  interest := by
    intro f m c'
    obtain ⟨-, hidx, hev⟩ := setRevents_fields p.objects c c' revt
    dsimp only
    rw [hidx, hev, (h.objects c').2]
    exact h.interest f m c'

/-- **Every entry is handed out**, when its pointer is that of a channel in the map. -/
theorem fillActiveChannels_ok (h : Rep fd p a) {events : List (EventMask × ι)}
    (hev : ∀ e ∈ events, p.channels (p.objects e.2).fd = some e.2) (active : List ι) :
    ∃ p' a', p.fillActiveChannels active events = .ok (p', active ++ events.map Prod.snd) ∧ Rep fd p' a' ∧
      p'.interest = p.interest ∧ p'.ctls = p.ctls := by
  induction events generalizing p a active with
  | nil => exact ⟨p, a, by simp [fillActiveChannels], h, rfl, rfl⟩
  | cons e events ih =>
      obtain ⟨revents, c⟩ := e
      have hc : p.channels (p.objects c).fd = some c := hev _ List.mem_cons_self
      have hrest : ∀ e ∈ events, p.channels (Muduo.Net.setRevents p.objects c revents e.2).fd = some e.2 := by
        intro e he
        rw [(setRevents_fields p.objects c e.2 revents).1]
        exact hev e (List.mem_cons_of_mem _ he)
      obtain ⟨p', a', hp', hrep, hsame⟩ := ih (h.setRevents c revents) hrest (active ++ [c])
      refine ⟨p', a', ?_, hrep, hsame⟩
      unfold fillActiveChannels
      rw [assert_pos (by simp [hc]), ok_bind, assert_pos hc, ok_bind, hp', List.append_assoc]
      rfl

end EPollPoller

/-! ## Whole runs -/

/-- What the loop does with its poller. -/
inductive EPollAction (ι : Type) where
  | call (call : PollerCall ι)
  | poll (events : List (EventMask × ι)) -- what `epoll_wait` has filled in

/-- An operation is on a channel whose descriptor no other registered channel has, a removal on a registered channel
    without interest. `epoll_wait` fills in pointers that are in the interest set. -/
def EPollPoller.allowed [DecidableEq ι] (fd : ι → Int) (p : EPollPoller ι) : EPollAction ι → Prop
  | .call (.update c _) => p.shown.Free fd c
  | .call (.remove c) => p.shown.Admits (.remove c)
  | .poll events => ∀ e ∈ events, ∃ f m, p.interest f = some (m, e.2)

def EPollPoller.act [DecidableEq ι] (p : EPollPoller ι) : EPollAction ι → Outcome (EPollPoller ι)
  | .call call => p.perform call
  | .poll events => do
      let (p, _) ← p.fillActiveChannels [] events
      .ok p

/-- A poller in use, on channels with the descriptors `fd`. -/
def epollSystem [DecidableEq ι] (fd : ι → Int) : System (EPollPoller ι) (EPollAction ι) where
  init p := p = EPollPoller.new fd
  enabled := EPollPoller.allowed fd
  exec := EPollPoller.act

namespace EPollPoller

variable [DecidableEq ι] {fd : ι → Int} {p p' : EPollPoller ι} {a : Interest ι} {c : ι}

/-- What a call that is allowed meets. -/
theorem Rep.admits (h : Rep fd p a) {call : PollerCall ι} (hallow : p.allowed fd (.call call)) :
    a.Admits call ∧ a.Free fd call.channel := by
  rw [← h.shown_eq]
  cases call with
  | update c op => exact ⟨trivial, hallow⟩
  | remove c =>
      refine ⟨hallow, ?_⟩
      rw [h.shown_eq]
      apply h.free
      rw [← h.shown_eq]
      exact hallow.1

/-- What `epoll_wait` fills in is in the map. -/
theorem Rep.polled (h : Rep fd p a) {events : List (EventMask × ι)} (hallow : p.allowed fd (.poll events)) :
    ∀ e ∈ events, p.channels (p.objects e.2).fd = some e.2 := by
  intro e he
  obtain ⟨f, m, hget⟩ := hallow e he
  exact h.pointer hget

/-- **An operation** returns, and keeps the bookkeeping; its `epoll_ctl` succeeds. -/
theorem Rep.called (h : Rep fd p a) {call : PollerCall ι} (hallow : p.allowed fd (.call call)) :
    ∃ p' a', p.perform call = .ok p' ∧ Rep fd p' a' ∧
      (p'.ctls = p.ctls ∧ p'.interest = p.interest ∨
        ∃ ctl : EPollCtl ι, p'.ctls = p.ctls ++ [ctl] ∧ ctl.fd = (p.objects call.channel).fd ∧
          ctl.event.2 = call.channel ∧ (ctl.operation = .EPOLL_CTL_ADD ↔ p.interest ctl.fd = none) ∧
          epollCtl p.interest ctl.operation ctl.fd ctl.event = some p'.interest) := by
  obtain ⟨hadm, hfree⟩ := h.admits hallow
  obtain ⟨p', hp', hrep⟩ := perform_rep h call hadm hfree
  refine ⟨p', _, hp', hrep, (perform_made hp').imp_right ?_⟩
  rintro ⟨ctl, hctls, hfd, hpointer, hdone, hadd⟩
  have hpresent : ctl.operation = .EPOLL_CTL_ADD ↔ p.interest ctl.fd = none := by
    rw [hadd, hfd]
    exact h.present hfree
  exact ⟨ctl, hctls, hfd, hpointer, hpresent, hdone.present hpresent⟩

/-- **Every action returns**, and keeps the bookkeeping and its record. -/
theorem Rep.act (h : Rep fd p a) (hreplays : p.Replays) {action : EPollAction ι} (hallow : p.allowed fd action) :
    ∃ p' a', p.act action = .ok p' ∧ Rep fd p' a' ∧ p'.Replays := by
  cases action with
  | call call =>
      obtain ⟨p', a', hp', hrep, hmade⟩ := h.called hallow
      refine ⟨p', a', hp', hrep, ?_⟩
      rcases hmade with ⟨hctls, hinterest⟩ | ⟨ctl, hctls, -, -, -, hrun⟩
      · unfold Replays
        rw [hctls, hinterest]
        exact hreplays
      · exact hreplays.snoc hctls hrun
  | poll events =>
      obtain ⟨p', a', hp', hrep, hinterest, hctls⟩ := fillActiveChannels_ok h (h.polled hallow) []
      refine ⟨p', a', ?_, hrep, ?_⟩
      · show (p.fillActiveChannels [] events >>= fun r => Except.ok r.1) = .ok p'
        rw [hp', ok_bind]
      · unfold Replays
        rw [hctls, hinterest]
        exact hreplays

theorem reachable_rep (h : (epollSystem fd).Reachable p) : (∃ a, Rep fd p a) ∧ p.Replays := by
  refine System.keeps (I := fun p => (∃ a, Rep fd p a) ∧ p.Replays) ?_ ?_ h
  · rintro p rfl
    exact ⟨⟨_, rep_new fd⟩, rfl⟩
  · rintro p action p₁ ⟨⟨a, hrep⟩, hreplays⟩ hallow hp₁
    obtain ⟨p', a', hp', hrep', hreplays'⟩ := hrep.act hreplays hallow
    obtain rfl := Except.ok.inj (hp₁.symm.trans hp')
    exact ⟨⟨a', hrep'⟩, hreplays'⟩

/-- **The bookkeeping agrees with the kernel**, in every run: the map and the interest set are what the indices say,
    every action returns, every `epoll_ctl` of the run has succeeded and together they have made the interest set,
    the next one is an `ADD` of an absent descriptor or a `MOD` or `DEL` of a present one, and every pointer that
    `epoll_wait` can return is handed out as a channel of the map. -/
theorem bookkeeping_agrees (h : (epollSystem fd).Reachable p) :
    (∀ f c, p.channels f = some c ↔
      f = fd c ∧ ((p.objects c).index = kAdded ∨ (p.objects c).index = kDeleted)) ∧
    (∀ f m c, p.interest f = some (m, c) ↔
      f = fd c ∧ (p.objects c).index = kAdded ∧ m = (p.objects c).channel.events) ∧
    (∀ f m c, p.interest f = some (m, c) → p.channels (p.objects c).fd = some c) ∧
    (∀ action, p.allowed fd action → ∃ p', p.act action = .ok p') ∧
    p.ctls.foldlM (fun interest ctl => epollCtl interest ctl.operation ctl.fd ctl.event) (fun _ => none) =
      some p.interest ∧
    (∀ call, p.allowed fd (.call call) → ∃ p', p.perform call = .ok p' ∧
      (p'.ctls = p.ctls ∧ p'.interest = p.interest ∨
        ∃ ctl : EPollCtl ι, p'.ctls = p.ctls ++ [ctl] ∧ ctl.fd = (p.objects call.channel).fd ∧
          ctl.event.2 = call.channel ∧ (ctl.operation = .EPOLL_CTL_ADD ↔ p.interest ctl.fd = none) ∧
          epollCtl p.interest ctl.operation ctl.fd ctl.event = some p'.interest)) ∧
    (∀ events, p.allowed fd (.poll events) →
      ∃ p', p.fillActiveChannels [] events = .ok (p', events.map Prod.snd)) := by
  obtain ⟨⟨a, hrep⟩, hreplays⟩ := reachable_rep h
  refine ⟨?_, ?_, fun f m c hget => hrep.pointer hget, ?_, hreplays, ?_, ?_⟩
  · intro f c
    rw [hrep.channels, hrep.registered_iff]
  · intro f m c
    rw [hrep.interest, (hrep.objects c).2]
    refine and_congr_right fun _ => ⟨And.right, fun hidx => ⟨?_, hidx⟩⟩
    exact hrep.registered_iff.mpr (Or.inl hidx.1)
  · intro action hallow
    obtain ⟨p', a', hp', -⟩ := hrep.act hreplays hallow
    exact ⟨p', hp'⟩
  · intro call hallow
    obtain ⟨p', a', hp', -, hmade⟩ := hrep.called hallow
    exact ⟨p', hp', hmade⟩
  · intro events hallow
    obtain ⟨p', a', hp', -⟩ := fillActiveChannels_ok hrep (hrep.polled hallow) []
    exact ⟨p', hp'⟩

/-- The descriptor of a channel that has been removed is given out again. -/
theorem bookkeeping_agrees_reused : ∃ p : EPollPoller Bool, (epollSystem fun _ => 5).Reachable p ∧
    (p.objects true).index = kNew ∧ p.channels 5 = some false ∧
    p.interest 5 = some (Channel.kWriteEvent, false) ∧
    p.ctls.map EPollCtl.operation = [.EPOLL_CTL_ADD, .EPOLL_CTL_DEL, .EPOLL_CTL_ADD] ∧
    ∀ action, p.allowed (fun _ => 5) action → ∃ p', p.act action = .ok p' := by
  have h₀ := System.Reachable.init (S := epollSystem fun _ : Bool => 5) rfl
  have h₁ := h₀.next (.call (.update true .enableReading)) (by show ∀ c' : Bool, _; decide) rfl
  have h₂ := h₁.next (.poll [(Channel.kReadEvent, true)]) (by
    rintro e he
    obtain rfl := List.mem_singleton.mp he
    exact ⟨5, Channel.kReadEvent, rfl⟩) rfl
  have h₃ := h₂.next (.call (.update true .disableAll)) (by show ∀ c' : Bool, _; decide) rfl
  have h₄ := h₃.next (.call (.remove true)) ⟨rfl, rfl⟩ rfl
  have h₅ := h₄.next (.call (.update false .enableWriting)) (by show ∀ c' : Bool, _; decide) rfl
  obtain ⟨hchannels, hinterest, -, hall, -⟩ := bookkeeping_agrees h₅
  exact ⟨_, h₅, rfl, (hchannels 5 false).mpr ⟨rfl, Or.inl rfl⟩, (hinterest 5 _ false).mpr ⟨rfl, rfl, rfl⟩, rfl, hall⟩

end EPollPoller

end Muduo.Net
