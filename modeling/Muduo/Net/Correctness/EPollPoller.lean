import Muduo.Net.Correctness.Poller

/-!
# `Correctness.EPollPoller` — the interest set of `EPollPoller`

`Rep` says what the index of a channel stands for: `kAdded` that its descriptor is in the kernel's interest set
with its mask, `kDeleted` that it is registered without interest, `kNew` that it is not registered. Every
operation keeps it, and no call of `epoll_ctl` fails.
-/

namespace Muduo.Net

open Lib

variable {ι : Type}

namespace EPollPoller

variable {fd : ι → Int} {p p' : EPollPoller ι} {a : Interest ι} {c c' : ι} {op : ChannelOp}

/-- The poller represents the interest `a`, in channels with the descriptors `fd`. -/
structure Rep (fd : ι → Int) (p : EPollPoller ι) (a : Interest ι) : Prop where
  objects : Objects fd p.objects a
  channels : ∀ f c, p.channels f = some c ↔ f = fd c ∧ a.registered c = true
  unregistered : ∀ c, a.registered c = false → (p.objects c).index = kNew
  registered : ∀ c, a.registered c = true → (p.objects c).index = kAdded ∨
    (p.objects c).index = kDeleted ∧ (a.channel c).isNoneEvent = true
  interest : ∀ f m c, p.interest f = some (m, c) ↔
    f = fd c ∧ a.registered c = true ∧ (p.objects c).index = kAdded ∧ m = (a.channel c).events

theorem rep_new (fd : ι → Int) : Rep fd (new fd) Interest.new where
  objects _ := ⟨rfl, rfl⟩
  channels f c := by simp [new, Interest.new]
  unregistered _ _ := rfl
  registered c h := absurd h (by simp [Interest.new])
  interest f m c := by simp [new, Interest.new]

/-- **The kernel watches what it is to watch.** -/
theorem Rep.watched_eq (h : Rep fd p a) : p.watched = a.watched fd := by
  ext ⟨f, m⟩
  constructor
  · rintro ⟨c, hget, hne⟩
    obtain ⟨rfl, hc, -, rfl⟩ := (h.interest _ _ _).mp hget
    exact ⟨c, hc, rfl, hne⟩
  · rintro ⟨c, hc, hpair, hne⟩
    obtain ⟨rfl, rfl⟩ := Prod.mk.inj hpair
    refine ⟨c, (h.interest _ _ _).mpr ⟨rfl, hc, ?_, rfl⟩, hne⟩
    exact (h.registered c hc).resolve_right fun hdel => hne (isNoneEvent_iff.mp hdel.2)

/-! ## `epoll_ctl` -/

/-- `p` after the call of `epoll_ctl` that `update` makes. -/
def called (p : EPollPoller ι) (o : EPollOp) (c : ι) : List (EPollCtl ι) :=
  p.ctls ++ [⟨o, (p.objects c).fd, (p.objects c).channel.events, c⟩]

theorem update_add (h : p.interest (p.objects c).fd = none) : p.update .EPOLL_CTL_ADD c =
    .ok ⟨p.objects, p.channels,
      Function.update p.interest (p.objects c).fd (some ((p.objects c).channel.events, c)),
      p.called .EPOLL_CTL_ADD c⟩ := by
  unfold update epollCtl
  dsimp only
  rw [h]
  rfl

theorem update_mod (h : p.interest (p.objects c).fd ≠ none) : p.update .EPOLL_CTL_MOD c =
    .ok ⟨p.objects, p.channels,
      Function.update p.interest (p.objects c).fd (some ((p.objects c).channel.events, c)),
      p.called .EPOLL_CTL_MOD c⟩ := by
  obtain ⟨event, hevent⟩ := Option.ne_none_iff_exists'.mp h
  unfold update epollCtl
  dsimp only
  rw [hevent]
  rfl

theorem update_del (h : p.interest (p.objects c).fd ≠ none) : p.update .EPOLL_CTL_DEL c =
    .ok ⟨p.objects, p.channels, Function.update p.interest (p.objects c).fd none, p.called .EPOLL_CTL_DEL c⟩ := by
  obtain ⟨event, hevent⟩ := Option.ne_none_iff_exists'.mp h
  unfold update epollCtl
  dsimp only
  rw [hevent]
  rfl

section

variable [DecidableEq ι] (hfree : a.Free fd c)

omit [DecidableEq ι] in
include hfree in
/-- A descriptor is absent from the interest set unless the index says otherwise. -/
theorem Rep.interest_none (h : Rep fd p a) (hidx : (p.objects c).index ≠ kAdded) :
    p.interest (fd c) = none := by
  cases hcase : p.interest (fd c) with
  | none => rfl
  | some event =>
      obtain ⟨heq, hc', hadded, -⟩ := (h.interest _ event.1 event.2).mp hcase
      rw [hfree _ hc' heq.symm] at hadded
      exact absurd hadded hidx

/-- What an update of `c` does to the objects. -/
structure Updated (p : EPollPoller ι) (c : ι) (op : ChannelOp) (objects : ι → PolledChannel) (idx : Int) :
    Prop where
  fields : ∀ c', (objects c').fd = (setEvents p.objects c op c').fd ∧
    (objects c').channel = (setEvents p.objects c op c').channel
  self : (objects c).index = idx
  other : ∀ c', c' ≠ c → (objects c').index = (p.objects c').index

include hfree in
/-- **After an update**: the index is `kAdded` and the mask is in the interest set, or it is `kDeleted`. -/
theorem Rep.updated (h : Rep fd p a) {objects : ι → PolledChannel} {idx : Int} (hobj : Updated p c op objects idx)
    (hidx : idx = kAdded ∨ idx = kDeleted ∧ (op.apply (a.channel c)).isNoneEvent = true)
    {channels : Int → Option ι} (hchan : ∀ f c', channels f = some c' ↔
      f = fd c' ∧ (a.perform (.update c op)).registered c' = true) {ctls : List (EPollCtl ι)} :
    Rep fd ⟨objects, channels, Function.update p.interest (fd c)
      (if idx = kAdded then some ((op.apply (a.channel c)).events, c) else none), ctls⟩
      (a.perform (.update c op)) where
  objects := fun c' => by
    obtain ⟨hfd, hchannel⟩ := hobj.fields c'
    rw [hfd, hchannel]
    exact h.objects.setEvents c op c'
  channels := hchan
  unregistered := by
    intro c' hc'
    have hne : c' ≠ c := by
      rintro rfl
      rw [Interest.registered_update_self] at hc'
      exact absurd hc' (by decide)
    rw [Interest.registered_update_ne hne] at hc'
    exact (hobj.other c' hne).trans (h.unregistered c' hc')
  registered := by
    intro c' hc'
    by_cases heq : c' = c
    · subst heq
      rw [Interest.channel_update_self]
      show (objects c').index = _ ∨ (objects c').index = _ ∧ _
      rw [hobj.self]
      exact hidx
    · rw [Interest.registered_update_ne heq] at hc'
      rw [Interest.channel_update_ne heq]
      show (objects c').index = _ ∨ (objects c').index = _ ∧ _
      rw [hobj.other c' heq]
      exact h.registered c' hc'
  interest := by
    intro f m c'
    show Function.update _ _ _ f = _ ↔ _ ∧ _ ∧ (objects c').index = _ ∧ _
    by_cases hf : f = fd c
    · subst hf
      rw [Function.update_self]
      constructor
      · intro hget
        split at hget
        · next hadded =>
            cases hget
            refine ⟨rfl, Interest.registered_update_self, hobj.self.trans hadded, ?_⟩
            rw [Interest.channel_update_self]
        · cases hget
      · rintro ⟨heq, hc', hadded, rfl⟩
        obtain rfl : c' = c := by
          by_contra hcc
          rw [Interest.registered_update_ne hcc] at hc'
          exact hcc (hfree c' hc' heq.symm)
        rw [hobj.self] at hadded
        rw [if_pos hadded, Interest.channel_update_self]
    · rw [Function.update_of_ne hf, h.interest]
      refine and_congr_right fun heq => ?_
      have hne : c' ≠ c := fun hcc => hf (by rw [heq, hcc])
      rw [Interest.registered_update_ne hne, Interest.channel_update_ne hne, hobj.other c' hne]

theorem updated_setIndex (p : EPollPoller ι) (c : ι) (op : ChannelOp) (idx : Int) :
    Updated p c op (setIndex (setEvents p.objects c op) c idx) idx where
  fields c' := by
    by_cases heq : c' = c
    · rw [heq, setIndex_self]
      exact ⟨rfl, rfl⟩
    · rw [setIndex_ne _ _ heq]
      exact ⟨rfl, rfl⟩
  self := by rw [setIndex_self]
  other c' hne := by rw [setIndex_ne _ _ hne, setEvents_index]

theorem updated_setEvents {idx : Int} (h : (p.objects c).index = idx) :
    Updated p c op (setEvents p.objects c op) idx where
  fields _ := ⟨rfl, rfl⟩
  self := by rw [setEvents_index, h]
  other _ _ := setEvents_index

/-- The map is unchanged when the channel is already in it. -/
theorem Rep.channels_same (h : Rep fd p a) (hc : a.registered c = true) (f : Int) (c' : ι) :
    p.channels f = some c' ↔ f = fd c' ∧ (a.perform (.update c op)).registered c' = true := by
  rw [h.channels]
  by_cases heq : c' = c
  · rw [heq, Interest.registered_update_self, hc]
  · rw [Interest.registered_update_ne heq]

/-! ## The operations -/

include hfree in
/-- The end of `addChannel`, once the channel is in the map. -/
theorem Rep.added (h : Rep fd p a) (hidx : (p.objects c).index ≠ kAdded) {channels : Int → Option ι}
    (hchan : ∀ f c', channels f = some c' ↔ f = fd c' ∧ (a.perform (.update c op)).registered c' = true) :
    ∃ p', update ⟨setIndex (setEvents p.objects c op) c kAdded, channels, p.interest, p.ctls⟩ .EPOLL_CTL_ADD c =
      .ok p' ∧
      Rep fd p' (a.perform (.update c op)) := by
  have hobj := (h.objects.setEvents c op).setIndex (c := c) kAdded
  have hnone := h.interest_none hfree hidx
  refine ⟨_, update_add (by dsimp only; rw [(hobj c).1]; exact hnone), ?_⟩
  dsimp only
  rw [(hobj c).1, (hobj c).2, Interest.channel_update_self]
  exact h.updated hfree (updated_setIndex p c op kAdded) (Or.inl rfl) hchan

include hfree in
/-- A channel that is not in the interest set. -/
theorem perform_add (h : Rep fd p a) (hidx : (p.objects c).index = kNew ∨ (p.objects c).index = kDeleted)
    (op : ChannelOp) :
    ∃ p', p.perform (.update c op) = .ok p' ∧ Rep fd p' (a.perform (.update c op)) := by
  have hobj := h.objects.setEvents c op
  unfold perform updateChannel
  dsimp only
  rw [setEvents_index, if_pos hidx]
  unfold addChannel
  dsimp only
  rw [setEvents_index, (hobj c).1]
  cases hc : a.registered c with
  | false =>
      have hnew := h.unregistered c hc
      rw [if_pos hnew, assert_pos (channels_none hfree h.channels hc), ok_bind, ok_bind]
      exact h.added hfree (by rw [hnew]; decide) fun f c' => channels_update hfree h.channels f
  | true =>
      have hchan : p.channels (fd c) = some c := (h.channels _ _).mpr ⟨rfl, hc⟩
      have hdeleted : (p.objects c).index = kDeleted := by
        refine hidx.resolve_left fun hnew => ?_
        rcases h.registered c hc with hr | ⟨hr, -⟩ <;> rw [hr] at hnew <;> exact absurd hnew (by decide)
      rw [if_neg (by rw [hdeleted]; decide), assert_pos (by rw [hchan]; simp), ok_bind, assert_pos hchan, ok_bind,
        ok_bind]
      exact h.added hfree (by rw [hdeleted]; decide) (h.channels_same hc)

include hfree in
/-- A channel that is in the interest set. -/
theorem perform_modify (h : Rep fd p a) (hidx : (p.objects c).index = kAdded) (op : ChannelOp) :
    ∃ p', p.perform (.update c op) = .ok p' ∧ Rep fd p' (a.perform (.update c op)) := by
  have hobj := h.objects.setEvents c op
  have hc : a.registered c = true := by
    by_contra hc
    rw [h.unregistered c (by simpa using hc)] at hidx
    exact absurd hidx (by decide)
  have hchan : p.channels (fd c) = some c := (h.channels _ _).mpr ⟨rfl, hc⟩
  have hpresent : p.interest (setEvents p.objects c op c).fd ≠ none := by
    rw [(hobj c).1, (h.interest (fd c) (a.channel c).events c).mpr ⟨rfl, hc, hidx, rfl⟩]
    simp
  unfold perform updateChannel
  dsimp only
  rw [setEvents_index, if_neg (by rw [hidx]; decide)]
  unfold modifyChannel
  dsimp only
  rw [setEvents_index, (hobj c).1, (hobj c).2, Interest.channel_update_self, assert_pos (by rw [hchan]; simp),
    ok_bind, assert_pos hchan, ok_bind, assert_pos hidx, ok_bind]
  split
  · next hnone =>
      rw [update_del hpresent, ok_bind]
      refine ⟨_, rfl, ?_⟩
      dsimp only
      rw [(hobj c).1]
      exact h.updated hfree (updated_setIndex p c op kDeleted) (Or.inr ⟨rfl, hnone⟩) (h.channels_same hc)
  · rw [update_mod hpresent]
    refine ⟨_, rfl, ?_⟩
    dsimp only
    rw [(hobj c).1, (hobj c).2, Interest.channel_update_self]
    exact h.updated hfree (updated_setEvents hidx) (Or.inl rfl) (h.channels_same hc)

include hfree in
/-- **After a removal.** -/
theorem Rep.removed (h : Rep fd p a) (ctls : List (EPollCtl ι)) :
    Rep fd ⟨setIndex p.objects c kNew, Function.update p.channels (fd c) none,
      Function.update p.interest (fd c) none, ctls⟩ (a.perform (.remove c)) where
  objects := h.objects.setIndex _
  channels _ _ := channels_remove hfree h.channels _
  unregistered := by
    intro c' hc'
    show (setIndex _ _ _ c').index = kNew
    by_cases heq : c' = c
    · rw [heq, setIndex_self]
    · rw [Interest.registered_remove_ne heq] at hc'
      rw [setIndex_ne _ _ heq]
      exact h.unregistered c' hc'
  registered := by
    intro c' hc'
    obtain ⟨hne, hc'⟩ := Interest.registered_remove.mp hc'
    show (setIndex _ _ _ c').index = _ ∨ (setIndex _ _ _ c').index = _ ∧ _
    rw [setIndex_ne _ _ hne]
    exact h.registered c' hc'
  interest := by
    intro f m c'
    show Function.update _ _ _ f = _ ↔ _ ∧ _ ∧ (setIndex _ _ _ c').index = _ ∧ _
    rw [Interest.registered_remove]
    by_cases hf : f = fd c
    · rw [hf, Function.update_self]
      refine ⟨fun hget => absurd hget (by simp), ?_⟩
      rintro ⟨heq, ⟨hne, hc'⟩, -, -⟩
      exact absurd (hfree c' hc' heq.symm) hne
    · rw [Function.update_of_ne hf, h.interest]
      refine and_congr_right fun heq => ?_
      have hne : c' ≠ c := fun hcc => hf (by rw [heq, hcc])
      rw [setIndex_ne _ _ hne]
      simp only [hne, ne_eq, not_false_eq_true, true_and]
      rfl

/-- **`EPollPoller` refines its purpose**: every operation on it succeeds, and does to the interest what it is to
    do. -/
theorem perform_rep (h : Rep fd p a) (call : PollerCall ι) (hadm : a.Admits call)
    (hfree : a.Free fd call.channel) :
    ∃ p', p.perform call = .ok p' ∧ Rep fd p' (a.perform call) := by
  cases call with
  | update c op =>
      by_cases hidx : (p.objects c).index = kAdded
      · exact perform_modify hfree h hidx op
      · refine perform_add hfree h ?_ op
        cases hc : a.registered c with
        | false => exact Or.inl (h.unregistered c hc)
        | true => exact Or.inr ((h.registered c hc).resolve_left hidx).1
  | remove c =>
      obtain ⟨hc, hnone⟩ := hadm
      have hchan : p.channels (fd c) = some c := (h.channels _ _).mpr ⟨rfl, hc⟩
      have hreg := h.registered c hc
      unfold perform removeChannel Channel.remove
      dsimp only
      rw [(h.objects c).1, (h.objects c).2, assert_pos hnone, ok_bind, assert_pos (by rw [hchan]; simp), ok_bind,
        assert_pos hchan, ok_bind, ok_bind, assert_pos (hreg.imp_right And.left), ok_bind]
      by_cases hidx : (p.objects c).index = kAdded
      · have hpresent : p.interest (p.objects c).fd ≠ none := by
          rw [(h.objects c).1, (h.interest (fd c) (a.channel c).events c).mpr ⟨rfl, hc, hidx, rfl⟩]
          simp
        rw [if_pos hidx, update_del
          (p := ⟨p.objects, Function.update p.channels (fd c) none, p.interest, p.ctls⟩) hpresent,
          ok_bind]
        refine ⟨_, rfl, ?_⟩
        dsimp only
        rw [(h.objects c).1]
        exact h.removed hfree _
      · rw [if_neg hidx, ok_bind]
        refine ⟨_, rfl, ?_⟩
        have hsame : Function.update p.interest (fd c) none = p.interest := by
          rw [← h.interest_none hfree hidx]
          exact Function.update_eq_self _ _
        have hrem := h.removed hfree p.ctls (c := c)
        rw [hsame] at hrem
        exact hrem

end

end EPollPoller

end Muduo.Net
