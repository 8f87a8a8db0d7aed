import Muduo.Lib.System
import Muduo.Net.Correctness.PollTable

/-!
# `Correctness.PollIndex` — the index table over whole runs, and what `fillActiveChannels` makes of it

Between calls the masks may become anything, and `poll(2)` writes into `pollfds_`. In every run of calls that meet
the assertions at their entry the table is kept, so these calls return and no call touches the entry of another
channel; and each poll hands out the channels with events, once each (`index_table`).

Descriptors need not be distinct for ever: a channel is only told apart from those that are registered with it, and
this is asserted when it is added.
-/

namespace Muduo.Net

open Lib

variable {ι : Type}

/-! ## The runs -/

/-- What is asked of the poller, and the change of a mask in between. -/
inductive PollRequest (ι : Type) where
  | events (c : ι) (mask : EventMask)
  | updateChannel (c : ι)
  | removeChannel (c : ι)

/-- The channel that is meant. -/
def PollRequest.channel : PollRequest ι → ι
  | .events c _ | .updateChannel c | .removeChannel c => c

inductive PollAction (ι : Type) where
  | request (r : PollRequest ι)
  | poll (pollfds : List PollFd) -- what `poll(2)` makes of `pollfds_`

/-- What `poll(2)` makes of an entry: it sets `revents`, to zero if the descriptor is negative. -/
structure Polled (pfd pfd' : PollFd) : Prop where
  fd : pfd'.fd = pfd.fd
  events : pfd'.events = pfd.events
  ignored : pfd'.fd < 0 → pfd'.revents = 0
  nonneg : 0 ≤ pfd'.revents.toInt

/-- The result of `poll(2)`: the number of entries with events. -/
def numEvents (pollfds : List PollFd) : Nat := pollfds.countP fun pfd => pfd.revents != 0

namespace PollPoller

/-- The assertions at the entry. -/
def accepts (p : PollPoller ι) : PollRequest ι → Prop
  | .events _ _ => True
  | .updateChannel c =>
      let channel := p.objects c
      if channel.index < 0 then p.channels channel.fd = none
      else p.channels channel.fd = some c ∧ (0 ≤ channel.index ∧ channel.index < p.pollfds.length) ∧
        ∀ pfd, p.pollfds[channel.index.toNat]? = some pfd → pfd.fd = channel.fd ∨ pfd.fd = -channel.fd - 1
  | .removeChannel c =>
      let channel := p.objects c
      p.channels channel.fd = some c ∧ channel.channel.isNoneEvent = true ∧
        (0 ≤ channel.index ∧ channel.index < p.pollfds.length) ∧
        ∀ pfd, p.pollfds[channel.index.toNat]? = some pfd →
          pfd.fd = -channel.fd - 1 ∧ pfd.events.signExtend 32 = channel.channel.events

variable [DecidableEq ι]

def serve (p : PollPoller ι) : PollRequest ι → Outcome (PollPoller ι)
  | .events c mask =>
      let channel := p.objects c
      .ok { p with
        objects := Function.update p.objects c { channel with channel := { channel.channel with events := mask } } }
  | .updateChannel c => p.updateChannel c
  | .removeChannel c => p.removeChannel c

/-- `poll` up to the list of active channels, which the loop takes. -/
def poll (p : PollPoller ι) (pollfds : List PollFd) (activeChannels : List ι) : Outcome (PollPoller ι × List ι) :=
  { p with pollfds }.fillActiveChannels (numEvents pollfds) activeChannels

end PollPoller

/-- A poller in use, on channels with the descriptors `fd`. -/
def pollSystem [DecidableEq ι] (fd : ι → Int) : System (PollPoller ι) (PollAction ι) where
  init p := p = PollPoller.new fd
  enabled p
    | .request r => p.accepts r
    | .poll pollfds => List.Forall₂ Polled p.pollfds pollfds
  exec p
    | .request r => p.serve r
    | .poll pollfds => do
        let (p, _) ← p.poll pollfds []
        .ok p

namespace PollPoller

variable {fd : ι → Int} {p p' : PollPoller ι} {c c' : ι} {pfd : PollFd} {pfds : List PollFd} {k : Nat}

/-! ## The requests -/

section

variable [DecidableEq ι]

/-- An update that is accepted: the channel is in the map then. -/
theorem Table.updateChannel (h : Table fd p) (hpos : ∀ c, 0 ≤ fd c) (hacc : p.accepts (.updateChannel c)) :
    ∃ p', p.updateChannel c = .ok p' ∧ p'.channels = Function.update p.channels (fd c) (some c) ∧
      Table fd p' ∧ Kept fd p p' c := by
  have hacc : if (p.objects c).index < 0 then p.channels (p.objects c).fd = none else _ := hacc
  rw [h.objects] at hacc
  unfold PollPoller.updateChannel
  by_cases hidx : (p.objects c).index < 0
  · rw [if_pos hidx] at hacc ⊢
    obtain ⟨p', hp', -, hchan, -, htable, hkept⟩ := h.addChannel hacc
    exact ⟨p', hp', hchan, htable, hkept⟩
  · rw [if_neg hidx] at hacc ⊢
    obtain ⟨k, pfd, he, -⟩ := h.entry c hacc.1
    obtain ⟨p', hp', -, hchan, -, htable, hkept⟩ := h.modifyChannel hpos hacc.1 he
    -- it was there already
    exact ⟨p', hp', by rw [hchan, Function.update_eq_self_iff.mpr hacc.1.symm], htable, hkept⟩

/-- A removal that is accepted: the descriptor has no channel then. -/
theorem Table.removeChannel (h : Table fd p) (hpos : ∀ c, 0 ≤ fd c) (hacc : p.accepts (.removeChannel c)) :
    ∃ p', p.removeChannel c = .ok p' ∧ p'.channels = Function.update p.channels (fd c) none ∧
      Table fd p' ∧ Kept fd p p' c := by
  obtain ⟨hc, hnone, hrange, hentry⟩ := hacc
  rw [h.objects] at hc hentry
  obtain ⟨k, pfd, he, -⟩ := h.entry c hc
  rw [he.index, Int.toNat_natCast] at hentry
  rw [he.index] at hrange
  obtain ⟨p', hp', -, hchan, htable, hkept⟩ := h.removed hpos hc he
  refine ⟨p', ?_, hchan, htable, hkept⟩
  unfold PollPoller.removeChannel
  dsimp only
  rw [h.objects, assert_pos (by rw [hc]; simp), ok_bind, assert_pos hc, ok_bind, assert_pos hnone, ok_bind, he.index,
    assert_pos hrange, ok_bind, Int.toNat_natCast, he.get]
  dsimp only
  rw [assert_pos (hentry pfd he.get), ok_bind, hp']

/-- **Every request that is accepted returns**, keeps the table, and leaves the other channels alone. -/
theorem Table.serve (h : Table fd p) (hpos : ∀ c, 0 ≤ fd c) {r : PollRequest ι} (hacc : p.accepts r) :
    ∃ p', p.serve r = .ok p' ∧ Table fd p' ∧ Kept fd p p' r.channel := by
  cases r with
  | events c mask =>
      refine ⟨_, rfl, h.of_objects ?_, ⟨?_, fun _ _ => Iff.rfl, ?_⟩⟩
      · intro c'
        by_cases heq : c' = c
        · rw [heq, Function.update_self]
          exact ⟨rfl, rfl⟩
        · rw [Function.update_of_ne heq]
          exact ⟨rfl, rfl⟩
      · intro c' hne
        have hne : c' ≠ c := hne
        dsimp only
        rw [Function.update_of_ne hne]
      · intro c' k pfd hne _ he
        have hne : c' ≠ c := hne
        refine ⟨k, ?_, he.get⟩
        dsimp only
        rw [Function.update_of_ne hne]
        exact he.index
  | updateChannel c =>
      obtain ⟨p', hp', -, htable, hkept⟩ := h.updateChannel hpos hacc
      exact ⟨p', hp', htable, hkept⟩
  | removeChannel c =>
      obtain ⟨p', hp', -, htable, hkept⟩ := h.removeChannel hpos hacc
      exact ⟨p', hp', htable, hkept⟩

end

/-! ## `fillActiveChannels` -/

/-- The channels with events, in the order of their entries. -/
def ready (p : PollPoller ι) (pfds : List PollFd) : List ι :=
  pfds.filterMap fun pfd => if pfd.revents = 0 then none else p.channels pfd.fd

theorem mem_ready : c ∈ p.ready pfds ↔ ∃ pfd ∈ pfds, pfd.revents ≠ 0 ∧ p.channels pfd.fd = some c := by
  unfold ready
  rw [List.mem_filterMap]
  refine exists_congr fun pfd => and_congr_right fun _ => ?_
  by_cases hzero : pfd.revents = 0 <;> simp [hzero]

/-- Entries with events have different descriptors. -/
def Distinct (pfds : List PollFd) : Prop :=
  pfds.Pairwise fun pfd pfd' => pfd.revents ≠ 0 → pfd'.revents ≠ 0 → pfd.fd ≠ pfd'.fd

/-- The channels with events have them, and the others are as they were. -/
structure Filled (p : PollPoller ι) (pfds : List PollFd) (objects : ι → PolledChannel) : Prop where
  fields : ∀ c, (objects c).fd = (p.objects c).fd ∧ (objects c).index = (p.objects c).index
  set : ∀ pfd ∈ pfds, pfd.revents ≠ 0 → ∀ c, p.channels pfd.fd = some c →
    (objects c).channel = (p.objects c).channel.set_revents (pfd.revents.signExtend 32)
  other : ∀ c, (∀ pfd ∈ pfds, pfd.revents ≠ 0 → p.channels pfd.fd ≠ some c) → objects c = p.objects c

theorem numEvents_cons : numEvents (pfd :: pfds) = numEvents pfds + if pfd.revents = 0 then 0 else 1 := by
  unfold numEvents
  rw [List.countP_cons]
  by_cases hzero : pfd.revents = 0 <;> simp [hzero]

theorem ready_cons_zero (hzero : pfd.revents = 0) : p.ready (pfd :: pfds) = p.ready pfds := by
  unfold ready
  exact List.filterMap_cons_none (if_pos hzero)

theorem ready_cons (hzero : pfd.revents ≠ 0) (hc : p.channels pfd.fd = some c) :
    p.ready (pfd :: pfds) = c :: p.ready pfds := by
  unfold ready
  exact List.filterMap_cons_some (by rw [if_neg hzero, hc])

/-- An entry without events is passed over. -/
theorem Filled.cons_zero {objects : ι → PolledChannel} (h : Filled p pfds objects) (hzero : pfd.revents = 0) :
    Filled p (pfd :: pfds) objects where
  fields := h.fields
  set := by
    intro pfd' hmem hne
    obtain rfl | hmem := List.mem_cons.mp hmem
    · exact absurd hzero hne
    · exact h.set pfd' hmem hne
  other c hnone := h.other c fun pfd' hmem => hnone pfd' (List.mem_cons_of_mem _ hmem)

/-- An entry with events gives them to its channel, and no later one gives it others. -/
theorem Filled.cons [DecidableEq ι] {objects : ι → PolledChannel}
    (h : Filled { p with objects := setRevents p.objects c (pfd.revents.signExtend 32) } pfds objects)
    (hzero : pfd.revents ≠ 0) (hc : p.channels pfd.fd = some c)
    (hother : ∀ pfd' ∈ pfds, pfd'.revents ≠ 0 → p.channels pfd'.fd ≠ some c) : Filled p (pfd :: pfds) objects where
  fields := by
    intro c'
    obtain ⟨hfd, hidx, -⟩ := setRevents_fields p.objects c c' (pfd.revents.signExtend 32)
    exact ⟨(h.fields c').1.trans hfd, (h.fields c').2.trans hidx⟩
  set := by
    intro pfd' hmem hne c' hc'
    obtain rfl | hmem := List.mem_cons.mp hmem
    · obtain rfl := Option.some.inj (hc.symm.trans hc')
      -- no later entry is for this channel
      rw [h.other c hother]
      show (setRevents _ _ _ _).channel = _
      rw [setRevents_self]
    · have hcc : c' ≠ c := by
        rintro rfl
        exact hother pfd' hmem hne hc'
      rw [h.set pfd' hmem hne c' hc']
      show (setRevents _ _ _ _).channel.set_revents _ = _
      rw [setRevents_ne _ _ hcc]
  other := by
    intro c' hnone
    have hcc : c' ≠ c := by
      rintro rfl
      exact hnone pfd List.mem_cons_self hzero hc
    rw [h.other c' fun pfd' hmem => hnone pfd' (List.mem_cons_of_mem _ hmem)]
    exact setRevents_ne _ _ hcc

theorem revents_pos (h : 0 ≤ pfd.revents.toInt) : pfd.revents.toInt > 0 ↔ pfd.revents ≠ 0 := by
  constructor
  · intro hpos hzero
    rw [hzero] at hpos
    simp at hpos
  · intro hne
    refine lt_of_le_of_ne h fun heq => hne ?_
    exact BitVec.eq_of_toInt_eq heq.symm

variable [DecidableEq ι]

/-- The loop is left once all events have been seen. -/
theorem fillFrom_none (h : numEvents pfds = 0) (active : List ι) :
    p.fillFrom (numEvents pfds) active pfds = .ok (p, active) ∧ p.ready pfds = [] ∧ Filled p pfds p.objects := by
  have hzero : ∀ pfd ∈ pfds, pfd.revents = 0 := by
    intro pfd hmem
    have hcount := List.countP_eq_zero.mp h pfd hmem
    simpa using hcount
  refine ⟨?_, ?_, ⟨fun _ => ⟨rfl, rfl⟩, ?_, fun _ _ => rfl⟩⟩
  · rw [h]
    cases pfds with
    | nil => rfl
    | cons pfd pfds => rfl
  · unfold ready
    rw [List.filterMap_eq_nil_iff]
    intro pfd hmem
    rw [if_pos (hzero pfd hmem)]
  · intro pfd hmem hne
    exact absurd (hzero pfd hmem) hne

/-- **The loop**: every channel with events is appended, in the order of the entries, and gets its events. -/
theorem fillFrom_ok (hrev : ∀ pfd ∈ pfds, 0 ≤ pfd.revents.toInt)
    (howner : ∀ pfd ∈ pfds, pfd.revents ≠ 0 → ∃ c, p.channels pfd.fd = some c)
    (hfd : ∀ f c, p.channels f = some c → (p.objects c).fd = f) (hdistinct : Distinct pfds) (active : List ι) :
    ∃ objects, p.fillFrom (numEvents pfds) active pfds = .ok ({ p with objects }, active ++ p.ready pfds) ∧
      Filled p pfds objects := by
  induction pfds generalizing p active with
  | nil =>
      have hn : numEvents [] = 0 := rfl
      obtain ⟨hfill, hready, hfilled⟩ := fillFrom_none (p := p) hn active
      exact ⟨p.objects, by rw [hfill, hready, List.append_nil], hfilled⟩
  | cons pfd pfds ih =>
      by_cases hn : numEvents (pfd :: pfds) = 0
      · obtain ⟨hfill, hready, hfilled⟩ := fillFrom_none (p := p) hn active
        exact ⟨p.objects, by rw [hfill, hready, List.append_nil], hfilled⟩
      have hrest : ∀ pfd' ∈ pfds, 0 ≤ pfd'.revents.toInt := fun pfd' hmem => hrev pfd' (List.mem_cons_of_mem _ hmem)
      obtain ⟨hhead, htail⟩ := List.pairwise_cons.mp hdistinct
      unfold fillFrom
      rw [if_pos (by omega)]
      by_cases hzero : pfd.revents = 0
      · -- the entry is passed over
        obtain ⟨objects, hfill, hfilled⟩ := ih hrest
          (fun pfd' hmem => howner pfd' (List.mem_cons_of_mem _ hmem)) hfd htail active
        rw [if_neg (by rw [revents_pos (hrev _ List.mem_cons_self)]; simpa using hzero), numEvents_cons,
          if_pos hzero, Nat.add_zero, ready_cons_zero hzero]
        exact ⟨objects, hfill, hfilled.cons_zero hzero⟩
      -- the entry is counted, and its channel appended
      · obtain ⟨c, hc⟩ := howner pfd List.mem_cons_self hzero
        let p₁ : PollPoller ι := { p with objects := setRevents p.objects c (pfd.revents.signExtend 32) }
        have hfd₁ : ∀ f c', p₁.channels f = some c' → (p₁.objects c').fd = f := by
          intro f c' hget
          rw [← hfd f c' hget]
          exact (setRevents_fields p.objects c c' _).1
        obtain ⟨objects, hfill, hfilled⟩ := ih (p := p₁) hrest
          (fun pfd' hmem => howner pfd' (List.mem_cons_of_mem _ hmem)) hfd₁ htail (active ++ [c])
        have hother : ∀ pfd' ∈ pfds, pfd'.revents ≠ 0 → p.channels pfd'.fd ≠ some c := by
          intro pfd' hmem hne hc'
          exact hhead pfd' hmem hzero hne ((hfd _ _ hc).symm.trans (hfd _ _ hc'))
        have hcount : (numEvents (pfd :: pfds) : Int) - 1 = numEvents pfds := by
          rw [numEvents_cons, if_neg hzero]
          omega
        rw [if_pos ((revents_pos (hrev _ List.mem_cons_self)).mpr hzero), assert_pos (by rw [hc]; simp), ok_bind, hc]
        dsimp only
        rw [assert_pos (hfd _ _ hc), ok_bind, hcount, ready_cons hzero hc]
        refine ⟨objects, ?_, hfilled.cons hzero hc hother⟩
        rw [hfill, List.append_assoc]
        rfl

/-! ## Polls -/

omit [DecidableEq ι] in
/-- Each entry has become one that `poll(2)` makes of it. -/
theorem polled_get {pfds' : List PollFd} (hpoll : List.Forall₂ Polled pfds pfds') (hget : pfds'[k]? = some pfd) :
    ∃ old, pfds[k]? = some old ∧ Polled old pfd := by
  obtain ⟨hlen, hall⟩ := List.forall₂_iff_get.mp hpoll
  obtain ⟨hk, rfl⟩ := List.getElem?_eq_some_iff.mp hget
  exact ⟨_, List.getElem?_eq_getElem (by omega), hall k (by omega) hk⟩

omit [DecidableEq ι] in
/-- **`poll(2)` keeps the table**: it changes no descriptor. -/
theorem Table.polled (h : Table fd p) (hpoll : List.Forall₂ Polled p.pollfds pfds) :
    Table fd { p with pollfds := pfds } where
  objects := h.objects
  key := h.key
  entry := by
    intro c hc
    obtain ⟨k, old, he, hfd⟩ := h.entry c hc
    have hlt : k < pfds.length := hpoll.length_eq ▸ he.lt
    obtain ⟨pfd, hget⟩ : ∃ pfd, pfds[k]? = some pfd := ⟨_, List.getElem?_eq_getElem hlt⟩
    obtain ⟨old', hget', hpolled⟩ := polled_get hpoll hget
    obtain rfl := Option.some.inj (he.get.symm.trans hget')
    exact ⟨k, pfd, ⟨he.index, hget⟩, by rw [hpolled.fd]; exact hfd⟩
  full := by
    intro k hk
    exact h.full k (by rw [hpoll.length_eq]; exact hk)

/-- What the assumptions on `poll(2)` say of the entries it leaves. -/
def Sound (pfds : List PollFd) : Prop := ∀ pfd ∈ pfds, (pfd.fd < 0 → pfd.revents = 0) ∧ 0 ≤ pfd.revents.toInt

omit [DecidableEq ι] in
theorem sound_of_polled {pfds' : List PollFd} (hpoll : List.Forall₂ Polled pfds pfds') : Sound pfds' := by
  intro pfd hmem
  obtain ⟨k, hk, hget⟩ := List.getElem_of_mem hmem
  obtain ⟨old, -, hpolled⟩ := polled_get (k := k) hpoll (by rw [List.getElem?_eq_getElem hk, hget])
  exact ⟨hpolled.ignored, hpolled.nonneg⟩

omit [DecidableEq ι] in
/-- An entry with events has the descriptor of its channel. -/
theorem Table.owner_ready (h : Table fd p) (hpos : ∀ c, 0 ≤ fd c) (hsound : Sound p.pollfds)
    (hget : p.pollfds[k]? = some pfd) (hne : pfd.revents ≠ 0) :
    ∃ c, p.Entry c k pfd ∧ pfd.fd = fd c ∧ p.channels pfd.fd = some c := by
  obtain ⟨c, hc, he, hfd⟩ := h.owner hget
  -- a negated descriptor has no events
  have hnonneg : 0 ≤ pfd.fd := by
    by_contra hneg
    exact hne ((hsound pfd (List.mem_of_getElem? hget)).1 (by omega))
  have hfd' : pfd.fd = fd c := by
    have := hpos c
    omega
  exact ⟨c, he, hfd', by rw [hfd']; exact hc⟩

omit [DecidableEq ι] in
/-- Two entries with events have two channels. -/
theorem Table.distinct (h : Table fd p) (hpos : ∀ c, 0 ≤ fd c) (hsound : Sound p.pollfds) : Distinct p.pollfds := by
  refine List.pairwise_iff_getElem.mpr fun i j hi hj hij hne hne' heq => ?_
  obtain ⟨c, he, -, hc⟩ := h.owner_ready hpos hsound (List.getElem?_eq_getElem hi) hne
  obtain ⟨c', he', -, hc'⟩ := h.owner_ready hpos hsound (List.getElem?_eq_getElem hj) hne'
  rw [heq, hc'] at hc
  obtain rfl := Option.some.inj hc
  -- one channel has one index
  have := (he.unique he').1
  omega

omit [DecidableEq ι] in
theorem Table.ready_nodup (h : Table fd p) (hdistinct : Distinct pfds) : (p.ready pfds).Nodup := by
  unfold ready
  refine List.pairwise_filterMap.mpr (hdistinct.imp fun {pfd pfd'} hne c hc c' hc' heq => ?_)
  have hzero : pfd.revents ≠ 0 := fun hzero => by simp [hzero] at hc
  have hzero' : pfd'.revents ≠ 0 := fun hzero => by simp [hzero] at hc'
  rw [if_neg hzero] at hc
  rw [if_neg hzero'] at hc'
  subst heq
  exact hne hzero hzero' ((h.key _ _ hc).trans (h.key _ _ hc').symm)

omit [DecidableEq ι] in
/-- A channel is ready when it is registered and its entry has events. -/
theorem Table.mem_ready_iff (h : Table fd p) (hpos : ∀ c, 0 ≤ fd c) (hsound : Sound p.pollfds) :
    c ∈ p.ready p.pollfds ↔ p.channels (fd c) = some c ∧ ∃ k pfd, p.Entry c k pfd ∧ pfd.revents ≠ 0 := by
  rw [mem_ready]
  constructor
  · rintro ⟨pfd, hmem, hne, hc⟩
    obtain ⟨k, hk, hget⟩ := List.getElem_of_mem hmem
    obtain ⟨c', he, hfd, hc'⟩ := h.owner_ready hpos hsound (by rw [List.getElem?_eq_getElem hk, hget]) hne
    obtain rfl := Option.some.inj (hc.symm.trans hc')
    exact ⟨by rw [← hfd]; exact hc, k, pfd, he, hne⟩
  · rintro ⟨hc, k, pfd, he, hne⟩
    obtain ⟨c', he', hfd', hc'⟩ := h.owner_ready hpos hsound he.get hne
    have hcc : c = c' := h.index_inj hpos hc (by rw [← hfd']; exact hc') (he.index.trans he'.index.symm)
    exact ⟨pfd, List.mem_of_getElem? he.get, hne, by rw [hcc]; exact hc'⟩

/-- **Every poll** keeps the table and hands out the channels that have events, once each, with the events of their
    entries. -/
theorem Table.poll (h : Table fd p) (hpos : ∀ c, 0 ≤ fd c) (hpoll : List.Forall₂ Polled p.pollfds pfds)
    (active : List ι) : ∃ p' l, p.poll pfds active = .ok (p', active ++ l) ∧ Table fd p' ∧ l.Nodup ∧
      (∀ c, c ∈ l ↔ p.channels (fd c) = some c ∧
        ∃ (k : Nat) (pfd : PollFd), (p.objects c).index = k ∧ pfds[k]? = some pfd ∧ pfd.revents ≠ 0) ∧
      (∀ c ∈ l, ∀ (k : Nat) (pfd : PollFd), (p.objects c).index = k → pfds[k]? = some pfd →
        (p'.objects c).channel = (p.objects c).channel.set_revents (pfd.revents.signExtend 32)) ∧
      ∀ c, c ∉ l → p'.objects c = p.objects c := by
  let q : PollPoller ι := { p with pollfds := pfds }
  have hq : Table fd q := h.polled hpoll
  have hsound : Sound q.pollfds := sound_of_polled hpoll
  have howner : ∀ pfd ∈ pfds, pfd.revents ≠ 0 → ∃ c, q.channels pfd.fd = some c := by
    intro pfd hmem hne
    obtain ⟨k, hk, hget⟩ := List.getElem_of_mem hmem
    obtain ⟨c, -, -, hc⟩ := hq.owner_ready hpos hsound (by rw [List.getElem?_eq_getElem hk, hget]) hne
    exact ⟨c, hc⟩
  have hfd : ∀ f c, q.channels f = some c → (q.objects c).fd = f := fun f c hc =>
    (hq.objects c).trans (hq.key f c hc).symm
  have hdistinct := hq.distinct hpos hsound
  obtain ⟨objects, hfill, hfilled⟩ := fillFrom_ok (fun pfd hmem => (hsound pfd hmem).2) howner hfd hdistinct active
  have hmem : ∀ c, c ∈ q.ready pfds ↔ _ := fun c => hq.mem_ready_iff hpos hsound
  refine ⟨_, q.ready pfds, hfill, hq.of_objects hfilled.fields, hq.ready_nodup hdistinct, ?_, ?_, ?_⟩
  · intro c
    rw [hmem]
    refine and_congr_right fun _ => exists_congr fun k => exists_congr fun pfd => ?_
    exact ⟨fun ⟨he, hne⟩ => ⟨he.index, he.get, hne⟩, fun ⟨hindex, hget, hne⟩ => ⟨⟨hindex, hget⟩, hne⟩⟩
  · intro c hc k pfd hindex hget
    obtain ⟨hreg, k', pfd', he, hne⟩ := (hmem c).mp hc
    obtain ⟨rfl, rfl⟩ := he.unique ⟨hindex, hget⟩
    obtain ⟨c', he', hfd', hc'⟩ := hq.owner_ready hpos hsound he.get hne
    have hcc : c = c' := hq.index_inj hpos hreg (by rw [← hfd']; exact hc') (he.index.trans he'.index.symm)
    exact hfilled.set pfd' (List.mem_of_getElem? he.get) hne c (by rw [hcc]; exact hc')
  · intro c hc
    refine hfilled.other c fun pfd hmem' hne hget => hc ?_
    exact mem_ready.mpr ⟨pfd, hmem', hne, hget⟩

/-! ## The table -/

/-- The descriptor that an entry is for. -/
def keyOf (pfd : PollFd) : Int := if pfd.fd < 0 then -pfd.fd - 1 else pfd.fd

omit [DecidableEq ι] in
theorem keyOf_eq (hpos : 0 ≤ fd c) (h : pfd.fd = fd c ∨ pfd.fd = -fd c - 1) : keyOf pfd = fd c := by
  unfold keyOf
  split <;> omega

omit [DecidableEq ι] in
/-- The keys of the map, one for each entry. -/
theorem Table.keys (h : Table fd p) (hpos : ∀ c, 0 ≤ fd c) :
    ∃ keys : Finset Int, (∀ f, f ∈ keys ↔ p.channels f ≠ none) ∧ keys.card = p.pollfds.length := by
  have hkey : ∀ {k pfd}, p.pollfds[k]? = some pfd → ∃ c, p.channels (fd c) = some c ∧ p.Entry c k pfd ∧
      keyOf pfd = fd c := by
    intro k pfd hget
    obtain ⟨c, hc, he, hfd⟩ := h.owner hget
    exact ⟨c, hc, he, keyOf_eq (hpos c) hfd⟩
  have hnodup : (p.pollfds.map keyOf).Nodup := by
    refine List.pairwise_map.mpr (List.pairwise_iff_getElem.mpr fun i j hi hj hij heq => ?_)
    obtain ⟨c, hc, he, hkc⟩ := hkey (List.getElem?_eq_getElem hi)
    obtain ⟨c', hc', he', hkc'⟩ := hkey (List.getElem?_eq_getElem hj)
    obtain rfl : c = c' := channel_unique hc hc' (by rw [← hkc, ← hkc', heq])
    have := (he.unique he').1
    omega
  refine ⟨(p.pollfds.map keyOf).toFinset, ?_, by rw [List.toFinset_card_of_nodup hnodup, List.length_map]⟩
  intro f
  rw [List.mem_toFinset, List.mem_map]
  constructor
  · rintro ⟨pfd, hmem, rfl⟩
    obtain ⟨k, hk, hget⟩ := List.getElem_of_mem hmem
    obtain ⟨c, hc, -, hkc⟩ := hkey (by rw [List.getElem?_eq_getElem hk, hget])
    rw [hkc, hc]
    simp
  · intro hne
    obtain ⟨c, hc⟩ := Option.ne_none_iff_exists'.mp hne
    obtain rfl := h.key f c hc
    obtain ⟨k, pfd, he, hfd⟩ := h.entry c hc
    exact ⟨pfd, List.mem_of_getElem? he.get, keyOf_eq (hpos c) hfd⟩

theorem reachable_table (hpos : ∀ c, 0 ≤ fd c) (h : (pollSystem fd).Reachable p) : Table fd p := by
  refine System.keeps (I := Table fd) ?_ ?_ h
  · rintro p rfl
    exact table_new fd
  · intro p action p' htable hallow hp'
    cases action with
    | request r =>
        obtain ⟨p₁, hp₁, htable₁, -⟩ := htable.serve hpos hallow
        obtain rfl := Except.ok.inj (hp₁.symm.trans hp')
        exact htable₁
    | poll pollfds =>
        obtain ⟨p₁, l, hp₁, htable₁, -⟩ := htable.poll hpos hallow []
        have hp' : (p.poll pollfds [] >>= fun r => Except.ok r.1) = .ok p' := hp'
        rw [hp₁, ok_bind] at hp'
        obtain rfl := Except.ok.inj hp'
        exact htable₁

/-- **The index table is a bijection**, in every run: the map has as many keys as there are entries; each registered
    channel has the entry at its index, and no two have the same; each request that is accepted returns and leaves
    the others alone, an update with its channel in the map and a removal without it; and each poll hands out the
    channels that have events, once each, with their own. -/
theorem index_table (hpos : ∀ c, 0 ≤ fd c) (h : (pollSystem fd).Reachable p) :
    (∃ keys : Finset Int, (∀ f, f ∈ keys ↔ p.channels f ≠ none) ∧ keys.card = p.pollfds.length) ∧
    (∀ c, (p.objects c).fd = fd c) ∧ (∀ f c, p.channels f = some c → f = fd c) ∧
    (∀ c, p.channels (fd c) = some c → (0 ≤ (p.objects c).index ∧ (p.objects c).index < p.pollfds.length) ∧
      ∃ k pfd, p.Entry c k pfd ∧ (pfd.fd = fd c ∨ pfd.fd = -fd c - 1)) ∧
    (∀ c c', p.channels (fd c) = some c → p.channels (fd c') = some c' → c ≠ c' →
      (p.objects c).index ≠ (p.objects c').index) ∧
    (∀ r, p.accepts r → ∃ p', p.serve r = .ok p' ∧ Kept fd p p' r.channel) ∧
    (∀ c, p.accepts (.updateChannel c) → ∃ p', p.updateChannel c = .ok p' ∧
      p'.channels = Function.update p.channels (fd c) (some c)) ∧
    (∀ c, p.accepts (.removeChannel c) → ∃ p', p.removeChannel c = .ok p' ∧
      p'.channels = Function.update p.channels (fd c) none) ∧
    (∀ pfds active, List.Forall₂ Polled p.pollfds pfds →
      ∃ p' l, p.poll pfds active = .ok (p', active ++ l) ∧ l.Nodup ∧
      (∀ c, c ∈ l ↔ p.channels (fd c) = some c ∧
        ∃ (k : Nat) (pfd : PollFd), (p.objects c).index = k ∧ pfds[k]? = some pfd ∧ pfd.revents ≠ 0) ∧
      (∀ c ∈ l, ∀ (k : Nat) (pfd : PollFd), (p.objects c).index = k → pfds[k]? = some pfd →
        (p'.objects c).channel = (p.objects c).channel.set_revents (pfd.revents.signExtend 32)) ∧
      ∀ c, c ∉ l → p'.objects c = p.objects c) := by
  have htable := reachable_table hpos h
  refine ⟨htable.keys hpos, htable.objects, htable.key, ?_, ?_, ?_, ?_, ?_, ?_⟩
  · intro c hc
    obtain ⟨k, pfd, he, hfd⟩ := htable.entry c hc
    have hlt := he.lt
    exact ⟨by rw [he.index]; omega, k, pfd, he, hfd⟩
  · intro c c' hc hc' hne heq
    exact hne (htable.index_inj hpos hc hc' heq)
  · intro r hacc
    obtain ⟨p', hp', -, hkept⟩ := htable.serve hpos hacc
    exact ⟨p', hp', hkept⟩
  · intro c hacc
    obtain ⟨p', hp', hchan, -⟩ := htable.updateChannel hpos hacc
    exact ⟨p', hp', hchan⟩
  · intro c hacc
    obtain ⟨p', hp', hchan, -⟩ := htable.removeChannel hpos hacc
    exact ⟨p', hp', hchan⟩
  · intro pfds active hpoll
    obtain ⟨p', l, hp', -, hl⟩ := htable.poll hpos hpoll active
    exact ⟨p', l, hp', hl⟩

/-- An ignored entry takes the place of the one that is removed. -/
theorem index_table_moved : ∃ p : PollPoller Nat, (pollSystem fun c : Nat => c).Reachable p ∧
    p.pollfds = [⟨-3, 0, 0⟩, ⟨1, 0, 0⟩] ∧ (p.objects 2).index = 0 ∧
    (∀ c c' : Nat, p.channels c = some c → p.channels c' = some c' → c ≠ c' →
      (p.objects c).index ≠ (p.objects c').index) ∧
    ∃ p' l, p.poll [⟨-3, 0, 0⟩, ⟨1, 0, 1⟩] [] = .ok (p', l) ∧ 1 ∈ l ∧ l.Nodup := by
  have h := (System.Reachable.init (S := pollSystem fun c : Nat => c) rfl)
    |>.next (.request (.updateChannel 0)) rfl rfl
    |>.next (.request (.updateChannel 1)) rfl rfl
    |>.next (.request (.updateChannel 2)) rfl rfl
    |>.next (.request (.updateChannel 2)) ⟨rfl, by decide, fun pfd hget => Or.inl (by cases hget; rfl)⟩ rfl
    |>.next (.request (.updateChannel 0)) ⟨rfl, by decide, fun pfd hget => Or.inl (by cases hget; rfl)⟩ rfl
    |>.next (.request (.removeChannel 0)) ⟨rfl, rfl, by decide, fun pfd hget => by cases hget; exact ⟨rfl, rfl⟩⟩ rfl
  obtain ⟨p, hp, hfds, hidx, hchan, hidx'⟩ : ∃ p : PollPoller Nat, (pollSystem fun c : Nat => c).Reachable p ∧
      p.pollfds = [⟨-3, 0, 0⟩, ⟨1, 0, 0⟩] ∧ (p.objects 2).index = 0 ∧ p.channels 1 = some 1 ∧
      (p.objects 1).index = 1 := ⟨_, h, rfl, rfl, rfl, rfl⟩
  obtain ⟨-, -, -, -, hdistinct, -, -, -, hpoll⟩ := index_table Int.natCast_nonneg hp
  have hpolled : List.Forall₂ Polled p.pollfds [⟨-3, 0, 0⟩, ⟨1, 0, 1⟩] := by
    rw [hfds]
    exact .cons ⟨rfl, rfl, fun _ => rfl, by decide⟩
      (.cons ⟨rfl, rfl, fun hneg => absurd hneg (by decide), by decide⟩ .nil)
  obtain ⟨p', l, hp', hnodup, hmem, -⟩ := hpoll _ [] hpolled
  exact ⟨p, hp, hfds, hidx, hdistinct, p', l, hp', (hmem 1).mpr ⟨hchan, 1, ⟨1, 0, 1⟩, hidx', rfl, by decide⟩, hnodup⟩

end PollPoller

end Muduo.Net
