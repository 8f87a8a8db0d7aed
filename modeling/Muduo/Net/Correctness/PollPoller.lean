import Muduo.Net.Correctness.PollTable

/-!
# `Correctness.PollPoller` — the vector of `PollPoller`

`Rep` is the correspondence of channels and entries: each registered channel has the entry at its index, and each
entry has its channel. An entry is marked as ignored by negating the descriptor in it, and the mark is never
taken back. So the kernel is given what it is to watch exactly as long as no ignored channel has become
interested again (`Rep.watched_eq_iff`).

Each operation has one lemma for each of the situations it can meet: `perform_add`, `perform_modify`,
`perform_stale`, `perform_remove` and `perform_remove_watched`.
-/

namespace Muduo.Net

open Lib

variable {ι : Type}

namespace PollPoller

variable {fd : ι → Int} {p p' : PollPoller ι} {a : Interest ι} {c c' : ι} {pfd : PollFd} {k : Nat}

/-- The poller represents the interest `a`, in channels with the descriptors `fd`. -/
structure Rep (fd : ι → Int) (p : PollPoller ι) (a : Interest ι) : Prop where
  objects : Objects fd p.objects a
  short : ∀ c, ShortMask (a.channel c).events
  channels : ∀ f c, p.channels f = some c ↔ f = fd c ∧ a.registered c = true
  entry : ∀ c, a.registered c = true → ∃ k pfd, p.Entry c k pfd ∧
    pfd.events = (a.channel c).events.setWidth 16 ∧ (pfd.fd = fd c ∨ pfd.fd = -fd c - 1)
  full : ∀ k < p.pollfds.length, ∃ c, a.registered c = true ∧ (p.objects c).index = k

/-- The entry of `c` is marked as ignored. -/
def Ignored (p : PollPoller ι) (c : ι) : Prop := ∃ k pfd, p.Entry c k pfd ∧ pfd.fd < 0

/-- Only channels without interest are ignored. -/
def Quiet (p : PollPoller ι) (a : Interest ι) : Prop :=
  ∀ c, a.registered c = true → p.Ignored c → (a.channel c).isNoneEvent = true

theorem rep_new (fd : ι → Int) : Rep fd (new fd) Interest.new where
  objects _ := ⟨rfl, rfl⟩
  short _ := Nat.two_pow_pos 15
  channels f c := by simp [new, Interest.new]
  entry c h := absurd h (by simp [Interest.new])
  full k h := absurd h (by simp [new])

theorem quiet_new (fd : ι → Int) : (new fd).Quiet Interest.new := by
  intro c h
  exact absurd h (by simp [Interest.new])

/-- The table behind the representation. -/
theorem Rep.table (h : Rep fd p a) : Table fd p where
  objects c := (h.objects c).1
  key f c hget := ((h.channels f c).mp hget).1
  entry := by
    intro c hc
    obtain ⟨k, pfd, he, -, hfd⟩ := h.entry c ((h.channels _ _).mp hc).2
    exact ⟨k, pfd, he, hfd⟩
  full := by
    intro k hk
    obtain ⟨c, hc, hindex⟩ := h.full k hk
    exact ⟨c, (h.channels _ _).mpr ⟨rfl, hc⟩, hindex⟩

/-- A table represents an interest if the objects, the map and the masks do. -/
theorem Table.rep (h : Table fd p) (hobj : Objects fd p.objects a) (hshort : ∀ c, ShortMask (a.channel c).events)
    (hchan : ∀ f c, p.channels f = some c ↔ f = fd c ∧ a.registered c = true)
    (hevents : ∀ c, a.registered c = true → ∃ k pfd, p.Entry c k pfd ∧
      pfd.events = (a.channel c).events.setWidth 16) : Rep fd p a where
  objects := hobj
  short := hshort
  channels := hchan
  entry := by
    intro c hc
    obtain ⟨k, pfd, he, hev⟩ := hevents c hc
    obtain ⟨k', pfd', he', hfd⟩ := h.entry c ((hchan _ _).mpr ⟨rfl, hc⟩)
    obtain ⟨rfl, rfl⟩ := he.unique he'
    exact ⟨k, pfd, he, hev, hfd⟩
  full := by
    intro k hk
    obtain ⟨c, hc, hindex⟩ := h.full k hk
    exact ⟨c, ((hchan _ _).mp hc).2, hindex⟩

section

variable (hinj : Function.Injective fd) (hpos : ∀ c, 0 ≤ fd c)

include hinj hpos in
/-- An entry tells its channel. -/
theorem owner_eq (h : pfd.fd = fd c ∨ pfd.fd = -fd c - 1) (h' : pfd.fd = fd c' ∨ pfd.fd = -fd c' - 1) :
    c = c' := hinj (fd_eq_of_entry hpos h h')

/-- Every entry has its channel. -/
theorem Rep.exists_owner (h : Rep fd p a) (hmem : pfd ∈ p.pollfds) : ∃ c k, a.registered c = true ∧
    p.Entry c k pfd ∧ pfd.events = (a.channel c).events.setWidth 16 ∧ (pfd.fd = fd c ∨ pfd.fd = -fd c - 1) := by
  obtain ⟨k, hk, hget⟩ := List.getElem_of_mem hmem
  obtain ⟨c, hc, hindex⟩ := h.full k hk
  obtain ⟨k', pfd', he, hevents, hfd⟩ := h.entry c hc
  have hget' : p.pollfds[k]? = some pfd := by rw [List.getElem?_eq_getElem hk, hget]
  obtain ⟨rfl, rfl⟩ := he.unique ⟨hindex, hget'⟩
  exact ⟨c, k', hc, he, hevents, hfd⟩

include hinj hpos in
/-- **What the kernel is given is what it is to watch**, exactly if no interested channel is ignored. -/
theorem Rep.watched_eq_iff (h : Rep fd p a) : p.watched = a.watched fd ↔ p.Quiet a := by
  constructor
  · intro heq c hc ⟨k, pfd, he, hneg⟩
    by_contra hnone
    rw [isNoneEvent_iff] at hnone
    -- the pair of `c` would have an entry that is not ignored
    have hmem : (fd c, (a.channel c).events) ∈ p.watched := by
      rw [heq]
      exact ⟨c, hc, rfl, hnone⟩
    obtain ⟨pfd', hmem', hnonneg, hpair, -⟩ := hmem
    obtain ⟨c', k', -, he', -, hfd'⟩ := h.exists_owner hmem'
    obtain rfl : c = c' := owner_eq hinj hpos (Or.inl (Prod.mk.inj hpair).1.symm) hfd'
    obtain ⟨-, rfl⟩ := he.unique he'
    omega
  · intro hquiet
    ext ⟨f, m⟩
    constructor
    · rintro ⟨pfd, hmem, hnonneg, hpair, hne⟩
      obtain ⟨c, k, hc, -, hevents, hfd⟩ := h.exists_owner hmem
      have hfd' : pfd.fd = fd c := hfd.resolve_right (by have := hpos c; omega)
      refine ⟨c, hc, ?_, hne⟩
      rw [hpair, hfd', hevents, (h.short c).round_trip]
    · rintro ⟨c, hc, hpair, hne⟩
      obtain ⟨k, pfd, he, hevents, hfd⟩ := h.entry c hc
      have hfd' : pfd.fd = fd c := by
        refine hfd.resolve_right fun hneg => hne ?_
        rw [hpair]
        refine isNoneEvent_iff.mp (hquiet c hc ⟨k, pfd, he, ?_⟩)
        have := hpos c
        omega
      refine ⟨pfd, List.mem_of_getElem? he.get, by rw [hfd']; exact hpos c, ?_, hne⟩
      rw [hpair, hfd', hevents, (h.short c).round_trip]

end

/-! ## The operations -/

/-- A channel that is registered has an index. -/
theorem Rep.not_registered (h : Rep fd p a) (hidx : (p.objects c).index < 0) : a.registered c = false := by
  by_contra hc
  obtain ⟨k, pfd, he, -, -⟩ := h.entry c (by simpa using hc)
  have := he.index
  omega

/-- What became of the entry of a channel decides whether it is ignored. -/
theorem Entry.ignored_iff (h : p.Entry c k pfd) : p.Ignored c ↔ pfd.fd < 0 := by
  constructor
  · rintro ⟨k', pfd', h', hneg⟩
    rw [(h.unique h').2]
    exact hneg
  · intro hneg
    exact ⟨k, pfd, h, hneg⟩

/-- The other channels are ignored or not as before. -/
def Spares (p p' : PollPoller ι) (a : Interest ι) (c : ι) : Prop :=
  ∀ c', c' ≠ c → a.registered c' = true → (p'.Ignored c' ↔ p.Ignored c')

/-- They are when they have kept their entries. -/
theorem Rep.spares (h : Rep fd p a) (hkept : ∀ c' k pfd, c' ≠ c → a.registered c' = true → p.Entry c' k pfd →
    ∃ k', p'.Entry c' k' pfd) : Spares p p' a c := by
  intro c' hne hc'
  obtain ⟨k, pfd, he, -, -⟩ := h.entry c' hc'
  obtain ⟨k', he'⟩ := hkept c' k pfd hne hc' he
  rw [he'.ignored_iff, he.ignored_iff]

section

variable [DecidableEq ι] (hinj : Function.Injective fd)

/-- The table that the poller is called with, once the mask has been changed. -/
theorem Rep.table_setEvents (h : Rep fd p a) (c : ι) (op : ChannelOp) :
    Table fd { p with objects := setEvents p.objects c op } :=
  h.table.of_objects fun c' =>
    ⟨((h.objects.setEvents c op) c').1.trans ((h.objects c').1).symm, setEvents_index⟩

/-- The entries after an update of `c`. -/
theorem Rep.updated (h : Rep fd p a) {idx : Int} {pfd : PollFd}
    (hobj : p'.objects = setIndex (setEvents p.objects c op) c idx)
    (hchan : ∀ f c', p'.channels f = some c' ↔ f = fd c' ∧ (a.perform (.update c op)).registered c' = true)
    (hself : p'.Entry c k pfd) (hev : pfd.events = (op.apply (a.channel c)).events.setWidth 16)
    (htable : Table fd p') (hkept : Kept fd { p with objects := setEvents p.objects c op } p' c) :
    Rep fd p' (a.perform (.update c op)) ∧ Spares p p' a c := by
  have hother : ∀ c' k pfd, c' ≠ c → a.registered c' = true → p.Entry c' k pfd → ∃ k', p'.Entry c' k' pfd := by
    intro c' k pfd hne hc' he
    exact hkept.entry c' k pfd hne ((h.channels _ _).mpr ⟨rfl, hc'⟩) ⟨setEvents_index.trans he.index, he.get⟩
  refine ⟨htable.rep ?_ (shortMask_update h.short) hchan ?_, h.spares hother⟩
  · rw [hobj]
    exact (h.objects.setEvents c op).setIndex _
  · intro c' hc'
    by_cases heq : c' = c
    · subst heq
      exact ⟨k, pfd, hself, by rw [hev, Interest.channel_update_self]⟩
    · rw [Interest.registered_update_ne heq] at hc'
      obtain ⟨k', pfd', he, hev', -⟩ := h.entry c' hc'
      obtain ⟨k'', he'⟩ := hother c' k' pfd' heq hc' he
      exact ⟨k'', pfd', he', by rw [Interest.channel_update_ne heq]; exact hev'⟩

include hinj in
/-- **A channel that is not there yet** gets an entry at the end, which is not ignored. -/
theorem perform_add (h : Rep fd p a) (hidx : (p.objects c).index < 0) (hpos : ∀ c, 0 ≤ fd c) (op : ChannelOp) :
    ∃ p', p.perform (.update c op) = .ok p' ∧ Rep fd p' (a.perform (.update c op)) ∧
      ¬ p'.Ignored c ∧ Spares p p' a c := by
  have hfree : a.Free fd c := Interest.free_of_injective hinj
  have hnone := channels_none hfree h.channels (h.not_registered hidx)
  obtain ⟨p', hp', hobj, hchan, hself, htable, hkept⟩ := (h.table_setEvents c op).addChannel hnone
  have hchan' : ∀ f c', p'.channels f = some c' ↔
      f = fd c' ∧ (a.perform (.update c op)).registered c' = true := by
    intro f c'
    rw [hchan]
    exact channels_update hfree h.channels f
  have hev : (setEvents p.objects c op c).channel = op.apply (a.channel c) := by
    rw [((h.objects.setEvents c op) c).2, Interest.channel_update_self]
  obtain ⟨hrep, hspares⟩ := h.updated hobj hchan' hself (by dsimp only; rw [hev]) htable hkept
  refine ⟨p', ?_, hrep, ?_, hspares⟩
  · unfold perform updateChannel
    dsimp only
    rw [if_pos (by rw [setEvents_index]; exact hidx)]
    exact hp'
  · rw [hself.ignored_iff]
    exact not_lt.mpr (hpos c)

include hinj in
/-- A channel that was removed is not in the map any more, but has still its index. -/
theorem perform_stale (h : Rep fd p a) (hidx : 0 ≤ (p.objects c).index) (hc : a.registered c = false)
    (op : ChannelOp) : p.perform (.update c op) = .error .assertion := by
  have hobj := h.objects.setEvents c op
  unfold perform updateChannel
  dsimp only
  rw [if_neg (by rw [setEvents_index]; exact not_lt.mpr hidx)]
  unfold modifyChannel
  dsimp only
  rw [(hobj c).1, assert_neg (not_not.mpr (channels_none (Interest.free_of_injective hinj) h.channels hc))]
  rfl

/-- **A channel that is there**: its entry gets the mask, and a mark if the mask is empty. -/
theorem perform_modify (h : Rep fd p a) (hc : a.registered c = true) (hpos : ∀ c, 0 ≤ fd c) (op : ChannelOp) :
    ∃ p', p.perform (.update c op) = .ok p' ∧ Rep fd p' (a.perform (.update c op)) ∧
      (p'.Ignored c ↔ p.Ignored c ∨ (op.apply (a.channel c)).isNoneEvent = true) ∧ Spares p p' a c := by
  obtain ⟨k, pfd, he, -, -⟩ := h.entry c hc
  have hget : p.channels (fd c) = some c := (h.channels _ _).mpr ⟨rfl, hc⟩
  have hindex : (setEvents p.objects c op c).index = k := setEvents_index.trans he.index
  have hev : (setEvents p.objects c op c).channel = op.apply (a.channel c) := by
    rw [((h.objects.setEvents c op) c).2, Interest.channel_update_self]
  obtain ⟨p', hp', hobj, hchan, hself, htable, hkept⟩ :=
    (h.table_setEvents c op).modifyChannel hpos hget ⟨hindex, he.get⟩
  dsimp only at hself
  rw [hev] at hself
  have hobj' : p'.objects = setIndex (setEvents p.objects c op) c k := by
    rw [hobj]
    exact (setIndex_eq_self hindex).symm
  have hchan' : ∀ f c', p'.channels f = some c' ↔
      f = fd c' ∧ (a.perform (.update c op)).registered c' = true := by
    intro f c'
    rw [hchan]
    show p.channels f = some c' ↔ _
    rw [h.channels]
    by_cases heq : c' = c
    · rw [heq, Interest.registered_update_self, hc]
    · rw [Interest.registered_update_ne heq]
  obtain ⟨hrep, hspares⟩ := h.updated hobj' hchan' hself rfl htable hkept
  refine ⟨p', ?_, hrep, ?_, hspares⟩
  · unfold perform updateChannel
    dsimp only
    rw [hindex, if_neg (not_lt.mpr (Int.natCast_nonneg k))]
    exact hp'
  · rw [hself.ignored_iff, he.ignored_iff]
    have := hpos c
    dsimp only
    split
    · next hnone => exact ⟨fun _ => Or.inr hnone, fun _ => by omega⟩
    · next hnone => exact ⟨Or.inl, fun hor => hor.resolve_right hnone⟩

/-! ## Removing an entry -/

/-- A removal goes as far as the test of the entry. -/
theorem perform_remove_eq (h : Rep fd p a) (hc : a.registered c = true)
    (hnone : (a.channel c).isNoneEvent = true) (he : p.Entry c k pfd)
    (hevents : pfd.events = (a.channel c).events.setWidth 16) :
    p.perform (.remove c) = (do
      assert (pfd.fd = -fd c - 1)
      { p with channels := Function.update p.channels (fd c) none }.removeEntry k) := by
  have hchan : p.channels (fd c) = some c := (h.channels _ _).mpr ⟨rfl, hc⟩
  have hzero : pfd.events.signExtend 32 = (a.channel c).events := by
    rw [hevents, isNoneEvent_iff.mp hnone]
    rfl
  have hlt := he.lt
  unfold perform removeChannel Channel.remove
  dsimp only
  rw [(h.objects c).1, (h.objects c).2, assert_pos hnone, ok_bind, assert_pos (by rw [hchan]; simp), ok_bind,
    assert_pos hchan, ok_bind, ok_bind, he.index, assert_pos ⟨Int.natCast_nonneg k, by omega⟩, ok_bind,
    Int.toNat_natCast, he.get]
  dsimp only
  by_cases hfd : pfd.fd = -fd c - 1
  · rw [assert_pos hfd, assert_pos ⟨hfd, hzero⟩]
  · rw [assert_neg hfd, assert_neg fun hboth => hfd hboth.1]

/-- An entry that is not ignored fails the test. -/
theorem perform_remove_watched (h : Rep fd p a) (hc : a.registered c = true)
    (hnone : (a.channel c).isNoneEvent = true) (hnot : ¬ p.Ignored c) (hpos : ∀ c, 0 ≤ fd c) :
    p.perform (.remove c) = .error .assertion := by
  obtain ⟨k, pfd, he, hevents, -⟩ := h.entry c hc
  rw [he.ignored_iff] at hnot
  have := hpos c
  rw [perform_remove_eq h hc hnone he hevents, assert_neg (by omega)]
  rfl

/-- What is left after the entry `k` of `c` was removed: the other channels have their entries, and there are no
    others. -/
structure Removed (fd : ι → Int) (p p' : PollPoller ι) (a : Interest ι) (c : ι) : Prop where
  objects : Objects fd p'.objects a
  channels : p'.channels = Function.update p.channels (fd c) none
  kept : ∀ c' k pfd, c' ≠ c → a.registered c' = true → p.Entry c' k pfd → ∃ k', p'.Entry c' k' pfd
  full : ∀ k < p'.pollfds.length, ∃ c', c' ≠ c ∧ a.registered c' = true ∧ (p'.objects c').index = k

theorem Rep.removed (h : Rep fd p a) (hpos : ∀ c, 0 ≤ fd c) (hc : a.registered c = true) (he : p.Entry c k pfd) :
    ∃ p', { p with channels := Function.update p.channels (fd c) none }.removeEntry k = .ok p' ∧
      Removed fd p p' a c := by
  obtain ⟨p', hp', hobj, hchan, hentry, hfull⟩ := h.table.removeEntry hpos ((h.channels _ _).mpr ⟨rfl, hc⟩) he
  refine ⟨p', hp', ?_, hchan, ?_, ?_⟩
  · intro c'
    rw [(hobj c').1, (hobj c').2]
    exact h.objects c'
  · intro c' k' pfd' hne hc' he'
    exact hentry c' k' pfd' hne ((h.channels _ _).mpr ⟨rfl, hc'⟩) he'
  · intro j hj
    obtain ⟨c', hne, hc', hindex⟩ := hfull j hj
    exact ⟨c', hne, ((h.channels _ _).mp hc').2, hindex⟩

include hinj in
/-- **Removing an ignored entry.** -/
theorem perform_remove (h : Rep fd p a) (hpos : ∀ c, 0 ≤ fd c) (hc : a.registered c = true)
    (hnone : (a.channel c).isNoneEvent = true) (hign : p.Ignored c) :
    ∃ p', p.perform (.remove c) = .ok p' ∧ Rep fd p' (a.perform (.remove c)) ∧ Spares p p' a c := by
  obtain ⟨k, pfd, he, hevents, hfd⟩ := h.entry c hc
  rw [he.ignored_iff] at hign
  have hneg : pfd.fd = -fd c - 1 := hfd.resolve_left (by have := hpos c; omega)
  obtain ⟨p', hp', hrem⟩ := h.removed hpos hc he
  refine ⟨p', ?_, ⟨hrem.objects, h.short, ?_, ?_, ?_⟩, ?_⟩
  · rw [perform_remove_eq h hc hnone he hevents, assert_pos hneg, ok_bind, hp']
  · intro f c'
    rw [hrem.channels]
    exact channels_remove (Interest.free_of_injective hinj) h.channels f
  · intro c' hc'
    obtain ⟨hne, hc'⟩ := Interest.registered_remove.mp hc'
    obtain ⟨k', pfd', he', hevents', hfd'⟩ := h.entry c' hc'
    obtain ⟨k'', he''⟩ := hrem.kept c' k' pfd' hne hc' he'
    exact ⟨k'', pfd', he'', hevents', hfd'⟩
  · intro j hj
    obtain ⟨c', hne, hc', hindex⟩ := hrem.full j hj
    exact ⟨c', Interest.registered_remove.mpr ⟨hne, hc'⟩, hindex⟩
  · exact h.spares hrem.kept

end

end PollPoller

end Muduo.Net
