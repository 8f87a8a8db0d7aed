import Muduo.Net.Correctness.Poller

/-!
# `Correctness.PollTable` — the index table of `PollPoller`

The index of a registered channel is the position of its entry in `pollfds_`, and the descriptor in the entry, which
may be negated, tells the channel through the map (`Table`). A removal moves the last entry and patches the index of
the channel that it belongs to: the table says that there is one, whatever has been removed before.

Each operation has one lemma: which table it leaves, and that the entries of the other channels are as before, though
perhaps at another position (`Kept`). Nothing is said here about the masks of the channels, which may be anything.
-/

namespace Muduo.Net

open Lib

variable {ι : Type}

namespace PollPoller

variable {fd : ι → Int} {p p' : PollPoller ι} {c c' m : ι} {pfd : PollFd} {k : Nat}

/-- The entry of the channel `c` is `pfd`, at position `k`. -/
structure Entry (p : PollPoller ι) (c : ι) (k : Nat) (pfd : PollFd) : Prop where
  index : (p.objects c).index = k
  get : p.pollfds[k]? = some pfd

theorem Entry.lt (h : p.Entry c k pfd) : k < p.pollfds.length := (List.getElem?_eq_some_iff.mp h.get).1

theorem Entry.unique {k' : Nat} {pfd' : PollFd} (h : p.Entry c k pfd) (h' : p.Entry c k' pfd') :
    k = k' ∧ pfd = pfd' := by
  obtain rfl : k = k' := by
    have := h.index.symm.trans h'.index
    omega
  exact ⟨rfl, Option.some.inj (h.get.symm.trans h'.get)⟩

/-- The table, for channels with the descriptors `fd`. -/
structure Table (fd : ι → Int) (p : PollPoller ι) : Prop where
  objects : ∀ c, (p.objects c).fd = fd c
  key : ∀ f c, p.channels f = some c → f = fd c
  entry : ∀ c, p.channels (fd c) = some c → ∃ k pfd, p.Entry c k pfd ∧ (pfd.fd = fd c ∨ pfd.fd = -fd c - 1)
  full : ∀ k < p.pollfds.length, ∃ c, p.channels (fd c) = some c ∧ (p.objects c).index = k

/-- What a call on `c` leaves alone: which other channels are registered, their masks, and their entries. -/
structure Kept (fd : ι → Int) (p p' : PollPoller ι) (c : ι) : Prop where
  channel : ∀ c', c' ≠ c → (p'.objects c').channel = (p.objects c').channel
  registered : ∀ c', c' ≠ c → (p'.channels (fd c') = some c' ↔ p.channels (fd c') = some c')
  entry : ∀ c' k pfd, c' ≠ c → p.channels (fd c') = some c' → p.Entry c' k pfd → ∃ k', p'.Entry c' k' pfd

/-- Objects with the same descriptors and indices have the same table. -/
theorem Table.of_objects (h : Table fd p) {objects : ι → PolledChannel}
    (hobj : ∀ c, (objects c).fd = (p.objects c).fd ∧ (objects c).index = (p.objects c).index) :
    Table fd { p with objects := objects } where
  objects c := (hobj c).1.trans (h.objects c)
  key := h.key
  entry := by
    intro c hc
    obtain ⟨k, pfd, he, hfd⟩ := h.entry c hc
    exact ⟨k, pfd, ⟨(hobj c).2.trans he.index, he.get⟩, hfd⟩
  full := by
    intro k hk
    obtain ⟨c, hc, hindex⟩ := h.full k hk
    exact ⟨c, hc, (hobj c).2.trans hindex⟩

theorem table_new (fd : ι → Int) : Table fd (new fd) where
  objects _ := rfl
  key f c h := absurd h (by simp [new])
  entry c h := absurd h (by simp [new])
  full k h := absurd h (by simp [new])

section

variable (hpos : ∀ c, 0 ≤ fd c)

include hpos in
/-- An entry tells the descriptor of its channel. -/
theorem fd_eq_of_entry (h : pfd.fd = fd c ∨ pfd.fd = -fd c - 1) (h' : pfd.fd = fd c' ∨ pfd.fd = -fd c' - 1) :
    fd c = fd c' := by
  have := hpos c
  have := hpos c'
  omega

/-- The map holds one channel for a descriptor. -/
theorem channel_unique {channels : Int → Option ι} (hc : channels (fd c) = some c) (hc' : channels (fd c') = some c')
    (heq : fd c = fd c') : c = c' := by
  rw [heq, hc'] at hc
  exact (Option.some.inj hc).symm

include hpos in
/-- **Indices are distinct.** -/
theorem Table.index_inj (h : Table fd p) (hc : p.channels (fd c) = some c) (hc' : p.channels (fd c') = some c')
    (heq : (p.objects c).index = (p.objects c').index) : c = c' := by
  obtain ⟨k, pfd, he, hfd⟩ := h.entry c hc
  obtain ⟨k', pfd', he', hfd'⟩ := h.entry c' hc'
  obtain rfl : k = k' := by
    have := he.index
    have := he'.index
    omega
  obtain rfl : pfd = pfd' := Option.some.inj (he.get.symm.trans he'.get)
  exact channel_unique hc hc' (fd_eq_of_entry hpos hfd hfd')

/-- Every position has its channel. -/
theorem Table.owner (h : Table fd p) (hget : p.pollfds[k]? = some pfd) :
    ∃ c, p.channels (fd c) = some c ∧ p.Entry c k pfd ∧ (pfd.fd = fd c ∨ pfd.fd = -fd c - 1) := by
  obtain ⟨c, hc, hindex⟩ := h.full k (List.getElem?_eq_some_iff.mp hget).1
  obtain ⟨k', pfd', he, hfd⟩ := h.entry c hc
  obtain ⟨rfl, rfl⟩ := he.unique ⟨hindex, hget⟩
  exact ⟨c, hc, he, hfd⟩

include hpos in
/-- The last entry belongs to some channel, and this is the one whose index is changed. -/
theorem Table.last (h : Table fd p) (he : p.Entry c k pfd) (hk : k ≠ p.pollfds.length - 1) :
    ∃ m last, m ≠ c ∧ p.channels (fd m) = some m ∧ p.Entry m (p.pollfds.length - 1) last ∧
      p.pollfds.getLast? = some last ∧ (if last.fd < 0 then -last.fd - 1 else last.fd) = fd m := by
  have hlt := he.lt
  obtain ⟨last, hget⟩ : ∃ last, p.pollfds[p.pollfds.length - 1]? = some last :=
    ⟨_, List.getElem?_eq_getElem (by omega)⟩
  obtain ⟨m, hm, he', hfd'⟩ := h.owner hget
  refine ⟨m, last, ?_, hm, he', ?_, ?_⟩
  · rintro rfl
    exact hk (he.unique he').1
  · rw [List.getLast?_eq_getElem?]
    exact hget
  · have := hpos m
    split <;> omega

end

/-! ## `updateChannel` -/

section

variable [DecidableEq ι]

/-- **A channel that is not there yet** gets an entry at the end. -/
theorem Table.addChannel (h : Table fd p) (hc : p.channels (fd c) = none) :
    ∃ p', p.addChannel c = .ok p' ∧ p'.objects = setIndex p.objects c p.pollfds.length ∧
      p'.channels = Function.update p.channels (fd c) (some c) ∧
      p'.Entry c p.pollfds.length ⟨fd c, (p.objects c).channel.events.setWidth 16, 0⟩ ∧
      Table fd p' ∧ Kept fd p p' c := by
  have hlen : ((p.pollfds ++ [⟨fd c, (p.objects c).channel.events.setWidth 16, 0⟩] : List PollFd).length : Int) - 1 =
      p.pollfds.length := by
    rw [List.length_append, List.length_singleton]
    omega
  let p' : PollPoller ι := ⟨setIndex p.objects c p.pollfds.length, Function.update p.channels (fd c) (some c),
    p.pollfds ++ [⟨fd c, (p.objects c).channel.events.setWidth 16, 0⟩]⟩
  have hself : p'.Entry c p.pollfds.length ⟨fd c, (p.objects c).channel.events.setWidth 16, 0⟩ :=
    ⟨by simp [p'], by simp [p']⟩
  have hother : ∀ c' k pfd, c' ≠ c → p.Entry c' k pfd → p'.Entry c' k pfd := by
    intro c' k pfd hne he
    refine ⟨?_, by rw [List.getElem?_append_left he.lt]; exact he.get⟩
    show (setIndex _ _ _ c').index = k
    rw [setIndex_ne _ _ hne, he.index]
  -- the descriptor was free, so no other channel that has it is registered
  have hreg : ∀ c', c' ≠ c → (p'.channels (fd c') = some c' ↔ p.channels (fd c') = some c') := by
    intro c' hne
    show Function.update _ _ _ (fd c') = _ ↔ _
    by_cases heq : fd c' = fd c
    · rw [heq, Function.update_self, hc]
      simp [hne.symm]
    · rw [Function.update_of_ne heq]
  have hregSelf : p'.channels (fd c) = some c := Function.update_self ..
  have hne : ∀ c', p.channels (fd c') = some c' → c' ≠ c := by
    rintro c' hc' rfl
    rw [hc] at hc'
    cases hc'
  refine ⟨p', ?_, rfl, rfl, hself, ⟨?_, ?_, ?_, ?_⟩, ⟨?_, hreg, ?_⟩⟩
  · unfold PollPoller.addChannel
    dsimp only
    rw [h.objects, assert_pos hc, ok_bind, hlen]
  · intro c'
    show (setIndex _ _ _ c').fd = fd c'
    by_cases heq : c' = c
    · rw [heq, setIndex_self]
      exact h.objects c
    · rw [setIndex_ne _ _ heq]
      exact h.objects c'
  · intro f c' hget
    have hget : Function.update p.channels (fd c) (some c) f = some c' := hget
    by_cases hf : f = fd c
    · rw [hf, Function.update_self] at hget
      rw [hf, Option.some.inj hget]
    · rw [Function.update_of_ne hf] at hget
      exact h.key f c' hget
  · intro c' hc'
    by_cases heq : c' = c
    · subst heq
      exact ⟨_, _, hself, Or.inl rfl⟩
    · obtain ⟨k, pfd, he, hfd⟩ := h.entry c' ((hreg c' heq).mp hc')
      exact ⟨k, pfd, hother c' k pfd heq he, hfd⟩
  · intro k hk
    -- position `k` belongs to a channel that was there, or to the new one
    by_cases hlt : k < p.pollfds.length
    · obtain ⟨c', hc', hindex⟩ := h.full k hlt
      refine ⟨c', (hreg c' (hne c' hc')).mpr hc', ?_⟩
      show (setIndex _ _ _ c').index = k
      rw [setIndex_ne _ _ (hne c' hc'), hindex]
    · have hlen' : p'.pollfds.length = p.pollfds.length + 1 := List.length_append
      obtain rfl : k = p.pollfds.length := by omega
      exact ⟨c, hregSelf, hself.index⟩
  · intro c' hne
    show (setIndex _ _ _ c').channel = _
    rw [setIndex_ne _ _ hne]
  · intro c' k pfd hne _ he
    exact ⟨k, hother c' k pfd hne he⟩

/-- **A channel that is there**: its entry gets the mask, and is marked as ignored if the mask is empty. -/
theorem Table.modifyChannel (h : Table fd p) (hpos : ∀ c, 0 ≤ fd c) (hc : p.channels (fd c) = some c)
    (he : p.Entry c k pfd) :
    ∃ p', p.modifyChannel c = .ok p' ∧ p'.objects = p.objects ∧ p'.channels = p.channels ∧
      p'.Entry c k ⟨if (p.objects c).channel.isNoneEvent then -fd c - 1 else pfd.fd,
        (p.objects c).channel.events.setWidth 16, 0⟩ ∧
      Table fd p' ∧ Kept fd p p' c := by
  obtain ⟨k', pfd', he', hfd⟩ := h.entry c hc
  obtain ⟨rfl, rfl⟩ := he.unique he'
  let pfd' : PollFd := ⟨if (p.objects c).channel.isNoneEvent then -fd c - 1 else pfd.fd,
    (p.objects c).channel.events.setWidth 16, 0⟩
  have hfd' : pfd'.fd = fd c ∨ pfd'.fd = -fd c - 1 := by
    show (if _ then _ else _) = _ ∨ (if _ then _ else _) = _
    split
    · exact Or.inr rfl
    · exact hfd
  let p' : PollPoller ι := { p with pollfds := p.pollfds.set k pfd' }
  have hself : p'.Entry c k pfd' := ⟨he.index, List.getElem?_set_self he.lt⟩
  have hother : ∀ c' k' pfd', c' ≠ c → p.channels (fd c') = some c' → p.Entry c' k' pfd' → p'.Entry c' k' pfd' := by
    intro c' k' pfd' hne hc' he'
    -- the entry that is written is not that of another channel
    have hk : k ≠ k' := by
      rintro rfl
      exact hne (h.index_inj hpos hc' hc (he'.index.trans he.index.symm))
    exact ⟨he'.index, by rw [List.getElem?_set_ne hk]; exact he'.get⟩
  refine ⟨p', ?_, rfl, rfl, hself, ⟨h.objects, h.key, ?_, ?_⟩, ⟨fun _ _ => rfl, fun _ _ => Iff.rfl, ?_⟩⟩
  · have hlt := he.lt
    unfold PollPoller.modifyChannel
    dsimp only
    rw [h.objects, he.index, assert_pos (by rw [hc]; simp), ok_bind, assert_pos hc, ok_bind,
      assert_pos ⟨Int.natCast_nonneg k, by omega⟩, ok_bind, Int.toNat_natCast, he.get]
    dsimp only
    rw [assert_pos hfd, ok_bind]
    split
    · next hnone => simp only [p', pfd', hnone, if_true]
    · next hnone => simp only [p', pfd', if_neg hnone]
  · intro c' hc'
    by_cases heq : c' = c
    · subst heq
      exact ⟨k, pfd', hself, hfd'⟩
    · obtain ⟨k', pfd'', he', hfd''⟩ := h.entry c' hc'
      exact ⟨k', pfd'', hother c' k' pfd'' heq hc' he', hfd''⟩
  · intro k' hk'
    exact h.full k' (by rw [List.length_set] at hk'; exact hk')
  · intro c' k' pfd'' hne hc' he'
    exact ⟨k', hother c' k' pfd'' hne hc' he'⟩

/-! ## `removeChannel` -/

omit [DecidableEq ι] in
/-- The entry of `c` is the last one. -/
theorem Table.removed_last (h : Table fd p) (hpos : ∀ c, 0 ≤ fd c) (hc : p.channels (fd c) = some c)
    (he : p.Entry c k pfd) (hk : k = p.pollfds.length - 1) :
    (∀ c' k pfd, c' ≠ c → p.channels (fd c') = some c' → p.Entry c' k pfd →
      Entry { p with pollfds := p.pollfds.dropLast } c' k pfd) ∧
    ∀ j : Nat, j < p.pollfds.dropLast.length →
      ∃ c', c' ≠ c ∧ p.channels (fd c') = some c' ∧ (p.objects c').index = j := by
  constructor
  · intro c' k' pfd' hne hc' he'
    have hk' : k' ≠ k := by
      rintro rfl
      exact hne (h.index_inj hpos hc' hc (he'.index.trans he.index.symm))
    have := he'.lt
    refine ⟨he'.index, ?_⟩
    rw [List.getElem?_dropLast, if_pos (by omega)]
    exact he'.get
  · intro j hj
    rw [List.length_dropLast] at hj
    obtain ⟨c', hc', hindex⟩ := h.full j (by omega)
    refine ⟨c', ?_, hc', hindex⟩
    rintro rfl
    have := he.index
    omega

/-- It is another one, and the last one, that of `m`, takes its place. -/
theorem Table.removed_inner (h : Table fd p) (hpos : ∀ c, 0 ≤ fd c) (hc : p.channels (fd c) = some c)
    (he : p.Entry c k pfd) (hk : k ≠ p.pollfds.length - 1) {last : PollFd} (hne : m ≠ c)
    (hm : p.channels (fd m) = some m) (hlast : p.Entry m (p.pollfds.length - 1) last) :
    (∀ c' k' pfd, c' ≠ c → p.channels (fd c') = some c' → p.Entry c' k' pfd → ∃ k'',
      Entry { p with objects := setIndex p.objects m k, pollfds := (p.pollfds.set k last).dropLast } c' k'' pfd) ∧
    ∀ j : Nat, j < (p.pollfds.set k last).dropLast.length →
      ∃ c', c' ≠ c ∧ p.channels (fd c') = some c' ∧ (setIndex p.objects m k c').index = j := by
  have hlt := he.lt
  constructor
  · intro c' k' pfd' hne' hc' he'
    have hlt' := he'.lt
    by_cases heq : c' = m
    -- the channel that is moved has its entry at position `k` now
    · subst heq
      obtain ⟨rfl, rfl⟩ := he'.unique hlast
      refine ⟨k, by show (setIndex _ _ _ c').index = k; rw [setIndex_self], ?_⟩
      rw [List.getElem?_dropLast, List.length_set, if_pos (by omega), List.getElem?_set_self hlt]
    · have hk' : k' ≠ k := by
        rintro rfl
        exact hne' (h.index_inj hpos hc' hc (he'.index.trans he.index.symm))
      have hkm : k' ≠ p.pollfds.length - 1 := by
        rintro rfl
        exact heq (h.index_inj hpos hc' hm (he'.index.trans hlast.index.symm))
      -- every other channel stays where it is
      refine ⟨k', by show (setIndex _ _ _ c').index = k'; rw [setIndex_ne _ _ heq, he'.index], ?_⟩
      rw [List.getElem?_dropLast, List.length_set, if_pos (by omega), List.getElem?_set_ne hk'.symm]
      exact he'.get
  · intro j hj
    rw [List.length_dropLast, List.length_set] at hj
    by_cases hjk : j = k
    · refine ⟨m, hne, hm, ?_⟩
      rw [hjk, setIndex_self]
    · obtain ⟨c', hc', hindex⟩ := h.full j (by omega)
      have hindexc := he.index
      have hindexm := hlast.index
      refine ⟨c', ?_, hc', ?_⟩
      · rintro rfl
        omega
      · rw [setIndex_ne _ _ (by rintro rfl; omega), hindex]

/-- **Removing an entry.** The other channels have their entries, and there are no others. -/
theorem Table.removeEntry (h : Table fd p) (hpos : ∀ c, 0 ≤ fd c) (hc : p.channels (fd c) = some c)
    (he : p.Entry c k pfd) :
    ∃ p' : PollPoller ι, { p with channels := Function.update p.channels (fd c) none }.removeEntry k = .ok p' ∧
      (∀ c', (p'.objects c').fd = (p.objects c').fd ∧ (p'.objects c').channel = (p.objects c').channel) ∧
      p'.channels = Function.update p.channels (fd c) none ∧
      (∀ c' k pfd, c' ≠ c → p.channels (fd c') = some c' → p.Entry c' k pfd → ∃ k', p'.Entry c' k' pfd) ∧
      ∀ j : Nat, j < p'.pollfds.length →
        ∃ c', c' ≠ c ∧ p.channels (fd c') = some c' ∧ (p'.objects c').index = j := by
  unfold PollPoller.removeEntry
  dsimp only
  by_cases hk : k = p.pollfds.length - 1
  · rw [if_pos hk]
    obtain ⟨hentry, hfull⟩ := h.removed_last hpos hc he hk
    refine ⟨_, rfl, fun _ => ⟨rfl, rfl⟩, rfl, ?_, hfull⟩
    intro c' k' pfd' hne hc' he'
    obtain ⟨hindex, hget⟩ := hentry c' k' pfd' hne hc' he'
    exact ⟨k', hindex, hget⟩
  -- the last entry stands for its channel, whether it is ignored or not
  · obtain ⟨m, last, hne, hm, hlast, hget, hdecode⟩ := h.last hpos he hk
    have hfd : fd m ≠ fd c := fun heq => hne (channel_unique hm hc heq)
    have hchan : Function.update p.channels (fd c) none (fd m) = some m := by
      rw [Function.update_of_ne hfd]
      exact hm
    rw [if_neg hk, hget]
    dsimp only
    rw [hdecode, hchan]
    obtain ⟨hentry, hfull⟩ := h.removed_inner hpos hc he hk hne hm hlast
    refine ⟨_, rfl, ?_, rfl, ?_, hfull⟩
    · intro c'
      show (setIndex _ _ _ c').fd = _ ∧ (setIndex _ _ _ c').channel = _
      by_cases heq : c' = m
      · rw [heq, setIndex_self]
        exact ⟨rfl, rfl⟩
      · rw [setIndex_ne _ _ heq]
        exact ⟨rfl, rfl⟩
    · intro c' k' pfd' hne' hc' he'
      obtain ⟨k'', hindex, hget'⟩ := hentry c' k' pfd' hne' hc' he'
      exact ⟨k'', hindex, hget'⟩

/-- **A removal** leaves the table of the others. -/
theorem Table.removed (h : Table fd p) (hpos : ∀ c, 0 ≤ fd c) (hc : p.channels (fd c) = some c)
    (he : p.Entry c k pfd) :
    ∃ p' : PollPoller ι, { p with channels := Function.update p.channels (fd c) none }.removeEntry k = .ok p' ∧
      (∀ c', (p'.objects c').channel = (p.objects c').channel) ∧
      p'.channels = Function.update p.channels (fd c) none ∧ Table fd p' ∧ Kept fd p p' c := by
  obtain ⟨p', hp', hobj, hchan, hentry, hfull⟩ := h.removeEntry hpos hc he
  have hreg : ∀ c', c' ≠ c → (p'.channels (fd c') = some c' ↔ p.channels (fd c') = some c') := by
    intro c' hne
    rw [hchan]
    by_cases heq : fd c' = fd c
    · rw [heq, Function.update_self, hc]
      simp [hne.symm]
    · rw [Function.update_of_ne heq]
  have hself : p'.channels (fd c) ≠ some c := by
    rw [hchan, Function.update_self]
    simp
  refine ⟨p', hp', fun c' => (hobj c').2, hchan, ⟨?_, ?_, ?_, ?_⟩, ⟨fun c' _ => (hobj c').2, hreg, hentry⟩⟩
  · intro c'
    rw [(hobj c').1]
    exact h.objects c'
  · intro f c' hget
    rw [hchan] at hget
    by_cases hf : f = fd c
    · rw [hf, Function.update_self] at hget
      cases hget
    · rw [Function.update_of_ne hf] at hget
      exact h.key f c' hget
  · intro c' hc'
    have hne : c' ≠ c := by
      rintro rfl
      exact hself hc'
    obtain ⟨k', pfd', he', hfd'⟩ := h.entry c' ((hreg c' hne).mp hc')
    obtain ⟨k'', he''⟩ := hentry c' k' pfd' hne ((hreg c' hne).mp hc') he'
    exact ⟨k'', pfd', he'', hfd'⟩
  · intro j hj
    obtain ⟨c', hne, hc', hindex⟩ := hfull j hj
    exact ⟨c', (hreg c' hne).mpr hc', hindex⟩

end

end PollPoller

end Muduo.Net
