import Muduo.Net.Correctness.EPollPoller
import Muduo.Net.Correctness.PollPoller

/-!
# `Correctness.PollerAgreement` — the two pollers side by side

The same operations are performed on both pollers. `EPollPoller` does what it is for in every case. `PollPoller`
does so exactly as long as each operation is one it `Handles`: it has no way to take back the mark by which it
ignores a channel, it insists on that mark when a channel is removed, and it does not forget the index of a
channel that was removed.
-/

namespace Muduo.Net

open Lib

variable {ι : Type} [DecidableEq ι]

/-- The operations of `calls` are performed on both pollers: no assertion fails, and before and after each of them
    both watch the pairs that are to be watched. -/
def Agree (fd : ι → Int) (a : Interest ι) (p : PollPoller ι) (e : EPollPoller ι) : List (PollerCall ι) → Prop
  | [] => p.watched = e.watched ∧ p.watched = a.watched fd
  | call :: calls => (p.watched = e.watched ∧ p.watched = a.watched fd) ∧
      ∃ p' e', p.perform call = .ok p' ∧ e.perform call = .ok e' ∧ Agree fd (a.perform call) p' e' calls

/-- Channels are removed only while they are registered and without interest. -/
def Admissible (a : Interest ι) : List (PollerCall ι) → Prop
  | [] => True
  | call :: calls => a.Admits call ∧ Admissible (a.perform call) calls

namespace PollPoller

/-- What `PollPoller` can do in the state it is in: add a channel that has no index; change the mask of a channel
    in its map, unless its entry is ignored and the new mask is not empty; remove a channel whose entry is
    ignored. -/
def Handles (p : PollPoller ι) : PollerCall ι → Prop
  | .update c op => (p.objects c).index < 0 ∨ p.channels (p.objects c).fd = some c ∧
      (p.Ignored c → (op.apply (p.objects c).channel).isNoneEvent = true)
  | .remove c => p.Ignored c

/-- It can do so before each of the operations. -/
def HandlesAll (p : PollPoller ι) : List (PollerCall ι) → Prop
  | [] => True
  | call :: calls => p.Handles call ∧ ∀ p', p.perform call = .ok p' → p'.HandlesAll calls

variable {fd : ι → Int} {p : PollPoller ι} {a : Interest ι}

/-- The mark on the other channels is where it was. -/
theorem Quiet.update {p' : PollPoller ι} {c : ι} {op : ChannelOp} (hquiet : p.Quiet a) (hspares : Spares p p' a c) :
    p'.Quiet (a.perform (.update c op)) ↔ (p'.Ignored c → (op.apply (a.channel c)).isNoneEvent = true) := by
  constructor
  · intro h hign
    have := h c Interest.registered_update_self hign
    rwa [Interest.channel_update_self] at this
  · intro h c' hc' hign
    by_cases heq : c' = c
    · subst heq
      rw [Interest.channel_update_self]
      exact h hign
    · rw [Interest.registered_update_ne heq] at hc'
      rw [Interest.channel_update_ne heq]
      exact hquiet c' hc' ((hspares c' heq hc').mp hign)

/-- **One operation.** An assertion fails, or the kernel is kept informed exactly if the operation is one that is
    handled. -/
theorem perform_cases (hinj : Function.Injective fd) (hpos : ∀ c, 0 ≤ fd c) (h : Rep fd p a) (hquiet : p.Quiet a)
    {call : PollerCall ι} (hadm : a.Admits call) :
    (p.perform call = .error .assertion ∧ ¬ p.Handles call) ∨
    ∃ p', p.perform call = .ok p' ∧ Rep fd p' (a.perform call) ∧ (p'.Quiet (a.perform call) ↔ p.Handles call) := by
  cases call with
  | update c op =>
      have hhandles : p.Handles (.update c op) ↔ (p.objects c).index < 0 ∨ a.registered c = true ∧
          (p.Ignored c → (op.apply (a.channel c)).isNoneEvent = true) := by
        show _ ∨ _ ∧ _ ↔ _
        rw [(h.objects c).1, (h.objects c).2, h.channels]
        simp
      rw [hhandles]
      by_cases hidx : (p.objects c).index < 0
      · obtain ⟨p', hp', hrep, hnot, hspares⟩ := perform_add hinj h hidx hpos op
        refine Or.inr ⟨p', hp', hrep, fun _ => Or.inl hidx, fun _ => ?_⟩
        exact (hquiet.update hspares).mpr fun hign => absurd hign hnot
      · cases hc : a.registered c with
        | false => exact Or.inl ⟨perform_stale hinj h (not_lt.mp hidx) hc op, by simp [hidx]⟩
        | true =>
            obtain ⟨p', hp', hrep, hign, hspares⟩ := perform_modify h hc hpos op
            refine Or.inr ⟨p', hp', hrep, ?_⟩
            rw [hquiet.update hspares, hign]
            constructor
            · intro hall
              exact Or.inr ⟨rfl, fun hi => hall (Or.inl hi)⟩
            · intro hor hor'
              exact hor'.elim (hor.resolve_left hidx).2 id
  | remove c =>
      obtain ⟨hc, hnone⟩ := hadm
      by_cases hign : p.Ignored c
      · obtain ⟨p', hp', hrep, hspares⟩ := perform_remove hinj h hpos hc hnone hign
        refine Or.inr ⟨p', hp', hrep, fun _ => hign, fun _ => ?_⟩
        intro c' hc' hign'
        obtain ⟨hne, hc'⟩ := Interest.registered_remove.mp hc'
        exact hquiet c' hc' ((hspares c' hne hc').mp hign')
      · exact Or.inl ⟨perform_remove_watched h hc hnone hign hpos, hign⟩

end PollPoller

theorem Agree.watched {fd : ι → Int} {a : Interest ι} {p : PollPoller ι} {e : EPollPoller ι}
    {calls : List (PollerCall ι)} (h : Agree fd a p e calls) :
    p.watched = e.watched ∧ p.watched = a.watched fd := by
  cases calls with
  | nil => exact h
  | cons call calls => exact h.1

/-- **Every further run**, from pollers that represent the same interest. -/
theorem agree_iff_of_rep {fd : ι → Int} (hinj : Function.Injective fd) (hpos : ∀ c, 0 ≤ fd c)
    {calls : List (PollerCall ι)} {a : Interest ι} {p : PollPoller ι} {e : EPollPoller ι}
    (hp : PollPoller.Rep fd p a) (hquiet : p.Quiet a) (he : EPollPoller.Rep fd e a) (hadm : Admissible a calls) :
    Agree fd a p e calls ↔ p.HandlesAll calls := by
  have hwatched : p.watched = e.watched ∧ p.watched = a.watched fd := by
    have heq := (hp.watched_eq_iff hinj hpos).mpr hquiet
    exact ⟨heq.trans he.watched_eq.symm, heq⟩
  induction calls generalizing a p e with
  | nil => exact ⟨fun _ => trivial, fun _ => hwatched⟩
  | cons call calls ih =>
      obtain ⟨hcall, hcalls⟩ := hadm
      obtain ⟨e', he', herep⟩ := EPollPoller.perform_rep he call hcall (Interest.free_of_injective hinj)
      rcases PollPoller.perform_cases hinj hpos hp hquiet hcall with ⟨hfail, hnot⟩ | ⟨p', hp', hrep, hiff⟩
      · refine ⟨?_, fun hall => absurd hall.1 hnot⟩
        rintro ⟨-, p', -, hp', -, -⟩
        rw [hfail] at hp'
        cases hp'
      · have hnext : p'.Quiet (a.perform call) →
            (Agree fd (a.perform call) p' e' calls ↔ p'.HandlesAll calls) := by
          intro hquiet'
          have heq := (hrep.watched_eq_iff hinj hpos).mpr hquiet'
          exact ih hrep hquiet' herep hcalls ⟨heq.trans herep.watched_eq.symm, heq⟩
        constructor
        · rintro ⟨-, p₁, e₁, hp₁, he₁, hagree⟩
          rw [hp'] at hp₁
          rw [he'] at he₁
          cases hp₁
          cases he₁
          -- what is watched after the operation shows that it was handled
          have hquiet' := (hrep.watched_eq_iff hinj hpos).mp hagree.watched.2
          refine ⟨hiff.mp hquiet', ?_⟩
          intro p₂ hp₂
          rw [hp'] at hp₂
          cases hp₂
          exact (hnext hquiet').mp hagree
        · rintro ⟨hhandles, hall⟩
          exact ⟨hwatched, p', e', hp', he', (hnext (hiff.mpr hhandles)).mpr (hall p' hp')⟩

/-- **When the pollers agree.** For every sequence of operations on channels with distinct descriptors, in which
    channels are removed only while they are registered and without interest: no assertion of either poller fails,
    and after each operation both watch the pairs of the registered channels that are interested in something, if
    and only if each operation is one that `PollPoller` handles in the state it is in. -/
theorem pollers_agree_iff {fd : ι → Int} (hinj : Function.Injective fd) (hpos : ∀ c, 0 ≤ fd c)
    (calls : List (PollerCall ι)) (hadm : Admissible Interest.new calls) :
    Agree fd Interest.new (PollPoller.new fd) (EPollPoller.new fd) calls ↔ (PollPoller.new fd).HandlesAll calls :=
  agree_iff_of_rep hinj hpos (PollPoller.rep_new fd) (PollPoller.quiet_new fd) (EPollPoller.rep_new fd) hadm

/-- One channel with descriptor 5. -/
def oneFd : Unit → Int := fun _ => 5

/-- The channel is enabled, disabled and removed. -/
theorem pollers_agree_once : Agree oneFd Interest.new (PollPoller.new oneFd) (EPollPoller.new oneFd)
    [.update () .enableReading, .update () .disableAll, .remove ()] := by
  refine (pollers_agree_iff (fun _ _ _ => rfl) (by decide) _ ?_).mpr ?_
  · exact ⟨trivial, trivial, ⟨rfl, rfl⟩, trivial⟩
  · refine ⟨Or.inl (by decide), ?_⟩
    intro p₁ hp₁
    obtain rfl := Except.ok.inj hp₁
    refine ⟨Or.inr ⟨rfl, fun _ => rfl⟩, ?_⟩
    intro p₂ hp₂
    obtain rfl := Except.ok.inj hp₂
    refine ⟨⟨0, ⟨-6, 0, 0⟩, ⟨rfl, rfl⟩, by decide⟩, ?_⟩
    intro p₃ _
    trivial

/-- The channel is enabled again after it was disabled, and `PollPoller` does not watch it. -/
theorem pollers_disagree : Admissible (Interest.new : Interest Unit)
      [.update () .enableReading, .update () .disableAll, .update () .enableReading] ∧
    ¬ Agree oneFd Interest.new (PollPoller.new oneFd) (EPollPoller.new oneFd)
      [.update () .enableReading, .update () .disableAll, .update () .enableReading] := by
  refine ⟨⟨trivial, trivial, trivial, trivial⟩, ?_⟩
  rintro ⟨-, p₁, e₁, hp₁, he₁, -, p₂, e₂, hp₂, he₂, -, p₃, e₃, hp₃, he₃, hsame, hall⟩
  obtain rfl := Except.ok.inj hp₁
  obtain rfl := Except.ok.inj hp₂
  obtain rfl := Except.ok.inj hp₃
  have hmem : ((5, 3) : Int × EventMask) ∈ Interest.watched oneFd (((Interest.new.perform
      (.update () .enableReading)).perform (.update () .disableAll)).perform (.update () .enableReading)) :=
    ⟨(), rfl, rfl, by decide⟩
  rw [← hall] at hmem
  obtain ⟨pfd, hpfd, hpos, -, -⟩ := hmem
  obtain rfl : pfd = ⟨-6, 3, 0⟩ := List.mem_singleton.mp hpfd
  exact absurd hpos (by decide)

end Muduo.Net
