import Muduo.Net.Poller

/-!
# `Correctness.Poller` — what a poller is for

The purpose of a poller is a set of pairs of a descriptor and a mask (`Interest.watched`): those of the channels
that are registered and interested in something. This module has that purpose, and what the two pollers share:
the table of channels and the map from descriptors to them.
-/

namespace Muduo.Net

open Lib

variable {ι : Type}

/-! ## The purpose -/

/-- The channels and those of them that are registered. -/
structure Interest (ι : Type) where
  channel : ι → Channel
  registered : ι → Bool

namespace Interest

def new : Interest ι := ⟨fun _ => Channel.new, fun _ => false⟩

def perform [DecidableEq ι] (a : Interest ι) : PollerCall ι → Interest ι
  | .update c op => ⟨Function.update a.channel c (op.apply (a.channel c)), Function.update a.registered c true⟩
  | .remove c => ⟨a.channel, Function.update a.registered c false⟩

/-- Only a registered channel without interest is removed. -/
def Admits (a : Interest ι) : PollerCall ι → Prop
  | .update _ _ => True
  | .remove c => a.registered c = true ∧ (a.channel c).isNoneEvent = true

/-- No registered channel but `c` itself has the descriptor of `c`. -/
def Free (fd : ι → Int) (a : Interest ι) (c : ι) : Prop := ∀ c', a.registered c' = true → fd c' = fd c → c' = c

theorem free_of_injective {fd : ι → Int} (hinj : Function.Injective fd) {a : Interest ι} {c : ι} : a.Free fd c :=
  fun _ _ heq => hinj heq

/-- The pairs that are to be watched. -/
def watched (fd : ι → Int) (a : Interest ι) : Set (Int × EventMask) :=
  { w | ∃ c, a.registered c = true ∧ w = (fd c, (a.channel c).events) ∧ w.2 ≠ Channel.kNoneEvent }

end Interest

/-! ## Masks are short -/

/-- The mask survives the conversion to `short`. -/
def ShortMask (mask : EventMask) : Prop := mask.toNat < 2 ^ 15

theorem ShortMask.round_trip {mask : EventMask} (h : ShortMask mask) : (mask.setWidth 16).setWidth 32 = mask := by
  unfold ShortMask at h
  apply BitVec.eq_of_toNat_eq
  rw [BitVec.toNat_setWidth, BitVec.toNat_setWidth, Nat.mod_eq_of_lt (by omega), Nat.mod_eq_of_lt (by omega)]

theorem shortMask_apply {c : Channel} (h : ShortMask c.events) (op : ChannelOp) :
    ShortMask (op.apply c).events := by
  unfold ShortMask at h ⊢
  cases op with
  | enableReading =>
      show (c.events ||| Channel.kReadEvent).toNat < 2 ^ 15
      rw [BitVec.toNat_or]
      exact Nat.or_lt_two_pow h (by decide)
  | enableWriting =>
      show (c.events ||| Channel.kWriteEvent).toNat < 2 ^ 15
      rw [BitVec.toNat_or]
      exact Nat.or_lt_two_pow h (by decide)
  | disableReading =>
      show (c.events &&& _).toNat < 2 ^ 15
      rw [BitVec.toNat_and]
      exact lt_of_le_of_lt Nat.and_le_left h
  | disableWriting =>
      show (c.events &&& _).toNat < 2 ^ 15
      rw [BitVec.toNat_and]
      exact lt_of_le_of_lt Nat.and_le_left h
  | disableAll => exact Nat.two_pow_pos 15

theorem isNoneEvent_iff {c : Channel} : c.isNoneEvent = true ↔ c.events = Channel.kNoneEvent := by
  unfold Channel.isNoneEvent
  exact beq_iff_eq

/-! ## The table of channels -/

section

variable [DecidableEq ι] {a : Interest ι} {c c' : ι} {op : ChannelOp} {fd : ι → Int} {objects : ι → PolledChannel}

namespace Interest

@[simp] theorem channel_update_self : (a.perform (.update c op)).channel c = op.apply (a.channel c) :=
  Function.update_self ..

theorem channel_update_ne (h : c' ≠ c) : (a.perform (.update c op)).channel c' = a.channel c' :=
  Function.update_of_ne h ..

@[simp] theorem registered_update_self : (a.perform (.update c op)).registered c = true :=
  Function.update_self ..

theorem registered_update_ne (h : c' ≠ c) : (a.perform (.update c op)).registered c' = a.registered c' :=
  Function.update_of_ne h ..

@[simp] theorem registered_remove_self : (a.perform (.remove c)).registered c = false :=
  Function.update_self ..

theorem registered_remove_ne (h : c' ≠ c) : (a.perform (.remove c)).registered c' = a.registered c' :=
  Function.update_of_ne h ..

theorem registered_remove : (a.perform (.remove c)).registered c' = true ↔ c' ≠ c ∧ a.registered c' = true := by
  by_cases h : c' = c
  · simp [h]
  · simp [registered_remove_ne h, h]

end Interest

/-- The objects have the given descriptors and masks. -/
def Objects (fd : ι → Int) (objects : ι → PolledChannel) (a : Interest ι) : Prop :=
  ∀ c, (objects c).fd = fd c ∧ (objects c).channel = a.channel c

@[simp] theorem setIndex_self (objects : ι → PolledChannel) (idx : Int) :
    setIndex objects c idx c = { objects c with index := idx } := Function.update_self ..

theorem setIndex_ne (objects : ι → PolledChannel) (idx : Int) (h : c' ≠ c) :
    setIndex objects c idx c' = objects c' := Function.update_of_ne h ..

theorem setIndex_eq_self {idx : Int} (h : (objects c).index = idx) : setIndex objects c idx = objects := by
  unfold setIndex
  subst h
  exact Function.update_eq_self c objects

theorem setEvents_index : (setEvents objects c op c').index = (objects c').index := by
  unfold setEvents
  by_cases h : c' = c
  · rw [h, Function.update_self]
  · rw [Function.update_of_ne h]

theorem setRevents_self (objects : ι → PolledChannel) (revt : EventMask) :
    setRevents objects c revt c = { objects c with channel := (objects c).channel.set_revents revt } :=
  Function.update_self ..

theorem setRevents_ne (objects : ι → PolledChannel) (revt : EventMask) (h : c' ≠ c) :
    setRevents objects c revt c' = objects c' := Function.update_of_ne h ..

theorem setRevents_fields (objects : ι → PolledChannel) (c c' : ι) (revt : EventMask) :
    (setRevents objects c revt c').fd = (objects c').fd ∧ (setRevents objects c revt c').index = (objects c').index ∧
      (setRevents objects c revt c').channel.events = (objects c').channel.events := by
  by_cases heq : c' = c
  · rw [heq, setRevents_self]
    exact ⟨rfl, rfl, rfl⟩
  · rw [setRevents_ne _ _ heq]
    exact ⟨rfl, rfl, rfl⟩

theorem Objects.setIndex (h : Objects fd objects a) (idx : Int) : Objects fd (setIndex objects c idx) a := by
  intro c'
  by_cases heq : c' = c
  · rw [heq, setIndex_self]
    exact h c
  · rw [setIndex_ne _ _ heq]
    exact h c'

theorem Objects.setEvents (h : Objects fd objects a) (c : ι) (op : ChannelOp) :
    Objects fd (setEvents objects c op) (a.perform (.update c op)) := by
  intro c'
  unfold Muduo.Net.setEvents
  by_cases heq : c' = c
  · rw [heq, Function.update_self, Interest.channel_update_self, ← (h c).2]
    exact ⟨(h c).1, rfl⟩
  · rw [Function.update_of_ne heq, Interest.channel_update_ne heq]
    exact h c'

theorem shortMask_update (h : ∀ c, ShortMask (a.channel c).events) (c' : ι) :
    ShortMask ((a.perform (.update c op)).channel c').events := by
  by_cases heq : c' = c
  · rw [heq, Interest.channel_update_self]
    exact shortMask_apply (h c) op
  · rw [Interest.channel_update_ne heq]
    exact h c'

/-- The map after an update of `c`, whether `c` was in it or not. -/
theorem channels_update {channels : Int → Option ι} (hfree : a.Free fd c)
    (h : ∀ f c, channels f = some c ↔ f = fd c ∧ a.registered c = true) (f : Int) :
    Function.update channels (fd c) (some c) f = some c' ↔
      f = fd c' ∧ (a.perform (.update c op)).registered c' = true := by
  by_cases hf : f = fd c
  · subst hf
    rw [Function.update_self]
    constructor
    · rintro ⟨⟩
      exact ⟨rfl, Interest.registered_update_self⟩
    · rintro ⟨heq, hc'⟩
      by_cases hcc : c' = c
      · rw [hcc]
      · rw [Interest.registered_update_ne hcc] at hc'
        exact absurd (hfree c' hc' heq.symm) hcc
  · rw [Function.update_of_ne hf, h]
    refine and_congr_right fun heq => ?_
    rw [Interest.registered_update_ne fun hc => hf (by rw [heq, hc])]

/-- The map after the removal of `c`. -/
theorem channels_remove {channels : Int → Option ι} (hfree : a.Free fd c)
    (h : ∀ f c, channels f = some c ↔ f = fd c ∧ a.registered c = true) (f : Int) :
    Function.update channels (fd c) none f = some c' ↔
      f = fd c' ∧ (a.perform (.remove c)).registered c' = true := by
  rw [Interest.registered_remove]
  by_cases hf : f = fd c
  · subst hf
    rw [Function.update_self]
    refine ⟨fun hget => absurd hget (by simp), ?_⟩
    rintro ⟨heq, hne, hc'⟩
    exact absurd (hfree c' hc' heq.symm) hne
  · rw [Function.update_of_ne hf, h]
    refine and_congr_right fun heq => ?_
    exact ⟨fun hc => ⟨fun hcc => hf (by rw [heq, hcc]), hc⟩, And.right⟩

omit [DecidableEq ι] in
/-- A channel that is not registered is not in the map. -/
theorem channels_none {channels : Int → Option ι} (hfree : a.Free fd c)
    (h : ∀ f c, channels f = some c ↔ f = fd c ∧ a.registered c = true) (hc : a.registered c = false) :
    channels (fd c) = none := by
  cases hcase : channels (fd c) with
  | none => rfl
  | some c' =>
      obtain ⟨heq, hc'⟩ := (h _ _).mp hcase
      rw [hfree c' hc' heq.symm, hc] at hc'
      cases hc'

end

end Muduo.Net
