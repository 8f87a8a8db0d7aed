import Mathlib.Tactic

/-!
# `Lib.PubSub` — who hears what

Publishing and subscribing, in the terms of those who do it. A history is a list of entries, oldest first. What is
published on a topic is heard by those who are subscribed to it at that moment, and the last that was published there
is kept for those who subscribe later, if it is of a kind that is `kept`. Who has left hears nothing any more.

A history is taken apart at its end: each notion has a lemma for one more entry.
-/

namespace Lib.PubSub

/-- What happens; `κ` are the parties, `τ` the topics, and `α` is what is published. -/
inductive Entry (κ τ α : Type*) where
  | subscribe (c : κ) (t : τ)
  | unsubscribe (c : κ) (t : τ)
  | publish (t : τ) (a : α)
  | leave (c : κ)

variable {κ τ α : Type*} {c c' : κ} {t t' : τ} {a : α} {h es : List (Entry κ τ α)} {e : Entry κ τ α}

/-- `c` has subscribed to `t`, and not unsubscribed since. -/
def Subscribed (c : κ) (t : τ) (h : List (Entry κ τ α)) : Prop :=
  ∃ before since, h = before ++ .subscribe c t :: since ∧ .unsubscribe c t ∉ since

theorem not_subscribed_nil : ¬ Subscribed c t ([] : List (Entry κ τ α)) := by
  rintro ⟨before, since, heq, -⟩
  exact absurd heq.symm (by simp)

/-- One more entry. -/
theorem subscribed_append : Subscribed c t (h ++ [e]) ↔
    e = .subscribe c t ∨ Subscribed c t h ∧ e ≠ .unsubscribe c t := by
  constructor
  · rintro ⟨before, since, heq, hnot⟩
    induction since using List.reverseRecOn with
    | nil => exact Or.inl (List.cons.inj (List.append_inj_right' heq rfl)).1
    | append_singleton since e' _ =>
        rw [← List.cons_append, ← List.append_assoc] at heq
        obtain ⟨rfl, hentry⟩ := List.append_inj' heq rfl
        rw [← (List.cons.inj hentry).1] at hnot
        refine Or.inr ⟨⟨before, since, rfl, fun hmem => hnot (List.mem_append_left _ hmem)⟩, ?_⟩
        rintro rfl
        exact hnot (List.mem_append_right _ (List.mem_singleton_self _))
  · rintro (rfl | ⟨⟨before, since, rfl, hnot⟩, hne⟩)
    · exact ⟨h, [], rfl, List.not_mem_nil⟩
    · refine ⟨before, since ++ [e], by rw [List.append_assoc, List.cons_append], fun hmem => ?_⟩
      rcases List.mem_append.mp hmem with hmem | hmem
      · exact hnot hmem
      · exact hne (List.mem_singleton.mp hmem).symm

/-- Who has never been heard of is subscribed to nothing. -/
theorem not_subscribed_of_forall (hall : ∀ t, .subscribe c t ∉ h) : ¬ Subscribed c t h := by
  rintro ⟨before, since, rfl, -⟩
  exact hall t (List.mem_append_right _ (List.mem_cons_self ..))

section Latest

variable [DecidableEq τ]

/-- What is published on `t` by an entry. -/
def Entry.on (t : τ) : Entry κ τ α → Option α
  | .publish t' a => if t' = t then some a else none
  | _ => none

@[simp] theorem Entry.on_subscribe : (Entry.subscribe c t' : Entry κ τ α).on t = none := rfl

@[simp] theorem Entry.on_unsubscribe : (Entry.unsubscribe c t' : Entry κ τ α).on t = none := rfl

/-- The last that was published on `t`. -/
def latest (t : τ) (h : List (Entry κ τ α)) : Option α := (h.filterMap (Entry.on t)).getLast?

theorem latest_append (t : τ) (h : List (Entry κ τ α)) (e : Entry κ τ α) :
    latest t (h ++ [e]) = (e.on t).or (latest t h) := by
  unfold latest
  rw [List.filterMap_append]
  cases he : e.on t with
  | none => simp [he]
  | some a => simp [he]

theorem mem_of_latest (h' : latest t h = some a) : .publish t a ∈ h := by
  obtain ⟨e, he, hon⟩ := List.mem_filterMap.mp (List.mem_of_getLast? h')
  cases e with
  | publish t' a' =>
      rw [Entry.on] at hon
      split_ifs at hon with heq
      obtain rfl := Option.some.inj hon
      exact heq ▸ he
  | subscribe => cases hon
  | unsubscribe => cases hon
  | leave => cases hon

/-! ## Hearing -/

variable (kept : α → Bool)

open Classical in
/-- What `c` hears of an entry, after `past`. -/
noncomputable def hears (c : κ) (past : List (Entry κ τ α)) : Entry κ τ α → List (τ × α)
  | .publish t a => if Subscribed c t past then [(t, a)] else []
  | .subscribe c' t => if c' = c then (((latest t past).filter kept).map (t, ·)).toList else []
  | _ => []

@[simp] theorem hears_unsubscribe (c c' : κ) (t : τ) : hears kept c h (.unsubscribe c' t) = [] := rfl

@[simp] theorem hears_leave (c c' : κ) : hears kept c h (.leave c') = [] := rfl

open Classical in
/-- What `c` hears of `es`, after `past`. -/
noncomputable def heardAfter (c : κ) : List (Entry κ τ α) → List (Entry κ τ α) → List (τ × α)
  | _, [] => []
  | past, e :: es => (if .leave c ∈ past then [] else hears kept c past e) ++ heardAfter c (past ++ [e]) es

/-- **What `c` hears** in a history. -/
noncomputable def heard (c : κ) (h : List (Entry κ τ α)) : List (τ × α) := heardAfter kept c [] h

theorem heardAfter_append (c : κ) (past h es : List (Entry κ τ α)) :
    heardAfter kept c past (h ++ es) = heardAfter kept c past h ++ heardAfter kept c (past ++ h) es := by
  induction h generalizing past with
  | nil => rw [List.nil_append, List.append_nil, heardAfter, List.nil_append]
  | cons e h ih =>
      rw [List.cons_append, heardAfter, heardAfter, ih, List.append_assoc, List.append_assoc, List.singleton_append]

variable {kept}

/-- One more entry. -/
theorem heard_append (hc : .leave c ∉ h) (e : Entry κ τ α) :
    heard kept c (h ++ [e]) = heard kept c h ++ hears kept c h e := by
  unfold heard
  rw [heardAfter_append, List.nil_append, heardAfter, heardAfter, if_neg hc, List.append_nil]

theorem heard_append_of_leave (hc : .leave c ∈ h) (e : Entry κ τ α) : heard kept c (h ++ [e]) = heard kept c h := by
  unfold heard
  rw [heardAfter_append, List.nil_append, heardAfter, heardAfter, if_pos hc, List.append_nil, List.append_nil]

/-- Who is subscribed to nothing hears nothing. -/
theorem hears_eq_nil (hc : ∀ t, ¬ Subscribed c t h) (he : ∀ t, e ≠ .subscribe c t) : hears kept c h e = [] := by
  cases e with
  | publish t a => exact if_neg (hc t)
  | subscribe c' t =>
      have hne : c' ≠ c := by
        rintro rfl
        exact he t rfl
      exact if_neg hne
  | unsubscribe => rfl
  | leave => rfl

/-- What is heard was published. -/
theorem mem_of_heard {x : τ × α} (hx : x ∈ heard kept c h) : .publish x.1 x.2 ∈ h := by
  induction h using List.reverseRecOn with
  | nil => exact absurd hx List.not_mem_nil
  | append_singleton h e ih =>
      by_cases hc : .leave c ∈ h
      · rw [heard_append_of_leave hc] at hx
        exact List.mem_append_left _ (ih hx)
      rw [heard_append hc] at hx
      rcases List.mem_append.mp hx with hx | hx
      · exact List.mem_append_left _ (ih hx)
      cases e with
      | publish t a =>
          rw [hears] at hx
          split_ifs at hx
          · rw [List.mem_singleton.mp hx]
            exact List.mem_append_right _ (List.mem_singleton_self _)
          · exact absurd hx List.not_mem_nil
      | subscribe c' t =>
          rw [hears] at hx
          split_ifs at hx
          · obtain ⟨a, ha, rfl⟩ := Option.map_eq_some_iff.mp (Option.mem_toList.mp hx)
            exact List.mem_append_left _ (mem_of_latest ((Option.filter_eq_some_iff.mp ha).1))
          · exact absurd hx List.not_mem_nil
      | unsubscribe => exact absurd hx List.not_mem_nil
      | leave => exact absurd hx List.not_mem_nil

end Latest

end Lib.PubSub
