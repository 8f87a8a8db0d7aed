import Muduo.Examples.Chat.Server

/-!
# `Correctness.ChatServer` — a broadcast reaches those who were there

While a broadcast goes over the list without the mutex, connections come and go. What it goes over is the list as it
was when the broadcast got it: a list that somebody holds is never changed (`Lib.CopyOnWrite`), so that no iterator is
invalidated, and the iterator says which connections have had the message. The invariant is `Inv`; `exec_inv` is its
step lemma, which also says that no action faults, and `exec_sentBy` follows one broadcast.
-/

namespace Muduo.Examples

open Lib OrderedSet

variable {T Conn : Type} [LinearOrder Conn]

/-! ## The iterator -/

namespace Position

variable {list : Finset Conn} {conn : Conn}

/-- The connections before the iterator. -/
def done (list : Finset Conn) : Position Conn → List Conn
  | .before => []
  | .at conn => below list conn
  | .end => list.sort

/-- The iterator points into the list. -/
def Into (list : Finset Conn) : Position Conn → Prop
  | .at conn => conn ∈ list
  | _ => True

theorem first_spec (list : Finset Conn) : (first list).Into list ∧ (first list).done list = [] := by
  unfold first
  cases h : OrderedSet.first list with
  | none =>
      refine ⟨trivial, ?_⟩
      rw [OrderedSet.first_eq_none.mp h]
      exact Finset.sort_empty _
  | some conn => exact ⟨mem_of_first h, first_eq_some h⟩

/-- `++it`. -/
theorem next_spec (hconn : conn ∈ list) : (first (list.filter (conn < ·))).Into list ∧
    (first (list.filter (conn < ·))).done list = below list conn ++ [conn] := by
  unfold first
  cases h : OrderedSet.first (list.filter (conn < ·)) with
  | none => exact ⟨trivial, first_above_none hconn h⟩
  | some conn' => exact first_above_some hconn h

end Position

namespace ChatServer

variable [Fintype T] [DecidableEq T]
variable {s s' s₁ s₂ : ChatServer T Conn} {a : ChatAction T Conn} {as bs : List (ChatAction T Conn)} {t : T}
variable {members : Finset Conn} {snapshots : T → Option (Finset Conn)} {message : List UInt8}

/-! ## The invariant -/

/-- `members` is the current list, and the broadcasts go over their `snapshots`. -/
structure Inv (members : Finset Conn) (snapshots : T → Option (Finset Conn)) (s : ChatServer T Conn) : Prop where
  sees : s.connections.Sees members snapshots
  /-- Who is about to change the list is the only one to hold it. -/
  ready : ∀ call, s.mutex = some call → call.phase = .ready → s.connections.unique
  running : ∀ t, (s.running t).isSome = (snapshots t).isSome
  into : ∀ t call list, s.running t = some call → snapshots t = some list → call.position.Into list

/-- The list, after an action. -/
def changed (members : Finset Conn) : ChatAction T Conn → Finset Conn
  | .change _ conn connected => update conn connected members
  | _ => members

/-- The lists that broadcasts go over, after an action. -/
def snapshotsAfter (members : Finset Conn) (snapshots : T → Option (Finset Conn)) :
    ChatAction T Conn → T → Option (Finset Conn)
  | .getConnectionList t _ => Function.update snapshots t (some members)
  | .finish t => Function.update snapshots t none
  | _ => snapshots

omit [LinearOrder Conn] [DecidableEq T] in
theorem inv_new : Inv (T := T) ∅ (fun _ => none) (new : ChatServer T Conn) where
  sees := Shared.sees_new ∅
  ready := fun _ h => nomatch h
  running _ := rfl
  into := fun _ _ _ h => nomatch h

omit [LinearOrder Conn] in
/-- A broadcast that goes on keeps the message and the list. -/
theorem Inv.setPosition (h : Inv members snapshots s) {call : OnStringMessage Conn} {list : Finset Conn}
    (hcall : s.running t = some call) (hlist : snapshots t = some list) {position : Position Conn}
    (hinto : position.Into list) : Inv members snapshots (s.setPosition t position) where
  sees := h.sees
  ready := h.ready
  running t' := by
    unfold ChatServer.setPosition
    dsimp only
    by_cases ht : t' = t
    · rw [ht, Function.update_self, hcall, hlist]
      rfl
    · rw [Function.update_of_ne ht]
      exact h.running t'
  into t' call' list' hcall' hlist' := by
    unfold ChatServer.setPosition at hcall'
    dsimp only at hcall'
    by_cases ht : t' = t
    · rw [ht, Function.update_self, hcall] at hcall'
      obtain rfl := Option.some.inj hcall'
      rw [ht, hlist] at hlist'
      obtain rfl := Option.some.inj hlist'
      exact hinto
    · rw [Function.update_of_ne ht] at hcall'
      exact h.into t' call' list' hcall' hlist'

omit [LinearOrder Conn] [DecidableEq T] in
/-- A broadcast holds a list. -/
theorem Inv.exists_snapshot (h : Inv members snapshots s) {call : OnStringMessage Conn}
    (hcall : s.running t = some call) :
    ∃ list, snapshots t = some list ∧ s.connections.deref t = some list := by
  have hrunning := h.running t
  rw [hcall] at hrunning
  obtain ⟨list, hlist⟩ := Option.isSome_iff_exists.mp hrunning.symm
  exact ⟨list, hlist, (h.sees.deref t).trans hlist⟩

/-- **The body of the loop**: the iterator is valid, and the next connection is sent the message. -/
theorem sendNext_spec (h : Inv members snapshots s) {conn : Conn} (hrun : s.running t = some ⟨message, .at conn⟩) :
    ∃ list, snapshots t = some list ∧ conn ∈ list ∧ s.sendNext t =
      .ok ({ s with sent := s.sent ++ [(t, conn, message)] }.setPosition t
        (Position.first (list.filter (conn < ·)))) := by
  obtain ⟨list, hlist, hderef⟩ := h.exists_snapshot hrun
  have hconn : conn ∈ list := h.into t _ list hrun hlist
  refine ⟨list, hlist, hconn, ?_⟩
  unfold sendNext
  rw [hrun, hderef]
  exact if_pos hconn

/-- **One action** does not fault, and keeps the invariant. -/
theorem exec_inv (h : Inv members snapshots s) (ha : Enabled s a) : ∃ s', exec s a = .ok s' ∧
    Inv (changed members a) (snapshotsAfter members snapshots a) s' := by
  cases a with
  | lock t conn connected =>
      refine ⟨_, rfl, h.sees, ?_, h.running, h.into⟩
      rintro call hcall hphase
      obtain rfl := Option.some.inj hcall
      cases hphase
  | checkUnique t =>
      refine ⟨_, rfl, h.sees, ?_, h.running, h.into⟩
      rintro call hcall hphase
      unfold setPhase at hcall
      obtain ⟨call', -, rfl⟩ := Option.map_eq_some_iff.mp hcall
      dsimp only at hphase
      by_cases hunique : s.connections.unique
      · exact hunique
      · rw [if_neg hunique] at hphase
        cases hphase
  | copy t =>
      obtain ⟨connections, hreset, hsees, hunique, hreaders⟩ := Shared.reset_sees h.sees
      have hexec : s.exec (.copy t) = .ok ({ s with connections }.setPhase .ready) := by rw [exec, hreset, ok_bind]
      exact ⟨_, hexec, hsees, fun _ _ _ => hunique, h.running, h.into⟩
  | change t conn connected =>
      have hunique := h.ready _ ha rfl
      obtain ⟨connections, hmodify, hsees, hreaders⟩ := Shared.modify_sees h.sees hunique (update conn connected)
      have hexec : s.exec (.change t conn connected) = .ok { s with connections, mutex := none } := by
        rw [exec, hmodify, ok_bind]
      exact ⟨_, hexec, hsees, (fun call hcall => nomatch hcall), h.running, h.into⟩
  | getConnectionList t message =>
      obtain ⟨hmutex, hidle⟩ := ha
      have hreader : s.connections.readers t = none := by
        have hheld := h.sees.held t
        rw [← h.running t, hidle] at hheld
        exact Option.not_isSome_iff_eq_none.mp (by rw [hheld]; simp)
      refine ⟨_, rfl, Shared.acquire_sees h.sees hreader, ?_, fun t' => ?_, fun t' call list hcall hlist => ?_⟩
      · intro call hcall
        rw [show s.mutex = some call from hcall] at hmutex
        cases hmutex
      · dsimp only [snapshotsAfter]
        by_cases ht : t' = t
        · rw [ht, Function.update_self, Function.update_self]
          rfl
        · rw [Function.update_of_ne ht, Function.update_of_ne ht]
          exact h.running t'
      · dsimp only [snapshotsAfter] at hcall hlist
        by_cases ht : t' = t
        · rw [ht, Function.update_self] at hcall
          obtain rfl := Option.some.inj hcall
          trivial
        · rw [Function.update_of_ne ht] at hcall hlist
          exact h.into t' call list hcall hlist
  | begin t =>
      obtain ⟨message, hrun⟩ := ha
      obtain ⟨list, hlist, hderef⟩ := h.exists_snapshot hrun
      have hexec : s.exec (.begin t) = .ok (s.setPosition t (Position.first list)) := by rw [exec, hderef]
      exact ⟨_, hexec, h.setPosition hrun hlist (Position.first_spec list).1⟩
  | send t =>
      obtain ⟨message, conn, hrun⟩ := ha
      obtain ⟨list, hlist, hconn, hsend⟩ := sendNext_spec h hrun
      have hsent : Inv members snapshots { s with sent := s.sent ++ [(t, conn, message)] } :=
        ⟨h.sees, h.ready, h.running, h.into⟩
      exact ⟨_, hsend, hsent.setPosition hrun hlist (Position.next_spec hconn).1⟩
  | finish t =>
      refine ⟨_, rfl, Shared.release_sees h.sees t, ?_, fun t' => ?_, fun t' call list hcall hlist => ?_⟩
      · exact fun call hcall hphase => Shared.release_unique (h.ready call hcall hphase) t
      · dsimp only [snapshotsAfter]
        by_cases ht : t' = t
        · rw [ht, Function.update_self, Function.update_self]
          rfl
        · rw [Function.update_of_ne ht, Function.update_of_ne ht]
          exact h.running t'
      · dsimp only [snapshotsAfter] at hcall hlist
        by_cases ht : t' = t
        · rw [ht, Function.update_self] at hcall
          cases hcall
        · rw [Function.update_of_ne ht] at hcall hlist
          exact h.into t' call list hcall hlist

/-! ## One broadcast -/

/-- What a thread has sent, oldest first. -/
def sentBy (s : ChatServer T Conn) (t : T) : List (Conn × List UInt8) :=
  s.sent.filterMap fun x => if x.1 = t then some x.2 else none

/-- **One action of any thread**, while `t` goes over `list`: the message has been sent to the connections that the
    iterator has come past, and to no others. -/
theorem exec_sentBy (h : Inv members snapshots s) (ha : Enabled s a) (hs : exec s a = .ok s') (hne : a ≠ .finish t)
    {position : Position Conn} (hrun : s.running t = some ⟨message, position⟩) {list : Finset Conn}
    (hlist : snapshots t = some list) : ∃ position' more, s'.running t = some ⟨message, position'⟩ ∧
      s'.sentBy t = s.sentBy t ++ more.map (·, message) ∧ position'.done list = position.done list ++ more := by
  have hstay : ∀ {s' : ChatServer T Conn}, s'.running t = s.running t → s'.sent = s.sent →
      ∃ position' more, s'.running t = some ⟨message, position'⟩ ∧
        s'.sentBy t = s.sentBy t ++ more.map (·, message) ∧ position'.done list = position.done list ++ more := by
    intro s' hrunning hsent
    refine ⟨position, [], by rw [hrunning, hrun], ?_, (List.append_nil _).symm⟩
    rw [sentBy, sentBy, hsent, List.map_nil, List.append_nil]
  cases a with
  | lock t' conn connected =>
      obtain rfl := Except.ok.inj hs
      exact hstay rfl rfl
  | checkUnique t' =>
      obtain rfl := Except.ok.inj hs
      exact hstay rfl rfl
  | copy t' =>
      obtain ⟨connections, -, hs⟩ := bind_eq_ok.mp hs
      obtain rfl := Except.ok.inj hs
      exact hstay rfl rfl
  | change t' conn connected =>
      obtain ⟨connections, -, hs⟩ := bind_eq_ok.mp hs
      obtain rfl := Except.ok.inj hs
      exact hstay rfl rfl
  | getConnectionList t' message' =>
      obtain rfl := Except.ok.inj hs
      refine hstay ?_ rfl
      have ht : t ≠ t' := by
        rintro rfl
        rw [ha.2] at hrun
        cases hrun
      exact Function.update_of_ne ht _ _
  | finish t' =>
      obtain rfl := Except.ok.inj hs
      have ht : t ≠ t' := fun heq => hne (heq ▸ rfl)
      exact hstay (Function.update_of_ne ht _ _) rfl
  | begin t' =>
      obtain ⟨message', hrun'⟩ := ha
      obtain ⟨list', hlist', hderef⟩ := h.exists_snapshot hrun'
      rw [exec, hderef] at hs
      obtain rfl := Except.ok.inj hs
      by_cases ht : t = t'
      · subst ht
        obtain ⟨rfl, rfl⟩ := OnStringMessage.mk.inj (Option.some.inj (hrun.symm.trans hrun'))
        obtain rfl := Option.some.inj (hlist.symm.trans hlist')
        refine ⟨Position.first list, [], ?_, ?_, ?_⟩
        · show Function.update _ _ _ _ = _
          rw [Function.update_self, hrun]
          rfl
        · rw [List.map_nil, List.append_nil]
          rfl
        · rw [(Position.first_spec list).2]
          rfl
      · exact hstay (Function.update_of_ne ht _ _) rfl
  | send t' =>
      obtain ⟨message', conn, hrun'⟩ := ha
      obtain ⟨list', hlist', hconn, hsend⟩ := sendNext_spec h hrun'
      obtain rfl := Except.ok.inj (hsend.symm.trans hs)
      by_cases ht : t = t'
      · subst ht
        obtain ⟨rfl, rfl⟩ := OnStringMessage.mk.inj (Option.some.inj (hrun.symm.trans hrun'))
        obtain rfl := Option.some.inj (hlist.symm.trans hlist')
        refine ⟨Position.first (list.filter (conn < ·)), [conn], ?_, ?_, ?_⟩
        · show Function.update _ _ _ _ = _
          rw [Function.update_self, hrun]
          rfl
        · show List.filterMap _ (s.sent ++ [(t, conn, message)]) = _
          rw [List.filterMap_append]
          simp [sentBy]
        · exact (Position.next_spec hconn).2
      · refine ⟨position, [], ?_, ?_, (List.append_nil _).symm⟩
        · show Function.update _ _ _ _ = _
          rw [Function.update_of_ne ht]
          exact hrun
        · show List.filterMap _ (s.sent ++ [(t', conn, message')]) = _
          rw [List.filterMap_append]
          simp [sentBy, Ne.symm ht]

/-! ## Every run -/

/-- The connections whose last call of `onConnection` said that they were up, for the changes made so far. -/
def membersAfter (as : List (ChatAction T Conn)) : Finset Conn := as.foldl changed ∅

theorem inv_of_reachedBy (h : (system T Conn).ReachedBy as s) : ∃ snapshots, Inv (membersAfter as) snapshots s := by
  refine System.ReachedBy.keeps (S := system T Conn)
    (I := fun as s => ∃ snapshots, Inv (membersAfter as) snapshots s) ?_ ?_ h
  · rintro s rfl
    exact ⟨_, inv_new⟩
  · rintro as s a s' ⟨snapshots, hinv⟩ ha hs
    obtain ⟨s₁, hs₁, hinv'⟩ := exec_inv hinv ha
    obtain rfl := Except.ok.inj (hs₁.symm.trans hs)
    refine ⟨snapshotsAfter (membersAfter as) snapshots a, ?_⟩
    unfold membersAfter at hinv' ⊢
    rw [List.foldl_append]
    exact hinv'

/-- A broadcast of `message` by `t` goes over `list`, and has come as far as its iterator says. -/
structure Underway (list : Finset Conn) (before : List (Conn × List UInt8)) (t : T) (message : List UInt8)
    (s : ChatServer T Conn) : Prop where
  inv : ∃ members snapshots, Inv members snapshots s ∧ snapshots t = some list
  sent : ∃ position, s.running t = some ⟨message, position⟩ ∧
    s.sentBy t = before ++ (position.done list).map (·, message)

theorem Underway.next {list : Finset Conn} {before : List (Conn × List UInt8)} (h : Underway list before t message s)
    (ha : Enabled s a) (hs : exec s a = .ok s') (hne : a ≠ .finish t) : Underway list before t message s' := by
  obtain ⟨⟨members, snapshots, hinv, hlist⟩, position, hrun, hsent⟩ := h
  obtain ⟨s₁, hs₁, hinv'⟩ := exec_inv hinv ha
  obtain rfl := Except.ok.inj (hs₁.symm.trans hs)
  obtain ⟨position', more, hrun', hsent', hdone⟩ := exec_sentBy hinv ha hs hne hrun hlist
  refine ⟨⟨_, _, hinv', ?_⟩, position', hrun', ?_⟩
  · cases a with
    | getConnectionList t' message' =>
        have ht : t ≠ t' := by
          rintro rfl
          rw [ha.2] at hrun
          cases hrun
        show Function.update _ _ _ _ = _
        rw [Function.update_of_ne ht, hlist]
    | finish t' =>
        have ht : t ≠ t' := fun heq => hne (heq ▸ rfl)
        show Function.update _ _ _ _ = _
        rw [Function.update_of_ne ht, hlist]
    | lock => exact hlist
    | checkUnique => exact hlist
    | copy => exact hlist
    | change => exact hlist
    | begin => exact hlist
    | send => exact hlist
  · rw [hsent', hsent, hdone, List.map_append, List.append_assoc]

/-- **A broadcast reaches exactly those who were there.** In every state that the threads reach, in whatever order they
    run, no assertion fails and no iterator is invalidated, whatever action comes next. If a thread then gets the list
    for a broadcast, when the actions `as` have been taken, and whatever it and the other threads do until it lets go of
    the list, it has sent the message to an initial part of the connections that were up after `as`, in the order of the
    list, once each, and when its iterator is at the end, to all of them. -/
theorem broadcast_reaches_members (has : (system T Conn).ReachedBy as s) :
    (∀ a, Enabled s a → ∃ s', exec s a = .ok s') ∧
    ∀ t message s₁ bs s₂, (system T Conn).Step s (.getConnectionList t message) s₁ →
      (system T Conn).Path s₁ bs s₂ → .finish t ∉ bs → ∃ position list,
        s₂.running t = some ⟨message, position⟩ ∧ list <+: (membersAfter as).sort ∧
        s₂.sentBy t = s.sentBy t ++ list.map (·, message) ∧
        (position = .end → list = (membersAfter as).sort) := by
  obtain ⟨snapshots, hinv⟩ := inv_of_reachedBy has
  refine ⟨fun a ha => ?_, fun t message s₁ bs s₂ hget hbs hunfinished => ?_⟩
  · obtain ⟨s', hs', -⟩ := exec_inv hinv ha
    exact ⟨s', hs'⟩
  · obtain ⟨hready, hexec⟩ : Enabled s (.getConnectionList t message) ∧
      exec s (.getConnectionList t message) = .ok s₁ := hget
    obtain ⟨s', hs', hinv'⟩ := exec_inv hinv hready
    obtain rfl := Except.ok.inj (hs'.symm.trans hexec)
    have hstart : Underway (membersAfter as) (s.sentBy t) t message s' := by
      refine ⟨⟨_, _, hinv', Function.update_self ..⟩, .before, ?_, ?_⟩
      · obtain rfl := Except.ok.inj hs'
        exact Function.update_self ..
      · obtain rfl := Except.ok.inj hs'
        exact (List.append_nil _).symm
    have hend : Underway (membersAfter as) (s.sentBy t) t message s₂ := by
      refine System.Path.keeps (S := system T Conn)
        (I := fun bs s₂ => .finish t ∉ bs → Underway (membersAfter as) (s.sentBy t) t message s₂)
        (fun _ => hstart) ?_ hbs hunfinished
      intro bs s₁ a s₂ hI ha hs hnot
      rw [List.mem_append, not_or, List.mem_singleton] at hnot
      exact (hI hnot.1).next ha hs (Ne.symm hnot.2)
    obtain ⟨-, position, hrun, hsent⟩ := hend
    refine ⟨position, position.done (membersAfter as), hrun, ?_, hsent, ?_⟩
    · cases hposition : position with
      | before => exact List.nil_prefix
      | «end» => exact List.prefix_refl _
      | «at» conn =>
          rw [sort_split _ conn]
          exact List.prefix_append _ _
    · rintro rfl
      rfl

/-- Connection 7 is up when one thread gets the list, and connection 9 comes while that thread holds it. -/
theorem broadcast_reaches_members_joined : ∃ (s₂ : ChatServer Bool ℕ) (position : Position ℕ) (list : List ℕ),
    s₂.running false = some ⟨[0x61], position⟩ ∧
    list <+: (membersAfter [.lock true 7 true, .checkUnique true, .change true 7 true] : Finset ℕ).sort ∧
    s₂.sentBy false = list.map (·, [0x61]) := by
  have h₀ : (system Bool ℕ).ReachedBy [] new := .init rfl
  have h₁ := h₀.next (.lock true 7 true) ⟨rfl, rfl⟩ rfl
  have h₂ := h₁.next (.checkUnique true) ⟨_, rfl, rfl, rfl⟩ rfl
  have h₃ := h₂.next (.change true 7 true) rfl rfl
  have h₄ := h₃.next (.getConnectionList false [0x61]) ⟨rfl, rfl⟩ rfl
  have here : ∀ {as s}, (system Bool ℕ).ReachedBy as s → (system Bool ℕ).Path s [] s := fun _ => .nil
  have g₀ := here h₄
  have g₁ := g₀.next (.lock true 9 true) ⟨rfl, rfl⟩ rfl
  have g₂ := g₁.next (.checkUnique true) ⟨_, rfl, rfl, rfl⟩ rfl
  have g₃ := g₂.next (.copy true) ⟨_, rfl, rfl, rfl⟩ rfl
  have g₄ := g₃.next (.change true 9 true) rfl rfl
  obtain ⟨position, list, hrun, hprefix, hsent, -⟩ :=
    (broadcast_reaches_members h₃).2 false [0x61] _ _ _ ⟨⟨rfl, rfl⟩, rfl⟩ g₄ (by simp)
  exact ⟨_, position, list, hrun, hprefix, hsent⟩

end ChatServer

end Muduo.Examples
