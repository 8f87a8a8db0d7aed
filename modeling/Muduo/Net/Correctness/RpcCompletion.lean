import Muduo.Net.Correctness.RpcChannel

/-!
# `Correctness.RpcCompletion` — a call completes at most once

Calls are numbered in the order in which they take their ids. A call is with the thread that makes it, then in the
map, and then completed; it may be dropped from the map when its id is given out again, but it never goes back. So
a closure runs at most once, and what it is run on is the response that came with its own id (`replies_match`).

None of this needs the ids to be distinct. They wrap around after `2 ^ 64` calls (`ids_wrap`), and up to then a
response to a completed call finds nothing in the map.
-/

namespace Muduo.Net

open Lib

/-! ## What is done for a reply -/

/-- The event is part of the completion of a call. -/
def RpcEvent.ofReply : RpcEvent → Bool
  | .callMethod _ _ _ _ => false
  | _ => true

namespace RpcChannel

variable {c c' : RpcChannel} {message : RpcMessage}

theorem Completed.ofReply {data : List UInt8} {out : OutstandingCall} {events : List RpcEvent}
    (h : Completed data out events) : ∀ event ∈ events, event.ofReply = true := by
  cases h <;> simp [RpcEvent.ofReply]

/-- A request completes no call. -/
theorem onRequest_log (h : c.onRequest message = .ok c') :
    c'.log.filter RpcEvent.ofReply = c.log.filter RpcEvent.ofReply := by
  unfold onRequest at h
  split at h
  · cases h
  · obtain rfl := Except.ok.inj h
    rfl
  · split at h
    · obtain rfl := Except.ok.inj h
      rfl
    · split at h
      · obtain rfl := Except.ok.inj h
        simp [RpcEvent.ofReply]
      · obtain rfl := Except.ok.inj h
        rfl

/-- **What a message can do**, with what it completes. -/
theorem onRpcMessage_effect (h : c.onRpcMessage message = .ok c') :
    (message.type = .RESPONSE ∧ c.outstandings.lookup message.id = none ∧ c' = c) ∨
    (message.type = .RESPONSE ∧ ∃ out events, c.outstandings.lookup message.id = some out ∧
      c'.outstandings = c.outstandings.erase message.id ∧
      Completed (message.response.getD []) out events ∧ c'.log = c.log ++ events) ∨
    (message.type ≠ .RESPONSE ∧ c'.outstandings = c.outstandings ∧
      c'.log.filter RpcEvent.ofReply = c.log.filter RpcEvent.ofReply) := by
  unfold onRpcMessage at h
  cases htype : message.type with
  | RESPONSE =>
      simp only [htype] at h
      obtain ⟨_, _, h⟩ := bind_eq_ok.mp h
      cases hl : c.outstandings.lookup message.id with
      | none =>
          simp only [hl] at h
          obtain rfl := Except.ok.inj h
          exact Or.inl ⟨rfl, rfl, rfl⟩
      | some out =>
          simp only [hl] at h
          obtain rfl := Except.ok.inj h
          exact Or.inr (Or.inl ⟨rfl, out, _, rfl, rfl, completed_completion _ _, rfl⟩)
  | REQUEST =>
      simp only [htype] at h
      exact Or.inr (Or.inr ⟨by simp, (onRequest_frame h).2, onRequest_log h⟩)
  | ERROR =>
      simp only [htype] at h
      obtain rfl := Except.ok.inj h
      exact Or.inr (Or.inr ⟨by simp, rfl, rfl⟩)

end RpcChannel

/-- The response that arrives with the action. -/
def RpcAction.response {τ : Type} : RpcAction τ → Option RpcMessage
  | .onRpcMessage message => if message.type = .RESPONSE then some message else none
  | _ => none

namespace SharedChannel

variable {τ : Type} {s s' : SharedChannel τ} {t : τ} {id : RpcId} {out : OutstandingCall}
  {responses : List RpcMessage} {message : RpcMessage}

/-- The events of the completions `ran`, each of the call with a number, by a response with the id of this call. -/
def Ran (assigned : List (RpcId × OutstandingCall)) (ran : List (Nat × RpcMessage)) (events : List (List RpcEvent)) :
    Prop :=
  List.Forall₂ (fun p events => ∃ out, assigned[p.1]? = some (p.2.id, out) ∧
    RpcChannel.Completed (p.2.response.getD []) out events) ran events

/-- The completions up to now are those of the calls `ran`, each with the response that completed it. -/
structure Matched (s : SharedChannel τ) (responses : List RpcMessage) (ran : List (Nat × RpcMessage)) : Prop where
  once : (ran.map Prod.fst).Nodup
  received : (ran.map Prod.snd).Sublist responses
  log : ∃ events, Ran s.assigned ran events ∧ s.channel.log.filter RpcEvent.ofReply = events.flatten

/-- Where a call is. -/
inductive Place (τ : Type) where
  | calling (t : τ)
  | entered (id : RpcId)
  | completed

/-- Every call that a thread is making, is in the map or was completed is at its place, and so at no other. -/
structure Books (s : SharedChannel τ) (place : Nat → Place τ) (ran : List (Nat × RpcMessage)) : Prop where
  calling : ∀ t id out, s.Calling t id out → ∃ k, place k = .calling t ∧ s.assigned[k]? = some (id, out)
  entered : ∀ id out, s.channel.outstandings.lookup id = some out →
    ∃ k, place k = .entered id ∧ s.assigned[k]? = some (id, out)
  completed : ∀ p ∈ ran, place p.1 = .completed

/-! ## One step -/

variable {place : Nat → Place τ} {ran : List (Nat × RpcMessage)}

theorem Ran.append {assigned : List (RpcId × OutstandingCall)} {events : List (List RpcEvent)}
    (h : Ran assigned ran events) (call : RpcId × OutstandingCall) : Ran (assigned ++ [call]) ran events := by
  refine List.Forall₂.imp ?_ h
  rintro p events ⟨out, hget, hevents⟩
  have hk := (List.getElem?_eq_some_iff.mp hget).1
  exact ⟨out, (List.getElem?_append_left hk).trans hget, hevents⟩

/-- A call that is elsewhere is not the one that is moved. -/
theorem place_other {k k' : Nat} {x y : Place τ} (hk' : place k' = x) (hne : x ≠ place k) :
    Function.update place k y k' = x := by
  have hkk : k' ≠ k := by
    rintro rfl
    exact hne hk'.symm
  rw [Function.update_of_ne hkk, hk']

/-- A call was completed by a response with its id. -/
theorem Matched.own (h : s.Matched responses ran) {p : Nat × RpcMessage} (hp : p ∈ ran) :
    ∃ out, s.assigned[p.1]? = some (p.2.id, out) := by
  obtain ⟨events, hran, -⟩ := h.log
  obtain ⟨i, hi, rfl⟩ := List.getElem_of_mem hp
  obtain ⟨hlen, hall⟩ := List.forall₂_iff_get.mp hran
  obtain ⟨out, hget, -⟩ := hall i hi (by omega)
  exact ⟨out, hget⟩

theorem Matched.number_lt (h : s.Matched responses ran) {p : Nat × RpcMessage} (hp : p ∈ ran) :
    p.1 < s.assigned.length := by
  obtain ⟨out, hget⟩ := h.own hp
  exact (List.getElem?_eq_some_iff.mp hget).1

/-- Another call takes its id. -/
theorem Matched.takeId (h : s.Matched responses ran) (call : RpcId × OutstandingCall)
    (hassigned : s'.assigned = s.assigned ++ [call]) (hlog : s'.channel.log = s.channel.log) :
    s'.Matched responses ran where
  once := h.once
  received := h.received
  log := by
    obtain ⟨events, hran, hevents⟩ := h.log
    rw [hlog, hassigned]
    exact ⟨events, hran.append call, hevents⟩

/-- A step that completes nothing. -/
theorem Matched.same_log (h : s.Matched responses ran) (more : List RpcMessage)
    (hassigned : s'.assigned = s.assigned)
    (hlog : s'.channel.log.filter RpcEvent.ofReply = s.channel.log.filter RpcEvent.ofReply) :
    s'.Matched (responses ++ more) ran where
  once := h.once
  received := h.received.trans (List.sublist_append_left _ _)
  log := by
    rw [hassigned, hlog]
    exact h.log

/-- A response completes the call `k`. -/
theorem Matched.complete (h : s.Matched responses ran) {c : RpcChannel} {processed : List RpcId} {k : Nat}
    (hk : s.assigned[k]? = some (message.id, out)) (hnew : k ∉ ran.map Prod.fst) {events : List RpcEvent}
    (hevents : RpcChannel.Completed (message.response.getD []) out events) (hlog : c.log = s.channel.log ++ events) :
    Matched { s with channel := c, processed } (responses ++ [message]) (ran ++ [(k, message)]) where
  once := by
    rw [List.map_append, List.nodup_append]
    refine ⟨h.once, List.nodup_singleton _, ?_⟩
    intro j hj j' hj' heq
    rw [List.map_singleton, List.mem_singleton] at hj'
    exact hnew (by rwa [heq, hj'] at hj)
  received := by
    rw [List.map_append]
    exact h.received.append (List.Sublist.refl _)
  log := by
    obtain ⟨earlier, hran, hearlier⟩ := h.log
    refine ⟨earlier ++ [events], List.rel_append hran (.cons ⟨out, hk, hevents⟩ .nil), ?_⟩
    show c.log.filter _ = _
    -- all that a completion does is counted as such
    rw [hlog, List.filter_append, hearlier, List.filter_eq_self.mpr hevents.ofReply, List.flatten_append,
      List.flatten_singleton]

variable [DecidableEq τ]

/-- A thread takes an id: its call gets the next number. -/
theorem Books.takeId (h : s.Books place ran) (hmatched : s.Matched responses ran) {c : RpcChannel}
    (hmap : c.outstandings = s.channel.outstandings) (message : RpcMessage) (out : OutstandingCall) :
    Books { s with
      channel := c
      threads := Function.update s.threads t (.taken message out)
      assigned := s.assigned ++ [(message.id, out)] }
      (Function.update place s.assigned.length (.calling t)) ran := by
  -- an earlier call keeps its number and its place
  have hearlier : ∀ {k x call}, place k = x → s.assigned[k]? = some call →
      Function.update place s.assigned.length (.calling t) k = x ∧
        (s.assigned ++ [(message.id, out)])[k]? = some call := by
    intro k x call hplace hget
    have hk := (List.getElem?_eq_some_iff.mp hget).1
    exact ⟨by rw [Function.update_of_ne (Nat.ne_of_lt hk), hplace], (List.getElem?_append_left hk).trans hget⟩
  refine ⟨?_, ?_, ?_⟩
  · intro t' id' out' hcall
    rcases calling_update.mp hcall with ⟨rfl, hp⟩ | ⟨-, hcall⟩
    · obtain ⟨rfl, rfl⟩ := Prod.mk.inj (Option.some.inj hp)
      exact ⟨s.assigned.length, Function.update_self _ _ _, List.getElem?_concat_length⟩
    · obtain ⟨k, hplace, hget⟩ := h.calling t' id' out' hcall
      exact ⟨k, hearlier hplace hget⟩
  · intro id' out' hl
    have hl : c.outstandings.lookup id' = some out' := hl
    rw [hmap] at hl
    obtain ⟨k, hplace, hget⟩ := h.entered id' out' hl
    exact ⟨k, hearlier hplace hget⟩
  · intro p hp
    obtain ⟨out', hget⟩ := hmatched.own hp
    exact (hearlier (h.completed p hp) hget).1

/-- A thread goes on with its call. -/
theorem Books.sendRequest (h : s.Books place ran) {p q : RpcPoint} {c : RpcChannel} (ht : s.threads t = p)
    (hcall : q.call = p.call) (hmap : c.outstandings = s.channel.outstandings) :
    Books { s with channel := c, threads := Function.update s.threads t q } place ran := by
  refine ⟨?_, ?_, h.completed⟩
  · intro t' id' out' hc
    refine h.calling t' id' out' ?_
    rcases calling_update.mp hc with ⟨rfl, hq⟩ | ⟨-, hc⟩
    · unfold Calling
      rw [ht, ← hcall, hq]
    · exact hc
  · intro id' out' hl
    have hl : c.outstandings.lookup id' = some out' := hl
    rw [hmap] at hl
    exact h.entered id' out' hl

/-- A thread puts its call into the map. -/
theorem Books.insert (h : s.Books place ran) (ht : s.threads t = .sent id out) :
    ∃ k, Books { s with
      channel := s.channel.insertOutstanding id out
      threads := Function.update s.threads t .idle } (Function.update place k (.entered id)) ran := by
  -- the call that the thread was making, under its number
  obtain ⟨k, hplace, hget⟩ := h.calling t id out (by unfold Calling; rw [ht]; rfl)
  refine ⟨k, ?_, ?_, ?_⟩
  · intro t' id' out' hc
    rcases calling_update.mp hc with ⟨-, hp⟩ | ⟨ht', hc⟩
    · cases hp
    · obtain ⟨k', hplace', hget'⟩ := h.calling t' id' out' hc
      exact ⟨k', place_other hplace' (by simp [hplace, ht']), hget'⟩
  · intro id' out' hl
    by_cases hid : id' = id
    · subst hid
      -- a call that had this id before loses its entry to this one
      obtain rfl : out = out' := Option.some.inj ((AList.lookup_insert _).symm.trans hl)
      exact ⟨k, Function.update_self _ _ _, hget⟩
    · obtain ⟨k', hplace', hget'⟩ := h.entered id' out' ((AList.lookup_insert_ne hid).symm.trans hl)
      exact ⟨k', place_other hplace' (by simp [hplace]), hget'⟩
  · exact fun p hp => place_other (h.completed p hp) (by simp [hplace])

omit [DecidableEq τ] in
/-- A step that leaves the threads and the map alone. -/
theorem Books.same_map (h : s.Books place ran) {c : RpcChannel} {processed : List RpcId}
    (hmap : c.outstandings = s.channel.outstandings) : Books { s with channel := c, processed } place ran where
  calling := h.calling
  entered id' out' hl := h.entered id' out' (hmap ▸ hl)
  completed := h.completed

omit [DecidableEq τ] in
/-- A response takes the call `k` out of the map. -/
theorem Books.complete (h : s.Books place ran) {c : RpcChannel} {processed : List RpcId} {k : Nat}
    (hplace : place k = .entered message.id) (hmap : c.outstandings = s.channel.outstandings.erase message.id) :
    Books { s with channel := c, processed } (Function.update place k .completed) (ran ++ [(k, message)]) where
  calling t' id' out' hc := by
    obtain ⟨k', hplace', hget'⟩ := h.calling t' id' out' hc
    exact ⟨k', place_other hplace' (by simp [hplace]), hget'⟩
  entered id' out' hl := by
    have hl : c.outstandings.lookup id' = some out' := hl
    rw [hmap] at hl
    -- the entry with this id is erased
    have hid : id' ≠ message.id := by
      rintro rfl
      simp [AList.lookup_erase] at hl
    rw [AList.lookup_erase_ne hid] at hl
    obtain ⟨k', hplace', hget'⟩ := h.entered id' out' hl
    exact ⟨k', place_other hplace' (by simp [hplace, hid]), hget'⟩
  completed p hp := by
    rcases List.mem_append.mp hp with hp | hp
    · exact place_other (h.completed p hp) (by simp [hplace])
    · rw [List.mem_singleton.mp hp]
      exact Function.update_self _ _ _

omit [DecidableEq τ] in
/-- A message arrives. -/
theorem Books.onRpcMessage (h : s.Books place ran) (hmatched : s.Matched responses ran) {c : RpcChannel}
    {processed : List RpcId} (hc : s.channel.onRpcMessage message = .ok c) :
    ∃ place' ran', Books { s with channel := c, processed } place' ran' ∧
      Matched { s with channel := c, processed }
        (responses ++ ((RpcAction.onRpcMessage message : RpcAction τ).response).toList) ran' := by
  rcases RpcChannel.onRpcMessage_effect hc with ⟨-, -, rfl⟩ | ⟨htype, out, events, hl, hmap, hevents, hlog⟩ |
    ⟨-, hmap, hlog⟩
  · exact ⟨place, ran, h.same_map rfl, hmatched.same_log _ rfl rfl⟩
  · obtain ⟨k, hplace, hget⟩ := h.entered _ _ hl
    -- the call is in the map, so it is not completed
    have hnew : k ∉ ran.map Prod.fst := by
      intro hmem
      obtain ⟨p, hp, rfl⟩ := List.mem_map.mp hmem
      have hcompleted := h.completed p hp
      rw [hplace] at hcompleted
      cases hcompleted
    have hresponse : (RpcAction.onRpcMessage message : RpcAction τ).response = some message := if_pos htype
    rw [hresponse]
    exact ⟨_, _, h.complete hplace hmap, hmatched.complete hget hnew hevents hlog⟩
  · exact ⟨place, ran, h.same_map hmap, hmatched.same_log _ rfl hlog⟩

/-! ## A run -/

/-- The responses that arrived in a run. -/
def responsesOf (actions : List (RpcAction τ)) : List RpcMessage := actions.filterMap RpcAction.response

omit [DecidableEq τ] in
theorem responsesOf_concat (actions : List (RpcAction τ)) (a : RpcAction τ) :
    responsesOf (actions ++ [a]) = responsesOf actions ++ a.response.toList := by
  unfold responsesOf
  rw [List.filterMap_append]
  rfl

theorem Books.exec {a : RpcAction τ} (h : s.Books place ran) (hmatched : s.Matched responses ran)
    (ha : s.enabled a) (hs' : s.exec a = .ok s') :
    ∃ place' ran', s'.Books place' ran' ∧ s'.Matched (responses ++ a.response.toList) ran' := by
  cases a with
  | takeId t service method request out =>
      obtain rfl := Except.ok.inj hs'
      let message := RpcChannel.requestMessage (s.channel.id + 1) service method request
      refine ⟨_, ran, h.takeId (c := s.channel.incrementAndGet.2) hmatched rfl message out, ?_⟩
      show Matched _ (responses ++ []) ran
      rw [List.append_nil]
      exact hmatched.takeId (message.id, out) rfl rfl
  | sendRequest t =>
      obtain ⟨message, out, ht⟩ := ha
      rw [exec_sendRequest ht] at hs'
      obtain rfl := Except.ok.inj hs'
      exact ⟨place, ran, h.sendRequest ht rfl rfl, hmatched.same_log _ rfl rfl⟩
  | insert t =>
      obtain ⟨id, out, ht⟩ := ha
      rw [exec_insert ht] at hs'
      obtain rfl := Except.ok.inj hs'
      obtain ⟨k, hbooks⟩ := h.insert ht
      exact ⟨_, ran, hbooks, hmatched.same_log _ rfl rfl⟩
  | onRpcMessage message =>
      obtain ⟨c, hc, hset⟩ := bind_eq_ok.mp hs'
      obtain rfl := Except.ok.inj hset
      exact h.onRpcMessage hmatched hc
  | doneCallback id data =>
      obtain rfl := Except.ok.inj hs'
      exact ⟨place, ran, h.same_map rfl, hmatched.same_log _ rfl rfl⟩

theorem rpcSystem_books {actions : List (RpcAction τ)} (h : (rpcSystem τ).ReachedBy actions s) :
    ∃ place ran, s.Books place ran ∧ s.Matched (responsesOf actions) ran := by
  refine System.ReachedBy.keeps (S := rpcSystem τ)
    (I := fun actions s => ∃ place ran, s.Books place ran ∧ s.Matched (responsesOf actions) ran) ?_ ?_ h
  · rintro s ⟨⟨services, hchannel⟩, hidle, hassigned, -⟩
    refine ⟨fun _ => .completed, [], ⟨?_, ?_, by simp⟩, ⟨List.nodup_nil, List.Sublist.refl _, [], .nil, ?_⟩⟩
    · intro t id out hcall
      simp [Calling, hidle, RpcPoint.call] at hcall
    · intro id out hl
      simp [hchannel, RpcChannel.new] at hl
    · simp [hchannel, RpcChannel.new]
  · rintro actions s a s' ⟨place, ran, h, hmatched⟩ ha hs'
    rw [responsesOf_concat]
    exact h.exec hmatched ha hs'

/-! ## Closures and response objects -/

/-- Counting the places of a list instead of its members. -/
theorem countP_range {α : Type} (l : List α) (q : α → Bool) :
    (List.range l.length).countP (fun k => (l[k]?).any q) = l.countP q := by
  induction l with
  | nil => rfl
  | cons x l ih => simp [List.range_succ_eq_map, List.countP_cons, List.countP_map, Function.comp_def, ih]

theorem completed_count_run {data : List UInt8} {out : OutstandingCall} {events : List RpcEvent} (done : Nat)
    (h : RpcChannel.Completed data out events) : events.count (.run done) ≤ if out.done = some done then 1 else 0 := by
  cases h with
  | run response d => by_cases hd : d = done <;> simp [hd]
  | noClosure response => simp
  | noResponse d => simp

theorem completed_count_delete {data : List UInt8} {out : OutstandingCall} {events : List RpcEvent} (response : Nat)
    (h : RpcChannel.Completed data out events) :
    events.count (.delete response) ≤ if out.response = some response then 1 else 0 := by
  cases h with
  | run r d => by_cases hr : r = response <;> simp [hr]
  | noClosure r => by_cases hr : r = response <;> simp [hr]
  | noResponse d => simp

omit [DecidableEq τ] in
/-- Events that the completion of a call has at most once, and only for some pointers, are not more than the calls
    with these pointers. -/
theorem Matched.count_le (h : s.Matched responses ran) (event : RpcEvent) (hreply : event.ofReply = true)
    (owns : OutstandingCall → Bool)
    (hone : ∀ data out events, RpcChannel.Completed data out events →
      events.count event ≤ if owns out then 1 else 0) :
    s.channel.log.count event ≤ s.assigned.countP fun call => owns call.2 := by
  let ownsNumber : Nat → Bool := fun k => (s.assigned[k]?).any fun call => owns call.2
  have hcount : ∀ {l events}, Ran s.assigned l events →
      events.flatten.count event ≤ (l.map Prod.fst).countP ownsNumber := by
    intro l events hl
    induction hl with
    | nil => simp
    | @cons p _ _ _ hp _ ih =>
        obtain ⟨out, hget, hcompleted⟩ := hp
        have hp := hone _ _ _ hcompleted
        have howns : ownsNumber p.1 = owns out := by simp [ownsNumber, hget]
        rw [List.flatten_cons, List.count_append, List.map_cons, List.countP_cons, howns]
        omega
  obtain ⟨events, hran, hevents⟩ := h.log
  -- the calls that ran are different ones, so no more than there are
  have hnumbers : (ran.map Prod.fst).Subperm (List.range s.assigned.length) := by
    refine List.subperm_of_subset h.once fun k hk => ?_
    obtain ⟨p, hp, rfl⟩ := List.mem_map.mp hk
    exact List.mem_range.mpr (h.number_lt hp)
  calc s.channel.log.count event
      = (s.channel.log.filter RpcEvent.ofReply).count event := (List.count_filter hreply).symm
    _ ≤ (ran.map Prod.fst).countP ownsNumber := by rw [hevents]; exact hcount hran
    _ ≤ (List.range s.assigned.length).countP ownsNumber := hnumbers.countP_le _
    _ = s.assigned.countP fun call => owns call.2 := countP_range _ _

/-! ## The result -/

omit [DecidableEq τ] in
/-- While ids are distinct, the id of a completed call is not in the map. -/
theorem Books.lookup_completed (h : s.Books place ran) (hmatched : s.Matched responses ran)
    (hn : (s.assigned.map Prod.fst).Nodup) {p : Nat × RpcMessage} (hp : p ∈ ran) :
    s.channel.outstandings.lookup p.2.id = none := by
  cases hl : s.channel.outstandings.lookup p.2.id with
  | none => rfl
  | some out =>
      obtain ⟨k, hplace, hget⟩ := h.entered _ _ hl
      obtain ⟨out', hget'⟩ := hmatched.own hp
      have hids : (s.assigned.map Prod.fst)[k]? = (s.assigned.map Prod.fst)[p.1]? := by
        simp [List.getElem?_map, hget, hget']
      have hk : k < (s.assigned.map Prod.fst).length := by
        rw [List.length_map]
        exact (List.getElem?_eq_some_iff.mp hget).1
      -- with distinct ids it would be the call that was completed
      obtain rfl : k = p.1 := (List.getElem?_inj hk hn).mp hids
      rw [h.completed p hp] at hplace
      cases hplace

omit [DecidableEq τ] in
/-- An id that was not given out is not in the map. -/
theorem Books.lookup_unknown (h : s.Books place ran) (hid : id ∉ s.assigned.map Prod.fst) :
    s.channel.outstandings.lookup id = none := by
  cases hl : s.channel.outstandings.lookup id with
  | none => rfl
  | some out =>
      obtain ⟨k, -, hget⟩ := h.entered _ _ hl
      exact absurd (List.mem_map_of_mem (List.mem_of_getElem? hget)) hid

/-- **A response concerns one call.** It leaves the threads and the other entries of the map alone, and if there is
    no entry for its id, then it does nothing. -/
theorem response_frame (htype : message.type = .RESPONSE) (hs' : s.exec (.onRpcMessage message) = .ok s') :
    s'.threads = s.threads ∧ s'.assigned = s.assigned ∧
      (∀ id ≠ message.id, s'.channel.outstandings.lookup id = s.channel.outstandings.lookup id) ∧
      (s.channel.outstandings.lookup message.id = none → s'.channel = s.channel) := by
  obtain ⟨c, hc, hset⟩ := bind_eq_ok.mp hs'
  obtain rfl := Except.ok.inj hset
  refine ⟨rfl, rfl, ?_⟩
  rcases RpcChannel.onRpcMessage_effect hc with ⟨-, -, rfl⟩ | ⟨-, out, -, hl, hmap, -⟩ | ⟨hother, -⟩
  · exact ⟨fun _ _ => rfl, fun _ => rfl⟩
  · refine ⟨fun id hid => ?_, fun hnone => ?_⟩
    · show c.outstandings.lookup id = _
      rw [hmap, AList.lookup_erase_ne hid]
    · rw [hnone] at hl
      cases hl
  · exact absurd htype hother

/-- **Replies complete calls at most once.** In every interleaving of calls and messages, what was done for replies
    is the completions of distinct calls, each for a response of its own that came with its id, and of no pointer
    more often than it was passed in. A response does nothing to the other calls, and nothing at all if its id was
    not given out, or if its call was completed and ids have not wrapped around. -/
theorem replies_match {actions : List (RpcAction τ)} (h : (rpcSystem τ).ReachedBy actions s) :
    ∃ ran : List (Nat × RpcMessage),
      s.Matched (responsesOf actions) ran ∧
      (∀ done, s.channel.log.count (.run done) ≤ s.assigned.countP fun call => call.2.done = some done) ∧
      (∀ response, s.channel.log.count (.delete response) ≤
        s.assigned.countP fun call => call.2.response = some response) ∧
      (s.assigned.length ≤ 2 ^ 64 → (s.assigned.map Prod.fst).Nodup) ∧
      ∀ message s', message.type = .RESPONSE → s.exec (.onRpcMessage message) = .ok s' →
        s'.threads = s.threads ∧ s'.assigned = s.assigned ∧
        (∀ id ≠ message.id, s'.channel.outstandings.lookup id = s.channel.outstandings.lookup id) ∧
        (message.id ∉ s.assigned.map Prod.fst ∨ s.assigned.length ≤ 2 ^ 64 ∧ (∃ p ∈ ran, p.2.id = message.id) →
          s'.channel = s.channel) := by
  obtain ⟨place, ran, hbooks, hmatched⟩ := rpcSystem_books h
  refine ⟨ran, hmatched, ?_, ?_, assigned_nodup h.reachable, ?_⟩
  · intro done
    exact hmatched.count_le (.run done) rfl (fun out => out.done = some done) fun data out events hcompleted => by
      simpa using completed_count_run done hcompleted
  · intro response
    exact hmatched.count_le (.delete response) rfl (fun out => out.response = some response)
      fun data out events hcompleted => by simpa using completed_count_delete response hcompleted
  · intro message s' htype hs'
    obtain ⟨hthreads, hassigned, hothers, hnothing⟩ := response_frame htype hs'
    refine ⟨hthreads, hassigned, hothers, ?_⟩
    rintro (hunknown | ⟨hcalls, p, hp, hid⟩)
    · exact hnothing (hbooks.lookup_unknown hunknown)
    · rw [← hid] at hnothing
      exact hnothing (hbooks.lookup_completed hmatched (assigned_nodup h.reachable hcalls) hp)

/-- A call that is answered twice. -/
theorem replies_match_duplicate : ∃ (s : SharedChannel Unit) (ran : List (Nat × RpcMessage)),
    s.Matched [firstReply, firstReply] ran ∧
      s.channel.log = [.parseFromString 5 [7], .run 6, .delete 5] := by
  have h := (System.ReachedBy.init (S := rpcSystem Unit) (s := ⟨RpcChannel.new, fun _ => .idle, [], []⟩)
      ⟨⟨_, rfl⟩, fun _ => rfl, rfl, rfl⟩)
    |>.next (.takeId () "EchoService" "Echo" [] ⟨some 5, some 6⟩) rfl rfl
    |>.next (.sendRequest ()) ⟨_, _, rfl⟩ rfl
    |>.next (.insert ()) ⟨_, _, rfl⟩ rfl
    |>.next (.onRpcMessage firstReply) trivial rfl
    |>.next (.onRpcMessage firstReply) trivial rfl
  obtain ⟨ran, hmatched, -⟩ := replies_match h
  exact ⟨_, ran, hmatched, rfl⟩

/-! ## Ids wrap around -/

/-- Any number of calls can be made. -/
theorem calls_reachable (n : Nat) : ∃ s : SharedChannel Unit, (rpcSystem Unit).Reachable s ∧
    s.assigned.length = n ∧ s.threads () = .idle := by
  induction n with
  | zero => exact ⟨⟨RpcChannel.new, fun _ => .idle, [], []⟩, .init ⟨⟨_, rfl⟩, fun _ => rfl, rfl, rfl⟩, rfl, rfl⟩
  | succ n ih =>
      obtain ⟨s, h, hlength, hidle⟩ := ih
      obtain ⟨channel, threads, assigned, processed⟩ := s
      have hidle : threads () = .idle := hidle
      have h' := h.next (.takeId () "EchoService" "Echo" [] ⟨none, none⟩) hidle rfl
        |>.next (.sendRequest ()) ⟨_, _, rfl⟩ rfl
        |>.next (.insert ()) ⟨_, _, rfl⟩ rfl
      exact ⟨_, h', by simp [← hlength], rfl⟩

/-- **Ids wrap around.** After `2 ^ 64` calls comes one with the id of the first. -/
theorem ids_wrap : ∃ s : SharedChannel Unit, (rpcSystem Unit).Reachable s ∧
    s.assigned.length = 2 ^ 64 + 1 ∧ (s.assigned.map Prod.fst)[0]? = (s.assigned.map Prod.fst)[2 ^ 64]? := by
  obtain ⟨s, h, hlength, -⟩ := calls_reachable (2 ^ 64 + 1)
  refine ⟨s, h, hlength, ?_⟩
  rw [(rpcSystem_numbered h).ids, hlength]
  simp

end SharedChannel

end Muduo.Net
