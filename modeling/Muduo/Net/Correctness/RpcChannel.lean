import Muduo.Net.Protorpc.RpcChannel

/-!
# `Correctness.RpcChannel` — when a reply finds its call

`CallMethod` sends the request before it puts the call into `outstandings_`, so the reply can come first. In every
interleaving, the first response to a call finds it exactly when the calling thread is no longer between taking the
id and the insertion (`response_completes_iff`).

Ids wrap around after `2 ^ 64` calls; up to then they are distinct (`assigned_nodup`), and all that is proved about
the map rests on that alone.
-/

namespace Muduo.Net

open Lib

namespace RpcChannel

variable {c c' : RpcChannel} {message : RpcMessage} {out : OutstandingCall}

/-! ## What the functions can do -/

/-- A request does not touch the calls of this side. -/
theorem onRequest_frame (h : c.onRequest message = .ok c') : c'.id = c.id ∧ c'.outstandings = c.outstandings := by
  unfold onRequest at h
  split at h
  · cases h
  · obtain rfl := Except.ok.inj h
    exact ⟨rfl, rfl⟩
  · split at h
    · obtain rfl := Except.ok.inj h
      exact ⟨rfl, rfl⟩
    · split at h
      · obtain rfl := Except.ok.inj h
        exact ⟨rfl, rfl⟩
      · obtain rfl := Except.ok.inj h
        exact ⟨rfl, rfl⟩

/-- **What a message can do**: a response takes its call out of the map, if it is there; nothing else changes the
    map. -/
theorem onRpcMessage_cases (h : c.onRpcMessage message = .ok c') :
    c'.id = c.id ∧
    (message.type = .RESPONSE ∧ c'.outstandings = c.outstandings.erase message.id ∨
      message.type = .RESPONSE ∧ c.outstandings.lookup message.id = none ∧ c'.outstandings = c.outstandings ∨
      message.type ≠ .RESPONSE ∧ c'.outstandings = c.outstandings) := by
  unfold onRpcMessage at h
  cases htype : message.type with
  | RESPONSE =>
      simp only [htype] at h
      obtain ⟨_, _, h⟩ := bind_eq_ok.mp h
      cases hl : c.outstandings.lookup message.id with
      | none =>
          simp only [hl] at h
          obtain rfl := Except.ok.inj h
          exact ⟨rfl, Or.inr (Or.inl ⟨rfl, rfl, rfl⟩)⟩
      | some out =>
          simp only [hl] at h
          obtain rfl := Except.ok.inj h
          exact ⟨rfl, Or.inl ⟨rfl, rfl⟩⟩
  | REQUEST =>
      simp only [htype] at h
      obtain ⟨hid, hout⟩ := onRequest_frame h
      exact ⟨hid, Or.inr (Or.inr ⟨by decide, hout⟩)⟩
  | ERROR =>
      simp only [htype] at h
      obtain rfl := Except.ok.inj h
      exact ⟨rfl, Or.inr (Or.inr ⟨by decide, rfl⟩)⟩

/-- What the response `data` does for a call: it is parsed into the response object of the call, the closure is run,
    and the object is deleted. Without a response object nothing is done. -/
inductive Completed (data : List UInt8) : OutstandingCall → List RpcEvent → Prop where
  | run (response done : Nat) :
      Completed data ⟨some response, some done⟩ [.parseFromString response data, .run done, .delete response]
  | noClosure (response : Nat) : Completed data ⟨some response, none⟩ [.parseFromString response data, .delete response]
  | noResponse (done : Option Nat) : Completed data ⟨none, done⟩ []

theorem completed_completion (out : OutstandingCall) (data : List UInt8) :
    Completed data out (completion out data) := by
  obtain ⟨_ | response, _ | done⟩ := out
  · exact .noResponse none
  · exact .noResponse (some done)
  · exact .noClosure response
  · exact .run response done

/-- A response that finds its call completes it. -/
theorem onRpcMessage_found (htype : message.type = .RESPONSE) (hresponse : message.response.isSome = true)
    (hl : c.outstandings.lookup message.id = some out) :
    ∃ c', c.onRpcMessage message = .ok c' ∧ c'.log = c.log ++ completion out (message.response.getD []) := by
  unfold onRpcMessage onResponse
  rw [htype, hl]
  simp only [assert_pos hresponse, ok_bind]
  exact ⟨_, rfl, rfl⟩

end RpcChannel

namespace SharedChannel

variable {τ : Type} {s s' : SharedChannel τ} {a : RpcAction τ} {t : τ} {id : RpcId} {out : OutstandingCall}

/-! ## Ids -/

/-- Ids are handed out in order. -/
structure Numbered (s : SharedChannel τ) : Prop where
  counter : s.channel.id = BitVec.ofNat 64 s.assigned.length
  ids : s.assigned.map Prod.fst = (List.range s.assigned.length).map fun k => BitVec.ofNat 64 (k + 1)

theorem Numbered.takeId (h : s.Numbered) :
    (s.assigned ++ [(s.channel.id + 1, out)]).map Prod.fst =
      (List.range (s.assigned.length + 1)).map fun k => BitVec.ofNat 64 (k + 1) := by
  have hnext : s.channel.id + 1 = BitVec.ofNat 64 (s.assigned.length + 1) := by
    rw [h.counter, ← BitVec.ofNat_add_ofNat]
    rfl
  rw [List.map_append, h.ids, List.range_succ, List.map_append]
  simp only [List.map_cons, List.map_nil, hnext]

variable [DecidableEq τ]

theorem exec_sendRequest {message : RpcMessage} (h : s.threads t = .taken message out) :
    s.exec (.sendRequest t) = .ok { s with
      channel := s.channel.send message
      threads := Function.update s.threads t (.sent message.id out) } := by
  simp only [SharedChannel.exec, h]

theorem exec_insert (h : s.threads t = .sent id out) :
    s.exec (.insert t) = .ok { s with
      channel := s.channel.insertOutstanding id out
      threads := Function.update s.threads t .idle } := by
  simp only [SharedChannel.exec, h]

theorem Numbered.exec (h : s.Numbered) (ha : s.enabled a) (hs' : s.exec a = .ok s') : s'.Numbered := by
  cases a with
  | takeId t service method request out =>
      obtain rfl := Except.ok.inj hs'
      refine ⟨?_, ?_⟩
      · show s.channel.id + 1 = BitVec.ofNat 64 (s.assigned ++ [_]).length
        rw [List.length_append, h.counter, ← BitVec.ofNat_add_ofNat]
        rfl
      · show (s.assigned ++ [(s.channel.id + 1, out)]).map Prod.fst = _
        rw [h.takeId, List.length_append]
        rfl
  | sendRequest t =>
      obtain ⟨message, out, ht⟩ := ha
      rw [exec_sendRequest ht] at hs'
      obtain rfl := Except.ok.inj hs'
      exact ⟨h.counter, h.ids⟩
  | insert t =>
      obtain ⟨id, out, ht⟩ := ha
      rw [exec_insert ht] at hs'
      obtain rfl := Except.ok.inj hs'
      exact ⟨h.counter, h.ids⟩
  | onRpcMessage message =>
      obtain ⟨c, hc, hset⟩ := bind_eq_ok.mp hs'
      obtain rfl := Except.ok.inj hset
      exact ⟨(RpcChannel.onRpcMessage_cases hc).1.trans h.counter, h.ids⟩
  | doneCallback id data =>
      obtain rfl := Except.ok.inj hs'
      exact ⟨h.counter, h.ids⟩

theorem rpcSystem_numbered (h : (rpcSystem τ).Reachable s) : s.Numbered := by
  refine System.keeps (S := rpcSystem τ) ?_ ?_ h
  · rintro s ⟨⟨services, hchannel⟩, -, hassigned, -⟩
    exact ⟨by rw [hchannel, hassigned]; rfl, by rw [hassigned]; rfl⟩
  · exact fun _ _ _ hs ha hs' => hs.exec ha hs'

/-- **Distinct calls have distinct ids**, as long as there are no more than there are ids. -/
theorem assigned_nodup (h : (rpcSystem τ).Reachable s) (hcalls : s.assigned.length ≤ 2 ^ 64) :
    (s.assigned.map Prod.fst).Nodup := by
  rw [(rpcSystem_numbered h).ids]
  refine List.Nodup.map_on ?_ List.nodup_range
  intro j hj k hk heq
  rw [List.mem_range] at hj hk
  have hmod : (j + 1) % 2 ^ 64 = (k + 1) % 2 ^ 64 := by
    simpa only [BitVec.toNat_ofNat] using congrArg BitVec.toNat heq
  omega

/-- `CallMethod` that nothing comes between. -/
theorem callMethod_steps (ht : s.threads t = .idle) (service method : String) (request : List UInt8)
    (out : OutstandingCall) : ∃ s₁ s₂ s₃, s.exec (.takeId t service method request out) = .ok s₁ ∧
      s₁.exec (.sendRequest t) = .ok s₂ ∧ s₂.exec (.insert t) = .ok s₃ ∧
      s₃.channel = s.channel.callMethod service method request out ∧ s₃.threads = s.threads := by
  refine ⟨_, _, _, rfl, exec_sendRequest (Function.update_self _ _ _), exec_insert (Function.update_self _ _ _),
    rfl, ?_⟩
  show Function.update (Function.update (Function.update s.threads t _) t _) t .idle = s.threads
  rw [Function.update_idem, Function.update_idem, ← ht, Function.update_eq_self]

/-! ## The map -/

/-- The thread `t` is making the call `(id, out)`, which is not in the map yet. -/
def Calling (s : SharedChannel τ) (t : τ) (id : RpcId) (out : OutstandingCall) : Prop :=
  (s.threads t).call = some (id, out)

/-- A call is being made, or it is in the map, or a response has come. -/
structure Inv (s : SharedChannel τ) : Prop where
  calling : ∀ t id out, s.Calling t id out →
    (id, out) ∈ s.assigned ∧ s.channel.outstandings.lookup id = none
  apart : ∀ t t' id out out', s.Calling t id out → s.Calling t' id out' → t = t'
  inserted : ∀ id out, (id, out) ∈ s.assigned → id ∉ s.processed → (∀ t out', ¬ s.Calling t id out') →
    s.channel.outstandings.lookup id = some out
  known : ∀ id out, s.channel.outstandings.lookup id = some out → (id, out) ∈ s.assigned

/-- With distinct ids, an id leads to one call. -/
theorem assigned_unique {l : List (RpcId × OutstandingCall)} (hn : (l.map Prod.fst).Nodup) {out' : OutstandingCall}
    (h : (id, out) ∈ l) (h' : (id, out') ∈ l) : out = out' := by
  have heq := List.inj_on_of_nodup_map hn h h' rfl
  exact (Prod.mk.inj heq).2

/-- One thread has moved. -/
theorem calling_update {p : RpcPoint} {t' : τ} : (Function.update s.threads t p t').call = some (id, out) ↔
    t' = t ∧ p.call = some (id, out) ∨ t' ≠ t ∧ s.Calling t' id out := by
  by_cases ht : t' = t
  · subst ht
    simp
  · simp [ht, Calling]

/-- A thread takes an id that is new. -/
theorem Inv.takeId (h : s.Inv) (hidle : s.threads t = .idle) {message : RpcMessage} {c : RpcChannel}
    (hmap : c.outstandings = s.channel.outstandings) (hnew : message.id ∉ s.assigned.map Prod.fst) :
    Inv { s with
      channel := c
      threads := Function.update s.threads t (.taken message out)
      assigned := s.assigned ++ [(message.id, out)] } := by
  have hfresh : ∀ out', (message.id, out') ∉ s.assigned := fun out' hmem => hnew (List.mem_map_of_mem hmem)
  refine ⟨?_, ?_, ?_, ?_⟩
  · intro t' id out' hcall
    show (id, out') ∈ s.assigned ++ _ ∧ c.outstandings.lookup id = none
    rw [hmap, List.mem_append]
    rcases calling_update.mp hcall with ⟨-, hp⟩ | ⟨-, hcall⟩
    · obtain ⟨rfl, rfl⟩ := Prod.mk.inj (Option.some.inj hp)
      refine ⟨Or.inr (List.mem_singleton.mpr rfl), ?_⟩
      cases hl : s.channel.outstandings.lookup message.id with
      | none => rfl
      | some out' => exact absurd (h.known _ _ hl) (hfresh out')
    · exact (h.calling t' id out' hcall).imp_left Or.inl
  · intro t₁ t₂ id out₁ out₂ h₁ h₂
    rcases calling_update.mp h₁ with ⟨rfl, hp₁⟩ | ⟨-, h₁⟩
    · obtain ⟨rfl, rfl⟩ := Prod.mk.inj (Option.some.inj hp₁)
      rcases calling_update.mp h₂ with ⟨rfl, -⟩ | ⟨-, h₂⟩
      · rfl
      · exact absurd (h.calling t₂ _ _ h₂).1 (hfresh out₂)
    · rcases calling_update.mp h₂ with ⟨-, hp₂⟩ | ⟨-, h₂⟩
      · obtain ⟨rfl, rfl⟩ := Prod.mk.inj (Option.some.inj hp₂)
        exact absurd (h.calling t₁ _ _ h₁).1 (hfresh out₁)
      · exact h.apart t₁ t₂ id out₁ out₂ h₁ h₂
  · intro id out' hmem hfirst hnone
    show c.outstandings.lookup id = some out'
    rw [hmap]
    rcases List.mem_append.mp hmem with hold | hlast
    · refine h.inserted id out' hold hfirst fun t' out'' hcall => hnone t' out'' ?_
      have ht' : t' ≠ t := by
        rintro rfl
        unfold Calling at hcall
        rw [hidle] at hcall
        cases hcall
      exact calling_update.mpr (Or.inr ⟨ht', hcall⟩)
    · obtain ⟨rfl, rfl⟩ := Prod.mk.inj (List.mem_singleton.mp hlast)
      exact absurd (calling_update.mpr (Or.inl ⟨rfl, rfl⟩)) (hnone t _)
  · intro id out' hl
    have hl : c.outstandings.lookup id = some out' := hl
    rw [hmap] at hl
    exact List.mem_append_left _ (h.known id out' hl)

/-- A thread goes on with its call. -/
theorem Inv.sendRequest (h : s.Inv) {p q : RpcPoint} {c : RpcChannel} (ht : s.threads t = p) (hcall : q.call = p.call)
    (hmap : c.outstandings = s.channel.outstandings) :
    Inv { s with channel := c, threads := Function.update s.threads t q } := by
  have hsame : ∀ t' id out, Calling { s with channel := c, threads := Function.update s.threads t q } t' id out ↔
      s.Calling t' id out := by
    intro t' id out
    refine calling_update.trans ?_
    by_cases ht' : t' = t
    · subst ht'
      simp [Calling, ht, hcall]
    · simp [ht']
  refine ⟨?_, ?_, ?_, ?_⟩
  · intro t' id out hc
    show _ ∧ c.outstandings.lookup id = none
    rw [hmap]
    exact h.calling t' id out ((hsame t' id out).mp hc)
  · intro t₁ t₂ id out₁ out₂ h₁ h₂
    exact h.apart t₁ t₂ id out₁ out₂ ((hsame _ _ _).mp h₁) ((hsame _ _ _).mp h₂)
  · intro id out hmem hfirst hnone
    show c.outstandings.lookup id = some out
    rw [hmap]
    exact h.inserted id out hmem hfirst fun t' out' hc => hnone t' out' ((hsame _ _ _).mpr hc)
  · intro id out hl
    have hl : c.outstandings.lookup id = some out := hl
    rw [hmap] at hl
    exact h.known id out hl

/-- A thread puts its call into the map. -/
theorem Inv.insert (h : s.Inv) (hn : (s.assigned.map Prod.fst).Nodup) (ht : s.threads t = .sent id out) :
    Inv { s with
      channel := s.channel.insertOutstanding id out
      threads := Function.update s.threads t .idle } := by
  have hcall : s.Calling t id out := by
    unfold Calling
    rw [ht]
    rfl
  have hmem := (h.calling t id out hcall).1
  -- a thread that is still calling is another one, and has another id
  have hother : ∀ t' id' out', (Function.update s.threads t .idle t').call = some (id', out') →
      s.Calling t' id' out' ∧ id' ≠ id := by
    intro t' id' out' hc
    rcases calling_update.mp hc with ⟨-, hp⟩ | ⟨ht', hc⟩
    · cases hp
    · refine ⟨hc, ?_⟩
      rintro rfl
      exact ht' (h.apart t' t _ _ _ hc hcall)
  refine ⟨?_, ?_, ?_, ?_⟩
  · intro t' id' out' hc
    obtain ⟨hc, hne⟩ := hother t' id' out' hc
    obtain ⟨hmem', hl⟩ := h.calling t' id' out' hc
    exact ⟨hmem', (AList.lookup_insert_ne hne).trans hl⟩
  · intro t₁ t₂ id' out₁ out₂ h₁ h₂
    exact h.apart t₁ t₂ id' out₁ out₂ (hother _ _ _ h₁).1 (hother _ _ _ h₂).1
  · intro id' out' hmem' hfirst hnone
    by_cases hid : id' = id
    · subst hid
      -- with distinct ids, it was this call that took the id
      rw [assigned_unique hn hmem' hmem]
      exact AList.lookup_insert _
    · refine (AList.lookup_insert_ne hid).trans (h.inserted id' out' hmem' hfirst fun t' out'' hc => ?_)
      have ht' : t' ≠ t := by
        rintro rfl
        exact hid (Prod.mk.inj (Option.some.inj (hc.symm.trans hcall))).1
      exact hnone t' out'' (calling_update.mpr (Or.inr ⟨ht', hc⟩))
  · intro id' out' hl
    by_cases hid : id' = id
    · subst hid
      obtain rfl : out = out' := Option.some.inj ((AList.lookup_insert _).symm.trans hl)
      exact hmem
    · exact h.known id' out' ((AList.lookup_insert_ne hid).symm.trans hl)

omit [DecidableEq τ] in
/-- A step that leaves the map alone. -/
theorem Inv.same_map (h : s.Inv) {c : RpcChannel} {processed : List RpcId}
    (hmap : c.outstandings = s.channel.outstandings) (hsub : ∀ id, id ∉ processed → id ∉ s.processed) :
    Inv { s with channel := c, processed } where
  calling t id out hcall := by
    show _ ∧ c.outstandings.lookup id = none
    rw [hmap]
    exact h.calling t id out hcall
  apart := h.apart
  inserted id out hmem hfirst hnone := by
    show c.outstandings.lookup id = some out
    rw [hmap]
    exact h.inserted id out hmem (hsub id hfirst) hnone
  known id out hl := h.known id out (hmap ▸ hl)

omit [DecidableEq τ] in
/-- A response takes its call out of the map. -/
theorem Inv.erase (h : s.Inv) {c : RpcChannel} (hmap : c.outstandings = s.channel.outstandings.erase id) :
    Inv { s with channel := c, processed := s.processed ++ [id] } where
  calling t id' out hcall := by
    obtain ⟨hmem, hl⟩ := h.calling t id' out hcall
    refine ⟨hmem, ?_⟩
    show c.outstandings.lookup id' = none
    rw [hmap]
    by_cases hid : id' = id
    · rw [hid]
      exact AList.lookup_erase _ _
    · exact (AList.lookup_erase_ne hid).trans hl
  apart := h.apart
  inserted id' out hmem hfirst hnone := by
    show c.outstandings.lookup id' = some out
    -- the call that is erased is not one of the unprocessed
    rw [List.mem_append, List.mem_singleton, not_or] at hfirst
    rw [hmap, AList.lookup_erase_ne hfirst.2]
    exact h.inserted id' out hmem hfirst.1 hnone
  known id' out hl := by
    have hl : c.outstandings.lookup id' = some out := hl
    rw [hmap] at hl
    by_cases hid : id' = id
    · rw [hid, AList.lookup_erase] at hl
      cases hl
    · rw [AList.lookup_erase_ne hid] at hl
      exact h.known id' out hl

omit [DecidableEq τ] in
/-- A message arrives. -/
theorem Inv.onRpcMessage (h : s.Inv) {message : RpcMessage} {c : RpcChannel}
    (hc : s.channel.onRpcMessage message = .ok c) :
    Inv { s with
      channel := c
      processed := if message.type = .RESPONSE then s.processed ++ [message.id] else s.processed } := by
  obtain ⟨-, ⟨htype, hmap⟩ | ⟨htype, -, hmap⟩ | ⟨htype, hmap⟩⟩ := RpcChannel.onRpcMessage_cases hc
  · rw [if_pos htype]
    exact h.erase hmap
  · rw [if_pos htype]
    exact h.same_map hmap fun id hid hmem => hid (List.mem_append_left _ hmem)
  · rw [if_neg htype]
    exact h.same_map hmap fun _ => id

/-- What is assigned stays assigned. -/
theorem exec_assigned (ha : s.enabled a) (hs' : s.exec a = .ok s') : s.assigned <+: s'.assigned := by
  cases a with
  | takeId t service method request out =>
      obtain rfl := Except.ok.inj hs'
      exact List.prefix_append _ _
  | sendRequest t =>
      obtain ⟨message, out, ht⟩ := ha
      rw [exec_sendRequest ht] at hs'
      obtain rfl := Except.ok.inj hs'
      exact List.prefix_rfl
  | insert t =>
      obtain ⟨id, out, ht⟩ := ha
      rw [exec_insert ht] at hs'
      obtain rfl := Except.ok.inj hs'
      exact List.prefix_rfl
  | onRpcMessage message =>
      obtain ⟨c, hc, hset⟩ := bind_eq_ok.mp hs'
      obtain rfl := Except.ok.inj hset
      exact List.prefix_rfl
  | doneCallback id data =>
      obtain rfl := Except.ok.inj hs'
      exact List.prefix_rfl

theorem Inv.exec (h : s.Inv) (ha : s.enabled a) (hs' : s.exec a = .ok s')
    (hn : (s'.assigned.map Prod.fst).Nodup) : s'.Inv := by
  have hn₀ : (s.assigned.map Prod.fst).Nodup := hn.sublist ((exec_assigned ha hs').sublist.map _)
  cases a with
  | takeId t service method request out =>
      obtain rfl := Except.ok.inj hs'
      have hnew : s.channel.id + 1 ∉ s.assigned.map Prod.fst := by
        have hn : ((s.assigned ++ [(s.channel.id + 1, out)]).map Prod.fst).Nodup := hn
        rw [List.map_append, List.nodup_append] at hn
        exact fun hmem => hn.2.2 _ hmem _ (List.mem_singleton.mpr rfl) rfl
      exact h.takeId ha rfl hnew
  | sendRequest t =>
      obtain ⟨message, out, ht⟩ := ha
      rw [exec_sendRequest ht] at hs'
      obtain rfl := Except.ok.inj hs'
      exact h.sendRequest ht rfl rfl
  | insert t =>
      obtain ⟨id, out, ht⟩ := ha
      rw [exec_insert ht] at hs'
      obtain rfl := Except.ok.inj hs'
      exact h.insert hn₀ ht
  | onRpcMessage message =>
      obtain ⟨c, hc, hset⟩ := bind_eq_ok.mp hs'
      obtain rfl := Except.ok.inj hset
      exact h.onRpcMessage hc
  | doneCallback id data =>
      obtain rfl := Except.ok.inj hs'
      exact ⟨h.calling, h.apart, h.inserted, h.known⟩

theorem rpcSystem_inv (h : (rpcSystem τ).Reachable s) (hn : (s.assigned.map Prod.fst).Nodup) : s.Inv := by
  induction h with
  | @init s h0 =>
      obtain ⟨⟨services, hchannel⟩, hidle, hassigned, -⟩ := h0
      have hnot : ∀ t id out, ¬ s.Calling t id out := by
        intro t id out hcall
        unfold Calling at hcall
        rw [hidle] at hcall
        cases hcall
      have hmap : s.channel.outstandings = ∅ := by rw [hchannel]; rfl
      refine ⟨?_, ?_, ?_, ?_⟩
      · exact fun t id out hcall => absurd hcall (hnot t id out)
      · exact fun t t' id out out' hcall => absurd hcall (hnot t id out)
      · intro id out hmem
        rw [hassigned] at hmem
        cases hmem
      · intro id out hl
        rw [hmap, AList.lookup_empty] at hl
        cases hl
  | @step s a s' _ hstep ih =>
      -- distinct ids at the end are distinct before
      have hgrows := exec_assigned hstep.1 hstep.2
      exact (ih (hn.sublist (hgrows.sublist.map _))).exec hstep.1 hstep.2 hn

/-! ## Replies -/

/-- The message finds the call `out` in the map, and completes it. -/
def Completes (s : SharedChannel τ) (message : RpcMessage) (out : OutstandingCall) : Prop :=
  s.channel.outstandings.lookup message.id = some out ∧
    ∃ s' events, s.exec (.onRpcMessage message) = .ok s' ∧
      RpcChannel.Completed (message.response.getD []) out events ∧ s'.channel.log = s.channel.log ++ events

/-- **A reply finds its call exactly when the call has been put into the map.** In every interleaving, the first
    response with the id of a call completes this call if and only if no thread is still on the way from taking
    the id to the insertion. -/
theorem response_completes_iff (h : (rpcSystem τ).Reachable s) (hcalls : s.assigned.length ≤ 2 ^ 64)
    {message : RpcMessage} (hmem : (message.id, out) ∈ s.assigned) (hfirst : message.id ∉ s.processed)
    (htype : message.type = .RESPONSE) (hresponse : message.response.isSome = true) :
    s.Completes message out ↔ ∀ t, ¬ s.Calling t message.id out := by
  have hn := assigned_nodup h hcalls
  have hinv := rpcSystem_inv h hn
  constructor
  · rintro ⟨hl, -⟩ t hcall
    rw [(hinv.calling t _ _ hcall).2] at hl
    cases hl
  · intro hnone
    have hl := hinv.inserted _ _ hmem hfirst fun t out' hcall => by
      -- a thread with this id is making this very call
      rw [assigned_unique hn (hinv.calling t _ _ hcall).1 hmem] at hcall
      exact hnone t hcall
    obtain ⟨c, hc, hlog⟩ := RpcChannel.onRpcMessage_found htype hresponse hl
    exact ⟨hl, _, _, bind_eq_ok.mpr ⟨c, hc, rfl⟩, RpcChannel.completed_completion _ _, hlog⟩

/-- The reply to the first call. -/
def firstReply : RpcMessage where
  type := .RESPONSE
  id := 1
  service := none
  method := none
  request := none
  response := some [7]

/-- A call that is made without a pause gets its reply. -/
theorem response_completes_uninterrupted : ∃ s : SharedChannel Unit, (rpcSystem Unit).Reachable s ∧
    s.Completes firstReply ⟨some 0, some 0⟩ := by
  have h := (System.Reachable.init (S := rpcSystem Unit) (s := ⟨RpcChannel.new, fun _ => .idle, [], []⟩)
      ⟨⟨_, rfl⟩, fun _ => rfl, rfl, rfl⟩)
    |>.next (.takeId () "EchoService" "Echo" [] ⟨some 0, some 0⟩) rfl rfl
    |>.next (.sendRequest ()) ⟨_, _, rfl⟩ rfl
    |>.next (.insert ()) ⟨_, _, rfl⟩ rfl
  refine ⟨_, h, (response_completes_iff h Nat.one_le_two_pow (List.mem_singleton.mpr rfl) List.not_mem_nil rfl rfl).mpr ?_⟩
  rintro t ⟨⟩

/-- **A lost reply.** The thread sends its request, the peer answers it, and the answer is processed before the
    thread comes to the insertion. The answer is dropped, and the call stays in the map. -/
theorem reply_lost : ∃ s s₁ s₂ : SharedChannel Unit, ((rpcSystem Unit).when Answers).Reachable s ∧
    (firstReply.id, ⟨some 0, some 0⟩) ∈ s.assigned ∧ firstReply.id ∉ s.processed ∧
    s.Answers (.onRpcMessage firstReply) ∧ s.exec (.onRpcMessage firstReply) = .ok s₁ ∧ s₁.channel.log = [] ∧
    s₁.exec (.insert ()) = .ok s₂ ∧ s₂.channel.outstandings.lookup firstReply.id = some ⟨some 0, some 0⟩ := by
  have h := (System.Reachable.init (S := (rpcSystem Unit).when Answers)
      (s := ⟨RpcChannel.new, fun _ => .idle, [], []⟩) ⟨⟨_, rfl⟩, fun _ => rfl, rfl, rfl⟩)
    |>.next (.takeId () "EchoService" "Echo" [] ⟨some 0, some 0⟩) ⟨rfl, trivial⟩ rfl
    |>.next (.sendRequest ()) ⟨⟨_, _, rfl⟩, trivial⟩ rfl
  refine ⟨_, _, _, h, List.mem_singleton.mpr rfl, List.not_mem_nil, ⟨rfl, rfl, ?_⟩, rfl, rfl, rfl, rfl⟩
  exact ⟨_, List.mem_singleton.mpr rfl, rfl, rfl⟩

end SharedChannel

end Muduo.Net
