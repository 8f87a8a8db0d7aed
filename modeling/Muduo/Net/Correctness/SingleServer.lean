import Muduo.Net.Correctness.ServerNames
import Muduo.Net.Correctness.TcpInterest

/-!
# `Correctness.SingleServer` — a server without threads

On a server without threads every hop of the protocol is made at once, so between two steps `connections_`
leads to open connections only (`Single`). This needs nothing about names: a connection whose entry was
replaced by another of the same name is open and not in the map.
-/

namespace Muduo.Net

open Lib

namespace TcpConnection

variable {c c' : TcpConnection} {k : List Callback} {us : List UserCall}

/-! ## `connectDestroyed` on one connection -/

/-- A connection as a server without threads keeps it between two steps. -/
structure Kept (c : TcpConnection) : Prop where
  queued : c.queued = []
  reading : Reading c
  phase : (∃ n, Open c (announced n)) ∨ ∃ k, Closed c k ∧ ReportedOnce k

/-- What a call into a connection that was `c` has made of it: still open, still closed, or just closed. -/
structure Called (c c' : TcpConnection) : Prop where
  reading : Reading c'
  stays : c.state = .kDisconnected → c'.state = .kDisconnected
  phase : (∃ n, Open c' (announced n)) ∨
    (c.state = .kDisconnected ∧ .connectDestroyed ∉ c'.queued ∧ ∃ k, Closed c' k ∧ ReportedOnce k) ∨ Ended c'

theorem Kept.called (h : Kept c) : Called c c where
  reading := h.reading
  stays hs := hs
  phase := by
    rcases h.phase with ho | ⟨k, hk, honce⟩
    · exact Or.inl ho
    · exact Or.inr (Or.inl ⟨hk.state, by simp [h.queued], k, hk, honce⟩)

theorem Kept.closed (h : Kept c) (hs : c.state = .kDisconnected) : ∃ k, Closed c k ∧ ReportedOnce k :=
  h.phase.resolve_left fun ⟨_, ho⟩ => ho.state_ne hs

theorem Kept.open (h : Kept c) (hs : c.state ≠ .kDisconnected) : ∃ n, Open c (announced n) :=
  h.phase.resolve_right fun ⟨_, hk, _⟩ => hs hk.state

theorem Kept.userCalls (h : Kept c) (hc : c.userCalls us = .ok c') : Called c c' where
  reading := userCalls_reading h.reading hc
  stays := by
    intro hs
    obtain ⟨k, hk, -⟩ := h.closed hs
    exact ((userCalls_keeps hc).2 k hk).1.state
  phase := by
    obtain ⟨hopen, hclosed⟩ := userCalls_keeps hc
    rcases h.phase with ⟨n, ho⟩ | ⟨k, hk, honce⟩
    · exact Or.inl ⟨n, hopen _ ho⟩
    · obtain ⟨hk', hq⟩ := hclosed k hk
      exact Or.inr (Or.inl ⟨hk.state, by simp [hq, h.queued], k, hk', honce⟩)

theorem Kept.handleEvent (h : Kept c) {d : Dispatch} (hi : c.channel.isNoneEvent = false)
    (hr : ReadFits c d.read) (hc : c.handleEvent d = .ok c') : Called c c' where
  reading := handleEvent_reading h.reading hc
  stays := by
    intro hs
    obtain ⟨k, hk, -⟩ := h.closed hs
    rw [hk.noInterest] at hi
    exact absurd hi (by decide)
  phase := by
    rcases h.phase with ⟨n, ho⟩ | ⟨k, hk, -⟩
    · exact (handleEvent_settled ho hr hc).imp_right Or.inr
    · rw [hk.noInterest] at hi
      exact absurd hi (by decide)

/-- What was called is kept again, once its functors are taken away. -/
theorem Called.kept (h : Called c c') : Kept { c' with queued := [] } where
  queued := rfl
  reading := h.reading
  phase := by
    rcases h.phase with ⟨n, ho⟩ | ⟨_, _, k, hk, honce⟩ | he
    · exact Or.inl ⟨n, ho.unqueued⟩
    · exact Or.inr ⟨k, hk.unqueued, honce⟩
    · obtain ⟨k, hk, honce⟩ := he.closed
      exact Or.inr ⟨k, hk.unqueued, honce⟩

end TcpConnection

namespace ServerRun

open TcpConnection

variable {s s₀ s' : ServerRun} {id : Nat} {o o' : ConnObject} {c : TcpConnection} {us : List UserCall}

/-! ## A server without threads -/

/-- The functors of such a server: only what comes after a call into a connection is queued. -/
def Queued (s : ServerRun) (f : ServerFunctor) : Prop :=
  f.task = .connectDestroyed ∧ (∃ o, s.objects f.id = some o ∧ o.conn.state = .kDisconnected) ∨
    ∃ g, g ≠ .connectDestroyed ∧ f.task = .callback g

/-- All connections are on the base loop; the map leads to open ones only. -/
structure Single (s : ServerRun) : Prop where
  named : s.server.Named
  loops : s.server.threadPool.loops = []
  small : ∀ id o, s.objects id = some o → id < s.server.nextConnId
  object : ∀ id o, s.objects id = some o → o.name = s.server.connName id ∧ o.loop = .base ∧ Kept o.conn
  entry : ∀ name id, s.server.connections.lookup name = some id →
    ∃ o, s.objects id = some o ∧ o.conn.state ≠ .kDisconnected
  queue : ∀ l f, f ∈ s.queues l → l = .base ∧ f.id < s.server.nextConnId ∧ s.Queued f

/-- The step from `s` to `s'` leaves connection `id` as `o'`. -/
structure Stores (id : Nat) (o' : ConnObject) (s s' : ServerRun) : Prop where
  objects : s'.objects = Function.update s.objects id (some o')
  connName : ∀ i, s'.server.connName i = s.server.connName i
  loops : s'.server.threadPool.loops = s.server.threadPool.loops
  next : s.server.nextConnId ≤ s'.server.nextConnId
  small : id < s'.server.nextConnId
  entry : ∀ name i, s'.server.connections.lookup name = some i →
    i = id ∧ o'.conn.state ≠ .kDisconnected ∨ i ≠ id ∧ s.server.connections.lookup name = some i
  queue : ∀ l f, f ∈ s'.queues l → f ∈ s.queues l ∨
    l = .base ∧ f.id = id ∧ (f.task = .connectDestroyed ∧ o'.conn.state = .kDisconnected ∨
      ∃ g, g ≠ .connectDestroyed ∧ f.task = .callback g)

/-- **One connection changes, and all is well again.** -/
theorem Single.stores (h : s.Single) (hst : Stores id o' s s') (hnamed : s'.server.Named)
    (ho' : o'.name = s.server.connName id ∧ o'.loop = .base ∧ Kept o'.conn)
    (hstay : ∀ o, s.objects id = some o → o.conn.state = .kDisconnected → o'.conn.state = .kDisconnected) :
    s'.Single := by
  have hself : s'.objects id = some o' := by rw [hst.objects, Function.update_self]
  have hother : ∀ i, i ≠ id → s'.objects i = s.objects i := by
    intro i hi
    rw [hst.objects, Function.update_of_ne hi]
  refine ⟨hnamed, hst.loops.trans h.loops, ?_, ?_, ?_, ?_⟩
  · intro i o ho
    by_cases hi : i = id
    · exact hi ▸ hst.small
    · exact lt_of_lt_of_le (h.small i o ((hother i hi).symm.trans ho)) hst.next
  · intro i o ho
    rw [hst.connName]
    by_cases hi : i = id
    · subst hi
      obtain rfl : o' = o := Option.some.inj (hself.symm.trans ho)
      exact ho'
    · exact h.object i o ((hother i hi).symm.trans ho)
  · intro name i hl
    rcases hst.entry name i hl with ⟨rfl, hopen⟩ | ⟨hi, hl⟩
    · exact ⟨o', hself, hopen⟩
    · rw [hother i hi]
      exact h.entry name i hl
  · intro l f hf
    rcases hst.queue l f hf with hf | ⟨hl, rfl, hf⟩
    · obtain ⟨hl, hlt, hq⟩ := h.queue l f hf
      refine ⟨hl, lt_of_lt_of_le hlt hst.next, hq.imp_left ?_⟩
      rintro ⟨ht, o, ho, hclosed⟩
      refine ⟨ht, ?_⟩
      by_cases hi : f.id = id
      · rw [hi] at ho ⊢
        exact ⟨o', hself, hstay o ho hclosed⟩
      · exact ⟨o, (hother _ hi).trans ho, hclosed⟩
    · exact ⟨hl, hst.small, hf.imp_left fun hd => ⟨hd.1, o', hself, hd.2⟩⟩

/-- The notifications that a call has queued. -/
def flow (id : Nat) (c : TcpConnection) : List ServerFunctor :=
  (c.queued.filter (· ≠ .connectDestroyed)).map fun f => ⟨id, .callback f⟩

theorem mem_flow {f : ServerFunctor} (hf : f ∈ flow id c) :
    f.id = id ∧ ∃ g, g ≠ .connectDestroyed ∧ f.task = .callback g := by
  obtain ⟨g, hg, rfl⟩ := List.mem_map.mp hf
  exact ⟨rfl, g, by simpa using (List.mem_filter.mp hg).2, rfl⟩

/-- What is in a queue after functors were added to the base loop's. -/
theorem mem_queueInLoop {l : LoopId} {fs : List ServerFunctor} {f : ServerFunctor}
    (hf : f ∈ (s.queueInLoop .base fs).queues l) : f ∈ s.queues l ∨ l = .base ∧ f ∈ fs := by
  by_cases hl : l = .base
  · subst hl
    have hf : f ∈ s.queues .base ++ fs := by simpa [queueInLoop] using hf
    exact (List.mem_append.mp hf).imp_right fun h => ⟨rfl, h⟩
  · left
    simpa [queueInLoop, hl] using hf

/-- The end of a call on the base loop, for a connection that lives there. -/
theorem settle_base_cases (hloop : o.loop = .base) (hs : s.settle .base id o c = .ok s') :
    s'.objects = Function.update s.objects id (some { o with conn := { c with queued := [] } }) ∧
    (.connectDestroyed ∉ c.queued ∧ s'.server = s.server ∧
        s'.queues = (s.queueInLoop .base (flow id c)).queues ∨
      .connectDestroyed ∈ c.queued ∧
        s'.server = { s.server with connections := s.server.connections.erase o.name } ∧
        s'.queues = ((s.queueInLoop .base (flow id c)).queueInLoop .base [⟨id, .connectDestroyed⟩]).queues) := by
  obtain ⟨name, loop, c₀⟩ := o
  obtain rfl : loop = .base := hloop
  unfold settle at hs
  dsimp only at hs
  split at hs
  · next hmark =>
    unfold removeConnection runInLoop at hs
    rw [if_pos rfl] at hs
    obtain ⟨_, _, hs⟩ := bind_eq_ok.mp hs
    obtain ⟨o₁, ho₁, hs⟩ := bind_eq_ok.mp hs
    obtain ⟨sv, hsv, hs⟩ := bind_eq_ok.mp hs
    obtain rfl : ⟨name, .base, { c with queued := [] }⟩ = o₁ := by
      have hupd := deref_eq_ok.mp ho₁
      simpa [note, queueInLoop] using hupd
    obtain ⟨-, rfl⟩ := TcpServer.eraseConnection_eq_ok.mp hsv
    cases hs
    exact ⟨rfl, Or.inr ⟨hmark, rfl, rfl⟩⟩
  · next hmark =>
    cases hs
    exact ⟨rfl, Or.inl ⟨hmark, rfl, rfl⟩⟩

/-- **The end of a call into a connection**, on a server without threads; `s₀` is `s` but for the log and for a
    functor that was taken from a queue. -/
theorem settle_single (h : s.Single) (hs : s₀.settle .base id o c = .ok s') (ho : s.objects id = some o)
    (hc : Called o.conn c) (hsv : s₀.server = s.server) (hobj : s₀.objects = s.objects)
    (hqueue : ∀ l f, f ∈ s₀.queues l → f ∈ s.queues l) : s'.Single := by
  obtain ⟨hname, hloop, -⟩ := h.object id o ho
  obtain ⟨hobj', hcases⟩ := settle_base_cases hloop hs
  rw [hobj] at hobj'
  rw [hsv] at hcases
  have hstay : ∀ o₁, s.objects id = some o₁ → o₁.conn.state = .kDisconnected → c.state = .kDisconnected := by
    intro o₁ ho₁ hclosed
    obtain rfl := Option.some.inj (ho.symm.trans ho₁)
    exact hc.stays hclosed
  have hkept := hc.kept
  rcases hcases with ⟨hmark, hserver, hqueues⟩ | ⟨hmark, hserver, hqueues⟩
  · refine h.stores ⟨hobj', ?_, ?_, ?_, ?_, ?_, ?_⟩ (hserver ▸ h.named) ⟨hname, hloop, hkept⟩ hstay
    · exact fun _ => by rw [hserver]
    · rw [hserver]
    · rw [hserver]
    · rw [hserver]
      exact h.small id o ho
    · intro n i hl
      rw [hserver] at hl
      by_cases hi : i = id
      · subst hi
        obtain ⟨o₁, ho₁, hne⟩ := h.entry n i hl
        obtain rfl := Option.some.inj (ho.symm.trans ho₁)
        refine Or.inl ⟨rfl, ?_⟩
        rcases hc.phase with ⟨n, hopen⟩ | ⟨hclosed, _⟩ | he
        · exact hopen.state_ne
        · exact absurd hclosed hne
        · exact absurd he.marked hmark
      · exact Or.inr ⟨hi, hl⟩
    · intro l f hf
      rw [hqueues] at hf
      rcases mem_queueInLoop hf with hold | ⟨hl, hnew⟩
      · exact Or.inl (hqueue l f hold)
      · obtain ⟨hid, hflow⟩ := mem_flow hnew
        exact Or.inr ⟨hl, hid, Or.inr hflow⟩
  · have hclosed : c.state = .kDisconnected := by
      rcases hc.phase with ⟨n, hopen⟩ | ⟨_, hno, _⟩ | he
      · exact absurd hmark hopen.queued
      · exact absurd hmark hno
      · obtain ⟨k, hk, -⟩ := he.closed
        exact hk.state
    refine h.stores ⟨hobj', ?_, ?_, ?_, ?_, ?_, ?_⟩ (hserver ▸ h.named.erase _) ⟨hname, hloop, hkept⟩ hstay
    · exact fun _ => by rw [hserver]; rfl
    · rw [hserver]
    · rw [hserver]
    · rw [hserver]
      exact h.small id o ho
    · intro n i hl
      rw [hserver] at hl
      have hl : (s.server.connections.erase o.name).lookup n = some i := hl
      have hne : n ≠ o.name := by
        rintro rfl
        rw [AList.lookup_erase] at hl
        exact absurd hl (by simp)
      rw [AList.lookup_erase_ne hne] at hl
      refine Or.inr ⟨?_, hl⟩
      rintro rfl
      exact hne ((h.named.entry n i hl).trans hname.symm)
    · intro l f hf
      rw [hqueues] at hf
      rcases mem_queueInLoop hf with hold | ⟨hl, hnew⟩
      · rcases mem_queueInLoop hold with hold | ⟨hl, hnew⟩
        · exact Or.inl (hqueue l f hold)
        · obtain ⟨hid, hflow⟩ := mem_flow hnew
          exact Or.inr ⟨hl, hid, Or.inr hflow⟩
      · obtain rfl := List.mem_singleton.mp hnew
        exact Or.inr ⟨hl, rfl, Or.inl ⟨rfl, hclosed⟩⟩

/-! ## The steps of such a server -/

theorem handleEvent_single (h : s.Single) (ho : s.objects id = some o)
    (hi : o.conn.channel.isNoneEvent = false) {d : Dispatch} (hr : o.conn.ReadFits d.read)
    (hs : s.handleEvent id d = .ok s') : s'.Single := by
  obtain ⟨-, hloop, hkept⟩ := h.object id o ho
  unfold handleEvent at hs
  rw [deref_eq_ok.mpr ho, ok_bind, hloop] at hs
  obtain ⟨c, hc, hs⟩ := bind_eq_ok.mp hs
  exact settle_single h hs ho (hkept.handleEvent hi hr hc) rfl rfl fun _ _ hf => hf

theorem userCall_single (h : s.Single) (ho : s.objects id = some o) {u : UserCall}
    (hs : s.userCall id u = .ok s') : s'.Single := by
  obtain ⟨-, hloop, hkept⟩ := h.object id o ho
  unfold userCall at hs
  rw [deref_eq_ok.mpr ho, ok_bind, hloop] at hs
  obtain ⟨c, hc, hs⟩ := bind_eq_ok.mp hs
  have hone : o.conn.userCalls [u] = .ok c := bind_eq_ok.mpr ⟨c, hc, rfl⟩
  exact settle_single h hs ho (hkept.userCalls hone) rfl rfl fun _ _ hf => hf

theorem runNext_single (h : s.Single) {l : LoopId} (hs : s.runNext l us = .ok s') : s'.Single := by
  unfold runNext at hs
  split at hs
  · cases hs
    exact h
  · next f rest hqueue =>
    obtain ⟨rfl, -, hf⟩ := h.queue l f (by rw [hqueue]; exact List.mem_cons_self)
    have hrest : ∀ l f', f' ∈ Function.update s.queues .base rest l → f' ∈ s.queues l := by
      intro l f' hf'
      by_cases hl : l = .base
      · subst hl
        rw [Function.update_self] at hf'
        rw [hqueue]
        exact List.mem_cons_of_mem _ hf'
      · rwa [Function.update_of_ne hl] at hf'
    obtain ⟨i, t⟩ := f
    rcases hf with ⟨rfl, o, ho, hclosed⟩ | ⟨g, hg, rfl⟩
    · -- `connectDestroyed` finds the connection closed
      have ho : s.objects i = some o := ho
      obtain ⟨-, hloop, hkept⟩ := h.object i o ho
      obtain ⟨k, hk, -⟩ := hkept.closed hclosed
      obtain ⟨o₁, ho₁, hs⟩ := bind_eq_ok.mp hs
      obtain rfl : o = o₁ := Option.some.inj (ho.symm.trans (deref_eq_ok.mp ho₁))
      obtain ⟨_, _, hs⟩ := bind_eq_ok.mp hs
      rw [connectDestroyed_closed hk, ok_bind] at hs
      exact settle_single h hs ho hkept.called rfl rfl hrest
    · obtain ⟨o, ho, hs⟩ := bind_eq_ok.mp hs
      have ho : s.objects i = some o := deref_eq_ok.mp ho
      obtain ⟨-, hloop, hkept⟩ := h.object i o ho
      obtain ⟨c, hc, hs⟩ := bind_eq_ok.mp hs
      have hrun : o.conn.userCalls us = .ok c := by
        cases g with
        | writeComplete => exact hc
        | highWaterMark size => exact hc
        | connectDestroyed => exact absurd rfl hg
      exact settle_single h hs ho (hkept.userCalls hrun) rfl rfl hrest

/-- A new connection is established at once. -/
theorem newConnection_single (h : s.Single) (hs : s.newConnection us = .ok s') : s'.Single := by
  have hpool : s.server.threadPool.getNextLoop = .ok (.base, s.server.threadPool) := by
    unfold EventLoopThreadPool.getNextLoop
    rw [h.loops]
    rfl
  have hnamed := newConnection_named h.named hs
  obtain ⟨⟨ioLoop, threadPool⟩, hp, hs⟩ := bind_eq_ok.mp hs
  rw [hpool] at hp
  obtain ⟨rfl, rfl⟩ := Prod.mk.inj (Except.ok.inj hp)
  dsimp only [runInLoop] at hs
  rw [if_pos rfl] at hs
  obtain ⟨o, ho, hs⟩ := bind_eq_ok.mp hs
  obtain ⟨_, _, hs⟩ := bind_eq_ok.mp hs
  obtain ⟨c, hc, hs⟩ := bind_eq_ok.mp hs
  obtain rfl : ⟨s.server.connName s.server.nextConnId, .base,
      TcpConnection.new s.server.writeCompleteCallback false⟩ = o := by
    simpa using deref_eq_ok.mp ho
  have hopen : Open c [.connection true] :=
    (connectEstablished_spec (c := TcpConnection.new s.server.writeCompleteCallback false) rfl
      ⟨rfl, rfl, List.isChain_singleton _⟩ (outputs_new _ _) (Buffer.new_rep.content.symm ▸ Buffer.new_rep) rfl rfl
      us).of_eq_ok hc
  have hcalled : Called c c := ⟨connectEstablished_reading hc, id, Or.inl ⟨0, hopen⟩⟩
  have hold : ∀ n i, s.server.connections.lookup n = some i → i ≠ s.server.nextConnId := by
    intro n i hl
    obtain ⟨o, ho, -⟩ := h.entry n i hl
    exact (h.small i o ho).ne
  obtain ⟨hobj, ⟨-, hserver, hqueues⟩ | ⟨hmark, -⟩⟩ := settle_base_cases rfl hs
  · have hobj' : s'.objects = Function.update s.objects s.server.nextConnId
        (some ⟨s.server.connName s.server.nextConnId, .base, { c with queued := [] }⟩) := by
      rw [hobj]
      exact Function.update_idem ..
    refine h.stores ⟨hobj', ?_, ?_, ?_, ?_, ?_, ?_⟩ hnamed ⟨rfl, rfl, hcalled.kept⟩ ?_
    · exact fun _ => by rw [hserver]; rfl
    · rw [hserver]
      rfl
    · rw [hserver]
      exact Nat.le_succ _
    · rw [hserver]
      exact Nat.lt_succ_self _
    · intro n i hl
      rw [hserver] at hl
      have hl : (s.server.connections.insert (s.server.connName s.server.nextConnId) s.server.nextConnId).lookup
          n = some i := hl
      by_cases hn : n = s.server.connName s.server.nextConnId
      · rw [hn, AList.lookup_insert] at hl
        exact Or.inl ⟨(Option.some.inj hl).symm, hopen.state_ne⟩
      · rw [AList.lookup_insert_ne hn] at hl
        exact Or.inr ⟨hold n i hl, hl⟩
    · intro l f hf
      rw [hqueues] at hf
      rcases mem_queueInLoop hf with hf | ⟨hl, hnew⟩
      · exact Or.inl hf
      · obtain ⟨hid, hflow⟩ := mem_flow hnew
        exact Or.inr ⟨hl, hid, Or.inr hflow⟩
    · intro o₁ ho₁ _
      exact absurd (h.small _ o₁ ho₁) (lt_irrefl _)
  · exact absurd hmark hopen.queued

theorem exec_single {bound : Nat} (h : s.Single) {a : Action} (ha : enabled bound s a)
    (hs : s.exec a = .ok s') : s'.Single := by
  cases a with
  | newConnection us => exact newConnection_single h hs
  | handleEvent id d =>
      obtain ⟨o, ho, hi, hr⟩ := ha
      exact handleEvent_single h ho hi hr hs
  | userCall id u =>
      obtain ⟨o, ho, -⟩ := ha
      exact userCall_single h ho hs
  | runNext l us => exact runNext_single h hs

end ServerRun

end Muduo.Net
