import Muduo.Net.Correctness.ServerViews
import Muduo.Net.Correctness.TcpDispatch

/-!
# `Correctness.ServerProtocol` — a connection's way through two loops

A connection is created on the base loop, established on its own loop, closed there by an event, erased from
`connections_` on the base loop, and destroyed on its own loop. Every hop may be a functor in a queue, while
other connections do the same.

`Protocol` lists the views a connection can have, one constructor per stage, with the functor that is in
flight. A step is about one connection: it moves that one view to a later stage and leaves all other views as
they are.
-/

namespace Muduo.Net

open Lib

/-! ## Functors in flight -/

/-- The functors that move a connection along; the others are notifications. -/
def ServerTask.lifeCycle : ServerTask → Bool
  | .callback _ => false
  | _ => true

namespace ServerRun

open TcpConnection

variable {s s' s'' : ServerRun} {id : Nat} {l current loop : LoopId} {o : ConnObject} {us : List UserCall}
  {c : TcpConnection} {k : List Callback} {name : List Char} {v : View}
  {tasks life : LoopId → List ServerTask} {t : ServerTask} {ts : List ServerTask}

/-- No functor. -/
def nothing : LoopId → List ServerTask := fun _ => []

/-- One functor, in the queue of `l`. -/
def only (l : LoopId) (t : ServerTask) : LoopId → List ServerTask := Function.update nothing l [t]

/-- Among the functors `tasks` of a connection, `life` are those that move it along. -/
structure Carries (tasks life : LoopId → List ServerTask) : Prop where
  life : ∀ l, (tasks l).filter ServerTask.lifeCycle = life l
  flow : ∀ l, ServerTask.callback .connectDestroyed ∉ tasks l

theorem Carries.queue_flow (h : Carries tasks life) (l : LoopId) {fs : List ConnFunctor}
    (hfs : .connectDestroyed ∉ fs) :
    Carries (Function.update tasks l (tasks l ++ fs.map .callback)) life := by
  have hnone : (fs.map ServerTask.callback).filter ServerTask.lifeCycle = [] := by
    simp [List.filter_eq_nil_iff, ServerTask.lifeCycle]
  constructor <;> intro l' <;> by_cases hl : l' = l
  · subst hl
    simp [hnone, h.life l']
  · simp [hl, h.life l']
  · subst hl
    simp [h.flow l', hfs]
  · simp [hl, h.flow l']

theorem Carries.queue_life (h : Carries tasks nothing) (l : LoopId) (ht : t.lifeCycle = true) :
    Carries (Function.update tasks l (tasks l ++ [t])) (only l t) := by
  constructor <;> intro l' <;> by_cases hl : l' = l
  · subst hl
    simp [only, nothing, h.life l', ht]
  · simp [only, hl, h.life l']
  · subst hl
    have hne : ServerTask.callback .connectDestroyed ≠ t := by
      rintro rfl
      exact absurd ht (by decide)
    simp [h.flow l', hne]
  · simp [hl, h.flow l']

theorem Carries.next_flow (h : Carries tasks life) {g : ConnFunctor} (hl : tasks l = .callback g :: ts) :
    Carries (Function.update tasks l ts) life ∧ g ≠ .connectDestroyed := by
  have hlife := h.life l
  have hflow := h.flow l
  rw [hl] at hlife hflow
  refine ⟨⟨?_, ?_⟩, ?_⟩
  · intro l'
    by_cases hl' : l' = l
    · subst hl'
      simpa [ServerTask.lifeCycle] using hlife
    · simp [hl', h.life l']
  · intro l'
    by_cases hl' : l' = l
    · subst hl'
      simp only [Function.update_self]
      exact fun hm => hflow (List.mem_cons_of_mem _ hm)
    · simp [hl', h.flow l']
  · rintro rfl
    exact hflow List.mem_cons_self

/-- If one functor is in flight, and one that moves the connection is next in a queue, then it is that one. -/
theorem Carries.next_life {l' : LoopId} {t' : ServerTask} (h : Carries tasks (only l' t'))
    (hl : tasks l = t :: ts) (ht : t.lifeCycle = true) :
    l = l' ∧ t = t' ∧ Carries (Function.update tasks l ts) nothing := by
  have hlife := h.life l
  rw [hl, List.filter_cons_of_pos ht] at hlife
  obtain rfl : l = l' := by
    by_contra hne
    simp [only, nothing, hne] at hlife
  simp only [only, Function.update_self, List.cons.injEq] at hlife
  refine ⟨rfl, hlife.1, ?_, ?_⟩
  · intro l'
    by_cases hl' : l' = l
    · subst hl'
      simpa [nothing] using hlife.2
    · have := h.life l'
      simpa [only, hl'] using this
  · intro l'
    by_cases hl' : l' = l
    · subst hl'
      have := h.flow l'
      rw [hl] at this
      simp only [Function.update_self]
      exact fun hm => this (List.mem_cons_of_mem _ hm)
    · simp [hl', h.flow l']

theorem Carries.next_none (h : Carries tasks nothing) (hl : tasks l = t :: ts) (ht : t.lifeCycle = true) :
    False := by
  have hlife := h.life l
  rw [hl, List.filter_cons_of_pos ht] at hlife
  exact absurd hlife (by simp [nothing])

/-! ## The stages of a connection -/

/-- The trace of a connection on `loop` that is established and whose channel was dispatched `n` times. -/
def begun (loop : LoopId) (n : Nat) : List (LoopId × LifeEvent) :=
  (loop, .established) :: List.replicate n (loop, .handled)

/-- The views of an accepted connection. -/
inductive Protocol (name : List Char) (loop : LoopId) : View → Prop where
  /-- Accepted; `connectEstablished` is queued. -/
  | pending (wc : Bool) :
      Protocol name loop
        ⟨some ⟨name, loop, TcpConnection.new wc false⟩, [], only loop .connectEstablished, true⟩
  /-- Established; events are handled. -/
  | live {c : TcpConnection} {m n : Nat} {tasks : LoopId → List ServerTask} :
      Open c (announced m) → c.queued = [] → Carries tasks nothing →
      Protocol name loop ⟨some ⟨name, loop, c⟩, begun loop n, tasks, true⟩
  /-- `handleClose` has run; `removeConnectionInLoop` is queued on the base loop. -/
  | closing {c : TcpConnection} {k : List Callback} {n : Nat} {tasks : LoopId → List ServerTask} :
      Closed c k → c.queued = [] → Carries tasks (only .base .removeConnectionInLoop) →
      Protocol name loop ⟨some ⟨name, loop, c⟩, begun loop n ++ [(loop, .closed)], tasks, true⟩
  /-- Erased from `connections_`; `connectDestroyed` is queued. -/
  | leaving {c : TcpConnection} {k : List Callback} {n : Nat} {tasks : LoopId → List ServerTask} :
      Closed c k → c.queued = [] → Carries tasks (only loop .connectDestroyed) →
      Protocol name loop
        ⟨some ⟨name, loop, c⟩, begun loop n ++ [(loop, .closed)] ++ [(.base, .removed)], tasks, false⟩
  /-- `connectDestroyed` has run. -/
  | gone {c : TcpConnection} {k : List Callback} {n : Nat} {tasks : LoopId → List ServerTask} :
      Closed c k → c.queued = [] → Carries tasks nothing →
      Protocol name loop
        ⟨some ⟨name, loop, c⟩,
          begun loop n ++ [(loop, .closed)] ++ [(.base, .removed)] ++ [(loop, .destroyed)], tasks, false⟩

theorem begun_handled (loop : LoopId) (n : Nat) : begun loop n ++ [(loop, .handled)] = begun loop (n + 1) := by
  unfold begun
  rw [List.replicate_succ', List.cons_append]

/-- The step from `s` to `s'` is about connection `id`, and leaves it in one of its stages. -/
structure Moves (id : Nat) (s s' : ServerRun) : Prop where
  touches : Touches id s s'
  exclusive : s'.server.Exclusive
  protocol : ∃ loop, Protocol (s.server.connName id) loop (s'.view id)

theorem Touches.moves (h : Touches id s s') (h' : Moves id s' s'') : Moves id s s'' where
  touches := h.trans h'.touches
  exclusive := h'.exclusive
  protocol := by
    obtain ⟨loop, hp⟩ := h'.protocol
    rw [h.connName] at hp
    exact ⟨loop, hp⟩

theorem Carries.store (h : Carries tasks life) (loop : LoopId) (c : TcpConnection) :
    Carries (Function.update tasks loop
      (tasks loop ++ (c.queued.filter (· ≠ .connectDestroyed)).map .callback)) life :=
  h.queue_flow loop (by simp)

/-- **The end of a call on a live connection**: it stays live, or it has started to leave. -/
theorem settle_live {n : Nat} {o' : Option ConnObject} (hx : s.server.Exclusive) (hid : id < 10 ^ 8)
    (hn : name = s.server.connName id) (hv : s.view id = ⟨o', begun loop n, tasks, true⟩)
    (ht : Carries tasks nothing) (hc : Settled c) (c₀ : TcpConnection) :
    ∃ s', s.settle loop id ⟨name, loop, c₀⟩ c = .ok s' ∧ Moves id s s' := by
  have hstore : (s.view id).store ⟨name, loop, c₀⟩ c =
      ⟨some ⟨name, loop, { c with queued := [] }⟩, begun loop n, Function.update tasks loop
        (tasks loop ++ (c.queued.filter (· ≠ .connectDestroyed)).map .callback), true⟩ := by
    rw [hv]
    rfl
  have hcarries := ht.store loop c
  obtain ⟨m, ho⟩ | he := hc
  · obtain ⟨s', hs', htouch, hsv, hview⟩ := settle_open s id ⟨name, loop, c₀⟩ ho.queued loop
    refine ⟨s', hs', htouch, hsv ▸ hx, loop, ?_⟩
    rw [hview, hstore, ← hn]
    exact .live (ho.unqueued) rfl hcarries
  · obtain ⟨k, hk, -⟩ := he.closed
    have htrace : (s.view id).trace = begun loop n := by rw [hv]
    by_cases hloop : loop = .base
    · subst hloop
      obtain ⟨s', hs', htouch, hx', hview⟩ := settle_ended_base (o := ⟨name, .base, c₀⟩) he.marked hx hid hn
        (by rw [hv])
      refine ⟨s', hs', htouch, hx', .base, ?_⟩
      rw [hview, hstore, htrace, ← hn]
      exact .leaving (hk.unqueued) rfl (hcarries.queue_life .base rfl)
    · obtain ⟨s', hs', htouch, hsv, hview⟩ := settle_ended_io s id ⟨name, loop, c₀⟩ he.marked hloop
      refine ⟨s', hs', htouch, hsv ▸ hx, loop, ?_⟩
      rw [hview, hstore, htrace, ← hn]
      exact .closing (hk.unqueued) rfl (hcarries.queue_life .base rfl)

/-! ## User code -/

/-- From `connectEstablished` on, a connection can be exchanged for one in the same phase. -/
theorem Protocol.exchange {c' : TcpConnection} (hp : Protocol name loop v)
    (hobj : v.object = some ⟨name, loop, c⟩) (hest : c.state ≠ .kConnecting)
    (hopen : ∀ k, Open c k → Open c' k) (hclosed : ∀ k, Closed c k → Closed c' k) (hq : c'.queued = [])
    (hcar : ∀ life, Carries v.tasks life → Carries tasks life) :
    Protocol name loop { v with object := some ⟨name, loop, c'⟩, tasks := tasks } := by
  cases hp with
  | pending wc =>
      cases hobj
      exact absurd rfl hest
  | live ho _ ht =>
      cases hobj
      exact .live (hopen _ ho) hq (hcar _ ht)
  | closing hk _ ht =>
      cases hobj
      exact .closing (hclosed _ hk) hq (hcar _ ht)
  | leaving hk _ ht =>
      cases hobj
      exact .leaving (hclosed _ hk) hq (hcar _ ht)
  | gone hk _ ht =>
      cases hobj
      exact .gone (hclosed _ hk) hq (hcar _ ht)

/-- From `connectEstablished` on, a connection is open or closed, with nothing queued in itself. -/
theorem Protocol.phase (hp : Protocol name loop v) (hobj : v.object = some ⟨name, loop, c⟩)
    (hest : c.state ≠ .kConnecting) : c.queued = [] ∧ ∃ k, Open c k ∨ Closed c k := by
  cases hp with
  | pending wc =>
      cases hobj
      exact absurd rfl hest
  | live ho hq _ =>
      cases hobj
      exact ⟨hq, _, Or.inl ho⟩
  | closing hk hq _ | leaving hk hq _ | gone hk hq _ =>
      cases hobj
      exact ⟨hq, _, Or.inr hk⟩

/-- **User code that runs in a callback or a functor** leaves every connection in its stage. -/
theorem userCalls_moves (hx : s.server.Exclusive) (hn : name = s.server.connName id)
    (hp : Protocol name loop v) (hv : s.view id = { v with tasks := tasks })
    (hcar : ∀ life, Carries v.tasks life → Carries tasks life)
    (hobj : v.object = some ⟨name, loop, c⟩) (hest : c.state ≠ .kConnecting) (current : LoopId)
    (us : List UserCall) :
    Safe (c.userCalls us >>= s.settle current id ⟨name, loop, c⟩) (Moves id s) := by
  obtain ⟨hq, k, hphase⟩ := hp.phase hobj hest
  have hsafe : Safe (c.userCalls us) (fun c' => .connectDestroyed ∉ c'.queued) := by
    rcases hphase with ho | hk
    · exact (userCalls_open ho us).mono fun _ h => h.queued
    · refine (userCalls_closed hk us).attach.mono ?_
      rintro c' ⟨hc', _⟩
      rw [((userCalls_keeps hc').2 k hk).2, hq]
      simp
  refine Safe.bind hsafe.attach ?_
  rintro c' ⟨hc', hmark⟩
  obtain ⟨hkeepOpen, hkeepClosed⟩ := userCalls_keeps hc'
  obtain ⟨s', hs', ht, hsv, hview⟩ := settle_open s id ⟨name, loop, c⟩ hmark current
  rw [hs']
  refine Safe.ok ⟨ht, hsv ▸ hx, loop, ?_⟩
  rw [hview, hv, ← hn]
  refine hp.exchange hobj hest ?_ ?_ rfl ?_
  · exact fun k h => (hkeepOpen k h).unqueued
  · exact fun k h => (hkeepClosed k h).1.unqueued
  · exact fun life h => (hcar life h).store loop c'

/-! ## The life cycle functions -/

theorem connectEstablished_moves {wc : Bool} (hx : s.server.Exclusive) (hid : id < 10 ^ 8)
    (hv : s.view id = ⟨some ⟨s.server.connName id, loop, TcpConnection.new wc false⟩, [], tasks, true⟩)
    (ht : Carries tasks nothing) (us : List UserCall) :
    Safe (s.connectEstablished loop id us) (Moves id s) := by
  have hobj : s.objects id = some ⟨s.server.connName id, loop, TcpConnection.new wc false⟩ :=
    congrArg View.object hv
  have hO := outputs_new wc false
  have hopen : Safe ((TcpConnection.new wc false).connectEstablished us) (Open · [.connection true]) :=
    connectEstablished_spec rfl ⟨rfl, rfl, List.isChain_singleton _⟩ hO
      (Buffer.new_rep.content.symm ▸ Buffer.new_rep) rfl rfl us
  unfold connectEstablished
  rw [deref_eq_ok.mpr hobj, ok_bind, assert_pos rfl, ok_bind]
  refine Safe.bind hopen ?_
  intro c hc
  have hnote : (s.note loop id .established).view id =
      ⟨some ⟨s.server.connName id, loop, TcpConnection.new wc false⟩, begun loop 0, tasks, true⟩ := by
    rw [note_view, hv]
    rfl
  obtain ⟨s', hs', hm⟩ := settle_live (s := s.note loop id .established) hx hid rfl hnote ht
    (Or.inl ⟨0, hc⟩) (TcpConnection.new wc false)
  have hs'' : (s.note loop id .established).settle loop id
      ⟨s.server.connName id, loop, TcpConnection.new wc false⟩ c = .ok s' := hs'
  rw [hs'']
  exact Safe.ok ((note_touches s loop id .established).moves hm)

theorem connectDestroyed_moves {n : Nat} (hx : s.server.Exclusive)
    (hv : s.view id = ⟨some ⟨s.server.connName id, loop, c⟩,
      begun loop n ++ [(loop, .closed)] ++ [(.base, .removed)], tasks, false⟩)
    (hk : Closed c k) (hq : c.queued = []) (ht : Carries tasks nothing) (us : List UserCall) :
    Safe (s.connectDestroyed loop id us) (Moves id s) := by
  have hobj : s.objects id = some ⟨s.server.connName id, loop, c⟩ := congrArg View.object hv
  obtain ⟨s', hs', htouch, hsv, hview⟩ := settle_open (s.note loop id .destroyed) id
    ⟨s.server.connName id, loop, c⟩ (c := c) (by simp [hq]) loop
  unfold connectDestroyed
  rw [deref_eq_ok.mpr hobj, ok_bind, assert_pos rfl, ok_bind, connectDestroyed_closed hk, ok_bind, hs']
  refine Safe.ok ⟨(note_touches s loop id .destroyed).trans htouch, hsv ▸ hx, loop, ?_⟩
  rw [hview, note_view, hv]
  exact .gone (hk.unqueued) rfl (ht.store loop c)

theorem removeConnectionInLoop_moves {n : Nat} (hx : s.server.Exclusive) (hid : id < 10 ^ 8)
    (hv : s.view id = ⟨some ⟨s.server.connName id, loop, c⟩, begun loop n ++ [(loop, .closed)], tasks, true⟩)
    (hk : Closed c k) (hq : c.queued = []) (ht : Carries tasks nothing) :
    Safe (s.removeConnectionInLoop .base id) (Moves id s) := by
  have hobj : s.objects id = some ⟨s.server.connName id, loop, c⟩ := congrArg View.object hv
  obtain ⟨s', hs', htouch, hx', hview⟩ := removeConnectionInLoop_spec hx hid hobj rfl (by rw [hv])
  rw [hs']
  refine Safe.ok ⟨htouch, hx', loop, ?_⟩
  rw [hview, hv]
  exact .leaving hk hq (ht.queue_life loop rfl)

/-! ## The functors -/

theorem carries_only (l : LoopId) (ht : t.lifeCycle = true) : Carries (only l t) (only l t) := by
  have hnothing : Carries nothing nothing := ⟨fun _ => rfl, fun _ => by simp [nothing]⟩
  exact hnothing.queue_life l ht

/-- **A functor that moves the connection along** is the one its stage has in flight. -/
theorem runLifeCycle_moves (hx : s.server.Exclusive) (hid : id < 10 ^ 8)
    (hp : Protocol (s.server.connName id) loop v) (htasks : v.tasks l = t :: ts)
    (hv : s.view id = { v with tasks := Function.update v.tasks l ts }) (ht : t.lifeCycle = true)
    (us : List UserCall) : Safe (s.runFunctor l ⟨id, t⟩ us) (Moves id s) := by
  cases hp with
  | pending wc =>
      obtain ⟨rfl, rfl, hcar⟩ := (carries_only loop rfl).next_life htasks ht
      exact connectEstablished_moves hx hid hv hcar us
  | live _ _ hcar => exact (hcar.next_none htasks ht).elim
  | closing hk hq hcar =>
      obtain ⟨rfl, rfl, hcar⟩ := hcar.next_life htasks ht
      exact removeConnectionInLoop_moves hx hid hv hk hq hcar
  | leaving hk hq hcar =>
      obtain ⟨rfl, rfl, hcar⟩ := hcar.next_life htasks ht
      exact connectDestroyed_moves hx hv hk hq hcar us
  | gone _ _ hcar => exact (hcar.next_none htasks ht).elim

/-- A notification is queued only by a connection that is established. -/
theorem Protocol.next_flow {g : ConnFunctor} (hp : Protocol name loop v)
    (htasks : v.tasks l = .callback g :: ts) :
    g ≠ .connectDestroyed ∧ ∃ c, v.object = some ⟨name, loop, c⟩ ∧ c.state ≠ .kConnecting := by
  have hclosed : ∀ {c : TcpConnection} {k : List Callback}, Closed c k → c.state ≠ .kConnecting := by
    intro c k hk
    rw [hk.state]
    decide
  cases hp with
  | pending wc =>
      have hlife := (carries_only loop (t := .connectEstablished) rfl).life l
      by_cases hl : l = loop
      · subst hl
        exact absurd htasks (by simp [only])
      · exact absurd htasks (by simp [only, nothing, hl])
  | live ho _ hcar =>
      refine ⟨(hcar.next_flow htasks).2, _, rfl, ?_⟩
      rcases ho.state with hs | hs <;> rw [hs] <;> decide
  | closing hk _ hcar | leaving hk _ hcar | gone hk _ hcar =>
      exact ⟨(hcar.next_flow htasks).2, _, rfl, hclosed hk⟩

theorem runCallback_moves {g : ConnFunctor} (hx : s.server.Exclusive)
    (hp : Protocol (s.server.connName id) loop v) (htasks : v.tasks l = .callback g :: ts)
    (hv : s.view id = { v with tasks := Function.update v.tasks l ts }) (us : List UserCall) :
    Safe (s.runCallback l id g us) (Moves id s) := by
  obtain ⟨hg, c, hobj, hest⟩ := hp.next_flow htasks
  have hderef : s.objects id = some ⟨s.server.connName id, loop, c⟩ :=
    (congrArg View.object hv).trans hobj
  have hrun : c.runFunctor g us = c.userCalls us := by
    cases g with
    | writeComplete => rfl
    | highWaterMark size => rfl
    | connectDestroyed => exact absurd rfl hg
  unfold runCallback
  rw [deref_eq_ok.mpr hderef, ok_bind, hrun]
  exact userCalls_moves hx rfl hp hv (fun life h => (h.next_flow htasks).1) hobj hest l us

/-! ## All connections together -/

/-- `id` is the number of an accepted connection. -/
def Accepted (s : ServerRun) (id : Nat) : Prop := 0 < id ∧ id < s.server.nextConnId

/-- Every accepted connection is in one of its stages, and nothing is known of any other number. -/
structure Inv (s : ServerRun) : Prop where
  exclusive : s.server.Exclusive
  first : 0 < s.server.nextConnId
  bound : s.server.nextConnId ≤ 10 ^ 8
  pool : s.server.threadPool.loops = [] ∨ s.server.threadPool.next < s.server.threadPool.loops.length
  accepted : ∀ id, s.Accepted id → ∃ loop, Protocol (s.server.connName id) loop (s.view id)
  unaccepted : ∀ id, ¬ s.Accepted id → s.view id = View.fresh

theorem Inv.small (h : s.Inv) (hid : s.Accepted id) : id < 10 ^ 8 := lt_of_lt_of_le hid.2 h.bound

/-- **What happens to one connection keeps the invariant.** -/
theorem Inv.moves (h : s.Inv) (hid : s.Accepted id) (hm : Moves id s s') : s'.Inv := by
  have ht := hm.touches
  have hacc : ∀ i, s'.Accepted i ↔ s.Accepted i := by
    intro i
    unfold Accepted
    rw [ht.nextConnId]
  refine ⟨hm.exclusive, ht.nextConnId ▸ h.first, ht.nextConnId ▸ h.bound, ?_, ?_, ?_⟩
  · rw [ht.threadPool]
    exact h.pool
  · intro i hi
    rw [ht.connName]
    by_cases hne : id = i
    · subst hne
      exact hm.protocol
    · rw [ht.view i hne]
      exact h.accepted i ((hacc i).mp hi)
  · intro i hi
    have hne : id ≠ i := by
      rintro rfl
      exact hi ((hacc id).mpr hid)
    rw [ht.view i hne]
    exact h.unaccepted i fun hi' => hi ((hacc i).mpr hi')

/-- A connection with an object, or with a functor in a queue, has been accepted. -/
theorem Inv.accepted_of_view (h : s.Inv) (hv : s.view id ≠ View.fresh) : s.Accepted id := by
  by_contra hid
  exact hv (h.unaccepted id hid)

theorem Inv.accepted_of_object (h : s.Inv) (ho : s.objects id = some o) : s.Accepted id := by
  refine h.accepted_of_view fun hf => ?_
  have hnone : s.objects id = none := congrArg View.object hf
  rw [hnone] at ho
  exact absurd ho (by simp)

/-- The object of a connection in one of its stages. -/
theorem Protocol.object_eq (hp : Protocol name loop v) (ho : v.object = some o) :
    o.name = name ∧ o.loop = loop := by
  cases hp <;> cases ho <;> exact ⟨rfl, rfl⟩

theorem runFunctor_moves (hx : s.server.Exclusive) (hid : id < 10 ^ 8) (hn : name = s.server.connName id)
    (hp : Protocol name loop v) (htasks : v.tasks l = t :: ts)
    (hv : s.view id = { v with tasks := Function.update v.tasks l ts }) (us : List UserCall) :
    Safe (s.runFunctor l ⟨id, t⟩ us) (Moves id s) := by
  subst hn
  cases t with
  | connectEstablished | removeConnectionInLoop | connectDestroyed =>
      exact runLifeCycle_moves hx hid hp htasks hv rfl us
  | callback g => exact runCallback_moves hx hp htasks hv us

theorem runNext_inv (h : s.Inv) (l : LoopId) (us : List UserCall) : Safe (s.runNext l us) Inv := by
  unfold runNext
  split
  · exact Safe.ok h
  · rename_i f rest hqueue
    obtain ⟨id, t⟩ := f
    have htasks : (s.view id).tasks l = t :: tasksOf id rest := by
      show tasksOf id (s.queues l) = _
      rw [hqueue, tasksOf_cons_self]
    have hid : s.Accepted id := by
      refine h.accepted_of_view fun hf => ?_
      rw [hf] at htasks
      exact absurd htasks (by simp [View.fresh])
    -- the functor is taken from the queue, and then runs
    have hpop : Touches id s { s with queues := Function.update s.queues l rest } := by
      refine setQueue_touches fun id' hne => ?_
      rw [hqueue, tasksOf_cons_ne hne]
    have hview := setQueue_view s l rest id
    obtain ⟨loop, hp⟩ := h.accepted id hid
    have hmoves := runFunctor_moves (s := { s with queues := Function.update s.queues l rest }) h.exclusive
      (h.small hid) rfl hp htasks hview us
    exact hmoves.mono fun s' hm => h.moves hid (hpop.moves hm)

theorem userCall_inv (h : s.Inv) (ho : s.objects id = some o) (hest : o.conn.state ≠ .kConnecting)
    (u : UserCall) : Safe (s.userCall id u) Inv := by
  have hid := h.accepted_of_object ho
  obtain ⟨loop, hp⟩ := h.accepted id hid
  obtain ⟨name, loop', c⟩ := o
  obtain ⟨rfl, rfl⟩ : name = _ ∧ loop' = loop := hp.object_eq ho
  have hone : c.userCalls [u] = c.userCall u := by
    show (c.userCall u >>= fun c => .ok c) = _
    cases c.userCall u <;> rfl
  unfold userCall
  rw [deref_eq_ok.mpr ho, ok_bind]
  refine Safe.mono (P := Moves id s) ?_ fun s' hm => h.moves hid hm
  show Safe (c.userCall u >>= s.settle _ id ⟨_, loop', c⟩) _
  rw [← hone]
  exact userCalls_moves h.exclusive rfl hp rfl (fun _ hc => hc) ho hest loop' [u]

/-- A channel with interest belongs to a live connection. -/
theorem Protocol.live_of_interest (hp : Protocol name loop v) (ho : v.object = some o)
    (hi : o.conn.channel.isNoneEvent = false) :
    ∃ c m n tasks, Open c (announced m) ∧ Carries tasks nothing ∧
      v = ⟨some ⟨name, loop, c⟩, begun loop n, tasks, true⟩ := by
  cases hp with
  | pending wc =>
      cases ho
      exact absurd (show Channel.new.isNoneEvent = false from hi) (by decide)
  | live hc _ ht => exact ⟨_, _, _, _, hc, ht, rfl⟩
  | closing hk _ _ | leaving hk _ _ | gone hk _ _ =>
      cases ho
      rw [hk.noInterest] at hi
      exact absurd hi (by decide)

/-- What a dispatch does once the handlers of the connection have returned. -/
theorem handleEvent_moves {c' : TcpConnection} {n : Nat} (hx : s.server.Exclusive) (hid : id < 10 ^ 8)
    (hv : s.view id = ⟨some ⟨s.server.connName id, loop, c⟩, begun loop n, tasks, true⟩)
    (ht : Carries tasks nothing) (hc' : Settled c') :
    ∃ s', (s.note loop id .handled).settle loop id ⟨s.server.connName id, loop, c⟩ c' = .ok s' ∧
      Moves id s s' := by
  have hnote : (s.note loop id .handled).view id =
      ⟨some ⟨s.server.connName id, loop, c⟩, begun loop (n + 1), tasks, true⟩ := by
    rw [note_view, hv, ← begun_handled]
  obtain ⟨s', hs', hm⟩ := settle_live (s := s.note loop id .handled) hx hid rfl hnote ht hc' c
  exact ⟨s', hs', (note_touches s loop id .handled).moves hm⟩

/-- A dispatch fails no assertion of the server: what can fail are the connection's own handlers. -/
theorem handleEvent_inv (h : s.Inv) (ho : s.objects id = some o) (hi : o.conn.channel.isNoneEvent = false)
    {d : Dispatch} (hr : o.conn.ReadFits d.read) :
    (∀ s', s.handleEvent id d = .ok s' → s'.Inv) ∧
      (Safe (o.conn.handleEvent d) (fun _ => True) → Safe (s.handleEvent id d) Inv) := by
  have hid := h.accepted_of_object ho
  obtain ⟨loop, hp⟩ := h.accepted id hid
  obtain ⟨c, m, n, tasks, hc, ht, hv⟩ := hp.live_of_interest ho hi
  obtain rfl : o = ⟨s.server.connName id, loop, c⟩ :=
    Option.some.inj (ho.symm.trans (congrArg View.object hv))
  have hcall : s.handleEvent id d = (c.handleEvent d >>=
      (s.note loop id .handled).settle loop id ⟨s.server.connName id, loop, c⟩) := by
    unfold handleEvent
    rw [deref_eq_ok.mpr ho, ok_bind]
  have hmoves : ∀ c', c.handleEvent d = .ok c' → ∃ s',
      (s.note loop id .handled).settle loop id ⟨s.server.connName id, loop, c⟩ c' = .ok s' ∧ s'.Inv := by
    intro c' hc'
    obtain ⟨s', hs', hm⟩ := handleEvent_moves h.exclusive (h.small hid) hv ht (handleEvent_settled hc hr hc')
    exact ⟨s', hs', h.moves hid hm⟩
  rw [hcall]
  constructor
  · intro s' hs
    obtain ⟨c', hc', hs⟩ := bind_eq_ok.mp hs
    obtain ⟨s'', hs'', hinv⟩ := hmoves c' hc'
    obtain rfl : s'' = s' := Except.ok.inj (hs''.symm.trans hs)
    exact hinv
  · intro hsafe
    refine Safe.bind hsafe.attach ?_
    rintro c' ⟨hc', _⟩
    obtain ⟨s', hs', hinv⟩ := hmoves c' hc'
    rw [hs']
    exact Safe.ok hinv

/-! ## A new connection -/

/-- Round-robin stays inside the pool. -/
theorem getNextLoop_spec {p : EventLoopThreadPool} (h : p.loops = [] ∨ p.next < p.loops.length) :
    ∃ ioLoop p', p.getNextLoop = .ok (ioLoop, p') ∧ (p'.loops = [] ∨ p'.next < p'.loops.length) := by
  unfold EventLoopThreadPool.getNextLoop
  by_cases hempty : p.loops = []
  · exact ⟨.base, p, by simp [hempty], Or.inl hempty⟩
  · have hlt : p.next < p.loops.length := h.resolve_left hempty
    have hne : p.loops.isEmpty = false := by simpa using hempty
    refine ⟨p.loops[p.next], { p with next := if p.next + 1 ≥ p.loops.length then 0 else p.next + 1 }, ?_, ?_⟩
    · rw [hne, List.getElem?_eq_getElem hlt]
      rfl
    · right
      show (if p.next + 1 ≥ p.loops.length then 0 else p.next + 1) < p.loops.length
      split <;> omega

/-- One more connection is accepted, and reaches one of its stages. -/
theorem Inv.extend {s₁ : ServerRun} (h : s.Inv) (hb : s.server.nextConnId < 10 ^ 8)
    (hm : Moves s.server.nextConnId s₁ s')
    (hnext : s₁.server.nextConnId = s.server.nextConnId + 1)
    (hname : ∀ i, s₁.server.connName i = s.server.connName i)
    (hpool : s₁.server.threadPool.loops = [] ∨
      s₁.server.threadPool.next < s₁.server.threadPool.loops.length)
    (hview : ∀ i, s.server.nextConnId ≠ i → s₁.view i = s.view i) : s'.Inv := by
  have ht := hm.touches
  have hfirst := h.first
  refine ⟨hm.exclusive, ?_, ?_, ht.threadPool ▸ hpool, ?_, ?_⟩
  · rw [ht.nextConnId, hnext]
    omega
  · rw [ht.nextConnId, hnext]
    omega
  · intro i hi
    rw [ht.connName]
    by_cases hne : s.server.nextConnId = i
    · subst hne
      exact hm.protocol
    · have hacc : s.Accepted i := by
        have hlt := hi.2
        rw [ht.nextConnId, hnext] at hlt
        exact ⟨hi.1, by omega⟩
      rw [ht.view i hne, hview i hne, hname]
      exact h.accepted i hacc
  · intro i hi
    have hne : s.server.nextConnId ≠ i := by
      rintro rfl
      exact hi ⟨h.first, by rw [ht.nextConnId, hnext]; omega⟩
    rw [ht.view i hne, hview i hne]
    refine h.unaccepted i fun hacc => hi ⟨hacc.1, ?_⟩
    have hlt := hacc.2
    rw [ht.nextConnId, hnext]
    omega

theorem newConnection_inv (h : s.Inv) (hb : s.server.nextConnId < 10 ^ 8) (us : List UserCall) :
    Safe (s.newConnection us) Inv := by
  obtain ⟨ioLoop, p', hpool, hp'⟩ := getNextLoop_spec h.pool
  let o : ConnObject := ⟨s.server.connName s.server.nextConnId, ioLoop,
    TcpConnection.new s.server.writeCompleteCallback false⟩
  let s₁ : ServerRun := { s with
    server := { s.server.addConnection with threadPool := p' }
    objects := Function.update s.objects s.server.nextConnId (some o) }
  have hcall : s.newConnection us = s₁.runInLoop .base ioLoop ⟨s.server.nextConnId, .connectEstablished⟩
      fun r => r.connectEstablished .base s.server.nextConnId us := by
    unfold newConnection
    rw [hpool, ok_bind]
  have hx : s₁.server.Exclusive := h.exclusive.add hb p'
  have hother : ∀ i, s.server.nextConnId ≠ i → s₁.view i = s.view i := by
    intro i hne
    have hobj : s₁.objects i = s.objects i := Function.update_of_ne hne.symm _ _
    have hentry : s₁.server.leadsTo i = s.server.leadsTo i := h.exclusive.leadsTo_add hb hne
    unfold view
    rw [hobj, hentry]
  have hfresh : s.view s.server.nextConnId = View.fresh := h.unaccepted _ fun hacc => absurd hacc.2 (by omega)
  have hnew : s₁.view s.server.nextConnId = ⟨some o, [], nothing, true⟩ := by
    have htrace : traceOf s.server.nextConnId s.log = [] := congrArg View.trace hfresh
    have htasks : (fun l => tasksOf s.server.nextConnId (s.queues l)) = nothing := congrArg View.tasks hfresh
    have hentry : s₁.server.leadsTo s.server.nextConnId = true := TcpServer.leadsTo_add_self s.server
    have hobj : s₁.objects s.server.nextConnId = some o := Function.update_self _ _ _
    show View.mk _ (traceOf s.server.nextConnId s.log) (fun l => tasksOf s.server.nextConnId (s.queues l)) _ = _
    rw [htrace, htasks, hentry, hobj]
  have hextend : ∀ s', Moves s.server.nextConnId s₁ s' → s'.Inv := fun s' hm =>
    h.extend hb hm rfl (fun _ => rfl) hp' hother
  have hnothing : Carries nothing nothing := ⟨fun _ => rfl, fun _ => by simp [nothing]⟩
  rw [hcall]
  unfold runInLoop
  split
  · -- the connection lives on the base loop, and is established at once
    rename_i hbase
    subst hbase
    exact (connectEstablished_moves hx hb hnew hnothing us).mono hextend
  · refine Safe.ok (hextend _ ⟨queueOne_touches _ _ _, hx, ioLoop, ?_⟩)
    rw [queueOne_view, hnew]
    exact .pending s.server.writeCompleteCallback

/-! ## Every run -/

theorem init_inv (h : (serverSystem (10 ^ 8)).init s) : s.Inv := by
  obtain ⟨⟨listenAddr, nameArg, numThreads, writeComplete, hsv⟩, hobj, hqueue, hlog⟩ := h
  have hempty : ∀ name, s.server.connections.lookup name = none := by
    intro name
    rw [hsv]
    exact AList.lookup_empty name
  have hone : s.server.nextConnId = 1 := by
    rw [hsv]
    rfl
  refine ⟨⟨?_, ?_⟩, by omega, by omega, ?_, ?_, ?_⟩
  · rw [hsv]
    exact TcpServer.named_new listenAddr nameArg numThreads writeComplete
  · intro name id hl
    rw [hempty] at hl
    exact absurd hl (by simp)
  · rw [hsv]
    show (List.range numThreads).map LoopId.io = [] ∨ 0 < ((List.range numThreads).map LoopId.io).length
    cases numThreads <;> simp
  · intro id hid
    have hlt := hid.2
    have hpos := hid.1
    omega
  · intro id _
    have hentry : s.server.leadsTo id = false := by
      simp [TcpServer.leadsTo, hempty]
    unfold view View.fresh
    rw [hobj, hlog, hentry]
    simp only [hqueue]
    rfl

theorem exec_inv (h : s.Inv) {a : Action} (ha : enabled (10 ^ 8) s a) :
    (∀ s', s.exec a = .ok s' → s'.Inv) ∧
      ((∀ id d o, a = .handleEvent id d → s.objects id = some o →
        Safe (o.conn.handleEvent d) (fun _ => True)) → Safe (s.exec a) Inv) := by
  cases a with
  | newConnection us =>
      have hsafe := newConnection_inv h ha us
      exact ⟨fun _ => hsafe.of_eq_ok, fun _ => hsafe⟩
  | handleEvent id d =>
      obtain ⟨o, ho, hi, hr⟩ := ha
      obtain ⟨hreturns, hsafe⟩ := handleEvent_inv h ho hi hr
      exact ⟨hreturns, fun hconn => hsafe (hconn id d o rfl ho)⟩
  | userCall id u =>
      obtain ⟨o, ho, hest⟩ := ha
      have hsafe := userCall_inv h ho hest u
      exact ⟨fun _ => hsafe.of_eq_ok, fun _ => hsafe⟩
  | runNext l us =>
      have hsafe := runNext_inv h l us
      exact ⟨fun _ => hsafe.of_eq_ok, fun _ => hsafe⟩

theorem reachable_inv (h : (serverSystem (10 ^ 8)).Reachable s) : s.Inv := by
  refine System.keeps (S := serverSystem (10 ^ 8)) ?_ ?_ h
  · exact fun _ hs => init_inv hs
  · exact fun _ _ s' hs ha hs' => (exec_inv hs ha).1 s' hs'

/-- The whole life of a connection on `loop`, with `n` dispatches. -/
def wholeLife (loop : LoopId) (n : Nat) : List (LoopId × LifeEvent) :=
  (loop, .established) :: List.replicate n (loop, .handled) ++
    [(loop, .closed), (.base, .removed), (loop, .destroyed)]

/-- What a stage says about the trace. -/
theorem Protocol.trace (hp : Protocol name loop v) :
    (∃ c, v.object = some ⟨name, loop, c⟩) ∧ (∃ n, v.trace <+: wholeLife loop n) ∧
      (v.entry = true ↔ (.base, .removed) ∉ v.trace) := by
  have hbegun : ∀ n, (.base, .removed) ∉ begun loop n := by
    intro n hm
    simp [begun] at hm
  cases hp with
  | pending wc => exact ⟨⟨_, rfl⟩, ⟨0, List.nil_prefix⟩, by simp⟩
  | @live _ _ n _ _ _ _ =>
      exact ⟨⟨_, rfl⟩, ⟨n, List.prefix_append _ _⟩, by simp [hbegun]⟩
  | @closing _ _ n _ _ _ _ =>
      refine ⟨⟨_, rfl⟩, ⟨n, [(.base, .removed), (loop, .destroyed)], ?_⟩, by simp [hbegun]⟩
      simp [wholeLife, begun]
  | @leaving _ _ n _ _ _ _ =>
      refine ⟨⟨_, rfl⟩, ⟨n, [(loop, .destroyed)], ?_⟩, by simp⟩
      simp [wholeLife, begun]
  | @gone _ _ n _ _ _ _ =>
      refine ⟨⟨_, rfl⟩, ⟨n, [], ?_⟩, by simp⟩
      simp [wholeLife, begun]

/-- **The protocol between the loops.** In every run of a server with fewer than `10 ^ 8` connections, on any
    number of loops: what has happened to an accepted connection is an initial part of its whole life, in which
    `connectEstablished` runs once, on its loop and before any event, `removeConnectionInLoop` once, on the base
    loop and after `handleClose`, and `connectDestroyed` once, on its loop and last. `connections_` holds exactly
    the accepted connections whose removal has not run. And no step fails an assertion, the `n == 1` of
    `removeConnectionInLoop` among them, unless the connection's own event handlers do. -/
theorem server_protocol (h : (serverSystem (10 ^ 8)).Reachable s) :
    (∀ id, s.Accepted id → ∃ o n, s.objects id = some o ∧ traceOf id s.log <+: wholeLife o.loop n) ∧
    (∀ id, ¬ s.Accepted id → traceOf id s.log = []) ∧
    (∀ name id, s.server.connections.lookup name = some id ↔
      s.Accepted id ∧ name = s.server.connName id ∧ (.base, .removed) ∉ traceOf id s.log) ∧
    ∀ a, (serverSystem (10 ^ 8)).enabled s a →
      (∀ id d o, a = .handleEvent id d → s.objects id = some o →
        Safe (o.conn.handleEvent d) (fun _ => True)) →
      s.exec a ≠ .error .assertion ∧ s.exec a ≠ .error .badAccess := by
  have hinv := reachable_inv h
  refine ⟨?_, ?_, ?_, ?_⟩
  · intro id hid
    obtain ⟨loop, hp⟩ := hinv.accepted id hid
    obtain ⟨⟨c, hobj⟩, ⟨n, htrace⟩, -⟩ := hp.trace
    exact ⟨_, n, hobj, htrace⟩
  · intro id hid
    exact congrArg View.trace (hinv.unaccepted id hid)
  · intro name id
    have hleads : s.server.connections.lookup (s.server.connName id) = some id ↔
        (s.view id).entry = true := by
      simp [view, TcpServer.leadsTo]
    constructor
    · intro hl
      have hname := hinv.exclusive.entry name id hl
      rw [hname, hleads] at hl
      have hid : s.Accepted id := by
        refine hinv.accepted_of_view fun hf => ?_
        rw [hf] at hl
        exact absurd hl (by decide)
      obtain ⟨loop, hp⟩ := hinv.accepted id hid
      exact ⟨hid, hname, hp.trace.2.2.mp hl⟩
    · rintro ⟨hid, rfl, hremoved⟩
      obtain ⟨loop, hp⟩ := hinv.accepted id hid
      rw [hleads]
      exact hp.trace.2.2.mpr hremoved
  · intro a ha hconn
    have hsafe := (exec_inv hinv ha).2 hconn
    exact ⟨hsafe.ne_assertion, hsafe.ne_badAccess⟩

/-- A connection that was accepted, hung up, and was destroyed. -/
theorem server_protocol_brief : ∃ s : ServerRun, s.Accepted 1 ∧ (.base, .removed) ∈ traceOf 1 s.log ∧
    ∃ o n, s.objects 1 = some o ∧ traceOf 1 s.log <+: wholeLife o.loop n := by
  obtain ⟨s, hr, _, hsv⟩ := longAddressed_calm.serve_one (longAddressed_reachable (10 ^ 8))
    (show 1 < 10 ^ 8 by decide)
  have hid : s.Accepted 1 := by
    refine ⟨by decide, ?_⟩
    rw [hsv]
    decide
  obtain ⟨hlife, -, hentries, -⟩ := server_protocol hr
  refine ⟨s, hid, ?_, hlife 1 hid⟩
  by_contra hremoved
  have hl := (hentries _ 1).mpr ⟨hid, rfl, hremoved⟩
  rw [hsv] at hl
  have hnone : (served longAddressed.server).connections.lookup ((served longAddressed.server).connName 1) =
      none := AList.lookup_erase _ _
  rw [hnone] at hl
  exact absurd hl (by simp)

end ServerRun

end Muduo.Net
