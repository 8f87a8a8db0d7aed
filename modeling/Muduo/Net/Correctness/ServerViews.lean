import Muduo.Net.Correctness.ServerNames

/-!
# `Correctness.ServerViews` — what the server state says about one connection

The `View` of a connection is its object, its part of the log, its functors in every queue, and whether
`connections_` leads to it. Every step of the server is made of a few primitive changes, each about one
connection: for that connection the view after the change is stated as an equation, and all other views stay
as they are (`Touches`). The map is the one thing the connections share; that erasing one entry leaves the
others alone rests on the names being different.
-/

namespace Muduo.Net

open Lib

/-- `connections_` leads to connection `id` under its name. -/
def TcpServer.leadsTo (sv : TcpServer) (id : Nat) : Bool :=
  sv.connections.lookup (sv.connName id) = some id

namespace TcpServer

variable {sv : TcpServer} {id id' : Nat}

/-- Every entry stands under a name that no other entry can have. -/
structure Exclusive (sv : TcpServer) : Prop extends sv.Named where
  small : ∀ name id, sv.connections.lookup name = some id → id < 10 ^ 8

/-- Who finds another connection under the name of `id` has found a larger number than there is. -/
theorem Exclusive.lookup_ne (h : sv.Exclusive) (hid : id < 10 ^ 8) (hne : id ≠ id')
    (hname : sv.connName id' = sv.connName id) : sv.connections.lookup (sv.connName id') ≠ some id' := by
  intro hl
  exact hne (connName_inj h.hostport hid (h.small _ _ hl) hname.symm)

theorem Exclusive.leadsTo_erase (h : sv.Exclusive) (hid : id < 10 ^ 8) (hne : id ≠ id') :
    leadsTo { sv with connections := sv.connections.erase (sv.connName id) } id' = sv.leadsTo id' := by
  show decide ((sv.connections.erase (sv.connName id)).lookup (sv.connName id') = some id') =
    decide (sv.connections.lookup (sv.connName id') = some id')
  by_cases hname : sv.connName id' = sv.connName id
  · have hl := h.lookup_ne hid hne hname
    rw [hname] at hl ⊢
    simp [hl]
  · rw [AList.lookup_erase_ne hname]

theorem leadsTo_erase_self (sv : TcpServer) (id : Nat) :
    leadsTo { sv with connections := sv.connections.erase (sv.connName id) } id = false := by
  show decide ((sv.connections.erase (sv.connName id)).lookup (sv.connName id) = some id) = false
  simp

theorem Exclusive.erase (h : sv.Exclusive) (key : List Char) :
    Exclusive { sv with connections := sv.connections.erase key } where
  toNamed := h.toNamed.erase key
  small := by
    intro name id hl
    have hl : (sv.connections.erase key).lookup name = some id := hl
    by_cases hn : name = key
    · rw [hn, AList.lookup_erase] at hl
      exact absurd hl (by simp)
    · rw [AList.lookup_erase_ne hn] at hl
      exact h.small name id hl

theorem Exclusive.leadsTo_add (h : sv.Exclusive) (hid : sv.nextConnId < 10 ^ 8) (hne : sv.nextConnId ≠ id') :
    sv.addConnection.leadsTo id' = sv.leadsTo id' := by
  show decide ((sv.connections.insert (sv.connName sv.nextConnId) sv.nextConnId).lookup (sv.connName id') =
    some id') = decide (sv.connections.lookup (sv.connName id') = some id')
  by_cases hname : sv.connName id' = sv.connName sv.nextConnId
  · have hl := h.lookup_ne hid hne hname
    rw [hname] at hl ⊢
    simp [hl, hne]
  · rw [AList.lookup_insert_ne hname]

theorem leadsTo_add_self (sv : TcpServer) : sv.addConnection.leadsTo sv.nextConnId = true := by
  show decide ((sv.connections.insert (sv.connName sv.nextConnId) sv.nextConnId).lookup
    (sv.connName sv.nextConnId) = some sv.nextConnId) = true
  simp

theorem Exclusive.add (h : sv.Exclusive) (hid : sv.nextConnId < 10 ^ 8) (threadPool : EventLoopThreadPool) :
    Exclusive { sv.addConnection with threadPool } where
  toNamed := h.toNamed.addConnection threadPool
  small := by
    intro name id hl
    have hl : (sv.connections.insert (sv.connName sv.nextConnId) sv.nextConnId).lookup name = some id := hl
    by_cases hn : name = sv.connName sv.nextConnId
    · rw [hn, AList.lookup_insert] at hl
      obtain rfl := Option.some.inj hl
      exact hid
    · rw [AList.lookup_insert_ne hn] at hl
      exact h.small name id hl

end TcpServer

namespace ServerRun

/-! ## What the state says about one connection -/

/-- The part of the state that is about one connection. -/
structure View where
  object : Option ConnObject
  /-- What ran for it, and where, oldest first. -/
  trace : List (LoopId × LifeEvent)
  /-- Its functors in the queue of each loop. -/
  tasks : LoopId → List ServerTask
  /-- `connections_` leads to it. -/
  entry : Bool

/-- The functors about connection `id`. -/
def tasksOf (id : Nat) (fs : List ServerFunctor) : List ServerTask :=
  (fs.filter (·.id = id)).map (·.task)

/-- The log of connection `id`. -/
def traceOf (id : Nat) (log : List LogEntry) : List (LoopId × LifeEvent) :=
  (log.filter (·.id = id)).map fun e => (e.loop, e.event)

def view (s : ServerRun) (id : Nat) : View where
  object := s.objects id
  trace := traceOf id s.log
  tasks l := tasksOf id (s.queues l)
  entry := s.server.leadsTo id

/-- Nothing is known of a connection that has not been accepted. -/
def View.fresh : View := ⟨none, [], fun _ => [], false⟩

variable {s s' s'' : ServerRun} {id id' : Nat} {l current : LoopId} {o : ConnObject} {us : List UserCall}

@[simp] theorem tasksOf_append (id : Nat) (fs gs : List ServerFunctor) :
    tasksOf id (fs ++ gs) = tasksOf id fs ++ tasksOf id gs := by
  simp [tasksOf]

theorem tasksOf_cons_self (t : ServerTask) (fs : List ServerFunctor) :
    tasksOf id (⟨id, t⟩ :: fs) = t :: tasksOf id fs := by
  simp [tasksOf]

theorem tasksOf_cons_ne (h : id ≠ id') (t : ServerTask) (fs : List ServerFunctor) :
    tasksOf id' (⟨id, t⟩ :: fs) = tasksOf id' fs := by
  simp [tasksOf, h]

theorem tasksOf_map_self {α : Type} (g : α → ServerTask) (xs : List α) :
    tasksOf id (xs.map fun x => ⟨id, g x⟩) = xs.map g := by
  induction xs with
  | nil => rfl
  | cons x xs ih =>
      rw [List.map_cons, tasksOf_cons_self, ih]
      rfl

theorem tasksOf_map_ne (h : id ≠ id') {α : Type} (g : α → ServerTask) (xs : List α) :
    tasksOf id' (xs.map fun x => ⟨id, g x⟩) = [] := by
  induction xs with
  | nil => rfl
  | cons x xs ih =>
      rw [List.map_cons, tasksOf_cons_ne h, ih]

/-- The step from `s` to `s'` is about connection `id` alone. -/
structure Touches (id : Nat) (s s' : ServerRun) : Prop where
  view : ∀ id', id ≠ id' → s'.view id' = s.view id'
  hostport : s'.server.hostport = s.server.hostport
  name : s'.server.name = s.server.name
  nextConnId : s'.server.nextConnId = s.server.nextConnId
  threadPool : s'.server.threadPool = s.server.threadPool

theorem Touches.trans (h : Touches id s s') (h' : Touches id s' s'') : Touches id s s'' where
  view id' hne := (h'.view id' hne).trans (h.view id' hne)
  hostport := h'.hostport.trans h.hostport
  name := h'.name.trans h.name
  nextConnId := h'.nextConnId.trans h.nextConnId
  threadPool := h'.threadPool.trans h.threadPool

theorem Touches.connName (h : Touches id s s') (i : Nat) : s'.server.connName i = s.server.connName i := by
  unfold TcpServer.connName
  rw [h.hostport, h.name]

/-! ## The primitive steps -/

theorem note_touches (s : ServerRun) (l : LoopId) (id : Nat) (e : LifeEvent) :
    Touches id s (s.note l id e) where
  view id' hne := by simp [view, note, traceOf, hne]
  hostport := rfl
  name := rfl
  nextConnId := rfl
  threadPool := rfl

theorem note_view (s : ServerRun) (l : LoopId) (id : Nat) (e : LifeEvent) :
    (s.note l id e).view id = { s.view id with trace := (s.view id).trace ++ [(l, e)] } := by
  simp [view, note, traceOf]

theorem setObject_touches (s : ServerRun) (id : Nat) (x : Option ConnObject) :
    Touches id s { s with objects := Function.update s.objects id x } where
  view id' hne := by simp [view, Function.update_of_ne hne.symm]
  hostport := rfl
  name := rfl
  nextConnId := rfl
  threadPool := rfl

theorem setObject_view (s : ServerRun) (id : Nat) (x : Option ConnObject) :
    view { s with objects := Function.update s.objects id x } id = { s.view id with object := x } := by
  simp [view]

/-- A change of one queue is seen in the views of the connections whose functors differ. -/
theorem setQueue_view (s : ServerRun) (l : LoopId) (fs : List ServerFunctor) (id : Nat) :
    view { s with queues := Function.update s.queues l fs } id =
      { s.view id with tasks := Function.update (s.view id).tasks l (tasksOf id fs) } := by
  simp only [view, View.mk.injEq, true_and, and_true]
  funext l'
  by_cases hl : l' = l
  · subst hl
    simp
  · simp [Function.update_of_ne hl]

theorem setQueue_touches {fs : List ServerFunctor}
    (h : ∀ id', id ≠ id' → tasksOf id' fs = tasksOf id' (s.queues l)) :
    Touches id s { s with queues := Function.update s.queues l fs } where
  view id' hne := by
    rw [setQueue_view, h id' hne]
    have hsame : tasksOf id' (s.queues l) = (s.view id').tasks l := rfl
    rw [hsame, Function.update_eq_self]
  hostport := rfl
  name := rfl
  nextConnId := rfl
  threadPool := rfl

theorem queue_touches (s : ServerRun) (l : LoopId) {α : Type} (g : α → ServerTask) (xs : List α) :
    Touches id s (s.queueInLoop l (xs.map fun x => ⟨id, g x⟩)) := by
  refine setQueue_touches fun id' hne => ?_
  rw [tasksOf_append, tasksOf_map_ne hne, List.append_nil]

theorem queue_view (s : ServerRun) (l : LoopId) {α : Type} (g : α → ServerTask) (xs : List α) :
    (s.queueInLoop l (xs.map fun x => ⟨id, g x⟩)).view id =
      { s.view id with tasks := Function.update (s.view id).tasks l ((s.view id).tasks l ++ xs.map g) } := by
  unfold queueInLoop
  rw [setQueue_view, tasksOf_append, tasksOf_map_self]
  rfl

theorem queueOne_touches (s : ServerRun) (l : LoopId) (t : ServerTask) :
    Touches id s (s.queueInLoop l [⟨id, t⟩]) :=
  queue_touches s l (fun t => t) [t]

theorem queueOne_view (s : ServerRun) (l : LoopId) (t : ServerTask) :
    (s.queueInLoop l [⟨id, t⟩]).view id =
      { s.view id with tasks := Function.update (s.view id).tasks l ((s.view id).tasks l ++ [t]) } :=
  queue_view s l (fun t => t) [t]

theorem erase_touches (h : s.server.Exclusive) (hid : id < 10 ^ 8) :
    Touches id s { s with server :=
      { s.server with connections := s.server.connections.erase (s.server.connName id) } } where
  view id' hne := by
    simp only [view, View.mk.injEq, true_and]
    exact h.leadsTo_erase hid hne
  hostport := rfl
  name := rfl
  nextConnId := rfl
  threadPool := rfl

theorem erase_view (s : ServerRun) (id : Nat) :
    view { s with server :=
      { s.server with connections := s.server.connections.erase (s.server.connName id) } } id =
      { s.view id with entry := false } := by
  simp only [view, View.mk.injEq, true_and]
  exact TcpServer.leadsTo_erase_self s.server id

/-! ## Removal -/

/-- **`removeConnectionInLoop` erases exactly the entry of its connection**, and queues `connectDestroyed`. -/
theorem removeConnectionInLoop_spec (hx : s.server.Exclusive) (hid : id < 10 ^ 8)
    (ho : s.objects id = some o) (hn : o.name = s.server.connName id) (he : (s.view id).entry = true) :
    ∃ s', s.removeConnectionInLoop .base id = .ok s' ∧ Touches id s s' ∧ s'.server.Exclusive ∧
      s'.view id = { s.view id with
        trace := (s.view id).trace ++ [(.base, .removed)]
        tasks := Function.update (s.view id).tasks o.loop ((s.view id).tasks o.loop ++ [.connectDestroyed])
        entry := false } := by
  have hmem : s.server.connName id ∈ s.server.connections := by
    have hl : s.server.connections.lookup (s.server.connName id) = some id := by
      simpa [view, TcpServer.leadsTo] using he
    rw [← AList.lookup_isSome, hl]
    rfl
  have herase := TcpServer.eraseConnection_eq_ok.mpr ⟨hmem, rfl⟩
  let s₁ : ServerRun := { s with server :=
    { s.server with connections := s.server.connections.erase (s.server.connName id) } }
  refine ⟨(s₁.note .base id .removed).queueInLoop o.loop [⟨id, .connectDestroyed⟩], ?_, ?_,
    hx.erase (s.server.connName id), ?_⟩
  · unfold removeConnectionInLoop
    rw [assert_pos rfl, ok_bind, deref_eq_ok.mpr ho, ok_bind, hn, herase]
    rfl
  · exact ((erase_touches hx hid).trans (note_touches _ _ _ _)).trans (queueOne_touches _ _ _)
  · rw [queueOne_view, note_view, erase_view]

/-! ## The end of a call -/

/-- The view after a call that left the connection as `c`, and did not close it. -/
def View.store (v : View) (o : ConnObject) (c : TcpConnection) : View :=
  { v with
    object := some { o with conn := { c with queued := [] } }
    tasks := Function.update v.tasks o.loop
      (v.tasks o.loop ++ (c.queued.filter (· ≠ .connectDestroyed)).map .callback) }

/-- The common part of every call: the object is stored, and its notifications are queued. -/
theorem store_spec (s : ServerRun) (id : Nat) (o : ConnObject) (c : TcpConnection) :
    ∃ s', (∀ current, s.settle current id o c =
        if .connectDestroyed ∈ c.queued then (s'.note current id .closed).removeConnection current id
        else .ok s') ∧
      Touches id s s' ∧ s'.server = s.server ∧ s'.view id = (s.view id).store o c := by
  let s₁ : ServerRun :=
    { s with objects := Function.update s.objects id (some { o with conn := { c with queued := [] } }) }
  refine ⟨s₁.queueInLoop o.loop ((c.queued.filter (· ≠ .connectDestroyed)).map fun f => ⟨id, .callback f⟩),
    fun _ => rfl, (setObject_touches s id _).trans (queue_touches _ _ _ _), rfl, ?_⟩
  rw [queue_view, setObject_view]
  rfl

/-- The call did not close the connection. -/
theorem settle_open (s : ServerRun) (id : Nat) (o : ConnObject) {c : TcpConnection}
    (hc : .connectDestroyed ∉ c.queued) (current : LoopId) :
    ∃ s', s.settle current id o c = .ok s' ∧ Touches id s s' ∧ s'.server = s.server ∧
      s'.view id = (s.view id).store o c := by
  obtain ⟨s', hs', ht, hsv, hv⟩ := store_spec s id o c
  exact ⟨s', by rw [hs', if_neg hc], ht, hsv, hv⟩

/-- The call closed the connection, on a loop of the pool: the base loop is told. -/
theorem settle_ended_io (s : ServerRun) (id : Nat) (o : ConnObject) {c : TcpConnection}
    (hc : .connectDestroyed ∈ c.queued) (hcur : current ≠ .base) :
    ∃ s', s.settle current id o c = .ok s' ∧ Touches id s s' ∧ s'.server = s.server ∧
      s'.view id = { (s.view id).store o c with
        trace := (s.view id).trace ++ [(current, .closed)]
        tasks := Function.update ((s.view id).store o c).tasks .base
          (((s.view id).store o c).tasks .base ++ [.removeConnectionInLoop]) } := by
  obtain ⟨s', hs', ht, hsv, hv⟩ := store_spec s id o c
  refine ⟨(s'.note current id .closed).queueInLoop .base [⟨id, .removeConnectionInLoop⟩], ?_,
    (ht.trans (note_touches _ _ _ _)).trans (queueOne_touches _ _ _), hsv, ?_⟩
  · rw [hs', if_pos hc]
    exact if_neg hcur
  · rw [queueOne_view, note_view, hv]
    rfl

/-- The call closed the connection, on the base loop: its entry is erased at once. -/
theorem settle_ended_base {c : TcpConnection} (hc : .connectDestroyed ∈ c.queued) (hx : s.server.Exclusive)
    (hid : id < 10 ^ 8) (hn : o.name = s.server.connName id) (he : (s.view id).entry = true) :
    ∃ s', s.settle .base id o c = .ok s' ∧ Touches id s s' ∧ s'.server.Exclusive ∧
      s'.view id = { (s.view id).store o c with
        trace := (s.view id).trace ++ [(.base, .closed)] ++ [(.base, .removed)]
        tasks := Function.update ((s.view id).store o c).tasks o.loop
          (((s.view id).store o c).tasks o.loop ++ [.connectDestroyed])
        entry := false } := by
  obtain ⟨s', hs', ht, hsv, hv⟩ := store_spec s id o c
  have hview : (s'.note .base id .closed).view id =
      { (s.view id).store o c with trace := (s.view id).trace ++ [(.base, .closed)] } := by
    rw [note_view, hv]
    rfl
  have hobj : (s'.note .base id .closed).objects id = some { o with conn := { c with queued := [] } } :=
    congrArg View.object hview
  obtain ⟨s'', hs'', ht', hx', hv'⟩ := removeConnectionInLoop_spec (s := s'.note .base id .closed)
    (by rw [note, hsv]; exact hx) hid hobj (by rw [note, hsv]; exact hn) (by rw [hview]; exact he)
  refine ⟨s'', ?_, (ht.trans (note_touches _ _ _ _)).trans ht', hx', ?_⟩
  · rw [hs', if_pos hc]
    exact hs''
  · rw [hv', hview]

end ServerRun

end Muduo.Net
