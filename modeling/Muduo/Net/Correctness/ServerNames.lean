import Muduo.Net.TcpServer
import Muduo.Net.Correctness.TcpLifeCycle

/-!
# `Correctness.ServerNames` — when a new connection gets a name of its own

`newConnection` prints the number of the connection into an array of 32 characters, after the address. The
address leaves room for `29 - |hostport_|` digits, at least eight; a longer number is cut. Since a name in
`connections_` is always the printed name of the connection it leads to, a new name is taken exactly when a
number in `connections_` has the same leading digits as the new one.
-/

namespace Muduo.Net

open Lib

/-! ## Printed names -/

theorem length_decimal_uint8 (n : UInt8) : (decimal n.toNat).length ≤ 3 :=
  (length_decimal_le (by decide)).mpr (lt_trans n.toNat_lt (by decide))

theorem length_decimal_uint16 (n : UInt16) : (decimal n.toNat).length ≤ 5 :=
  (length_decimal_le (by decide)).mpr (lt_trans n.toNat_lt (by decide))

/-- An address prints into at most 21 characters. -/
theorem InetAddress.length_toIpPort (a : InetAddress) : a.toIpPort.length ≤ 21 := by
  have h₁ := length_decimal_uint8 a.octet₁
  have h₂ := length_decimal_uint8 a.octet₂
  have h₃ := length_decimal_uint8 a.octet₃
  have h₄ := length_decimal_uint8 a.octet₄
  have h₅ := length_decimal_uint16 a.port
  simp only [toIpPort, toIp, snprintf, List.length_take, List.length_append, List.length_cons]
  omega

namespace TcpServer

variable {sv : TcpServer} {i j : Nat}

/-- The digits of the number that a name has room for. -/
def room (sv : TcpServer) : Nat := 29 - sv.hostport.length

theorem connName_eq (h : sv.hostport.length ≤ 21) (i : Nat) :
    sv.connName i = sv.name ++ (':' :: sv.hostport ++ ['#']) ++ (decimal i).take sv.room := by
  have hsplit : ':' :: sv.hostport ++ '#' :: decimal i = (':' :: sv.hostport ++ ['#']) ++ decimal i := by simp
  have hlen : (':' :: sv.hostport ++ ['#']).length = sv.hostport.length + 2 := by simp
  have hroom : 32 - 1 - (sv.hostport.length + 2) = sv.room := by
    unfold room
    omega
  unfold connName snprintf
  rw [hsplit, List.take_append, hlen, hroom, List.take_of_length_le (by omega), List.append_assoc sv.name]

/-- **Two names are equal exactly when the numbers agree in the digits there is room for.** -/
theorem connName_eq_iff (h : sv.hostport.length ≤ 21) :
    sv.connName i = sv.connName j ↔ leading sv.room i = leading sv.room j := by
  have hroom : 0 < sv.room := by
    unfold room
    omega
  rw [connName_eq h, connName_eq h, List.append_cancel_left_eq]
  exact take_decimal_eq_iff hroom i j

/-- Numbers of at most eight digits always fit. -/
theorem connName_inj (h : sv.hostport.length ≤ 21) (hi : i < 10 ^ 8) (hj : j < 10 ^ 8)
    (he : sv.connName i = sv.connName j) : i = j := by
  have hroom : 8 ≤ sv.room := by
    unfold room
    omega
  have hpow : 10 ^ 8 ≤ 10 ^ sv.room := Nat.pow_le_pow_right (by decide) hroom
  rw [connName_eq_iff h, leading_of_lt (by omega) (by omega), leading_of_lt (by omega) (by omega)] at he
  exact he

/-- Every entry of `connections_` stands under the printed name of its connection. -/
structure Named (sv : TcpServer) : Prop where
  hostport : sv.hostport.length ≤ 21
  entry : ∀ name id, sv.connections.lookup name = some id → name = sv.connName id

theorem named_new (listenAddr : InetAddress) (nameArg : List Char) (numThreads : Nat) (writeComplete : Bool) :
    Named (TcpServer.new listenAddr nameArg numThreads writeComplete) where
  hostport := listenAddr.length_toIpPort
  entry := by
    intro name id h
    exact absurd h (by simp [TcpServer.new])

theorem Named.addConnection (h : sv.Named) (threadPool : EventLoopThreadPool) :
    Named { sv.addConnection with threadPool } where
  hostport := h.hostport
  entry := by
    intro name id hl
    show name = sv.connName id
    have hl : (sv.connections.insert (sv.connName sv.nextConnId) sv.nextConnId).lookup name = some id := hl
    by_cases hn : name = sv.connName sv.nextConnId
    · rw [hn, AList.lookup_insert] at hl
      rw [hn, Option.some.inj hl]
    · rw [AList.lookup_insert_ne hn] at hl
      exact h.entry name id hl

theorem Named.erase (h : sv.Named) (key : List Char) :
    Named { sv with connections := sv.connections.erase key } where
  hostport := h.hostport
  entry := by
    intro name id hl
    show name = sv.connName id
    have hl : (sv.connections.erase key).lookup name = some id := hl
    by_cases hn : name = key
    · rw [hn, AList.lookup_erase] at hl
      exact absurd hl (by simp)
    · rw [AList.lookup_erase_ne hn] at hl
      exact h.entry name id hl

theorem eraseConnection_eq_ok {sv' : TcpServer} {name : List Char} :
    sv.eraseConnection name = .ok sv' ↔
      name ∈ sv.connections ∧ sv' = { sv with connections := sv.connections.erase name } := by
  unfold eraseConnection
  by_cases h : name ∈ sv.connections
  · simp [h, assert_pos, eq_comm]
  · simp [h, assert_neg, Bind.bind, Except.bind]

end TcpServer

namespace ServerRun

variable {s s' : ServerRun} {current : LoopId} {id : Nat} {o : ConnObject} {us : List UserCall}

/-! ## The runs of a server -/

/-- A connection is used from `connectEstablished` on; the poller reports a channel only if it has interest. -/
def enabled (bound : Nat) (s : ServerRun) : Action → Prop
  | .newConnection _ => s.server.nextConnId < bound
  | .handleEvent id d => ∃ o, s.objects id = some o ∧ o.conn.channel.isNoneEvent = false ∧
      o.conn.ReadFits d.read
  | .userCall id _ => ∃ o, s.objects id = some o ∧ o.conn.state ≠ .kConnecting
  | .runNext l _ => s.queues l ≠ []

/-- A started server, on any address, under any name and with any number of threads, that accepts
    connections while `nextConnId_` is below `bound`. -/
def serverSystem (bound : Nat) : System ServerRun Action where
  init s := (∃ listenAddr nameArg numThreads writeComplete,
      s.server = TcpServer.new listenAddr nameArg numThreads writeComplete) ∧
    (∀ id, s.objects id = none) ∧ (∀ l, s.queues l = []) ∧ s.log = []
  enabled := enabled bound
  exec := exec

theorem deref_eq_ok : s.deref id = .ok o ↔ s.objects id = some o := by
  unfold deref
  cases s.objects id with
  | none => simp
  | some o' => simp

/-! ## Names along a run -/

theorem removeConnectionInLoop_named (h : s.server.Named)
    (hs : s.removeConnectionInLoop current id = .ok s') : s'.server.Named := by
  obtain ⟨_, _, hs⟩ := bind_eq_ok.mp hs
  obtain ⟨o, _, hs⟩ := bind_eq_ok.mp hs
  obtain ⟨sv, hsv, hs⟩ := bind_eq_ok.mp hs
  obtain ⟨_, rfl⟩ := TcpServer.eraseConnection_eq_ok.mp hsv
  cases hs
  exact h.erase _

/-- After any call into a connection, at most an entry is gone. -/
theorem settle_named (h : s.server.Named) {c : TcpConnection} (hs : s.settle current id o c = .ok s') :
    s'.server.Named := by
  unfold settle at hs
  dsimp only at hs
  split at hs
  · unfold removeConnection runInLoop at hs
    split at hs
    · exact removeConnectionInLoop_named (by exact h) hs
    · cases hs
      exact h
  · cases hs
    exact h

theorem connectEstablished_named (h : s.server.Named) (hs : s.connectEstablished current id us = .ok s') :
    s'.server.Named := by
  obtain ⟨o, _, hs⟩ := bind_eq_ok.mp hs
  obtain ⟨_, _, hs⟩ := bind_eq_ok.mp hs
  obtain ⟨c, _, hs⟩ := bind_eq_ok.mp hs
  exact settle_named (by exact h) hs

theorem newConnection_named (h : s.server.Named) (hs : s.newConnection us = .ok s') : s'.server.Named := by
  obtain ⟨⟨ioLoop, threadPool⟩, _, hs⟩ := bind_eq_ok.mp hs
  dsimp only [runInLoop] at hs
  have hadd := h.addConnection threadPool
  split at hs
  · exact connectEstablished_named (by exact hadd) hs
  · cases hs
    exact hadd

theorem runFunctor_named (h : s.server.Named) {f : ServerFunctor} (hs : s.runFunctor current f us = .ok s') :
    s'.server.Named := by
  obtain ⟨i, task⟩ := f
  cases task with
  | connectEstablished => exact connectEstablished_named h hs
  | removeConnectionInLoop => exact removeConnectionInLoop_named h hs
  | connectDestroyed =>
      obtain ⟨o, _, hs⟩ := bind_eq_ok.mp hs
      obtain ⟨_, _, hs⟩ := bind_eq_ok.mp hs
      obtain ⟨c, _, hs⟩ := bind_eq_ok.mp hs
      exact settle_named (by exact h) hs
  | callback g =>
      obtain ⟨o, _, hs⟩ := bind_eq_ok.mp hs
      obtain ⟨c, _, hs⟩ := bind_eq_ok.mp hs
      exact settle_named h hs

theorem exec_named (h : s.server.Named) {a : Action} (hs : s.exec a = .ok s') : s'.server.Named := by
  cases a with
  | newConnection us => exact newConnection_named h hs
  | handleEvent id d =>
      obtain ⟨o, _, hs⟩ := bind_eq_ok.mp hs
      obtain ⟨c, _, hs⟩ := bind_eq_ok.mp hs
      exact settle_named (by exact h) hs
  | userCall id u =>
      obtain ⟨o, _, hs⟩ := bind_eq_ok.mp hs
      obtain ⟨c, _, hs⟩ := bind_eq_ok.mp hs
      exact settle_named h hs
  | runNext l us =>
      have hs : s.runNext l us = .ok s' := hs
      unfold runNext at hs
      split at hs
      · cases hs
        exact h
      · exact runFunctor_named (by exact h) hs

theorem reachable_named {bound : Nat} (h : (serverSystem bound).Reachable s) : s.server.Named := by
  refine System.keeps (S := serverSystem bound) (I := fun s => s.server.Named) ?_ ?_ h
  · rintro s ⟨⟨listenAddr, nameArg, numThreads, writeComplete, hsv⟩, _⟩
    rw [hsv]
    exact TcpServer.named_new listenAddr nameArg numThreads writeComplete
  · exact fun _ _ _ hs _ hs' => exec_named hs hs'

/-- **When the name of a new connection is its own.** In every state that a server reaches while `nextConnId_`
    is below `2 ^ 31`, the name that `newConnection` is about to use differs from every name in `connections_`
    exactly when no connection there has a number with the same leading digits, as many as fit. -/
theorem connName_is_new_iff (h : (serverSystem (2 ^ 31 - 1)).Reachable s) :
    (∀ name id, s.server.connections.lookup name = some id →
      s.server.connName s.server.nextConnId ≠ name) ↔
    ∀ name id, s.server.connections.lookup name = some id →
      leading (29 - s.server.hostport.length) id ≠
        leading (29 - s.server.hostport.length) s.server.nextConnId := by
  have hnamed := reachable_named h
  refine forall_congr' fun name => forall_congr' fun id => forall_congr' fun hl => ?_
  rw [hnamed.entry name id hl, ne_comm]
  exact not_congr (TcpServer.connName_eq_iff hnamed.hostport)

/-! ## A server that runs for long -/

/-- A call that queued nothing leaves only the connection changed. -/
theorem settle_of_quiet {c : TcpConnection} (hq : c.queued = []) :
    s.settle current id o c =
      .ok { s with objects := Function.update s.objects id (some { o with conn := c }) } := by
  have hc : { c with queued := [] } = c := by
    rw [← hq]
  unfold settle queueInLoop
  simp [hq, hc]

/-- A server without threads and without write-complete callback, with nothing to do. -/
structure Calm (s : ServerRun) : Prop where
  loops : s.server.threadPool.loops = []
  writeComplete : s.server.writeCompleteCallback = false
  queue : s.queues .base = []

/-- A connection is accepted, and stays. -/
theorem Calm.accept (h : s.Calm) {c₁ : TcpConnection}
    (hc : (TcpConnection.new false false).connectEstablished us = .ok c₁) (hq : c₁.queued = []) :
    ∃ s', s.newConnection us = .ok s' ∧ s'.Calm ∧ s'.server = s.server.addConnection ∧
      s'.objects = Function.update s.objects s.server.nextConnId
        (some ⟨s.server.connName s.server.nextConnId, .base, c₁⟩) := by
  have hpool : s.server.threadPool.getNextLoop = .ok (.base, s.server.threadPool) := by
    unfold EventLoopThreadPool.getNextLoop
    rw [h.loops]
    rfl
  let o : ConnObject := ⟨s.server.connName s.server.nextConnId, .base, TcpConnection.new false false⟩
  refine ⟨{ s with
    server := s.server.addConnection
    objects := Function.update (Function.update s.objects s.server.nextConnId (some o)) s.server.nextConnId
      (some { o with conn := c₁ })
    log := s.log ++ [⟨s.server.nextConnId, .base, .established⟩] },
    ?_, ⟨h.loops, h.writeComplete, h.queue⟩, rfl, Function.update_idem ..⟩
  unfold newConnection
  rw [hpool, ok_bind]
  dsimp only [runInLoop]
  rw [if_pos rfl]
  unfold connectEstablished deref
  simp only [note, Function.update_self, ok_bind, assert_pos, h.writeComplete, hc]
  exact settle_of_quiet hq

/-- The peer of the connection hangs up: its entry is erased at once, and `connectDestroyed` is queued. -/
theorem Calm.hangUp (h : s.Calm) {c₁ c₂ : TcpConnection} {d : TcpConnection.Dispatch} {name : List Char}
    (ho : s.objects id = some ⟨name, .base, c₁⟩) (hc : c₁.handleEvent d = .ok c₂)
    (hq : c₂.queued = [.connectDestroyed]) (hn : name ∈ s.server.connections) :
    ∃ s', s.handleEvent id d = .ok s' ∧
      s'.server = { s.server with connections := s.server.connections.erase name } ∧
      s'.queues .base = [⟨id, .connectDestroyed⟩] ∧
      s'.objects id = some ⟨name, .base, { c₂ with queued := [] }⟩ := by
  let o : ConnObject := ⟨name, .base, { c₂ with queued := [] }⟩
  refine ⟨{ s with
    server := { s.server with connections := s.server.connections.erase name }
    objects := Function.update s.objects id (some o)
    queues := Function.update s.queues .base [⟨id, .connectDestroyed⟩]
    log := s.log ++ [⟨id, .base, .handled⟩] ++ [⟨id, .base, .closed⟩] ++ [⟨id, .base, .removed⟩] },
    ?_, rfl, by simp, by simp [o]⟩
  have herase := TcpServer.eraseConnection_eq_ok.mpr ⟨hn, rfl⟩
  unfold handleEvent deref
  simp only [ho, ok_bind, hc]
  unfold settle removeConnection runInLoop removeConnectionInLoop deref
  simp [note, queueInLoop, hq, assert_pos, herase, h.queue, o]

/-- The queued `connectDestroyed` is run. -/
theorem destroyNext {c₃ : TcpConnection} {name : List Char} (hqueue : s.queues .base = [⟨id, .connectDestroyed⟩])
    (ho : s.objects id = some ⟨name, .base, c₃⟩) (hc : c₃.connectDestroyed [] = .ok c₃) (hq : c₃.queued = []) :
    ∃ s', s.runNext .base [] = .ok s' ∧ s'.server = s.server ∧ s'.queues .base = [] := by
  refine ⟨{ s with
    objects := Function.update s.objects id (some ⟨name, .base, c₃⟩)
    queues := Function.update s.queues .base []
    log := s.log ++ [⟨id, .base, .destroyed⟩] }, ?_, rfl, by simp⟩
  unfold runNext
  rw [hqueue]
  dsimp only [runFunctor]
  unfold connectDestroyed deref
  simp only [note, ho, ok_bind, assert_pos, hc]
  exact settle_of_quiet hq

/-- A connection that is accepted, hangs up, and is destroyed. -/
theorem brief_connection : ∃ c₁ c₂ c₃ : TcpConnection,
    (TcpConnection.new false false).connectEstablished [] = .ok c₁ ∧ c₁.queued = [] ∧
    c₁.channel.isNoneEvent = false ∧
    c₁.handleEvent ⟨POLLHUP, .failed 0, .wrote 0, [], []⟩ = .ok c₂ ∧ c₂.queued = [.connectDestroyed] ∧
    { c₂ with queued := [] } = c₃ ∧ c₃.connectDestroyed [] = .ok c₃ ∧ c₃.queued = [] :=
  ⟨_, _, _, rfl, rfl, by decide, rfl, rfl, rfl, rfl, rfl⟩

/-- The server after a connection that came and went. -/
def served (sv : TcpServer) : TcpServer :=
  { sv.addConnection with
    connections := sv.addConnection.connections.erase (sv.connName sv.nextConnId) }

/-- One more connection comes and goes: nothing is left of it but the next number. -/
theorem Calm.serve_one {bound : Nat} (h : s.Calm) (hr : (serverSystem bound).Reachable s)
    (hb : s.server.nextConnId < bound) :
    ∃ s', (serverSystem bound).Reachable s' ∧ s'.Calm ∧
      s'.server = served s.server := by
  obtain ⟨c₁, c₂, c₃, hc₁, hq₁, hi, hc₂, hq₂, he, hc₃, hq₃⟩ := brief_connection
  obtain ⟨s₁, hs₁, hcalm₁, hsv₁, hobj₁⟩ := h.accept hc₁ hq₁
  have ho₁ : s₁.objects s.server.nextConnId =
      some ⟨s.server.connName s.server.nextConnId, .base, c₁⟩ := by
    rw [hobj₁, Function.update_self]
  have hr₁ := hr.next (.newConnection []) hb hs₁
  have hmem : s.server.connName s.server.nextConnId ∈ s₁.server.connections := by
    rw [hsv₁]
    exact (AList.mem_insert _).mpr (Or.inl rfl)
  obtain ⟨s₂, hs₂, hsv₂, hqueue₂, ho₂⟩ := hcalm₁.hangUp ho₁ hc₂ hq₂ hmem
  have hr₂ := hr₁.next (.handleEvent _ _) ⟨_, ho₁, hi, fun _ h => absurd h (by simp)⟩ hs₂
  obtain ⟨s₃, hs₃, hsv₃, hqueue₃⟩ := destroyNext hqueue₂ (he ▸ ho₂) hc₃ hq₃
  have hr₃ := hr₂.next (.runNext .base []) (by
    show s₂.queues .base ≠ []
    simp [hqueue₂]) hs₃
  have hsv : s₃.server = served s.server := by
    rw [hsv₃, hsv₂, hsv₁]
    rfl
  exact ⟨s₃, hr₃, ⟨by rw [hsv]; exact h.loops, by rw [hsv]; exact h.writeComplete, hqueue₃⟩, hsv⟩

/-- `n` connections come and go; those accepted before are not disturbed. -/
theorem Calm.serve {bound : Nat} (hbound : 10 ^ 8 ≤ bound) (h : s.Calm)
    (hr : (serverSystem bound).Reachable s) (n : Nat) (hn : s.server.nextConnId + n ≤ 10 ^ 8) :
    ∃ s', (serverSystem bound).Reachable s' ∧ s'.Calm ∧ s'.server.hostport = s.server.hostport ∧
      s'.server.nextConnId = s.server.nextConnId + n ∧ s'.server.name = s.server.name ∧
      ∀ k < s.server.nextConnId, s'.server.connections.lookup (s.server.connName k) =
        s.server.connections.lookup (s.server.connName k) := by
  induction n with
  | zero => exact ⟨s, hr, h, rfl, rfl, rfl, fun _ _ => rfl⟩
  | succ n ih =>
      obtain ⟨s₁, hr₁, hcalm₁, hhost, hid, hname, hkeep⟩ := ih (by omega)
      obtain ⟨s₂, hr₂, hcalm₂, hsv⟩ := hcalm₁.serve_one hr₁ (by omega)
      have hconn : ∀ i, s₁.server.connName i = s.server.connName i := by
        intro i
        unfold TcpServer.connName
        rw [hhost, hname]
      refine ⟨s₂, hr₂, hcalm₂, by rw [hsv]; exact hhost, ?_, by rw [hsv]; exact hname, ?_⟩
      · rw [hsv]
        show s₁.server.nextConnId + 1 = _
        omega
      · intro k hk
        have hne : s.server.connName k ≠ s.server.connName s₁.server.nextConnId := by
          intro he
          have := TcpServer.connName_inj (reachable_named hr).hostport (by omega) (by omega) he
          omega
        rw [hsv]
        show ((s₁.server.connections.insert _ _).erase _).lookup _ = _
        rw [hconn, AList.lookup_erase_ne hne, AList.lookup_insert_ne hne]
        exact hkeep k hk

/-- A server on an address of 21 characters. -/
def longAddressed : ServerRun where
  server := TcpServer.new ⟨192, 168, 100, 100, 65535⟩ [] 0 false
  objects _ := none
  queues _ := []
  log := []

theorem longAddressed_reachable (bound : Nat) : (serverSystem bound).Reachable longAddressed :=
  .init ⟨⟨_, _, _, _, rfl⟩, fun _ => rfl, fun _ => rfl, rfl⟩

theorem longAddressed_calm : longAddressed.Calm := ⟨rfl, rfl, rfl⟩

/-- Two connections of this server, the first still there, have names of their own. -/
theorem connName_is_new_second : ∃ s : ServerRun, s.server.nextConnId = 2 ∧
    s.server.connections.lookup (s.server.connName 1) = some 1 ∧
    ∀ name id, s.server.connections.lookup name = some id →
      s.server.connName s.server.nextConnId ≠ name := by
  obtain ⟨c₁, _, _, hc₁, hq₁, _⟩ := brief_connection
  obtain ⟨s, hs, hcalm, hsv, _⟩ := longAddressed_calm.accept hc₁ hq₁
  have hr := (longAddressed_reachable (2 ^ 31 - 1)).next (.newConnection []) (show 1 < 2 ^ 31 - 1 by decide) hs
  have hid : s.server.nextConnId = 2 := by
    rw [hsv]
    rfl
  have hconn : s.server.connections = AList.insert (s.server.connName 1) 1 ∅ := by
    rw [hsv]
    rfl
  refine ⟨s, hid, by rw [hconn, AList.lookup_insert], (connName_is_new_iff hr).mpr ?_⟩
  intro name id hl
  have hname := (reachable_named hr).entry name id hl
  by_cases hn : name = s.server.connName 1
  · rw [hconn, hn, AList.lookup_insert] at hl
    obtain rfl : 1 = id := Option.some.inj hl
    have hhost : s.server.hostport = longAddressed.server.hostport := by
      rw [hsv]
      rfl
    rw [hid, hhost]
    decide
  · rw [hconn, AList.lookup_insert_ne hn] at hl
    exact absurd hl (by simp)

/-- `10 ^ 8` does not fit into eight digits, and is cut to `10 ^ 7`. -/
theorem leading_eight : leading 8 (10 ^ 8) = leading 8 (10 ^ 7) := by
  have hle : (decimal (10 ^ 8)).length ≤ 9 := (length_decimal_le (by decide)).mpr (by norm_num)
  have hgt : ¬ (decimal (10 ^ 8)).length ≤ 8 := by
    rw [length_decimal_le (by decide)]
    norm_num
  have hlen : (decimal (10 ^ 8)).length - 8 = 1 := by omega
  have hcut : leading 8 (10 ^ 8) = 10 ^ 8 / 10 ^ ((decimal (10 ^ 8)).length - 8) := rfl
  have hfits : leading 8 (10 ^ 7) = 10 ^ 7 := leading_of_lt (by decide) (by norm_num)
  rw [hcut, hlen, hfits]
  norm_num

/-- **Two connections of one name.** Connection `10 ^ 7` of a server on `192.168.100.100:65535` stays open,
    all others are closed at once; the connection with number `10 ^ 8` is given its name. -/
theorem connName_not_new : ∃ s : ServerRun, (serverSystem (2 ^ 31 - 1)).Reachable s ∧
    s.server.nextConnId = 10 ^ 8 ∧ s.server.connections.lookup (s.server.connName (10 ^ 7)) = some (10 ^ 7) ∧
    ¬ ∀ name id, s.server.connections.lookup name = some id →
      s.server.connName s.server.nextConnId ≠ name := by
  have hbound : 10 ^ 8 ≤ 2 ^ 31 - 1 := by norm_num
  obtain ⟨s₁, hr₁, hcalm₁, hhost₁, hid₁, _⟩ :=
    longAddressed_calm.serve hbound (longAddressed_reachable _) (10 ^ 7 - 1) (by
      show 1 + (10 ^ 7 - 1) ≤ 10 ^ 8
      norm_num)
  have hid₁ : s₁.server.nextConnId = 10 ^ 7 := hid₁
  obtain ⟨c₁, _, _, hc₁, hq₁, _⟩ := brief_connection
  obtain ⟨s₂, hs₂, hcalm₂, hsv₂, _⟩ := hcalm₁.accept hc₁ hq₁
  have hr₂ := hr₁.next (.newConnection []) (show s₁.server.nextConnId < 2 ^ 31 - 1 by omega) hs₂
  have hid₂ : s₂.server.nextConnId = 10 ^ 7 + 1 := by
    rw [hsv₂]
    show s₁.server.nextConnId + 1 = _
    rw [hid₁]
  have hhost₂ : s₂.server.hostport = longAddressed.server.hostport := by
    rw [hsv₂]
    exact hhost₁
  have hentry₂ : s₂.server.connections.lookup (s₂.server.connName (10 ^ 7)) = some (10 ^ 7) := by
    rw [hsv₂, ← hid₁]
    exact AList.lookup_insert _
  obtain ⟨s₃, hr₃, _, hhost₃, hid₃, hname₃, hkeep⟩ :=
    hcalm₂.serve hbound hr₂ (10 ^ 8 - (10 ^ 7 + 1)) (by omega)
  have hid₃ : s₃.server.nextConnId = 10 ^ 8 := by omega
  have hconn : ∀ i, s₂.server.connName i = s₃.server.connName i := by
    intro i
    unfold TcpServer.connName
    rw [hhost₃, hname₃]
  have hentry : s₃.server.connections.lookup (s₃.server.connName (10 ^ 7)) = some (10 ^ 7) := by
    rw [← hconn, hkeep (10 ^ 7) (by omega), hentry₂]
  refine ⟨s₃, hr₃, hid₃, hentry, fun hnew => hnew _ _ hentry ?_⟩
  have hroom : s₃.server.room = 8 := by
    unfold TcpServer.room
    rw [hhost₃, hhost₂]
    decide
  rw [TcpServer.connName_eq_iff (reachable_named hr₃).hostport, hid₃, hroom]
  exact leading_eight

end ServerRun

end Muduo.Net
