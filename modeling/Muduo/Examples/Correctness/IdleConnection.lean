import Muduo.Examples.IdleConnection
import Muduo.Lib.Idle

/-!
# `Examples.Correctness.IdleConnection` — idle connections are shut down on time

The buckets, newest first, are a wheel (`Lib.Idle`): the age of a connection in it is the number of calls of `onTimer`
since its last message, and a turn makes those expire that have been idle for as many calls as there are buckets.
-/

namespace Muduo

open Lib

namespace Examples.EchoServer

variable {s s' : EchoServer} {n : Nat} {conn : Nat}

/-- The buckets, newest first. -/
def wheel (s : EchoServer) : List (Finset Nat) := s.connectionBuckets.elems.reverse

/-- For how many calls of `onTimer` a connection has been idle, while its entry exists. -/
def idle (s : EchoServer) : Idle.Ages Nat := Idle.ageIn s.wheel

structure Inv (n : Nat) (s : EchoServer) : Prop where
  capacity : s.connectionBuckets.capacity = n
  full : s.wheel.length = n
  /-- Only what has a context is in a bucket or exists. -/
  watched : ∀ conn, (s.idle conn).isSome → conn ∈ s.contexts
  known : s.objects ⊆ s.contexts

theorem holds_iff : s.holds conn = true ↔ (s.idle conn).isSome := by
  rw [idle, Idle.ageIn_isSome]
  simp [holds, wheel]

/-- `back()` is the newest bucket. -/
theorem modifyBack_insert {q : CircularBuffer (Finset Nat)} {bucket : Finset Nat} {rest : List (Finset Nat)}
    (h : q.elems.reverse = bucket :: rest) (conn : Nat) :
    ∃ q', q.modifyBack (insert conn) = .ok q' ∧ q'.capacity = q.capacity ∧
      q'.elems.reverse = insert conn bucket :: rest := by
  have hq : q.elems = rest.reverse ++ [bucket] := by
    rw [← List.reverse_reverse q.elems, h, List.reverse_cons]
  unfold CircularBuffer.modifyBack
  split
  · next hlast => simp [hq] at hlast
  · next x hlast =>
      rw [hq, List.getLast?_append, List.getLast?_singleton] at hlast
      cases hlast
      exact ⟨_, rfl, rfl, by simp [hq]⟩

/-- What the oldest bucket held and no other holds is what a turn drops. -/
theorem mem_dying {wheel : List (Finset Nat)} (hne : wheel ≠ []) :
    conn ∈ dying (wheel.reverse.headD ∅) (∅ :: wheel.dropLast).reverse ↔
      Idle.Expires wheel.length (Idle.ageIn wheel) conn := by
  obtain ⟨front, rest, hwheel⟩ : ∃ front rest, wheel = rest ++ [front] :=
    ⟨_, _, (List.dropLast_append_getLast hne).symm⟩
  have hnone : Idle.ageIn (∅ :: rest) conn = none ↔ ∀ bucket ∈ rest, conn ∉ bucket := by
    rw [← Option.not_isSome_iff_eq_none, Idle.ageIn_isSome]
    simp
  have hsome : (Idle.ageIn (rest ++ [front]) conn).isSome ↔ (∃ bucket ∈ rest, conn ∈ bucket) ∨ conn ∈ front := by
    rw [Idle.ageIn_isSome]
    simp [or_and_right, exists_or]
  rw [Idle.expires_wheel, hwheel, List.dropLast_concat, hnone, hsome]
  simp only [dying, List.reverse_append, List.reverse_cons, List.reverse_nil, List.nil_append, List.singleton_append,
    List.headD_cons, Finset.mem_filter, List.mem_append, List.mem_reverse, List.mem_singleton]
  constructor
  · rintro ⟨hfront, hrest⟩
    exact ⟨Or.inr hfront, fun bucket hb => hrest bucket (Or.inl hb)⟩
  · rintro ⟨hin, hrest⟩
    have hfront : conn ∈ front := hin.resolve_left fun ⟨bucket, hb, hmem⟩ => hrest bucket hb hmem
    refine ⟨hfront, ?_⟩
    rintro bucket (hb | rfl)
    · exact hrest bucket hb
    · exact Finset.notMem_empty conn

/-- A full wheel turns. -/
theorem pushBack_wheel (h : s.Inv n) (hn : 0 < n) :
    (s.connectionBuckets.pushBack ∅).elems.reverse = ∅ :: s.wheel.dropLast := by
  have hlen : s.connectionBuckets.elems.length = n := by simpa [wheel] using h.full
  show ((s.connectionBuckets.elems ++ [∅]).drop
    (s.connectionBuckets.size + 1 - s.connectionBuckets.capacity)).reverse = _
  have hone : s.connectionBuckets.size + 1 - s.connectionBuckets.capacity = 1 := by
    rw [h.capacity, CircularBuffer.size, hlen]
    omega
  rw [hone]
  cases hq : s.connectionBuckets.elems with
  | nil =>
      rw [hq, List.length_nil] at hlen
      omega
  | cons front rest => simp [wheel, hq]

/-! ## One step -/

/-- The age of each connection after a step. -/
def ages (s : EchoServer) (n : Nat) : Action → Idle.Ages Nat
  | .up conn => Idle.touch s.idle conn
  | .message conn => if s.holds conn = true then Idle.touch s.idle conn else s.idle
  | .timer => Idle.tick n s.idle
  | .down _ | .release _ => s.idle

/-- What a step does. -/
structure Does (n : Nat) (s : EchoServer) (a : Action) (s' : EchoServer) : Prop where
  idle : s'.idle = s.ages n a
  kept : s.contexts ⊆ s'.contexts
  objects : ∀ conn ∈ s.contexts, conn ∈ s'.objects → conn ∈ s.objects
  quiet : a ≠ .timer → s'.shutdowns = s.shutdowns
  timer : a = .timer → ∃ S, s'.shutdowns = s.shutdowns ++ [S] ∧
    ∀ conn, conn ∈ S ↔ Idle.Expires n s.idle conn ∧ conn ∈ s.objects

/-- The wheel is not empty. -/
theorem Inv.exists_bucket (h : s.Inv n) (hn : 0 < n) : ∃ bucket rest, s.wheel = bucket :: rest :=
  List.exists_cons_of_length_pos (h.full ▸ hn)

theorem Inv.onConnectionUp (h : s.Inv n) (hn : 0 < n) (hconn : conn ∉ s.contexts) :
    ∃ s', s.onConnectionUp conn = .ok s' ∧ s'.Inv n ∧ Does n s (.up conn) s' := by
  obtain ⟨bucket, rest, hwheel⟩ := h.exists_bucket hn
  obtain ⟨q, hback, hcap, hq⟩ := modifyBack_insert hwheel conn
  have hidle : Idle.ageIn q.elems.reverse = Idle.touch s.idle conn := by
    rw [hq, Idle.ageIn_insert, EchoServer.idle, hwheel]
  unfold EchoServer.onConnectionUp
  rw [hback, ok_bind]
  refine ⟨_, rfl, ⟨hcap.trans h.capacity, ?_, ?_, Finset.insert_subset_insert _ h.known⟩,
    ⟨hidle, Finset.subset_insert _ _, ?_, fun _ => rfl, nofun⟩⟩
  · show q.elems.reverse.length = n
    rw [hq, ← h.full, hwheel]
    rfl
  · intro k hk
    have hk : (Idle.ageIn q.elems.reverse k).isSome := hk
    rw [hidle] at hk
    by_cases hkc : k = conn
    · exact hkc ▸ Finset.mem_insert_self _ _
    · rw [Idle.touch, Function.update_of_ne hkc] at hk
      exact Finset.mem_insert_of_mem (h.watched k hk)
  · intro k hk hmem
    rcases Finset.mem_insert.mp hmem with rfl | hmem
    · exact absurd hk hconn
    · exact hmem

theorem Inv.onMessage (h : s.Inv n) (hn : 0 < n) (hconn : conn ∈ s.objects) :
    ∃ s', s.onMessage conn = .ok s' ∧ s'.Inv n ∧ Does n s (.message conn) s' := by
  unfold EchoServer.onMessage
  rw [assert_pos (h.known hconn), ok_bind]
  by_cases hholds : s.holds conn = true
  · obtain ⟨bucket, rest, hwheel⟩ := h.exists_bucket hn
    obtain ⟨q, hback, hcap, hq⟩ := modifyBack_insert hwheel conn
    have hidle : Idle.ageIn q.elems.reverse = Idle.touch s.idle conn := by
      rw [hq, Idle.ageIn_insert, EchoServer.idle, hwheel]
    rw [if_pos hholds, hback, ok_bind]
    refine ⟨_, rfl, ⟨hcap.trans h.capacity, ?_, ?_, h.known⟩,
      ⟨by rw [ages, if_pos hholds]; exact hidle, Finset.Subset.refl _, fun _ _ hmem => hmem, fun _ => rfl, nofun⟩⟩
    · show q.elems.reverse.length = n
      rw [hq, ← h.full, hwheel]
      rfl
    · intro k hk
      have hk : (Idle.ageIn q.elems.reverse k).isSome := hk
      rw [hidle] at hk
      by_cases hkc : k = conn
      · exact hkc ▸ h.known hconn
      · rw [Idle.touch, Function.update_of_ne hkc] at hk
        exact h.watched k hk
  · -- its entry is gone, and nothing brings it back
    rw [if_neg hholds]
    exact ⟨s, rfl, h, ⟨by rw [ages, if_neg hholds], Finset.Subset.refl _, fun _ _ hmem => hmem, fun _ => rfl, nofun⟩⟩

theorem Inv.onTimer (h : s.Inv n) (hn : 0 < n) : s.onTimer.Inv n ∧ Does n s .timer s.onTimer := by
  have hturn := pushBack_wheel h hn
  have hidle : Idle.ageIn (s.connectionBuckets.pushBack ∅).elems.reverse = Idle.tick n s.idle := by
    rw [hturn, Idle.ageIn_turn, h.full, EchoServer.idle]
  refine ⟨⟨h.capacity, ?_, ?_, h.known⟩, ⟨hidle, Finset.Subset.refl _, fun _ _ hmem => hmem, nofun, fun _ => ?_⟩⟩
  · show (s.connectionBuckets.pushBack ∅).elems.reverse.length = n
    have := h.full
    rw [hturn, List.length_cons, List.length_dropLast]
    omega
  · intro k hk
    have hk : (Idle.ageIn (s.connectionBuckets.pushBack ∅).elems.reverse k).isSome := hk
    rw [hidle] at hk
    apply h.watched
    cases hks : s.idle k with
    | none => simp [Idle.tick_none hks] at hk
    | some d => rfl
  · refine ⟨_, rfl, fun conn => ?_⟩
    have helems : (s.connectionBuckets.pushBack ∅).elems = (∅ :: s.wheel.dropLast).reverse := by
      rw [← hturn, List.reverse_reverse]
    have hfront : s.connectionBuckets.elems = s.wheel.reverse := (List.reverse_reverse _).symm
    have hne : s.wheel ≠ [] := by
      intro hnil
      have := h.full
      rw [hnil, List.length_nil] at this
      omega
    rw [Finset.mem_inter, helems, hfront, mem_dying hne, h.full, EchoServer.idle]

/-- Every step that is enabled returns, and keeps the invariant. -/
theorem Inv.exec (h : s.Inv n) (hn : 0 < n) {a : Action} (ha : s.enabled a) :
    ∃ s', s.exec a = .ok s' ∧ s'.Inv n ∧ Does n s a s' := by
  cases a with
  | up conn => exact h.onConnectionUp hn ha
  | message conn => exact h.onMessage hn ha
  | down conn =>
      have hcontext : conn ∈ s.contexts := h.known ha
      refine ⟨s, ?_, h, ⟨rfl, Finset.Subset.refl _, fun _ _ hmem => hmem, fun _ => rfl, nofun⟩⟩
      show s.onConnectionDown conn = .ok s
      unfold onConnectionDown
      rw [assert_pos hcontext, ok_bind]
  | release conn =>
      exact ⟨_, rfl, ⟨h.capacity, h.full, h.watched, (Finset.erase_subset _ _).trans h.known⟩,
        ⟨rfl, Finset.Subset.refl _, fun _ _ hmem => Finset.mem_of_mem_erase hmem, fun _ => rfl, nofun⟩⟩
  | timer => exact ⟨_, rfl, h.onTimer hn⟩

theorem Inv.step (h : s.Inv n) (hn : 0 < n) {a : Action} (hstep : (echoSystem n).Step s a s') :
    s'.Inv n ∧ Does n s a s' := by
  obtain ⟨s₁, hs₁, hinv, hdoes⟩ := h.exec hn hstep.1
  have heq : s₁ = s' := Except.ok.inj (hs₁.symm.trans hstep.2)
  exact heq ▸ ⟨hinv, hdoes⟩

theorem new_inv : (new n).Inv n := by
  refine ⟨rfl, by simp [wheel, new, CircularBuffer.resized], fun conn hconn => ?_, Finset.Subset.refl _⟩
  rw [idle, Idle.ageIn_isSome] at hconn
  obtain ⟨bucket, hmem, hin⟩ := hconn
  have hempty : bucket = ∅ := by
    simp only [wheel, new, CircularBuffer.resized, List.reverse_replicate, List.mem_replicate] at hmem
    exact hmem.2
  exact absurd hin (hempty ▸ Finset.notMem_empty _)

theorem echoSystem_inv (hn : 0 < n) (h : (echoSystem n).Reachable s) : s.Inv n := by
  refine System.keeps (S := echoSystem n) ?_ (fun _ _ _ hs ha hs' => (hs.step hn ⟨ha, hs'⟩).1) h
  rintro s rfl
  exact new_inv

/-! ## Runs -/

def Action.isTimer : Action → Bool
  | .timer => true
  | .up _ | .message _ | .down _ | .release _ => false

/-- How often `onTimer` is called. -/
def timers (as : List Action) : Nat := as.countP Action.isTimer

/-- What is true of a connection that was active in `s₁`, after `as` without a message of it. -/
structure Idles (n : Nat) (conn : Nat) (s₁ : EchoServer) (as : List Action) (s : EchoServer) : Prop where
  inv : s.Inv n
  context : conn ∈ s.contexts
  idle : s.idle conn = if timers as < n then some (timers as) else none
  shutdowns : ∃ later, s.shutdowns = s₁.shutdowns ++ later ∧ later.length = timers as ∧
    (conn ∈ s.objects → ∀ j S, later[j]? = some S → (conn ∈ S ↔ j + 1 = n))

theorem Idles.step {s₁ : EchoServer} {as : List Action} (h : Idles n conn s₁ as s) (hn : 0 < n) {a : Action}
    (hstep : (echoSystem n).Step s a s') (hquiet : a ≠ .message conn) : Idles n conn s₁ (as ++ [a]) s' := by
  obtain ⟨hinv, hdoes⟩ := h.inv.step hn hstep
  obtain ⟨later, hlater, hlen, hat⟩ := h.shutdowns
  have hcontext := hdoes.kept h.context
  have hidle := congrFun hdoes.idle conn
  have hother : a ≠ .timer → timers (as ++ [a]) = timers as := by
    intro hne
    cases a <;> first | exact absurd rfl hne | simp [timers, Action.isTimer, List.countP_append]
  by_cases htimer : a = .timer
  · subst htimer
    obtain ⟨S, hS, hmem⟩ := hdoes.timer rfl
    have htimers : timers (as ++ [.timer]) = timers as + 1 := by
      simp [timers, Action.isTimer, List.countP_append]
    have htick : s'.idle conn = Idle.tick n s.idle conn := hidle
    refine ⟨hinv, hcontext, ?_, later ++ [S], by rw [hS, hlater, List.append_assoc], by simp [hlen, htimers], ?_⟩
    · rw [htick, htimers]
      by_cases hlt : timers as < n
      · rw [Idle.tick_some (h.idle.trans (if_pos hlt))]
      · rw [Idle.tick_none (h.idle.trans (if_neg hlt)), if_neg (by omega)]
    · intro hobj j S' hj
      have hobj := hdoes.objects conn h.context hobj
      rcases Nat.lt_or_ge j later.length with hlt | hge
      · rw [List.getElem?_append_left hlt] at hj
        exact hat hobj j S' hj
      · -- the call that is made now
        have hj0 : j = later.length := by
          have := (List.getElem?_eq_some_iff.mp hj).1
          simp only [List.length_append, List.length_singleton] at this
          omega
        subst hj0
        rw [List.getElem?_concat_length, Option.some.injEq] at hj
        subst hj
        rw [hmem, hlen]
        by_cases hlt : timers as < n
        · rw [Idle.expires_iff (h.idle.trans (if_pos hlt))]
          constructor
          · rintro ⟨hle, -⟩
            omega
          · intro heq
            exact ⟨by omega, hobj⟩
        · constructor
          · rintro ⟨hexp, -⟩
            exact absurd hexp (Idle.not_expires (h.idle.trans (if_neg hlt)))
          · intro heq
            omega
  · have hsame : s'.idle conn = s.idle conn := by
      rw [hidle]
      cases a with
      | up k =>
          have hne : conn ≠ k := by
            rintro rfl
            exact hstep.1 h.context
          exact Function.update_of_ne hne _ _
      | message k =>
          have hne : conn ≠ k := by
            rintro rfl
            exact hquiet rfl
          show (if s.holds k = true then Idle.touch s.idle k else s.idle) conn = s.idle conn
          split
          · exact Function.update_of_ne hne _ _
          · rfl
      | timer => exact absurd rfl htimer
      | down _ => rfl
      | release _ => rfl
    refine ⟨hinv, hcontext, by rw [hsame, h.idle, hother htimer], later, ?_, by rw [hlen, hother htimer], ?_⟩
    · rw [hdoes.quiet htimer, hlater]
    · exact fun hobj => hat (hdoes.objects conn h.context hobj)

/-- **Idle connections are shut down on time.** Take any run, any step in it with which a connection comes up, or
    that is a message of a connection whose entry exists, and any run that goes on without a message of this
    connection. Then the entry exists until `onTimer` was called `n` times, and if the connection still exists, the
    `n`-th call shut it down and no other call did. -/
theorem shut_down_on_time (hn : 0 < n) {s₁ : EchoServer} {a : Action} {as : List Action}
    (h : (echoSystem n).Reachable s) (ha : a = .up conn ∨ a = .message conn ∧ s.holds conn = true)
    (hstep : (echoSystem n).Step s a s₁) (hpath : (echoSystem n).Path s₁ as s') (hquiet : .message conn ∉ as) :
    (s'.holds conn = true ↔ timers as < n) ∧ ∃ later, s'.shutdowns = s.shutdowns ++ later ∧
      later.length = timers as ∧
      (conn ∈ s'.objects → ∀ j S, later[j]? = some S → (conn ∈ S ↔ j + 1 = n)) := by
  obtain ⟨hinv, hdoes⟩ := (echoSystem_inv hn h).step hn hstep
  have hidle : s₁.idle conn = some 0 := by
    rw [hdoes.idle]
    rcases ha with rfl | ⟨rfl, hholds⟩
    · exact Function.update_self _ _ _
    · rw [ages, if_pos hholds]
      exact Function.update_self _ _ _
  have hquiet₁ : s₁.shutdowns = s.shutdowns := by
    apply hdoes.quiet
    rcases ha with rfl | ⟨rfl, -⟩ <;> nofun
  have hrun : Idles n conn s₁ as s' := by
    induction hpath with
    | nil =>
        refine ⟨hinv, hinv.watched conn (by simp [hidle]), by simp [timers, hidle, hn], [], by simp, rfl, ?_⟩
        exact fun _ j S hj => by simp at hj
    | snoc _ hs ih =>
        refine (ih fun hmem => hquiet (List.mem_append_left _ hmem)).step hn hs ?_
        rintro rfl
        exact hquiet (List.mem_append_right _ (List.mem_singleton.mpr rfl))
  refine ⟨?_, hquiet₁ ▸ hrun.shutdowns⟩
  rw [holds_iff, hrun.idle]
  by_cases hlt : timers as < n <;> simp [hlt]

/-- Connection 7 sends nothing, and the second call of `onTimer` shuts it down. -/
theorem shut_down_on_time_second : ∃ s s' : EchoServer, (s'.holds 7 = true ↔ timers [.timer, .timer] < 2) ∧
    ∃ later, s'.shutdowns = s.shutdowns ++ later ∧ later.length = timers [.timer, .timer] ∧
      (7 ∈ s'.objects → ∀ j S, later[j]? = some S → (7 ∈ S ↔ j + 1 = 2)) := by
  obtain ⟨s₁, hs₁, -, -⟩ := (new_inv (n := 2)).onConnectionUp (by decide) (show 7 ∉ (new 2).contexts by decide)
  have hstart : (echoSystem 2).Path s₁ [] s₁ := .nil
  have hpath := hstart
    |>.next .timer trivial rfl
    |>.next .timer trivial rfl
  exact ⟨_, _, shut_down_on_time (by decide) (System.Reachable.init rfl) (Or.inl rfl)
    ⟨show 7 ∉ (new 2).contexts by decide, hs₁⟩ hpath (by simp)⟩

end Examples.EchoServer

end Muduo
