import Muduo.Net.Correctness.TcpOutput

/-!
# `Correctness.TcpFlow` — the notifications of flow control

A producer is throttled by two callbacks: `highWaterMarkCallback_` tells it to stop, `writeCompleteCallback_` to go
on. Both are edges of one quantity, the backlog in the output buffer, and each of `sendInLoop` and `handleWrite`
queues at most one of them. What one step does to backlog and queue is `Notified`, of which there are three
kinds; everything about runs follows from these.
-/

namespace Muduo.Net.TcpConnection

open Lib Buffer

variable {c c' c₁ : TcpConnection} {q rest : List UInt8} {m : Nat} {r : WriteResult}

/-- The bytes in the output buffer. -/
def backlog (c : TcpConnection) : Nat := c.outputBuffer.readableBytes

/-- Both callbacks are set, and the mark is `m`. -/
structure Throttled (m : Nat) (c : TcpConnection) : Prop where
  writeComplete : c.writeCompleteCallback = true
  highWater : c.highWaterMarkCallback = true
  mark : c.highWaterMark = m

/-- What one step from `c` to `c'` does to the backlog and to the functors queued. -/
inductive Notified (m : Nat) (c c' : TcpConnection) : Prop where
  /-- Nothing is queued: the backlog crosses the mark in no step of this kind, and is not emptied by it. -/
  | quiet : c'.queued = c.queued → (m ≤ c'.backlog → m ≤ c.backlog) → (c'.backlog = 0 → c.backlog = 0) →
      Notified m c c'
  | complete : c'.queued = c.queued ++ [.writeComplete] → c'.backlog = 0 → Notified m c c'
  | high : c'.queued = c.queued ++ [.highWaterMark c'.backlog] → c.backlog < m → m ≤ c'.backlog → Notified m c c'

theorem Notified.refl (m : Nat) (c : TcpConnection) : Notified m c c := .quiet rfl id id

theorem Outputs.backlog_eq (h : Outputs c) : c.backlog = c.outputBuffer.readable.length := h.rep.readableBytes_eq

/-! ## One step -/

theorem noteWriteComplete_of_set (h : c.writeCompleteCallback = true) :
    c.noteWriteComplete = c.queueInLoop .writeComplete := if_pos h

/-- The high-water mark is noted exactly when the backlog reaches it from below. -/
theorem noteHighWaterMark_of_set (h : Throttled m c) {n : Nat} (hfit : c.backlog + n < 2 ^ 64) :
    c.noteHighWaterMark n = if m ≤ c.backlog + n ∧ c.backlog < m then
      c.queueInLoop (.highWaterMark (c.backlog + n)) else c := by
  have hadd : SizeT.add c.outputBuffer.readableBytes n = c.backlog + n := SizeT.add_eq hfit
  unfold noteHighWaterMark
  dsimp only
  rw [hadd, h.highWater, h.mark]
  simp only [ge_iff_le, and_true]
  rfl

/-- What is buffered adds to the backlog, and is noted if it reaches the mark. -/
theorem bufferRest_notified (h : Throttled m c) (hrep : c.outputBuffer.Rep q false) (hlen : rest.length ≤ maxSize)
    (hpos : 0 < rest.length) : Safe (c.bufferRest rest rest.length) (fun c' => Throttled m c' ∧ Notified m c c') := by
  have hold : c.backlog = q.length := hrep.readableBytes_eq
  have hq : q.length ≤ maxSize := by
    have := hrep.length_eq
    have := hrep.writer_le
    have := hrep.size_le
    omega
  have hfit : c.backlog + rest.length < 2 ^ 64 := by
    rw [hold]
    unfold maxSize at hq hlen
    omega
  obtain ⟨-, hb, -⟩ := noteHighWaterMark_spec c rest.length
  unfold bufferRest
  dsimp only
  rw [hb]
  refine Safe.bind (append_rep hrep (hrep.fits hlen)) ?_
  intro b hb'
  have hnew : b.readableBytes = c.backlog + rest.length := by
    rw [hb'.readableBytes_eq, List.length_append, hold]
  rw [noteHighWaterMark_of_set h hfit]
  refine Safe.ok ?_
  by_cases hcross : m ≤ c.backlog + rest.length ∧ c.backlog < m
  · rw [if_pos hcross]
    split
    · refine ⟨⟨h.writeComplete, h.highWater, h.mark⟩, .high ?_ hcross.2 (hcross.1.trans hnew.ge)⟩
      show _ = c.queued ++ [.highWaterMark b.readableBytes]
      rw [hnew]
      rfl
    · refine ⟨⟨h.writeComplete, h.highWater, h.mark⟩, .high ?_ hcross.2 (hcross.1.trans hnew.ge)⟩
      show _ = c.queued ++ [.highWaterMark b.readableBytes]
      rw [hnew]
      rfl
  · rw [if_neg hcross]
    have hlow : m ≤ b.readableBytes → m ≤ c.backlog := by
      intro hm
      rw [hnew] at hm
      exact not_lt.mp fun hlt => hcross ⟨hm, hlt⟩
    have hne : b.readableBytes = 0 → c.backlog = 0 := by omega
    split
    · exact ⟨⟨h.writeComplete, h.highWater, h.mark⟩, .quiet rfl hlow hne⟩
    · exact ⟨⟨h.writeComplete, h.highWater, h.mark⟩, .quiet rfl hlow hne⟩

/-- **`sendInLoop`**, whatever the kernel answers. -/
theorem sendInLoop_notified (h : Throttled m c) (hO : Outputs c) (hs : c.state ≠ .kDisconnected) (data : Bytes)
    (r : WriteResult) :
    Safe (c.sendInLoop data.data data.data.length r) (fun c' => Throttled m c' ∧ Notified m c c') := by
  have hfits := data.fits
  unfold maxObject at hfits
  by_cases hidle : c.idle = true
  · have hnil := hO.readable_nil (by simpa [hO.idle_eq] using hidle)
    have hrep : c.outputBuffer.Rep [] false := hnil ▸ hO.rep
    have hzero : c.backlog = 0 := hrep.readableBytes_eq
    cases r with
    | wrote k =>
        let n := min k data.data.length
        rw [sendInLoop_eq_of_idle hs hidle (show c.writeDirectly data.data data.data.length (.wrote k) =
          (n, false, if data.data.length - n = 0 then (c.accept (data.data.take n)).noteWriteComplete
            else c.accept (data.data.take n)) from rfl)]
        by_cases hall : data.data.length - n = 0
        · -- everything was taken
          rw [if_pos hall, if_neg (by omega),
            noteWriteComplete_of_set (c := c.accept (data.data.take n)) h.writeComplete]
          exact Safe.ok ⟨⟨h.writeComplete, h.highWater, h.mark⟩, .complete rfl hzero⟩
        · rw [if_neg hall, if_pos ⟨rfl, Nat.pos_of_ne_zero hall⟩, ← List.length_drop]
          have haccept : Throttled m (c.accept (data.data.take n)) := ⟨h.writeComplete, h.highWater, h.mark⟩
          refine (bufferRest_notified haccept hrep ?_ ?_).mono ?_
          · rw [List.length_drop]
            unfold maxSize
            omega
          · rw [List.length_drop]
            exact Nat.pos_of_ne_zero hall
          · rintro c' ⟨ht, hn⟩
            refine ⟨ht, ?_⟩
            cases hn with
            | quiet hq hlow hne => exact .quiet hq hlow hne
            | complete hq hz => exact .complete hq hz
            | high hq hlow hhigh => exact .high hq hlow hhigh
    | failed e =>
        rw [sendInLoop_eq_of_idle hs hidle (show c.writeDirectly data.data data.data.length (.failed e) =
          (0, e == .EPIPE, c) from rfl), List.drop_zero, Nat.sub_zero]
        split
        · next hrest => exact bufferRest_notified h hrep (by unfold maxSize; omega) hrest.2
        · exact Safe.ok ⟨h, .refl m c⟩
  · rw [sendInLoop_eq_of_busy hs hidle]
    split
    · next hrest => exact bufferRest_notified h hO.rep (by unfold maxSize; omega) hrest
    · exact Safe.ok ⟨h, .refl m c⟩

/-- What was written leaves the backlog; the last of it is noted. -/
theorem afterWrite_notified (h : Throttled m c) (hO : Outputs c) {n : Nat} (hn : n ≤ c.outputBuffer.readable.length)
    {d : List UInt8} (hs : (c.accept d).afterWrite n = .ok c') : Throttled m c' ∧ Notified m c c' := by
  obtain ⟨b, hb, hrep⟩ := retrieve_rep hO.rep hn
  have hnew : b.readableBytes = c.backlog - n := by
    rw [hrep.readableBytes_eq, List.length_drop, hO.backlog_eq]
  have haccept : (c.accept d).outputBuffer = c.outputBuffer := rfl
  unfold afterWrite at hs
  rw [haccept, hb, ok_bind] at hs
  dsimp only at hs
  split at hs
  · next hzero =>
      -- the backlog is empty, and nothing that follows changes that
      obtain rfl := Except.ok.inj hs
      rw [noteWriteComplete_of_set
        (c := { c.accept d with channel := (c.accept d).channel.disableWriting, outputBuffer := b }) h.writeComplete]
      split
      · unfold shutdownInLoop
        split
        · exact ⟨⟨h.writeComplete, h.highWater, h.mark⟩, .complete rfl hzero⟩
        · exact ⟨⟨h.writeComplete, h.highWater, h.mark⟩, .complete rfl hzero⟩
      · exact ⟨⟨h.writeComplete, h.highWater, h.mark⟩, .complete rfl hzero⟩
  · next hzero =>
      obtain rfl := Except.ok.inj hs
      refine ⟨⟨h.writeComplete, h.highWater, h.mark⟩, .quiet rfl ?_ ?_⟩
      · show m ≤ b.readableBytes → _
        omega
      · intro hz
        exact absurd hz hzero

/-- **`handleWrite`**, whatever the kernel answers. -/
theorem handleWrite_notified (h : Throttled m c) (hO : Outputs c) (hs : c.handleWrite r = .ok c') :
    Throttled m c' ∧ Notified m c c' := by
  unfold handleWrite at hs
  split at hs
  · cases r with
    | wrote k =>
        simp only [WriteResult.clip] at hs
        split at hs
        · refine afterWrite_notified h hO ?_ hs
          rw [← hO.rep.readableBytes_eq]
          exact Nat.min_le_right _ _
        · obtain rfl := Except.ok.inj hs
          exact ⟨h, .refl m c⟩
    | failed e =>
        obtain rfl := Except.ok.inj hs
        exact ⟨h, .refl m c⟩
  · obtain rfl := Except.ok.inj hs
    exact ⟨h, .refl m c⟩

theorem shutdown_notified (h : Throttled m c) : Throttled m c.shutdown ∧ Notified m c c.shutdown := by
  unfold shutdown shutdownInLoop
  split
  · split
    · exact ⟨⟨h.writeComplete, h.highWater, h.mark⟩, .quiet rfl id id⟩
    · exact ⟨⟨h.writeComplete, h.highWater, h.mark⟩, .quiet rfl id id⟩
  · exact ⟨h, .refl m c⟩

/-! ## Runs -/

/-- The runs of `outputSystem` on a connection that is not closed, with both callbacks set and the mark `m`. -/
def flowSystem (m : Nat) : System OutputRun OutputOp where
  init s := outputSystem.init s ∧ s.conn.state ≠ .kDisconnected ∧ Throttled m s.conn
  enabled _ _ := True
  exec := OutputRun.exec

instance flowSystem.decidableEnabled (m : Nat) (s : OutputRun) : DecidablePred ((flowSystem m).enabled s) :=
  fun _ => instDecidableTrue

variable {s s' t t' : OutputRun} {a : OutputOp} {as : List OutputOp}

/-- The invariant of a run. -/
structure Flows (m : Nat) (s : OutputRun) : Prop where
  inv : s.Inv
  state : s.conn.state ≠ .kDisconnected
  throttled : Throttled m s.conn

/-- **One step of a run.** -/
theorem Flows.step (h : Flows m s) (hs : s.exec a = .ok s') : Flows m s' ∧ Notified m s.conn s'.conn := by
  have hinv : s'.Inv := (OutputRun.exec_inv h.inv a).of_eq_ok hs
  obtain ⟨hO, -⟩ := h.inv
  cases a with
  | sendInLoop data r =>
      obtain ⟨conn, hsend, hs⟩ := bind_eq_ok.mp hs
      obtain rfl := Except.ok.inj hs
      have hframe := ((sendInLoop_spec hO h.state data r).of_eq_ok hsend).frame
      obtain ⟨hthrottled, hnotified⟩ := (sendInLoop_notified h.throttled hO h.state data r).of_eq_ok hsend
      exact ⟨⟨hinv, by rw [hframe.state]; exact h.state, hthrottled⟩, hnotified⟩
  | handleWrite r =>
      obtain ⟨conn, hwrite, hs⟩ := bind_eq_ok.mp hs
      obtain rfl := Except.ok.inj hs
      obtain ⟨conn', hwrite', hw⟩ := handleWrite_spec hO r
      obtain rfl := Except.ok.inj (hwrite.symm.trans hwrite')
      obtain ⟨hthrottled, hnotified⟩ := handleWrite_notified h.throttled hO hwrite
      exact ⟨⟨hinv, by rw [hw.frame.state]; exact h.state, hthrottled⟩, hnotified⟩
  | shutdown =>
      obtain rfl := Except.ok.inj hs
      obtain ⟨-, -, -, hstate⟩ := shutdown_output s.conn
      obtain ⟨hthrottled, hnotified⟩ := shutdown_notified h.throttled
      exact ⟨⟨hinv, fun heq => h.state (hstate.mp heq), hthrottled⟩, hnotified⟩

theorem flows_of_reachable (h : (flowSystem m).Reachable s) : Flows m s := by
  refine System.keeps (S := flowSystem m) ?_ ?_ h
  · rintro s ⟨hinit, hstate, hthrottled⟩
    exact ⟨OutputRun.init_inv hinit, hstate, hthrottled⟩
  · intro s a s' hs _ hexec
    exact (hs.step hexec).1

theorem Flows.path (h : Flows m s) (hpath : (flowSystem m).Path s as t) : Flows m t := by
  induction hpath with
  | nil => exact h
  | snoc _ hstep ih => exact (ih.step hstep.2).1

/-- What has been queued since `s`. -/
def OutputRun.since (s s' : OutputRun) : List ConnFunctor := s'.conn.queued.drop s.conn.queued.length

theorem since_of_eq {fs : List ConnFunctor} (h : s'.conn.queued = s.conn.queued ++ fs) : s.since s' = fs := by
  unfold OutputRun.since
  rw [h, List.drop_left]

theorem since_of_queued_eq (h : s'.conn.queued = s.conn.queued) : s.since s' = [] :=
  since_of_eq (by rw [h, List.append_nil])

/-- The three kinds of a step, by what has been queued since. -/
theorem Notified.since (h : Notified m s.conn s'.conn) :
    s.since s' = [] ∧ (m ≤ s'.conn.backlog → m ≤ s.conn.backlog) ∧ (s'.conn.backlog = 0 → s.conn.backlog = 0) ∨
    s.since s' = [.writeComplete] ∧ s'.conn.backlog = 0 ∨
    s.since s' = [.highWaterMark s'.conn.backlog] ∧ s.conn.backlog < m ∧ m ≤ s'.conn.backlog := by
  cases h with
  | quiet hq hlow hne => exact Or.inl ⟨since_of_eq (by rw [hq, List.append_nil]), hlow, hne⟩
  | complete hq hz => exact Or.inr (Or.inl ⟨since_of_eq hq, hz⟩)
  | high hq hlow hhigh => exact Or.inr (Or.inr ⟨since_of_eq hq, hlow, hhigh⟩)

/-- Nothing that was queued is lost. -/
theorem Notified.queued (h : Notified m s.conn s'.conn) : s'.conn.queued = s.conn.queued ++ s.since s' := by
  cases h with
  | quiet hq _ _ => rw [since_of_queued_eq hq, hq, List.append_nil]
  | complete hq _ => rw [since_of_eq hq, hq]
  | high hq _ _ => rw [since_of_eq hq, hq]

/-- The mark is noted exactly by a step that reaches it from below. -/
theorem Notified.high_iff (h : Notified m s.conn s'.conn) (hm : 1 ≤ m) (n : Nat) :
    ConnFunctor.highWaterMark n ∈ s.since s' ↔
      s.conn.backlog < m ∧ m ≤ s'.conn.backlog ∧ n = s'.conn.backlog := by
  rcases h.since with ⟨hs, hlow, -⟩ | ⟨hs, hz⟩ | ⟨hs, hlow, hhigh⟩
  · rw [hs]
    constructor
    · intro hmem
      exact absurd hmem List.not_mem_nil
    · rintro ⟨hlt, hle, -⟩
      exact absurd (hlow hle) (not_le.mpr hlt)
  · rw [hs]
    constructor
    · intro hmem
      exact absurd (List.mem_singleton.mp hmem) (by simp)
    · rintro ⟨-, hle, -⟩
      omega
  · rw [hs, List.mem_singleton, ConnFunctor.highWaterMark.injEq]
    exact ⟨fun heq => ⟨hlow, hhigh, heq⟩, fun hall => hall.2.2⟩

/-- A step that empties the backlog notes that, and nothing else. -/
theorem Notified.since_of_emptied (h : Notified m s.conn s'.conn) (hm : 1 ≤ m) (hs : s.conn.backlog ≠ 0)
    (hs' : s'.conn.backlog = 0) : s.since s' = [.writeComplete] := by
  rcases h.since with ⟨-, -, hne⟩ | ⟨hsince, -⟩ | ⟨-, -, hhigh⟩
  · exact absurd (hne hs') hs
  · exact hsince
  · omega

/-- Completion is noted with nothing left to write. -/
theorem Notified.empty_of_complete (h : Notified m s.conn s'.conn)
    (hmem : ConnFunctor.writeComplete ∈ s.since s') : s'.conn.backlog = 0 := by
  rcases h.since with ⟨hs, -⟩ | ⟨-, hz⟩ | ⟨hs, -⟩
  · rw [hs] at hmem
    exact absurd hmem List.not_mem_nil
  · exact hz
  · rw [hs] at hmem
    exact absurd (List.mem_singleton.mp hmem) (by simp)

/-- With nothing left to write, the kernel has all messages, and write interest is off. -/
theorem Flows.written (h : Flows m s) (hz : s.conn.backlog = 0) :
    s.conn.accepted = s.messages.flatten ∧ s.conn.channel.isWriting = false := by
  obtain ⟨hO, hstream⟩ := h.inv
  have hnil : s.conn.outputBuffer.readable = [] := by
    rw [hO.backlog_eq] at hz
    exact List.length_eq_zero_iff.mp hz
  constructor
  · rw [← hstream h.state]
    unfold stream
    rw [hnil, List.append_nil]
  · rw [← Bool.not_eq_true, hO.interest]
    exact not_not.mpr hnil

theorem Flows.path_queued (h : Flows m s) (hpath : (flowSystem m).Path s as t) :
    t.conn.queued = s.conn.queued ++ s.since t := by
  induction hpath with
  | nil => rw [since_of_queued_eq rfl, List.append_nil]
  | @snoc as t a t' hpath hstep ih =>
      have hq := ((h.path hpath).step hstep.2).2.queued
      rw [ih, List.append_assoc] at hq
      rw [since_of_eq hq, hq]

/-- **A backlog that has gone was noted**: a run that ends without backlog but starts with one has queued
    `writeCompleteCallback_`. -/
theorem Flows.complete_of_empty (h : Flows m s) (hm : 1 ≤ m) (hpath : (flowSystem m).Path s as t)
    (hs : s.conn.backlog ≠ 0) (ht : t.conn.backlog = 0) : ConnFunctor.writeComplete ∈ s.since t := by
  induction hpath with
  | nil => exact absurd ht hs
  | @snoc as t a t' hpath hstep ih =>
      obtain ⟨-, hn⟩ := (h.path hpath).step hstep.2
      have hq := hn.queued
      rw [h.path_queued hpath, List.append_assoc] at hq
      rw [since_of_eq hq]
      by_cases hzero : t.conn.backlog = 0
      · exact List.mem_append_left _ (ih hzero)
      · -- the last step empties it
        rw [hn.since_of_emptied hm hzero ht]
        exact List.mem_append_right _ (List.mem_singleton_self _)

/-- **Flow-control notifications are consistent with the backlog.** In every run of `sendInLoop` and
    `handleWrite`, for every step from `s` to `s'`:

    - if `writeCompleteCallback_` is queued, the kernel has taken all messages that were not discarded, and write
      interest is off;
    - if the backlog goes from non-empty to empty, exactly one `writeCompleteCallback_` is queued;
    - `highWaterMarkCallback_` is queued exactly if the backlog goes from below the mark to at least the mark,
      once, with the new backlog as argument.

    After a step that queues `highWaterMarkCallback_`, the backlog is below the mark before the next such step,
    and `writeCompleteCallback_` has been queued by the time the backlog is empty. -/
theorem flow_control_consistent (hm : 1 ≤ m) (h : (flowSystem m).Reachable s) (hstep : s.exec a = .ok s') :
    (ConnFunctor.writeComplete ∈ s.since s' →
      s'.conn.accepted = s'.messages.flatten ∧ s'.conn.channel.isWriting = false) ∧
    (s.conn.backlog ≠ 0 → s'.conn.backlog = 0 → s.since s' = [.writeComplete]) ∧
    (∀ n, ConnFunctor.highWaterMark n ∈ s.since s' ↔
      s.conn.backlog < m ∧ m ≤ s'.conn.backlog ∧ n = s'.conn.backlog) ∧
    (s.conn.backlog < m → m ≤ s'.conn.backlog → s.since s' = [.highWaterMark s'.conn.backlog]) ∧
    (∀ n, ConnFunctor.highWaterMark n ∈ s.since s' → ∀ as t, (flowSystem m).Path s' as t →
      (∀ b t' n', t.exec b = .ok t' → ConnFunctor.highWaterMark n' ∈ t.since t' → t.conn.backlog < m) ∧
      (t.conn.backlog = 0 → ConnFunctor.writeComplete ∈ s'.since t)) := by
  have hflows := flows_of_reachable h
  obtain ⟨hflows', hn⟩ := hflows.step hstep
  refine ⟨?_, hn.since_of_emptied hm, hn.high_iff hm, ?_, ?_⟩
  · intro hmem
    exact hflows'.written (hn.empty_of_complete hmem)
  · intro hlow hhigh
    rcases hn.since with ⟨-, hkeeps, -⟩ | ⟨-, hz⟩ | ⟨hsince, -⟩
    · exact absurd (hkeeps hhigh) (not_le.mpr hlow)
    · omega
    · exact hsince
  · intro n hmem as t hpath
    obtain ⟨-, hhigh, -⟩ := (hn.high_iff hm n).mp hmem
    constructor
    · intro b t' n' hstep' hmem'
      exact ((((hflows'.path hpath).step hstep').2.high_iff hm n').mp hmem').1
    · intro hz
      exact hflows'.complete_of_empty hm hpath (by omega) hz

/-- A message reaches the mark, and two writes later its completion is noted. -/
theorem flow_control_consistent_marked : ∃ s s' t : OutputRun, (flowSystem 2).Reachable s ∧
    s.messages = [[9]] ∧ s.since s' = [.highWaterMark 3] ∧
    (flowSystem 2).Path s' [.handleWrite (.wrote 1), .handleWrite (.wrote 2)] t ∧
    t.conn.accepted = [9, 1, 2, 3, 4] ∧ ConnFunctor.writeComplete ∈ s'.since t := by
  let c : TcpConnection := { TcpConnection.new true true with highWaterMark := 2 }
  let before : List OutputOp := [.sendInLoop ⟨[9], by decide⟩ (.wrote 1)]
  let message : OutputOp := .sendInLoop ⟨[1, 2, 3, 4], by decide⟩ (.wrote 1)
  let writes : List OutputOp := [.handleWrite (.wrote 1), .handleWrite (.wrote 2)]
  -- the run is computed, with the step from `s` to `s'` in it
  obtain ⟨s, hreached, hmessages, hlow, s', hstep, hthree, hrun⟩ := System.ReachedBy.exists_of_perform
    (flowSystem 2) before (s := ⟨c, []⟩)
    (P := fun s => s.messages = [[9]] ∧ s.conn.backlog < 2 ∧ Returns (s.exec message) fun s' =>
      s'.conn.backlog = 3 ∧ (((flowSystem 2).perform s' writes).any fun t =>
        t.conn.backlog = 0 ∧ t.conn.accepted = [9, 1, 2, 3, 4]) = true)
    ⟨⟨rfl, by decide, rfl, rfl⟩, by decide, rfl, rfl, rfl⟩ (by decide +kernel)
  obtain ⟨t, hpath, hzero, haccepted⟩ := System.Path.exists_of_perform (flowSystem 2) writes hrun
  obtain ⟨-, -, -, hmark, hmarked⟩ := flow_control_consistent (by decide) hreached.reachable hstep
  have hsince := hmark hlow (by omega)
  rw [hthree] at hsince
  obtain ⟨-, hcomplete⟩ := hmarked 3 (by rw [hsince]; exact List.mem_singleton_self _) _ t hpath
  exact ⟨s, s', t, hreached.reachable, hmessages, hsince, hpath, haccepted, hcomplete hzero⟩

end Muduo.Net.TcpConnection
