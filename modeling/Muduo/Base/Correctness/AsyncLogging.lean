import Muduo.Base.AsyncLogging

/-!
# `Base.Correctness.AsyncLogging` — every line once and in order, and what `stop` loses

The lines up to the last swap are in the batches that the back end has taken, the later ones in the shared buffers
(`Books`). That the back end always gets its two spare buffers back rests on the front end: it takes `nextBuffer_`
only when it puts a full buffer into `buffers_`, so a swap that has to give up the second spare takes at least two
buffers (`Front`, `Back`).

`stop` is different. `running_` is read only at the head of the loop, so when it is cleared after the last swap of
the back end, the lines that came after that swap stay in the shared buffers (`last_lines_lost`).
-/

namespace Muduo

open Lib

namespace FixedBuffer

variable {SIZE : Nat} {b : FixedBuffer SIZE} {buf : List UInt8}

theorem append_data (h : buf.length < b.avail) : (b.append buf).data = b.data ++ buf := by
  unfold append
  rw [dif_pos h]

end FixedBuffer

namespace AsyncLogging

variable {s s' : AsyncLogging} {logline : List UInt8}

@[simp] theorem contents_nil : contents [] = [] := rfl

@[simp] theorem contents_append (bs bs' : List Buffer) : contents (bs ++ bs') = contents bs ++ contents bs' :=
  List.flatMap_append

@[simp] theorem contents_cons (b : Buffer) (bs : List Buffer) : contents (b :: bs) = b.data ++ contents bs :=
  List.flatMap_cons

@[simp] theorem written_append (output output' : List LogCall) :
    written (output ++ output') = written output ++ written output' :=
  List.flatMap_append

@[simp] theorem written_data (data : List UInt8) : written [.append data] = data := List.append_nil data

theorem isSpare_iff {newBuffer : Option Buffer} :
    isSpare newBuffer = true ↔ ∃ b, newBuffer = some b ∧ b.data = [] := by
  cases newBuffer with
  | none => simp [isSpare]
  | some b => simp [isSpare, FixedBuffer.length]

@[simp] theorem isSpare_new : isSpare (some .new) = true := rfl

/-! ## The buffers -/

/-- The front end has a buffer, and if it has no second one, then there is a full one. -/
structure Front (s : AsyncLogging) : Prop where
  current : ∃ b, s.currentBuffer = some b
  next : s.nextBuffer = none ∨ isSpare s.nextBuffer = true
  full : s.nextBuffer = none → s.buffers ≠ []

/-- The back end has its spare buffers, or it can take them from the batch that it writes. -/
def Back (s : AsyncLogging) : Prop :=
  match s.backend with
  | .starting | .exited => s.buffersToWrite = []
  | .loopHead | .locking | .waiting =>
      isSpare s.newBuffer1 = true ∧ isSpare s.newBuffer2 = true ∧ s.buffersToWrite = []
  | .swapped | .writing _ =>
      s.newBuffer1 = none ∧
        (isSpare s.newBuffer2 = true ∧ 1 ≤ s.buffersToWrite.length ∨
          s.newBuffer2 = none ∧ 2 ≤ s.buffersToWrite.length)

/-- The batch that the back end took and did not check yet. -/
def unchecked (s : AsyncLogging) : List UInt8 :=
  match s.backend with
  | .swapped => contents s.buffersToWrite
  | _ => []

/-- The part of a checked batch that is not written yet. -/
def unwrittenKept (s : AsyncLogging) : List UInt8 :=
  match s.backend with
  | .writing i => contents (s.buffersToWrite.drop i)
  | _ => []

/-- The lines up to the last swap are in the batches, the others in the shared buffers. -/
structure Books (s : AsyncLogging) : Prop where
  taken : (s.lines.take s.swappedLines).flatten = s.batches.flatMap contents ++ s.unchecked
  shared : (s.lines.drop s.swappedLines).flatten = s.pending
  output : written s.output ++ s.unwrittenKept = s.batches.flatMap fun batch => contents (kept batch)
  swapped_le : s.swappedLines ≤ s.lines.length

structure Inv (s : AsyncLogging) : Prop where
  front : s.Front
  back : s.Back
  books : s.Books

/-! ## `append` -/

/-- What `append` changes: it adds the line at the end of the shared buffers. -/
theorem Front.append (h : s.Front) (hlen : logline.length < kLargeBuffer) : ∃ s', s.append logline = .ok s' ∧
    s'.Front ∧ s'.pending = s.pending ++ logline ∧ s'.lines = s.lines ++ [logline] ∧
    s' = { s with
      currentBuffer := s'.currentBuffer
      nextBuffer := s'.nextBuffer
      buffers := s'.buffers
      lines := s'.lines } := by
  obtain ⟨current, hcurrent⟩ := h.current
  unfold AsyncLogging.append
  simp only [hcurrent]
  by_cases hfits : logline.length < current.avail
  · rw [if_pos hfits]
    refine ⟨_, rfl, ⟨⟨_, rfl⟩, h.next, h.full⟩, ?_, rfl, rfl⟩
    simp [pending, hcurrent, FixedBuffer.append_data hfits]
  · rw [if_neg hfits]
    -- the buffer that comes next is empty, so the line fits
    have hempty : (s.nextBuffer.getD .new).data = [] := by
      rcases h.next with hnone | hspare
      · rw [hnone]
        rfl
      · obtain ⟨b, hb, hdata⟩ := isSpare_iff.mp hspare
        rw [hb]
        exact hdata
    have hfits' : logline.length < (s.nextBuffer.getD .new).avail := by
      simpa [FixedBuffer.avail, FixedBuffer.length, hempty] using hlen
    refine ⟨_, rfl, ⟨⟨_, rfl⟩, Or.inl rfl, fun _ => by simp⟩, ?_, rfl, rfl⟩
    simp [pending, hcurrent, FixedBuffer.append_data hfits', hempty]

theorem Inv.append (h : s.Inv) (hlen : logline.length < kLargeBuffer) : Safe (s.append logline) Inv := by
  obtain ⟨s', hs', hfront, hpending, hlines, hframe⟩ := h.front.append hlen
  rw [hs']
  have hle := h.books.swapped_le
  have hswapped : s'.swappedLines = s.swappedLines := by rw [hframe]
  refine Safe.ok ⟨hfront, ?_, ?_, ?_, ?_, ?_⟩
  -- nothing of the back end changes
  · rw [hframe]
    exact h.back
  -- the lines up to the last swap are the same, and the new one is a later one
  · rw [hlines, hswapped, List.take_append_of_le_length hle, h.books.taken, hframe]
    rfl
  · rw [hlines, hswapped, List.drop_append_of_le_length hle, List.flatten_append, h.books.shared, hpending]
    simp
  · rw [hframe]
    exact h.books.output
  · rw [hlines, hswapped, List.length_append]
    omega

/-! ## `threadFunc` -/

/-- A step that does not touch lines, buffers or the output, and leaves nothing unchecked or unwritten. -/
theorem Books.frame (h : s.Books) (hlines : s'.lines = s.lines) (hswapped : s'.swappedLines = s.swappedLines)
    (hbatches : s'.batches = s.batches) (hunchecked : s'.unchecked = s.unchecked) (hpending : s'.pending = s.pending)
    (houtput : written s'.output ++ s'.unwrittenKept = written s.output ++ s.unwrittenKept) : s'.Books where
  taken := by
    rw [hlines, hswapped, hbatches, hunchecked]
    exact h.taken
  shared := by
    rw [hlines, hswapped, hpending]
    exact h.shared
  output := by
    rw [houtput, hbatches]
    exact h.output
  swapped_le := by
    rw [hlines, hswapped]
    exact h.swapped_le

/-- The critical section: the back end takes everything, and gives its spares for it. -/
theorem Inv.swap (h : s.Inv) (hpoint : s.backend = .locking ∨ s.backend = .waiting) : Safe s.swap Inv := by
  obtain ⟨current, hcurrent⟩ := h.front.current
  have hback : isSpare s.newBuffer1 = true ∧ isSpare s.newBuffer2 = true ∧ s.buffersToWrite = [] := by
    have hback := h.back
    unfold Back at hback
    rcases hpoint with hpoint | hpoint
    · rwa [hpoint] at hback
    · rwa [hpoint] at hback
  have hunchecked : s.unchecked = [] := by
    unfold unchecked
    rcases hpoint with hpoint | hpoint <;> rw [hpoint]
  have hunwritten : s.unwrittenKept = [] := by
    unfold unwrittenKept
    rcases hpoint with hpoint | hpoint <;> rw [hpoint]
  obtain ⟨hspare1, hspare2, hempty⟩ := hback
  obtain ⟨b1, hb1, hdata1⟩ := isSpare_iff.mp hspare1
  unfold AsyncLogging.swap
  simp only [hcurrent]
  refine Safe.ok ⟨⟨⟨b1, hb1⟩, ?_, ?_⟩, ?_, ?_, ?_, ?_, ?_⟩
  -- `nextBuffer_` is there in any case: it was, or the second spare is put in
  · rcases h.front.next with hnone | hnext
    · exact Or.inr (by simpa [hnone] using hspare2)
    · obtain ⟨b, hb, -⟩ := isSpare_iff.mp hnext
      exact Or.inr (by simpa [hb] using hnext)
  · intro hnone
    obtain ⟨b2, hb2, -⟩ := isSpare_iff.mp hspare2
    simp [hb2] at hnone
  · -- a swap that takes the second spare takes a full buffer, too
    refine ⟨rfl, ?_⟩
    cases hnext : s.nextBuffer with
    | none =>
        have hfull := List.length_pos_iff.mpr (h.front.full hnext)
        exact Or.inr ⟨by simp, by simp only [List.length_append, List.length_singleton]; omega⟩
    | some b => exact Or.inl ⟨by simpa using hspare2, by simp⟩
  · show (s.lines.take s.lines.length).flatten = s.batches.flatMap contents ++ contents (s.buffers ++ [current])
    calc (s.lines.take s.lines.length).flatten
        = (s.lines.take s.swappedLines).flatten ++ (s.lines.drop s.swappedLines).flatten := by
          rw [List.take_length, ← List.flatten_append, List.take_append_drop]
      _ = s.batches.flatMap contents ++ contents (s.buffers ++ [current]) := by
          rw [h.books.taken, hunchecked, h.books.shared]
          simp [pending, hcurrent]
  -- nothing is shared any more: the buffers put in are empty
  · show (s.lines.drop s.lines.length).flatten = contents s.buffersToWrite ++ (s.newBuffer1.map _).getD []
    simp [hempty, hb1, hdata1]
  · have houtput := h.books.output
    rw [hunwritten] at houtput
    exact houtput
  · exact le_rfl

theorem Inv.start (h : s.Inv) (hrunning : s.running = true) (hpoint : s.backend = .starting) : Safe s.start Inv := by
  have hback : s.buffersToWrite = [] := by
    have hback := h.back
    unfold Back at hback
    rwa [hpoint] at hback
  unfold AsyncLogging.start
  rw [assert_pos hrunning, ok_bind]
  refine Safe.ok ⟨⟨h.front.current, h.front.next, h.front.full⟩, ⟨rfl, rfl, hback⟩, h.books.frame rfl rfl rfl ?_ rfl ?_⟩
  · simp [unchecked, hpoint]
  · simp [unwrittenKept, hpoint]

theorem Inv.loopHead (h : s.Inv) (hpoint : s.backend = .loopHead) : Safe s.loopHead Inv := by
  have hback : isSpare s.newBuffer1 = true ∧ isSpare s.newBuffer2 = true ∧ s.buffersToWrite = [] := by
    have hback := h.back
    unfold Back at hback
    rwa [hpoint] at hback
  have hempty : s.buffersToWrite.isEmpty = true := by simp [hback.2.2]
  unfold AsyncLogging.loopHead
  split
  · rw [assert_pos hback.1, assert_pos hback.2.1, assert_pos hempty, ok_bind, ok_bind, ok_bind]
    refine Safe.ok ⟨⟨h.front.current, h.front.next, h.front.full⟩, hback, h.books.frame rfl rfl rfl ?_ rfl ?_⟩
    · simp [unchecked, hpoint]
    · simp [unwrittenKept, hpoint]
  · refine Safe.ok ⟨⟨h.front.current, h.front.next, h.front.full⟩, hback.2.2, h.books.frame rfl rfl rfl ?_ rfl ?_⟩
    · simp [unchecked, hpoint]
    · simp [unwrittenKept, hpoint, written]

theorem Inv.lock (h : s.Inv) (hpoint : s.backend = .locking) : Safe s.lock Inv := by
  have hback := h.back
  unfold Back at hback
  rw [hpoint] at hback
  unfold AsyncLogging.lock
  split
  · refine Safe.ok ⟨⟨h.front.current, h.front.next, h.front.full⟩, hback, h.books.frame rfl rfl rfl ?_ rfl ?_⟩
    · simp [unchecked, hpoint]
    · simp [unwrittenKept, hpoint]
  · exact h.swap (Or.inl hpoint)

theorem length_kept {batch : List Buffer} {n : Nat} (hn : n ≤ 2) (h : n ≤ batch.length) : n ≤ (kept batch).length := by
  unfold kept
  split
  · rw [List.length_take]
    omega
  · exact h

theorem Inv.checkBacklog (h : s.Inv) (hpoint : s.backend = .swapped) : Safe s.checkBacklog Inv := by
  have hback := h.back
  unfold Back at hback
  rw [hpoint] at hback
  obtain ⟨hnone, hspare⟩ := hback
  have hempty : s.buffersToWrite.isEmpty = false := by
    have hpos : s.buffersToWrite ≠ [] := by
      rw [← List.length_pos_iff]
      omega
    simpa using hpos
  have hunwritten : s.unwrittenKept = [] := by simp [unwrittenKept, hpoint]
  have hunchecked : s.unchecked = contents s.buffersToWrite := by simp [unchecked, hpoint]
  unfold AsyncLogging.checkBacklog
  rw [assert_pos hempty, ok_bind]
  refine Safe.ok ⟨⟨h.front.current, h.front.next, h.front.full⟩, ⟨hnone, ?_⟩, ?_, h.books.shared, ?_,
    h.books.swapped_le⟩
  · exact hspare.imp (And.imp_right (length_kept (by omega))) (And.imp_right (length_kept le_rfl))
  · show _ = (s.batches ++ [s.buffersToWrite]).flatMap contents ++ []
    rw [List.flatMap_append, List.flatMap_singleton, List.append_nil, ← hunchecked]
    exact h.books.taken
  · have houtput := h.books.output
    rw [hunwritten, List.append_nil] at houtput
    have hnotice : written (if s.buffersToWrite.length > 25 then
        s.output ++ [.notice (s.buffersToWrite.length - 2)] else s.output) = written s.output := by
      split <;> simp [written]
    show written _ ++ contents ((kept s.buffersToWrite).drop 0) = _
    rw [hnotice, houtput, List.drop_zero, List.flatMap_append, List.flatMap_singleton]

/-- A spare is taken from the batch, if need be. -/
theorem recover_spare {newBuffer : Option Buffer} {buffersToWrite : List Buffer}
    (h : isSpare newBuffer = true ∨ newBuffer = none ∧ 1 ≤ buffersToWrite.length) :
    ∃ b rest, recover newBuffer buffersToWrite = .ok (b, rest) ∧ isSpare b = true ∧
      buffersToWrite.length ≤ rest.length + 1 := by
  rcases h with hspare | ⟨rfl, hlen⟩
  · obtain ⟨b, rfl, -⟩ := isSpare_iff.mp hspare
    exact ⟨_, _, rfl, hspare, Nat.le_succ _⟩
  -- the last buffer of the batch, which `reset` empties
  · have hne : buffersToWrite ≠ [] := List.length_pos_iff.mp hlen
    refine ⟨some .new, buffersToWrite.dropLast, ?_, isSpare_new, ?_⟩
    · unfold recover
      rw [assert_pos (by simpa using hne), ok_bind, List.getLast?_eq_some_getLast hne]
      rfl
    · rw [List.length_dropLast]
      omega

theorem Inv.endOfTurn (h : s.Inv) {i : Nat} (hpoint : s.backend = .writing i) (hi : s.buffersToWrite.length ≤ i) :
    Safe s.endOfTurn Inv := by
  have hback := h.back
  unfold Back at hback
  rw [hpoint] at hback
  obtain ⟨hnone, hspare⟩ := hback
  have hdone : s.unwrittenKept = [] := by simp [unwrittenKept, hpoint, List.drop_eq_nil_of_le hi]
  have hunchecked : s.unchecked = [] := by simp [unchecked, hpoint]
  -- the resize leaves enough for the spares that are needed
  have hresize : ∀ n ≤ 2, n ≤ s.buffersToWrite.length →
      n ≤ (if s.buffersToWrite.length > 2 then s.buffersToWrite.take 2 else s.buffersToWrite).length := by
    intro n hn hlen
    split
    · rw [List.length_take]
      omega
    · exact hlen
  unfold AsyncLogging.endOfTurn
  dsimp only
  obtain ⟨b1, rest1, hrecover1, hspare1, hlen1⟩ :=
    recover_spare (Or.inr ⟨hnone, hresize 1 (by omega) (by omega)⟩)
  have hsecond : isSpare s.newBuffer2 = true ∨ s.newBuffer2 = none ∧ 1 ≤ rest1.length := by
    refine hspare.imp And.left fun ⟨hnone2, hlen⟩ => ⟨hnone2, ?_⟩
    have htwo := hresize 2 le_rfl hlen
    omega
  obtain ⟨b2, rest2, hrecover2, hspare2, -⟩ := recover_spare hsecond
  rw [hrecover1, ok_bind]
  dsimp only
  rw [hrecover2, ok_bind]
  refine Safe.ok ⟨⟨h.front.current, h.front.next, h.front.full⟩, ⟨hspare1, hspare2, rfl⟩,
    h.books.frame rfl rfl rfl ?_ rfl ?_⟩
  · exact hunchecked.symm
  · rw [hdone]
    simp [unwrittenKept, written]

theorem Inv.write (h : s.Inv) {i : Nat} (hpoint : s.backend = .writing i) : Safe (s.write i) Inv := by
  unfold AsyncLogging.write
  cases hget : s.buffersToWrite[i]? with
  | none => exact h.endOfTurn hpoint (List.getElem?_eq_none_iff.mp hget)
  | some b =>
      have hback := h.back
      unfold Back at hback
      rw [hpoint] at hback
      refine Safe.ok ⟨⟨h.front.current, h.front.next, h.front.full⟩, hback, h.books.frame rfl rfl rfl ?_ rfl ?_⟩
      · simp [unchecked, hpoint]
      · obtain ⟨hi, rfl⟩ := List.getElem?_eq_some_iff.mp hget
        have hunwritten : s.unwrittenKept = contents (s.buffersToWrite.drop i) := by simp [unwrittenKept, hpoint]
        show written (s.output ++ [.append _]) ++ contents (s.buffersToWrite.drop (i + 1)) = _
        rw [hunwritten, List.drop_eq_getElem_cons hi, contents_cons, written_append, List.append_assoc, written_data]

/-! ## Every line, once and in order -/

/-- What `stop` has done so far. -/
structure Stopping (s : AsyncLogging) : Prop where
  begun : s.backend = .starting → s.stopping = .before
  running : s.stopping = .before ∨ s.stopping = .called → s.running = true
  called_le : s.calledLines ≤ s.lines.length
  joined : s.stopping = .returned → s.backend = .exited

/-- The back end is in the critical section, or on its way there. -/
def AboutToSwap (s : AsyncLogging) : Prop := s.backend = .locking ∨ s.backend = .waiting

theorem swap_cases (h : s.swap = .ok s') : s'.running = s.running ∧ s'.lines = s.lines ∧ s'.stopping = s.stopping ∧
    s'.calledLines = s.calledLines ∧ s'.backend ≠ .starting ∧ s'.swappedLines = s.lines.length := by
  unfold swap at h
  split at h
  · cases h
  · obtain rfl := Except.ok.inj h
    exact ⟨rfl, rfl, rfl, rfl, by simp, rfl⟩

/-- **What a step of the back end can do** about the lines: it takes all there are, or none. -/
theorem threadFunc_cases (h : s.threadFunc = .ok s') : s'.running = s.running ∧ s'.lines = s.lines ∧
    s'.stopping = s.stopping ∧ s'.calledLines = s.calledLines ∧ s'.backend ≠ .starting ∧
    (s'.swappedLines = s.lines.length ∨ s'.swappedLines = s.swappedLines ∧ (s.AboutToSwap → s'.AboutToSwap)) := by
  unfold threadFunc at h
  unfold AboutToSwap
  cases hpoint : s.backend with
  | starting =>
      rw [hpoint] at h
      obtain ⟨_, -, h⟩ := bind_eq_ok.mp h
      obtain rfl := Except.ok.inj h
      exact ⟨rfl, rfl, rfl, rfl, by simp, Or.inr ⟨rfl, by simp⟩⟩
  | loopHead =>
      rw [hpoint] at h
      dsimp only at h
      unfold loopHead at h
      split at h
      · obtain ⟨_, -, h⟩ := bind_eq_ok.mp h
        obtain ⟨_, -, h⟩ := bind_eq_ok.mp h
        obtain ⟨_, -, h⟩ := bind_eq_ok.mp h
        obtain rfl := Except.ok.inj h
        exact ⟨rfl, rfl, rfl, rfl, by simp, Or.inr ⟨rfl, by simp⟩⟩
      · obtain rfl := Except.ok.inj h
        exact ⟨rfl, rfl, rfl, rfl, by simp, Or.inr ⟨rfl, by simp⟩⟩
  | locking =>
      -- with full buffers there is no wait: this step is the swap
      rw [hpoint] at h
      dsimp only at h
      unfold lock at h
      split at h
      · obtain rfl := Except.ok.inj h
        exact ⟨rfl, rfl, rfl, rfl, by simp, Or.inr ⟨rfl, by simp⟩⟩
      · obtain ⟨hrunning, hlines, hstopping, hcalled, hstarting, hswapped⟩ := swap_cases h
        exact ⟨hrunning, hlines, hstopping, hcalled, hstarting, Or.inl hswapped⟩
  | waiting =>
      rw [hpoint] at h
      obtain ⟨hrunning, hlines, hstopping, hcalled, hstarting, hswapped⟩ := swap_cases h
      exact ⟨hrunning, hlines, hstopping, hcalled, hstarting, Or.inl hswapped⟩
  | swapped =>
      rw [hpoint] at h
      obtain ⟨_, -, h⟩ := bind_eq_ok.mp h
      obtain rfl := Except.ok.inj h
      exact ⟨rfl, rfl, rfl, rfl, by simp, Or.inr ⟨rfl, by simp⟩⟩
  | writing i =>
      rw [hpoint] at h
      dsimp only at h
      unfold write at h
      split at h
      · obtain rfl := Except.ok.inj h
        exact ⟨rfl, rfl, rfl, rfl, by simp, Or.inr ⟨rfl, by simp⟩⟩
      · obtain ⟨_, -, h⟩ := bind_eq_ok.mp h
        obtain ⟨_, -, h⟩ := bind_eq_ok.mp h
        obtain rfl := Except.ok.inj h
        exact ⟨rfl, rfl, rfl, rfl, by simp, Or.inr ⟨rfl, by simp⟩⟩
  | exited =>
      rw [hpoint] at h
      obtain rfl := Except.ok.inj h
      exact ⟨rfl, rfl, rfl, rfl, by simp [hpoint], Or.inr ⟨rfl, by simp⟩⟩

theorem Inv.threadFunc (h : s.Inv) (hbegun : s.backend = .starting → s.running = true) : Safe s.threadFunc Inv := by
  unfold AsyncLogging.threadFunc
  cases hpoint : s.backend with
  | starting => exact h.start (hbegun hpoint) hpoint
  | loopHead => exact h.loopHead hpoint
  | locking => exact h.lock hpoint
  | waiting => exact h.swap (Or.inr hpoint)
  | swapped => exact h.checkBacklog hpoint
  | writing i => exact h.write hpoint
  | exited => exact Safe.ok h

theorem Inv.exec (h : s.Inv) (hstop : s.Stopping) {a : Action} (ha : s.enabled a) : Safe (s.exec a) Inv := by
  cases a with
  | append logline => exact h.append ha
  | backend => exact h.threadFunc fun hpoint => hstop.running (Or.inl (hstop.begun hpoint))
  | stop =>
      show Safe (.ok s.stop) Inv
      unfold AsyncLogging.stop
      split
      · exact .ok ⟨⟨h.front.current, h.front.next, h.front.full⟩, h.back, h.books.frame rfl rfl rfl rfl rfl rfl⟩
      · exact .ok ⟨⟨h.front.current, h.front.next, h.front.full⟩, h.back, h.books.frame rfl rfl rfl rfl rfl rfl⟩
      · exact .ok ⟨⟨h.front.current, h.front.next, h.front.full⟩, h.back, h.books.frame rfl rfl rfl rfl rfl rfl⟩
      · exact .ok ⟨⟨h.front.current, h.front.next, h.front.full⟩, h.back, h.books.frame rfl rfl rfl rfl rfl rfl⟩

/-- What a front end leaves alone. -/
theorem Inv.append_frame (h : s.Inv) (hlen : logline.length < kLargeBuffer) (hs' : s.append logline = .ok s') :
    s'.running = s.running ∧ s'.lines = s.lines ++ [logline] ∧ s'.stopping = s.stopping ∧
      s'.calledLines = s.calledLines ∧ s'.backend = s.backend ∧ s'.swappedLines = s.swappedLines := by
  obtain ⟨s'', hs'', -, -, hlines, hframe⟩ := h.front.append hlen
  obtain rfl := Except.ok.inj (hs''.symm.trans hs')
  refine ⟨?_, hlines, ?_, ?_, ?_, ?_⟩ <;> rw [hframe]

theorem Stopping.exec (h : s.Stopping) (hinv : s.Inv) {a : Action} (ha : s.enabled a) (hs' : s.exec a = .ok s') :
    s'.Stopping := by
  cases a with
  | append logline =>
      obtain ⟨hrunning, hlines, hstopping, hcalled, hbackend, -⟩ := hinv.append_frame ha hs'
      refine ⟨?_, ?_, ?_, ?_⟩
      · rw [hbackend, hstopping]
        exact h.begun
      · rw [hrunning, hstopping]
        exact h.running
      · rw [hcalled, hlines, List.length_append]
        exact h.called_le.trans (Nat.le_add_right _ _)
      · rw [hbackend, hstopping]
        exact h.joined
  | backend =>
      obtain ⟨hrunning, hlines, hstopping, hcalled, hstarting, -⟩ := threadFunc_cases hs'
      refine ⟨fun hpoint => absurd hpoint hstarting, ?_, ?_, ?_⟩
      · rw [hrunning, hstopping]
        exact h.running
      · rw [hcalled, hlines]
        exact h.called_le
      · intro hreturned
        rw [hstopping] at hreturned
        exact absurd (h.joined hreturned) ha
  | stop =>
      obtain rfl := Except.ok.inj hs'
      unfold AsyncLogging.stop
      cases hpoint : s.stopping with
      | before =>
          have hbegun : s.backend ≠ .starting := by simpa [enabled, hpoint] using ha
          exact ⟨fun hstarting => absurd hstarting hbegun, fun _ => h.running (Or.inl hpoint), le_rfl, by simp⟩
      | called =>
          refine ⟨fun hstarting => ?_, by simp, h.called_le, by simp⟩
          have hbefore := h.begun hstarting
          rw [hpoint] at hbefore
          cases hbefore
      | cleared =>
          have hexited : s.backend = .exited := by simpa [enabled, hpoint] using ha
          exact ⟨fun hstarting => by simp [hexited] at hstarting, by simp, h.called_le, fun _ => hexited⟩
      | returned => simp [enabled, hpoint] at ha

theorem loggingSystem_inv (h : loggingSystem.Reachable s) : s.Inv ∧ s.Stopping := by
  refine System.keeps (S := loggingSystem) (I := fun s => s.Inv ∧ s.Stopping) ?_ ?_ h
  · rintro s rfl
    refine ⟨⟨⟨⟨_, rfl⟩, Or.inr isSpare_new, by simp⟩, rfl, ⟨rfl, rfl, rfl, le_rfl⟩⟩, ⟨by simp, by simp, le_rfl, by simp⟩⟩
  · exact fun s a s' hs ha hs' => ⟨(hs.1.exec hs.2 ha).of_eq_ok hs', hs.2.exec hs.1 ha hs'⟩

/-- **Every line, once and in order.** At every moment of every run, the bytes passed to `LogFile::append`, the
    unwritten part of `buffersToWrite` and the shared buffers make up the lines in the order of the lock, without
    the buffers from the third on of each batch of more than 25. The back end has its two spares at the head of the
    loop, and no assertion fails. -/
theorem lines_once_in_order (h : loggingSystem.Reachable s) :
    (∃ rest, s.lines.flatten = s.batches.flatMap contents ++ rest ∧
      written s.output ++ contents s.unwritten ++ contents s.buffers ++
          (s.currentBuffer.map FixedBuffer.data).getD [] =
        (s.batches.flatMap fun batch => contents (if batch.length > 25 then batch.take 2 else batch)) ++ rest) ∧
    (s.backend = .loopHead → isSpare s.newBuffer1 = true ∧ isSpare s.newBuffer2 = true ∧ s.buffersToWrite = []) ∧
    ∀ a, s.enabled a → Safe (s.exec a) fun _ => True := by
  obtain ⟨hinv, hstopping⟩ := loggingSystem_inv h
  refine ⟨⟨s.unchecked ++ s.pending, ?_, ?_⟩, ?_, fun a ha => (hinv.exec hstopping ha).mono fun _ _ => trivial⟩
  · rw [← List.append_assoc, ← hinv.books.taken, ← hinv.books.shared, ← List.flatten_append, List.take_append_drop]
  · have hunwritten : contents s.unwritten = s.unwrittenKept ++ s.unchecked := by
      have hback := hinv.back
      unfold Back at hback
      unfold unwritten unwrittenKept unchecked
      cases hpoint : s.backend <;> simp_all
    have houtput := hinv.books.output
    unfold kept at houtput
    rw [List.append_assoc _ (contents s.buffers), hunwritten, ← houtput]
    simp only [List.append_assoc, pending]
  · intro hpoint
    have hback := hinv.back
    unfold Back at hback
    rwa [hpoint] at hback

/-- The logger before a swap of the full buffers `bs` and `b`, each with one line that leaves no room for another
    byte. -/
def backlogged (logline : List UInt8) (bs : List Buffer) (b : Buffer) : AsyncLogging where
  running := true
  currentBuffer := some b
  nextBuffer := if bs.isEmpty then some .new else none
  buffers := bs
  newBuffer1 := some .new
  newBuffer2 := some .new
  buffersToWrite := []
  output := []
  backend := .locking
  stopping := .before
  lines := List.replicate (bs.length + 1) logline
  batches := []
  swappedLines := 0
  calledLines := 0

/-- Another line takes another buffer. -/
theorem append_backlogged {bs : List Buffer} {b : Buffer} (hlen : logline.length = kLargeBuffer - 1)
    (hb : b.data = logline) : ∃ b', b'.data = logline ∧
      (backlogged logline bs b).append logline = .ok (backlogged logline (bs ++ [b]) b') := by
  have hfull : ¬ logline.length < b.avail := by
    unfold FixedBuffer.avail FixedBuffer.length
    rw [hb, hlen]
    decide
  have hroom : logline.length < (FixedBuffer.new : Buffer).avail := by
    rw [hlen]
    decide
  have hnext : (backlogged logline bs b).nextBuffer.getD .new = .new := by
    unfold backlogged
    split <;> rfl
  refine ⟨FixedBuffer.new.append logline, FixedBuffer.append_data hroom, ?_⟩
  unfold append
  rw [hnext]
  simp only [backlogged, if_neg hfull, List.replicate_succ' (n := bs.length + 1), List.length_append,
    List.length_singleton]
  simp

/-- Any number of buffers can be filled before the back end takes them. -/
theorem backlogged_reachable {C : AsyncLogging → Action → Prop} (hC : ∀ s a, a ≠ .stop → C s a)
    (hlen : logline.length = kLargeBuffer - 1) (n : Nat) :
    ∃ bs b, bs.length = n ∧ b.data = logline ∧ (loggingSystem.when C).Reachable (backlogged logline bs b) := by
  have hline : logline.length < kLargeBuffer := by
    rw [hlen]
    decide
  have happend : ∀ s, (loggingSystem.when C).enabled s (.append logline) := fun s => ⟨hline, hC s _ (by simp)⟩
  induction n with
  | zero =>
      have hroom : logline.length < (FixedBuffer.new : Buffer).avail := hline
      refine ⟨[], FixedBuffer.new.append logline, rfl, FixedBuffer.append_data hroom, ?_⟩
      have h := (System.Reachable.init (S := loggingSystem.when C) rfl)
        |>.next .backend ⟨by simp [loggingSystem, enabled], hC _ _ (by simp)⟩ rfl
        |>.next .backend ⟨by simp [loggingSystem, enabled], hC _ _ (by simp)⟩ rfl
      exact h.next (.append logline) (happend _) (if_pos hroom)
  | succ n ih =>
      obtain ⟨bs, b, hn, hb, h⟩ := ih
      obtain ⟨b', hb', hs'⟩ := append_backlogged hlen hb
      exact ⟨bs ++ [b], b', by rw [List.length_append, hn]; rfl, hb', h.next (.append logline) (happend _) hs'⟩

theorem checkBacklog_dropped (h : 25 < s.buffersToWrite.length) : s.checkBacklog = .ok { s with
    output := s.output ++ [.notice (s.buffersToWrite.length - 2)]
    buffersToWrite := s.buffersToWrite.take 2
    backend := .writing 0
    batches := s.batches ++ [s.buffersToWrite] } := by
  have hempty : s.buffersToWrite.isEmpty = false := by
    rw [List.isEmpty_eq_false_iff, ← List.length_pos_iff]
    omega
  unfold checkBacklog kept
  rw [assert_pos hempty, ok_bind, if_pos h, if_pos h]

/-- Of a batch of 26 buffers the first is written, one more is to be written, and another line has come since. -/
theorem lines_once_in_order_dropped : ∃ (s : AsyncLogging) (batch : List Buffer), s.batches = [batch] ∧
    batch.length = 26 ∧ s.backend = .writing 1 ∧ s.lines.length = 27 ∧
    ∃ rest, s.lines.flatten = s.batches.flatMap contents ++ rest ∧
      written s.output ++ contents s.unwritten ++ contents s.buffers ++
          (s.currentBuffer.map FixedBuffer.data).getD [] =
        (s.batches.flatMap fun batch => contents (if batch.length > 25 then batch.take 2 else batch)) ++ rest := by
  obtain ⟨logline, hlen⟩ : ∃ logline : List UInt8, logline.length = kLargeBuffer - 1 :=
    ⟨List.replicate _ 65, List.length_replicate⟩
  obtain ⟨_ | ⟨b₁, _ | ⟨b₂, bs⟩⟩, b, hbs, -, h⟩ :=
    backlogged_reachable (C := fun _ _ => True) (fun _ _ _ => trivial) hlen 25
  · cases hbs
  · cases hbs
  have hbatch : (b₁ :: b₂ :: bs ++ [b]).length = 26 := by rw [List.length_append, hbs]; rfl
  have hbig : 25 < (b₁ :: b₂ :: bs ++ [b]).length := by omega
  have h₁ := h.of_when.next .backend (by simp [loggingSystem, enabled, backlogged]) rfl
  have h₂ := h₁.next .backend (by simp [loggingSystem, enabled]) (checkBacklog_dropped hbig)
  have h₃ := h₂.next .backend (by simp [loggingSystem, enabled]) rfl
    |>.next (.append [66]) (by simp [loggingSystem, enabled, kLargeBuffer]) rfl
  refine ⟨_, b₁ :: b₂ :: bs ++ [b], rfl, hbatch, rfl, ?_, (lines_once_in_order h₃).1⟩
  simp only [backlogged, List.length_append, List.length_replicate, hbs, List.length_singleton]

/-! ## `stop` -/

/-- When `running_` is cleared, the back end is still going to take the buffers, or it took them after the last line
    that came before the call of `stop`. -/
def Flushes (s : AsyncLogging) : Action → Prop
  | .stop => s.stopping = .called → s.AboutToSwap ∨ s.calledLines ≤ s.swappedLines
  | _ => True

/-- The lines before the call of `stop` are taken, or going to be. -/
structure Taking (s : AsyncLogging) : Prop where
  cleared : s.stopping = .cleared → s.AboutToSwap ∨ s.calledLines ≤ s.swappedLines
  returned : s.stopping = .returned → s.calledLines ≤ s.swappedLines

theorem Taking.exec (h : s.Taking) (hinv : s.Inv) (hstop : s.Stopping) {a : Action} (ha : s.enabled a)
    (hflushes : s.Flushes a) (hs' : s.exec a = .ok s') : s'.Taking := by
  cases a with
  | append logline =>
      obtain ⟨-, -, hstopping, hcalled, hbackend, hswapped⟩ := hinv.append_frame ha hs'
      refine ⟨?_, ?_⟩
      · unfold AboutToSwap
        rw [hstopping, hbackend, hcalled, hswapped]
        exact h.cleared
      · rw [hstopping, hcalled, hswapped]
        exact h.returned
  | backend =>
      obtain ⟨-, -, hstopping, hcalled, -, hcases⟩ := threadFunc_cases hs'
      rcases hcases with hall | ⟨hsame, hstill⟩
      -- a swap takes all lines, those from before the call among them
      · have htaken : s'.calledLines ≤ s'.swappedLines := by
          rw [hcalled, hall]
          exact hstop.called_le
        exact ⟨fun _ => Or.inr htaken, fun _ => htaken⟩
      · refine ⟨?_, ?_⟩
        · rw [hstopping, hcalled, hsame]
          exact fun hpoint => (h.cleared hpoint).imp_left hstill
        · rw [hstopping, hcalled, hsame]
          exact h.returned
  | stop =>
      obtain rfl := Except.ok.inj hs'
      unfold AsyncLogging.stop
      cases hpoint : s.stopping with
      | before => exact ⟨by simp, by simp⟩
      | called => exact ⟨fun _ => hflushes hpoint, by simp⟩
      | cleared =>
          have hexited : s.backend = .exited := by simpa [enabled, hpoint] using ha
          -- `stop` has joined the back end, which will not take anything more
          have htaken := (h.cleared hpoint).resolve_left (by simp [AboutToSwap, hexited])
          exact ⟨by simp, fun _ => htaken⟩
      | returned => simp [enabled, hpoint] at ha

/-- **When `stop` flushes.** In every run in which `running_` is cleared while the back end is still going to take
    the buffers, or has taken every line that came before the call: when `stop` returns, these lines are in the
    batches, and the batches were passed to `LogFile::append`, but for what was dropped. -/
theorem stop_flushes (h : (loggingSystem.when Flushes).Reachable s) (hreturned : s.stopping = .returned) :
    (s.lines.take s.calledLines).flatten <+: s.batches.flatMap contents ∧
      written s.output =
        s.batches.flatMap fun batch => contents (if batch.length > 25 then batch.take 2 else batch) := by
  have hall : s.Inv ∧ s.Stopping ∧ s.Taking := by
    refine System.keeps (S := loggingSystem.when Flushes) (I := fun s => s.Inv ∧ s.Stopping ∧ s.Taking) ?_ ?_ h
    · intro s hs
      obtain ⟨hinv, hstopping⟩ := loggingSystem_inv (.init hs)
      obtain rfl := hs
      exact ⟨hinv, hstopping, by simp, by simp⟩
    · rintro s a s' ⟨hinv, hstop, htaking⟩ ⟨ha, hflushes⟩ hs'
      exact ⟨(hinv.exec hstop ha).of_eq_ok hs', hstop.exec hinv ha hs', htaking.exec hinv hstop ha hflushes hs'⟩
  obtain ⟨hinv, hstop, htaking⟩ := hall
  -- the back end has ended, so nothing is left unchecked or unwritten
  have hexited := hstop.joined hreturned
  have htaken := hinv.books.taken
  have houtput := hinv.books.output
  simp only [unchecked, unwrittenKept, hexited, List.append_nil, kept] at htaken houtput
  refine ⟨?_, houtput⟩
  have hle := htaking.returned hreturned
  rw [← htaken]
  refine List.IsPrefix.flatten ?_
  exact List.take_prefix_take_left hle

/-- The back end is to lock the mutex when `stop` is called, with 26 full buffers before it. It takes all of them, and
    writes two. -/
theorem stop_flushes_dropped : ∃ (s : AsyncLogging) (batch : List Buffer), s.stopping = .returned ∧
    s.calledLines = 26 ∧ s.lines.length = 26 ∧ s.batches = [batch] ∧ batch.length = 26 ∧
    (s.lines.take s.calledLines).flatten <+: s.batches.flatMap contents ∧
    written s.output =
      s.batches.flatMap fun batch => contents (if batch.length > 25 then batch.take 2 else batch) := by
  obtain ⟨logline, hlen⟩ : ∃ logline : List UInt8, logline.length = kLargeBuffer - 1 :=
    ⟨List.replicate _ 65, List.length_replicate⟩
  have hflushes : ∀ s a, a ≠ .stop → Flushes s a := by
    intro s a ha
    cases a with
    | stop => exact absurd rfl ha
    | append logline => trivial
    | backend => trivial
  obtain ⟨_ | ⟨b₁, _ | ⟨b₂, bs⟩⟩, b, hbs, -, h⟩ := backlogged_reachable hflushes hlen 25
  · cases hbs
  · cases hbs
  have hbatch : (b₁ :: b₂ :: bs ++ [b]).length = 26 := by rw [List.length_append, hbs]; rfl
  have hbig : 25 < (b₁ :: b₂ :: bs ++ [b]).length := by omega
  have hbackend : ∀ {s : AsyncLogging}, s.backend ≠ .exited → (loggingSystem.when Flushes).enabled s .backend :=
    fun h => ⟨h, trivial⟩
  have h₁ := h
    |>.next .stop ⟨by simp [loggingSystem, enabled, backlogged], by simp [Flushes, backlogged]⟩ rfl
    |>.next .stop ⟨trivial, fun _ => Or.inl (Or.inl rfl)⟩ rfl
    |>.next .backend (hbackend (by simp [stop, backlogged])) rfl
  have h₂ := h₁.next .backend (hbackend (by simp)) (checkBacklog_dropped hbig)
  have h₃ := h₂
    |>.next .backend (hbackend (by simp)) rfl
    |>.next .backend (hbackend (by simp)) rfl
    |>.next .backend (hbackend (by simp)) rfl
    |>.next .backend (hbackend (by simp)) rfl
    |>.next .stop ⟨rfl, by simp [Flushes, stop, backlogged]⟩ rfl
  have hlines : (backlogged logline (b₁ :: b₂ :: bs) b).lines.length = 26 := by
    simp only [backlogged, List.length_replicate, hbs]
  refine ⟨_, b₁ :: b₂ :: bs ++ [b], ?_, ?_, ?_, ?_, hbatch, stop_flushes h₃ rfl⟩
  · rfl
  · exact hlines
  · exact hlines
  · rfl

/-- **The last lines are lost.** A line is appended and `stop` is called before the back end comes to the head of its
    loop. The back end finds `running_` false and ends; nothing was written. -/
theorem last_lines_lost : ∃ s : AsyncLogging, loggingSystem.Reachable s ∧ s.stopping = .returned ∧
    s.lines.take s.calledLines = [[65]] ∧ s.batches = [] ∧ written s.output = [] := by
  have h := (System.Reachable.init (S := loggingSystem) rfl)
    |>.next .backend (by simp [loggingSystem, enabled]) rfl
    |>.next (.append [65]) (by simp [loggingSystem, enabled, kLargeBuffer]) rfl
    |>.next .stop (by simp [loggingSystem, enabled]) rfl
    |>.next .stop trivial rfl
    |>.next .backend (by simp [loggingSystem, enabled, stop]) rfl
    |>.next .stop rfl rfl
  exact ⟨_, h, rfl, rfl, rfl, rfl⟩

end AsyncLogging

end Muduo
