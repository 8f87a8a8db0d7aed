import Muduo.Net.Correctness.Buffer

/-!
# `Correctness.BufferRuns` — every sequence of buffer operations refines a byte queue

A family of buffers, indexed by an arbitrary type, is driven by any sequence of public operations (`swap`
needs two buffers, hence the family). Beside the buffers runs the abstract machine: a byte list per buffer, on
which an operation is `++`, `drop` or nothing. The two never part, the index invariant holds throughout, and
no assertion fails.

The one restriction is `NoWrap`. It concerns only the two operations whose length argument is not the length
of an object in memory, `ensureWritableBytes` and `shrink`; without it a request near `2 ^ 64` wraps.
-/

namespace Muduo.Net

open Lib

/-- The operations on one buffer. -/
inductive BufferOp where
  | append (data : Bytes)
  | ensureWritableBytes (len : Nat)
  /-- `data` is stored at `beginWrite()`, then `hasWritten` is called with its length. -/
  | hasWritten (data : Bytes)
  | retrieve (len : Nat)
  /-- `retrieveUntil(peek() + k)`. -/
  | retrieveUntil (k : Nat)
  | retrieveAll
  | retrieveAsString (len : Nat)
  | prepend (data : Bytes)
  | shrink (reserve : Nat)
  | readFd (r : ReadResult)

namespace BufferOp

/-- What the operation asserts of its arguments, and the ranges of the argument types. -/
def Pre (b : Buffer) : BufferOp → Prop
  | .append _ => True
  | .ensureWritableBytes len => len < 2 ^ 64
  | .hasWritten data => data.data.length ≤ b.writableBytes
  | .retrieve len => len ≤ b.readableBytes
  | .retrieveUntil k => k ≤ b.readableBytes
  | .retrieveAll => True
  | .retrieveAsString len => len ≤ b.readableBytes
  | .prepend data => data.data.length ≤ b.prependableBytes
  | .shrink reserve => reserve < 2 ^ 64 ∧ b.readableBytes < 2 ^ 31
  | .readFd (.data d) => d.length ≤ b.writableBytes + Buffer.kExtraBuf
  | .readFd (.failed _) => True

/-- The requested size is a `size_t` once the write index is added to it. -/
def NoWrap (b : Buffer) : BufferOp → Prop
  | .ensureWritableBytes len => b.Fits len
  | .shrink reserve => Buffer.new.Fits (SizeT.add b.readableBytes reserve)
  | _ => True

instance decidablePre (b : Buffer) : DecidablePred (Pre b)
  | .append _ | .retrieveAll | .readFd (.failed _) => isTrue trivial
  | .ensureWritableBytes len => inferInstanceAs (Decidable (len < 2 ^ 64))
  | .hasWritten data => inferInstanceAs (Decidable (data.data.length ≤ b.writableBytes))
  | .retrieve len | .retrieveUntil len | .retrieveAsString len => inferInstanceAs (Decidable (len ≤ b.readableBytes))
  | .prepend data => inferInstanceAs (Decidable (data.data.length ≤ b.prependableBytes))
  | .shrink reserve => inferInstanceAs (Decidable (reserve < 2 ^ 64 ∧ b.readableBytes < 2 ^ 31))
  | .readFd (.data d) => inferInstanceAs (Decidable (d.length ≤ b.writableBytes + Buffer.kExtraBuf))

instance decidableNoWrap (b : Buffer) : DecidablePred (NoWrap b)
  | .ensureWritableBytes len => inferInstanceAs (Decidable (b.Fits len))
  | .shrink reserve => inferInstanceAs (Decidable (Buffer.new.Fits (SizeT.add b.readableBytes reserve)))
  | .append _ | .hasWritten _ | .retrieve _ | .retrieveUntil _ | .retrieveAll | .retrieveAsString _ | .prepend _
  | .readFd _ => isTrue trivial

/-- Run the operation: the string it returns (empty for the `void` ones) and the buffer. -/
def apply (b : Buffer) : BufferOp → Outcome (List UInt8 × Buffer)
  | .append data => do
      let b ← b.append data.data data.data.length
      .ok ([], b)
  | .ensureWritableBytes len => do
      let b ← b.ensureWritableBytes len
      .ok ([], b)
  | .hasWritten data => do
      let b ← b.copyTo b.writerIndex data.data
      .ok ([], b.hasWritten data.data.length)
  | .retrieve len => do
      let b ← b.retrieve len
      .ok ([], b)
  | .retrieveUntil k => do
      let b ← b.retrieveUntil (b.readerIndex + k)
      .ok ([], b)
  | .retrieveAll => .ok ([], b.retrieveAll)
  | .retrieveAsString len => b.retrieveAsString len
  | .prepend data => do
      let b ← b.prepend data.data
      .ok ([], b)
  | .shrink reserve => do
      let b ← b.shrink reserve
      .ok ([], b)
  | .readFd r => do
      let (_, b) ← b.readFd r
      .ok ([], b)

/-- The abstract operation on the byte list. -/
def queue (q : List UInt8) : BufferOp → List UInt8
  | .append data => q ++ data.data
  | .ensureWritableBytes _ => q
  | .hasWritten data => q ++ data.data
  | .retrieve len => q.drop len
  | .retrieveUntil k => q.drop k
  | .retrieveAll => []
  | .retrieveAsString len => q.drop len
  | .prepend data => data.data ++ q
  | .shrink _ => q
  | .readFd (.data d) => q ++ d
  | .readFd (.failed _) => q

/-- The string the abstract operation returns. -/
def returns (q : List UInt8) : BufferOp → List UInt8
  | .retrieveAsString len => q.take len
  | _ => []

def isPrepend : BufferOp → Bool
  | .prepend _ => true
  | _ => false

end BufferOp

/-! ## One operation -/

theorem Buffer.Rep.weaken {b : Buffer} {q : List UInt8} {p : Bool} (h : b.Rep q false) : b.Rep q p :=
  { h with cheap := fun _ => h.cheap rfl }

/-- **One operation follows the abstract queue**, the side conditions being met. -/
theorem BufferOp.apply_rep {b : Buffer} {q : List UInt8} {p : Bool} (h : b.Rep q p) (op : BufferOp)
    (hpre : op.Pre b) (hwrap : op.NoWrap b) :
    Safe (op.apply b) (fun r => r.1 = op.returns q ∧ r.2.Rep (op.queue q) (p || op.isPrepend)) := by
  have hlen := h.readableBytes_eq
  cases op with
  | append data =>
      refine Safe.bind (Buffer.append_bytes_rep h data) ?_
      intro b' h'
      exact Safe.ok ⟨rfl, by simpa [isPrepend, queue] using h'⟩
  | ensureWritableBytes len =>
      refine Safe.bind (Buffer.ensureWritableBytes_rep h hwrap) ?_
      intro b' h'
      exact Safe.ok ⟨rfl, by simpa [isPrepend, queue] using h'.1⟩
  | hasWritten data =>
      obtain ⟨b', hcopy, h', -, -⟩ := Buffer.written_rep h hpre
      simp only [apply, hcopy, ok_bind]
      exact Safe.ok ⟨rfl, by simpa [isPrepend, queue] using h'⟩
  | retrieve len =>
      obtain ⟨b', hb, h'⟩ := Buffer.retrieve_rep h (le_of_le_of_eq hpre hlen)
      simp only [apply, hb, ok_bind]
      exact Safe.ok ⟨rfl, by simpa [isPrepend, queue] using h'⟩
  | retrieveUntil k =>
      obtain ⟨b', hb, h'⟩ := Buffer.retrieveUntil_rep h (le_of_le_of_eq hpre hlen)
      simp only [apply, hb, ok_bind]
      exact Safe.ok ⟨rfl, by simpa [isPrepend, queue] using h'⟩
  | retrieveAll => exact Safe.ok ⟨rfl, by simpa [isPrepend, queue] using Buffer.retrieveAll_rep h⟩
  | retrieveAsString len =>
      obtain ⟨b', hb, h'⟩ := Buffer.retrieveAsString_rep h (le_of_le_of_eq hpre hlen)
      simp only [apply, hb]
      exact Safe.ok ⟨rfl, by simpa [isPrepend, queue] using h'⟩
  | prepend data =>
      obtain ⟨b', hb, h'⟩ := Buffer.prepend_rep h hpre
      simp only [apply, hb, ok_bind]
      exact Safe.ok ⟨rfl, by simpa [isPrepend, queue] using h'⟩
  | shrink reserve =>
      have hfit : Buffer.new.Fits (SizeT.add q.length reserve) := hlen ▸ hwrap
      have hsmall : q.length < 2 ^ 31 := hlen ▸ hpre.2
      refine Safe.bind (Buffer.shrink_rep h hsmall hfit) ?_
      intro b' h'
      exact Safe.ok ⟨rfl, h'.weaken⟩
  | readFd r =>
      cases r with
      | data d =>
          refine Safe.bind (Buffer.readFd_rep h hpre) ?_
          intro r h'
          exact Safe.ok ⟨rfl, by simpa [isPrepend, queue] using h'.2⟩
      | failed e => exact Safe.ok ⟨rfl, by simpa [isPrepend, queue] using h⟩

/-! ## Families of buffers -/

section Pool

variable {ι : Type} [DecidableEq ι]

/-- An operation on one buffer of the family, or `swap` of two of them. -/
inductive PoolOp (ι : Type) where
  | on (i : ι) (op : BufferOp)
  | swap (i j : ι)

/-- The buffers and the strings returned so far, beside what the abstract queues make of the same calls. -/
structure Pool (ι : Type) where
  buffers : ι → Buffer
  returned : List (List UInt8)
  queues : ι → List UInt8
  prepended : ι → Bool
  expected : List (List UInt8)

/-- `Function.update` at two places, as `swap` needs it. -/
def exchange {β : Type} (f : ι → β) (i j : ι) : ι → β :=
  Function.update (Function.update f i (f j)) j (f i)

def Pool.exec (s : Pool ι) : PoolOp ι → Outcome (Pool ι)
  | .on i op => do
      let (str, b) ← op.apply (s.buffers i)
      .ok { buffers := Function.update s.buffers i b
            returned := s.returned ++ [str]
            queues := Function.update s.queues i (op.queue (s.queues i))
            prepended := Function.update s.prepended i (s.prepended i || op.isPrepend)
            expected := s.expected ++ [op.returns (s.queues i)] }
  | .swap i j =>
      let (bi, bj) := (s.buffers i).swap (s.buffers j)
      .ok { s with
            buffers := Function.update (Function.update s.buffers i bi) j bj
            queues := exchange s.queues i j
            prepended := exchange s.prepended i j }

def Pool.Enabled (s : Pool ι) : PoolOp ι → Prop
  | .on i op => op.Pre (s.buffers i)
  | .swap _ _ => True

def Pool.NoWrap (s : Pool ι) : PoolOp ι → Prop
  | .on i op => op.NoWrap (s.buffers i)
  | .swap _ _ => True

instance Pool.decidableEnabled (s : Pool ι) : DecidablePred s.Enabled
  | .on i op => inferInstanceAs (Decidable (op.Pre (s.buffers i)))
  | .swap _ _ => isTrue trivial

instance Pool.decidableNoWrap (s : Pool ι) : DecidablePred s.NoWrap
  | .on i op => inferInstanceAs (Decidable (op.NoWrap (s.buffers i)))
  | .swap _ _ => isTrue trivial

/-- Freshly constructed buffers beside empty queues. -/
def Pool.fresh (ι : Type) : Pool ι := ⟨fun _ => Buffer.new, [], fun _ => [], fun _ => false, []⟩

/-- All sequences of operations whose asserted preconditions hold, from freshly constructed buffers. -/
def bufferSystem (ι : Type) [DecidableEq ι] : System (Pool ι) (PoolOp ι) where
  init s := s = Pool.fresh ι
  enabled := Pool.Enabled
  exec := Pool.exec

instance bufferSystem.decidableEnabled (s : Pool ι) : DecidablePred ((bufferSystem ι).enabled s) :=
  inferInstanceAs (DecidablePred s.Enabled)

/-- Each buffer represents its queue and all strings returned were the expected ones. -/
def Pool.Rep (s : Pool ι) : Prop :=
  (∀ i, (s.buffers i).Rep (s.queues i) (s.prepended i)) ∧ s.returned = s.expected

theorem Pool.exec_rep {s : Pool ι} (h : s.Rep) (a : PoolOp ι) (hpre : s.Enabled a)
    (hwrap : s.NoWrap a) : Safe (s.exec a) Pool.Rep := by
  cases a with
  | on i op =>
      refine Safe.bind (op.apply_rep (h.1 i) hpre hwrap) ?_
      rintro ⟨str, b⟩ ⟨hstr, hb⟩
      refine Safe.ok ⟨?_, ?_⟩
      · intro k
        by_cases hk : k = i
        · subst hk; simpa using hb
        · simpa [hk] using h.1 k
      · show s.returned ++ [str] = s.expected ++ [op.returns (s.queues i)]
        rw [h.2]
        exact congrArg (s.expected ++ [·]) hstr
  | swap i j =>
      refine Safe.ok ⟨?_, h.2⟩
      intro k
      by_cases hj : k = j
      · subst hj; simpa [exchange, Buffer.swap] using h.1 i
      · by_cases hi : k = i
        · subst hi; simpa [exchange, Buffer.swap, hj] using h.1 j
        · simpa [exchange, Buffer.swap, hi, hj] using h.1 k

theorem bufferSystem_init_rep {s : Pool ι} (h : (bufferSystem ι).init s) : s.Rep := by
  have hs : s = Pool.fresh ι := h
  subst hs
  exact ⟨fun _ => Buffer.new_rep, rfl⟩

/-- **The run**: in a run that never requests a size outside `size_t`, the buffers follow their queues. -/
theorem Pool.reachable_rep {s : Pool ι} (h : ((bufferSystem ι).when Pool.NoWrap).Reachable s) : s.Rep := by
  refine System.inv (S := (bufferSystem ι).when Pool.NoWrap) ?_ ?_ h
  · exact fun _ => bufferSystem_init_rep
  · exact fun _ a hs ha => Pool.exec_rep hs a ha.1 ha.2

/-- **Buffers refine byte queues.** Along every sequence of operations that meets its asserted preconditions
    and never requests a size outside `size_t`: the index invariant holds, each buffer holds exactly its
    queue's bytes and every string returned was the queue's, a buffer whose storage was never prepended to
    keeps its cheap-prepend area, and no next operation fails an assertion or leaves the vector. -/
theorem buffer_refines_byte_queue {s : Pool ι}
    (h : ((bufferSystem ι).when Pool.NoWrap).Reachable s) :
    (∀ i, Buffer.kCheapPrepend ≤ (s.buffers i).buffer.length ∧
      (s.buffers i).readerIndex ≤ (s.buffers i).writerIndex ∧
      (s.buffers i).writerIndex ≤ (s.buffers i).buffer.length ∧
      (s.buffers i).readable = s.queues i ∧
      (s.prepended i = false → Buffer.kCheapPrepend ≤ (s.buffers i).prependableBytes)) ∧
    s.returned = s.expected ∧
    ∀ a, s.Enabled a → s.NoWrap a →
      s.exec a ≠ .error .assertion ∧ s.exec a ≠ .error .badAccess := by
  have hrep := Pool.reachable_rep h
  refine ⟨?_, hrep.2, ?_⟩
  · intro i
    have hi := hrep.1 i
    exact ⟨Nat.le_trans hi.cheap_le hi.writer_le, hi.reader_le, hi.writer_le, hi.content, hi.cheap⟩
  · intro a ha hw
    have hsafe := Pool.exec_rep hrep a ha hw
    exact ⟨hsafe.ne_assertion, hsafe.ne_badAccess⟩

/-- Two buffers are filled and swapped; one of them is read from, prepended to, made to grow, and filled again. -/
theorem buffer_refines_byte_queue_swapped : ∃ s : Pool Bool, s.queues false = [0, 3, 4, 5, 6] ∧
    (s.buffers false).readable = s.queues false ∧ (s.buffers true).readable = [9] ∧
    s.returned = [[], [], [1, 2], [], [], []] ∧ s.returned = s.expected ∧
    s.exec (.on false .retrieveAll) ≠ .error .assertion := by
  obtain ⟨s, hreached, hfalse, htrue, hreturned⟩ := System.ReachedBy.exists_of_perform
    ((bufferSystem Bool).when Pool.NoWrap)
    [.on true (.append ⟨[1, 2, 3, 4, 5], by decide⟩), .on false (.append ⟨[9], by decide⟩), .swap true false,
      .on false (.retrieveAsString 2), .on false (.prepend ⟨[0], by decide⟩), .on false (.ensureWritableBytes 2000),
      .on false (.readFd (.data [6]))]
    (s := Pool.fresh Bool)
    (P := fun s => s.queues false = [0, 3, 4, 5, 6] ∧ s.queues true = [9] ∧ s.returned = [[], [], [1, 2], [], [], []])
    rfl (by decide +kernel)
  obtain ⟨hinv, hexpected, hsafe⟩ := buffer_refines_byte_queue hreached.reachable
  exact ⟨s, hfalse, (hinv false).2.2.2.1, (hinv true).2.2.2.1.trans htrue, hreturned, hexpected,
    (hsafe (.on false .retrieveAll) trivial trivial).1⟩

/-- Asking a fresh buffer for `SIZE_MAX` bytes fails the assertion `kCheapPrepend < readerIndex_`. -/
theorem ensureWritableBytes_wraps :
    ¬ ∀ s : Pool Unit, (bufferSystem Unit).Reachable s →
      ∀ a, s.Enabled a → s.exec a ≠ .error .assertion := by
  intro h
  refine h _ (System.Reachable.init rfl) (.on () (.ensureWritableBytes (2 ^ 64 - 1))) ?_ ?_
  · show 2 ^ 64 - 1 < 2 ^ 64
    omega
  · show (Buffer.new.ensureWritableBytes (2 ^ 64 - 1) >>= _) >>= _ = _
    rw [Buffer.ensureWritableBytes_new_wraps (by unfold Buffer.kCheapPrepend; omega) (by omega)]
    rfl

end Pool

end Muduo.Net
