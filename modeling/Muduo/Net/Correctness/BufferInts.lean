import Muduo.Net.Correctness.BufferRuns

/-!
# `Correctness.BufferInts` — typed integers survive the buffer

Whatever mixture of integers and strings is appended, reading the same shapes gives it back. That is a statement about
the byte queue a buffer represents (`Buffer.Rep`): an integer goes in as its `w` bytes in network order, and these are
what `peekInt` finds at the front once everything before them is retrieved.
-/

namespace Muduo.Net

open Lib

namespace Buffer

variable {b : Buffer} {q : List UInt8} {p : Bool}

/-! ## One integer -/

/-- The integers of `w` bytes. -/
def InRange (w : Nat) (x : Int) : Prop := -(256 ^ w : Nat) ≤ x * 2 ∧ x * 2 < (256 ^ w : Nat)

theorem peekInt_front {w : Nat} {x : Int} (hx : InRange w x) (h : b.Rep (hostToNetwork w x ++ q) p) :
    b.peekInt w = .ok x := by
  have hlen : w ≤ (hostToNetwork w x ++ q).length := by
    rw [List.length_append, length_hostToNetwork]
    exact Nat.le_add_right _ _
  rw [peekInt_rep h hlen, List.take_left' (length_hostToNetwork w x), networkToHost_hostToNetwork hx.1 hx.2]

theorem readInt_front {w : Nat} {x : Int} (hx : InRange w x) (h : b.Rep (hostToNetwork w x ++ q) p) :
    ∃ b', b.readInt w = .ok (x, b') ∧ b'.Rep q p := by
  have hlen : w ≤ (hostToNetwork w x ++ q).length := by
    rw [List.length_append, length_hostToNetwork]
    exact Nat.le_add_right _ _
  obtain ⟨b', hb', hrep⟩ := retrieve_rep h hlen
  rw [List.drop_left' (length_hostToNetwork w x)] at hrep
  refine ⟨b', ?_, hrep⟩
  unfold readInt
  rw [peekInt_front hx h, ok_bind, hb', ok_bind]

/-- **An integer prepended is the next one read**, and the content is then what it was. -/
theorem prependInt_readInt {w : Nat} {x : Int} (hx : InRange w x) (h : b.Valid) (hroom : w ≤ b.prependableBytes) :
    ∃ b₁ b₂, b.prependInt w x = .ok b₁ ∧ b₁.readInt w = .ok (x, b₂) ∧ b₂.readable = b.readable := by
  obtain ⟨b₁, hb₁, hrep⟩ := prepend_rep h.rep (d := hostToNetwork w x) (by rw [length_hostToNetwork]; exact hroom)
  obtain ⟨b₂, hb₂, hrep₂⟩ := readInt_front hx hrep
  exact ⟨b₁, b₂, hb₁, hb₂, hrep₂.content⟩

end Buffer

/-! ## Items -/

/-- What is appended. -/
inductive Item where
  | int8 (x : Int8)
  | int16 (x : Int16)
  | int32 (x : Int32)
  | string (data : Bytes)

/-- What is read. -/
inductive Shape where
  | int8
  | int16
  | int32
  | string (len : Nat)

/-- What a read returns. -/
inductive Value where
  | int (x : Int)
  | string (s : List UInt8)

namespace Shape

/-- `peekInt8` and its siblings; there is none for a string. -/
def peek (b : Buffer) : Shape → Outcome (Option Int)
  | int8 => some <$> b.peekInt8
  | int16 => some <$> b.peekInt16
  | int32 => some <$> b.peekInt32
  | string _ => .ok none

def read (b : Buffer) : Shape → Outcome (Value × Buffer)
  | int8 => (fun r => (.int r.1, r.2)) <$> b.readInt8
  | int16 => (fun r => (.int r.1, r.2)) <$> b.readInt16
  | int32 => (fun r => (.int r.1, r.2)) <$> b.readInt32
  | string len => (fun r => (.string r.1, r.2)) <$> b.retrieveAsString len

/-- One read after the other, with a peek before each. -/
def readAll (b : Buffer) : List Shape → Outcome (List (Option Int × Value) × Buffer)
  | [] => .ok ([], b)
  | shape :: shapes => do
      let peeked ← shape.peek b
      let (value, b) ← shape.read b
      let (rest, b) ← readAll b shapes
      .ok ((peeked, value) :: rest, b)

end Shape

namespace Item

def append (b : Buffer) : Item → Outcome Buffer
  | int8 x => b.appendInt8 x.toInt
  | int16 x => b.appendInt16 x.toInt
  | int32 x => b.appendInt32 x.toInt
  | string data => b.append data.data data.data.length

def appendAll (b : Buffer) : List Item → Outcome Buffer
  | [] => .ok b
  | item :: items => do
      let b ← item.append b
      appendAll b items

/-- The bytes of the item: big-endian two's complement, for an integer. -/
def wire : Item → List UInt8
  | int8 x => hostToNetwork 1 x.toInt
  | int16 x => hostToNetwork 2 x.toInt
  | int32 x => hostToNetwork 4 x.toInt
  | string data => data.data

def shape : Item → Shape
  | int8 _ => .int8
  | int16 _ => .int16
  | int32 _ => .int32
  | string data => .string data.data.length

/-- What a peek and a read of the item give. -/
def value : Item → Option Int × Value
  | int8 x => (some x.toInt, .int x.toInt)
  | int16 x => (some x.toInt, .int x.toInt)
  | int32 x => (some x.toInt, .int x.toInt)
  | string data => (none, .string data.data)

theorem inRange_int8 (x : Int8) : Buffer.InRange 1 x.toInt := by
  have hlo := x.le_toInt
  have hhi := x.toInt_lt
  unfold Buffer.InRange
  omega

theorem inRange_int16 (x : Int16) : Buffer.InRange 2 x.toInt := by
  have hlo := x.le_toInt
  have hhi := x.toInt_lt
  unfold Buffer.InRange
  omega

theorem inRange_int32 (x : Int32) : Buffer.InRange 4 x.toInt := by
  have hlo := x.le_toInt
  have hhi := x.toInt_lt
  unfold Buffer.InRange
  omega

variable {b : Buffer} {q : List UInt8} {p : Bool}

/-! ## Appending -/

/-- An item is appended as its bytes. -/
theorem append_eq (item : Item) (b : Buffer) : item.append b = b.append item.wire item.wire.length := by
  cases item with
  | string data => rfl
  | int8 x | int16 x | int32 x => rw [wire, length_hostToNetwork]; rfl

/-- No item is longer than an object in memory. -/
theorem length_wire_lt (item : Item) : item.wire.length < maxObject := by
  cases item with
  | string data => exact data.fits
  | int8 x | int16 x | int32 x => rw [wire, length_hostToNetwork]; decide

theorem append_rep (h : b.Rep q p) (item : Item) :
    Safe (item.append b) (fun b' : Buffer => b'.Rep (q ++ item.wire) p) := by
  rw [append_eq]
  exact Buffer.append_bytes_rep h ⟨item.wire, item.length_wire_lt⟩

theorem appendAll_rep (h : b.Rep q p) (items : List Item) :
    Safe (appendAll b items) (fun b' : Buffer => b'.Rep (q ++ items.flatMap wire) p) := by
  induction items generalizing b q with
  | nil => exact Safe.ok (by rwa [List.flatMap_nil, List.append_nil])
  | cons item items ih =>
      refine Safe.bind (append_rep h item) fun b₁ h₁ => ?_
      rw [List.flatMap_cons, ← List.append_assoc]
      exact ih h₁

/-- As long as the content is an object in memory, the vector can be made to hold it. -/
theorem appendAll_ok (h : b.Rep q p) (items : List Item) (hlen : q.length + (items.flatMap wire).length < maxObject) :
    ∃ b', appendAll b items = .ok b' := by
  induction items generalizing b q with
  | nil => exact ⟨b, rfl⟩
  | cons item items ih =>
      rw [List.flatMap_cons, List.length_append] at hlen
      have hroom : 2 * item.wire.length + q.length + Buffer.kCheapPrepend ≤ maxSize := by
        unfold maxObject at hlen
        unfold Buffer.kCheapPrepend maxSize
        omega
      obtain ⟨b₁, hb₁, h₁⟩ := Buffer.append_ok h hroom
      obtain ⟨b', hb'⟩ := ih h₁ (by rw [List.length_append]; omega)
      exact ⟨b', by rw [appendAll, append_eq, hb₁, ok_bind, hb']⟩

/-! ## Reading -/

/-- **An item at the front** is what a peek finds and a read returns. -/
theorem read_rep (item : Item) (h : b.Rep (item.wire ++ q) p) :
    ∃ b', item.shape.peek b = .ok item.value.1 ∧ item.shape.read b = .ok (item.value.2, b') ∧ b'.Rep q p := by
  have hint : ∀ {w : Nat} {x : Int}, Buffer.InRange w x → b.Rep (hostToNetwork w x ++ q) p →
      ∃ b', some <$> b.peekInt w = .ok (some x) ∧
        (fun r : Int × Buffer => (Value.int r.1, r.2)) <$> b.readInt w = .ok (.int x, b') ∧ b'.Rep q p := by
    intro w x hx h
    obtain ⟨b', hb', hrep⟩ := Buffer.readInt_front hx h
    exact ⟨b', by rw [Buffer.peekInt_front hx h]; rfl, by rw [hb']; rfl, hrep⟩
  cases item with
  | int8 x => exact hint (inRange_int8 x) h
  | int16 x => exact hint (inRange_int16 x) h
  | int32 x => exact hint (inRange_int32 x) h
  | string data =>
      obtain ⟨b', hb', hrep⟩ := Buffer.retrieveAsString_rep h (show data.data.length ≤ _ by simp [wire])
      rw [wire, List.drop_left' rfl] at hrep
      rw [wire, List.take_left' rfl] at hb'
      refine ⟨b', rfl, ?_, hrep⟩
      show (fun r => (Value.string r.1, r.2)) <$> b.retrieveAsString data.data.length = _
      rw [hb']
      rfl

/-- **All of them**, from the first to the last; what stands behind them is left. -/
theorem readAll_rep (items : List Item) (h : b.Rep (items.flatMap wire ++ q) p) :
    ∃ b', Shape.readAll b (items.map shape) = .ok (items.map value, b') ∧ b'.Rep q p := by
  induction items generalizing b with
  | nil => exact ⟨b, rfl, h⟩
  | cons item items ih =>
      rw [List.flatMap_cons, List.append_assoc] at h
      obtain ⟨b₁, hpeek, hread, h₁⟩ := read_rep item h
      obtain ⟨b', hrest, h'⟩ := ih h₁
      refine ⟨b', ?_, h'⟩
      rw [List.map_cons, Shape.readAll, hpeek, ok_bind, hread, ok_bind]
      dsimp only
      rw [hrest]
      rfl

end Item

/-! ## Any reachable buffer -/

section Pool

variable {ι : Type} [DecidableEq ι]

/-- What one buffer does with typed items: the items appended stand behind the content as their bytes, without a failed
    assertion and without an access outside the vector; once the content is retrieved, peeks and reads of the same
    shapes give their values, in order, and leave the buffer empty; and an integer that there is room for in front is
    the next one read. -/
structure Survives (b : Buffer) : Prop where
  appended : ∀ items, Safe (Item.appendAll b items) fun b' =>
    b'.readable = b.readable ++ items.flatMap Item.wire ∧
      ∃ b₁ b₂, b'.retrieve b.readableBytes = .ok b₁ ∧
        Shape.readAll b₁ (items.map Item.shape) = .ok (items.map Item.value, b₂) ∧ b₂.readableBytes = 0
  returns : ∀ items, b.readable.length + (items.flatMap Item.wire).length < maxObject →
    ∃ b', Item.appendAll b items = .ok b'
  int8 : ∀ x : Int8, 1 ≤ b.prependableBytes → ∃ b₁ b₂, b.prependInt8 x.toInt = .ok b₁ ∧
    b₁.readInt8 = .ok (x.toInt, b₂) ∧ b₂.readable = b.readable
  int16 : ∀ x : Int16, 2 ≤ b.prependableBytes → ∃ b₁ b₂, b.prependInt16 x.toInt = .ok b₁ ∧
    b₁.readInt16 = .ok (x.toInt, b₂) ∧ b₂.readable = b.readable
  int32 : ∀ x : Int32, 4 ≤ b.prependableBytes → ∃ b₁ b₂, b.prependInt32 x.toInt = .ok b₁ ∧
    b₁.readInt32 = .ok (x.toInt, b₂) ∧ b₂.readable = b.readable

theorem Buffer.Valid.survives {b : Buffer} (h : b.Valid) : Survives b where
  appended items := by
    refine (Item.appendAll_rep h.rep items).mono fun b' h' => ⟨h'.content, ?_⟩
    have hlen : b.readableBytes ≤ (b.readable ++ items.flatMap Item.wire).length := by
      rw [h.readableBytes_eq_length, List.length_append]
      exact Nat.le_add_right _ _
    obtain ⟨b₁, hb₁, h₁⟩ := Buffer.retrieve_rep h' hlen
    rw [List.drop_left' h.readableBytes_eq_length.symm, ← List.append_nil (items.flatMap Item.wire)] at h₁
    obtain ⟨b₂, hb₂, h₂⟩ := Item.readAll_rep items h₁
    exact ⟨b₁, b₂, hb₁, hb₂, h₂.readableBytes_eq⟩
  returns items hlen := Item.appendAll_ok h.rep items hlen
  int8 x hroom := Buffer.prependInt_readInt (Item.inRange_int8 x) h hroom
  int16 x hroom := Buffer.prependInt_readInt (Item.inRange_int16 x) h hroom
  int32 x hroom := Buffer.prependInt_readInt (Item.inRange_int32 x) h hroom

/-- **Typed integers survive the buffer**, from every state of a run in which no request for space wraps. -/
theorem ints_survive {s : Pool ι} (h : ((bufferSystem ι).when Pool.NoWrap).Reachable s) (i : ι) :
    Survives (s.buffers i) :=
  ((Pool.reachable_rep h).1 i).toValid.survives

/-- A byte, two bytes and four, each with all bits set. -/
theorem ints_survive_minus_one : ∃ b b₁ b₂, Item.appendAll Buffer.new [.int8 (-1), .int16 (-1), .int32 (-1)] = .ok b ∧
    b.readable = [0xff, 0xff, 0xff, 0xff, 0xff, 0xff, 0xff] ∧ b.retrieve 0 = .ok b₁ ∧
    Shape.readAll b₁ [.int8, .int16, .int32] =
      .ok ([(some (-1), .int (-1)), (some (-1), .int (-1)), (some (-1), .int (-1))], b₂) ∧ b₂.readableBytes = 0 := by
  have hsurvives : Survives Buffer.new :=
    ints_survive (s := Pool.fresh Unit) (System.Reachable.init rfl) ()
  obtain ⟨b, hb⟩ := hsurvives.returns [.int8 (-1), .int16 (-1), .int32 (-1)] (by decide)
  obtain ⟨hcontent, b₁, b₂, hb₁, hb₂, hempty⟩ := (hsurvives.appended _).of_eq_ok hb
  exact ⟨b, b₁, b₂, hb, hcontent, hb₁, hb₂, hempty⟩

/-! ## A buffer without storage -/

/-- **Growing may empty the vector**: with 4 bytes of content, `writerIndex_ + len` is 12 more than `len`. -/
theorem ensureWritableBytes_empties {b : Buffer} (hb : b.buffer.length = 1032) (hr : b.readerIndex = 8)
    (hw : b.writerIndex = 12) : b.ensureWritableBytes (2 ^ 64 - 12) = .ok ⟨[], 8, 12⟩ := by
  have hwritable : b.writableBytes = 1020 := by
    unfold Buffer.writableBytes
    rw [hb, hw]
    rfl
  have hresize : b.resizeTo (SizeT.add b.writerIndex (2 ^ 64 - 12)) = .ok ⟨[], 8, 12⟩ := by
    rw [hw, show SizeT.add 12 (2 ^ 64 - 12) = 0 from rfl]
    unfold Buffer.resizeTo resize
    rw [if_pos (Nat.zero_le _), List.take_zero, Nat.zero_sub, hr, hw]
    rfl
  unfold Buffer.ensureWritableBytes Buffer.makeSpace
  rw [hwritable, Buffer.prependableBytes, hr, if_pos (by decide), if_pos (by decide), hresize, ok_bind,
    assert_pos (by decide)]
  rfl

/-- The free space of such a buffer is almost all of `size_t`, so nothing is grown for what is appended. -/
theorem append_emptied {d : List UInt8} (hd : d.length ≤ 2 ^ 64 - 12) :
    Buffer.append ⟨[], 8, 12⟩ d d.length = .error .badAccess := by
  have hwritable : Buffer.writableBytes ⟨[], 8, 12⟩ = 2 ^ 64 - 12 := rfl
  unfold Buffer.append Buffer.ensureWritableBytes Buffer.copyTo
  rw [hwritable, if_neg (not_lt.mpr hd), ok_bind, hwritable, assert_pos hd, ok_bind, ok_bind,
    if_neg (Nat.lt_irrefl _), List.take_length]
  show (if 12 + d.length ≤ 0 then _ else _) >>= _ = _
  rw [if_neg (by omega)]
  rfl

/-- **What is appended then is written outside the vector**, and a long string outside its storage too. -/
theorem ints_lost_after_wrap :
    ¬ ∀ s : Pool Unit, (bufferSystem Unit).Reachable s → ∀ i, Survives (s.buffers i) := by
  intro hall
  let four : Bytes := ⟨[0x61, 0x62, 0x63, 0x64], by decide⟩
  have happend := Buffer.append_new (show four.data.length ≤ Buffer.kInitialSize by decide)
  have hsize : Buffer.new.buffer.length = 1032 := List.length_replicate
  have hlen : (overwrite Buffer.new.buffer Buffer.kCheapPrepend four.data).length = 1032 := by
    rw [length_overwrite (by rw [hsize]; decide), hsize]
  have h₁ := System.Reachable.next (S := bufferSystem Unit) (.init rfl) (.on () (.append four)) trivial
    (by
      show (Buffer.new.append four.data four.data.length >>= _) >>= _ = _
      rw [happend]
      rfl)
  have hgrow := ensureWritableBytes_empties
    (b := ⟨overwrite Buffer.new.buffer Buffer.kCheapPrepend four.data, 8, 12⟩) hlen rfl rfl
  have h₂ := h₁.next (.on () (.ensureWritableBytes (2 ^ 64 - 12))) (show 2 ^ 64 - 12 < 2 ^ 64 by decide)
    (by
      show (Buffer.ensureWritableBytes ⟨overwrite Buffer.new.buffer Buffer.kCheapPrepend four.data, 8, 12⟩ _ >>= _) >>= _
        = _
      rw [hgrow]
      rfl)
  have hsurvives := hall _ h₂ ()
  dsimp only at hsurvives
  rw [Function.update_self] at hsurvives
  let long : Bytes := ⟨List.replicate 2000 0x78, by rw [List.length_replicate]; decide⟩
  have hlong : long.data.length = 2000 := List.length_replicate
  refine (hsurvives.appended [.string long]).ne_badAccess ?_
  show Buffer.append ⟨[], 8, 12⟩ long.data long.data.length >>= _ = _
  rw [append_emptied (by rw [hlong]; decide)]
  rfl

end Pool

end Muduo.Net
