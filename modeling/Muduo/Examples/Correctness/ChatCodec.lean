import Muduo.Examples.Chat.Codec
import Muduo.Lib.Consumer
import Muduo.Net.Correctness.TcpSays

/-!
# `Correctness.ChatCodec` — every stream of bytes, in any chunks

Whatever bytes arrive, they are some whole messages and then either a part of another one, or a length that is
refused (`Splits`). The codec passes on the whole messages, once each and in order; it waits for the rest of a part,
and shuts the connection down at a length that is refused, for good. The cuts between the chunks do not matter,
since the codec is a consumer of bytes.
-/

namespace Muduo.Examples.LengthHeaderCodec

open Lib Net Buffer

/-! ## The codec as a consumer -/

/-- The length at the front of `q`. -/
def lengthOf (q : List UInt8) : Int := networkToHost32 (q.take kHeaderLen)

/-- A length that is refused. -/
def Refused (q : List UInt8) : Prop := lengthOf q > kMaxLen ∨ lengthOf q < 0

instance (q : List UInt8) : Decidable (Refused q) := inferInstanceAs (Decidable (_ ∨ _))

/-- The connection, and what has been passed to the callback. -/
structure Delivered where
  conn : TcpConnection
  messages : List (List UInt8)

def Delivered.next (codec : LengthHeaderCodec) (x : Delivered) (message : List UInt8) : Delivered :=
  ⟨codec.messageCallback x.conn message, x.messages ++ [message]⟩

def turn (codec : LengthHeaderCodec) (x : Delivered) (q : List UInt8) : Turn Delivered Delivered UInt8 :=
  if q.length < kHeaderLen then .wait
  else if Refused q then .halt { x with conn := x.conn.shutdown } q
  else if q.length < kHeaderLen + (lengthOf q).toNat then .wait
  else .more (x.next codec ((q.drop kHeaderLen).take (lengthOf q).toNat)) (q.drop (kHeaderLen + (lengthOf q).toNat))

variable {codec : LengthHeaderCodec} {x y : Delivered} {q rest d : List UInt8} {p : Bool} {s s' : CodecSession}
variable {fuel : Nat}

theorem lengthOf_append (h : ¬ q.length < kHeaderLen) (d : List UInt8) : lengthOf (q ++ d) = lengthOf q := by
  unfold lengthOf
  rw [List.take_append_of_le_length (Nat.le_of_not_lt h)]

theorem refused_append (h : ¬ q.length < kHeaderLen) (d : List UInt8) : Refused (q ++ d) ↔ Refused q := by
  unfold Refused
  rw [lengthOf_append h]

/-- **The codec**, as a consumer. -/
def consumer (codec : LengthHeaderCodec) : Consumer Delivered Delivered UInt8 where
  turn := codec.turn
  shrinks := by
    intro x y q rest h
    unfold turn at h
    split_ifs at h with hshort href hpart
    obtain ⟨-, rfl⟩ := Turn.more.inj h
    unfold kHeaderLen at hshort ⊢
    rw [List.length_drop]
    omega
  more_append := by
    intro x y q rest h d
    unfold turn at h
    split_ifs at h with hshort href hpart
    obtain ⟨rfl, rfl⟩ := Turn.more.inj h
    have hle : kHeaderLen ≤ q.length := Nat.le_of_not_lt hshort
    have hlen : ¬ (q ++ d).length < kHeaderLen := by rw [List.length_append]; omega
    have hmore : ¬ (q ++ d).length < kHeaderLen + (lengthOf q).toNat := by rw [List.length_append]; omega
    unfold turn
    rw [if_neg hlen, if_neg (by rwa [refused_append hshort]), lengthOf_append hshort, if_neg hmore,
      List.drop_append_of_le_length hle, List.drop_append_of_le_length (Nat.le_of_not_lt hpart),
      List.take_append_of_le_length (by rw [List.length_drop]; omega)]
  halt_append := by
    intro x r q rest h d
    unfold turn at h
    split_ifs at h with hshort href hpart
    obtain ⟨rfl, rfl⟩ := Turn.halt.inj h
    have hlen : ¬ (q ++ d).length < kHeaderLen := by rw [List.length_append]; omega
    unfold turn
    rw [if_neg hlen, if_pos ((refused_append hshort d).mpr href)]

theorem consumer_turn (codec : LengthHeaderCodec) (x : Delivered) (q : List UInt8) :
    codec.consumer.turn x q = codec.turn x q := rfl

/-! ## The front of a stream -/

/-- A message, as it is sent. -/
def frame (message : List UInt8) : List UInt8 := hostToNetwork32 message.length ++ message

/-- A part of a message; the rest has not arrived. -/
def Incomplete (q : List UInt8) : Prop :=
  q.length < kHeaderLen ∨ ¬ Refused q ∧ q.length < kHeaderLen + (lengthOf q).toNat

/-- A length that is refused is in front. -/
def Invalid (q : List UInt8) : Prop := kHeaderLen ≤ q.length ∧ Refused q

/-- A message that is accepted. -/
def Short (message : List UInt8) : Prop := (message.length : Int) ≤ kMaxLen

theorem lengthOf_frame {m : List UInt8} (hm : Short m) (rest : List UInt8) : lengthOf (frame m ++ rest) = m.length := by
  unfold Short kMaxLen at hm
  have htake : (frame m ++ rest).take kHeaderLen = hostToNetwork32 m.length := by
    unfold frame
    rw [List.append_assoc]
    exact List.take_left' (length_hostToNetwork32 _)
  rw [lengthOf, htake, networkToHost32_hostToNetwork32 (by omega) (by omega)]

theorem length_frame (m : List UInt8) : (frame m).length = kHeaderLen + m.length := by
  rw [frame, List.length_append, length_hostToNetwork32]
  rfl

theorem drop_frame (m rest : List UInt8) : (frame m ++ rest).drop kHeaderLen = m ++ rest := by
  unfold frame
  rw [List.append_assoc]
  exact List.drop_left' (length_hostToNetwork32 _)

/-- **What is in front**: a part of a message, a length that is refused, or a message. -/
theorem front_cases (q : List UInt8) : Incomplete q ∨ Invalid q ∨ ∃ m rest, Short m ∧ q = frame m ++ rest := by
  by_cases hshort : q.length < kHeaderLen
  · exact Or.inl (Or.inl hshort)
  by_cases href : Refused q
  · exact Or.inr (Or.inl ⟨Nat.le_of_not_lt hshort, href⟩)
  by_cases hpart : q.length < kHeaderLen + (lengthOf q).toNat
  · exact Or.inl (Or.inr ⟨href, hpart⟩)
  obtain ⟨hmax, hmin⟩ := not_or.mp href
  obtain ⟨n, hn⟩ := Int.eq_ofNat_of_zero_le (not_lt.mp hmin)
  have hnat : (lengthOf q).toNat = n := by omega
  rw [hnat] at hpart
  have hlen : ((q.drop kHeaderLen).take n).length = n := by
    rw [List.length_take, List.length_drop]
    omega
  refine Or.inr (Or.inr ⟨(q.drop kHeaderLen).take n, (q.drop kHeaderLen).drop n, ?_, ?_⟩)
  · unfold Short
    rw [hlen, ← hn]
    exact not_lt.mp hmax
  · have hheader : (q.take kHeaderLen).length = 4 := by
      rw [List.length_take]
      unfold kHeaderLen at hshort ⊢
      omega
    have hbytes : hostToNetwork32 (lengthOf q) = q.take kHeaderLen := hostToNetwork32_networkToHost32 hheader
    have hframe : hostToNetwork32 (n : Int) = q.take kHeaderLen := by rw [← hbytes, hn]
    rw [frame, hlen, hframe, List.append_assoc, List.take_append_drop, List.take_append_drop]

theorem turn_incomplete (hq : Incomplete q) : codec.consumer.turn x q = .wait := by
  rw [consumer_turn, turn]
  by_cases hshort : q.length < kHeaderLen
  · exact if_pos hshort
  · obtain ⟨href, hpart⟩ := hq.resolve_left hshort
    rw [if_neg hshort, if_neg href, if_pos hpart]

theorem turn_invalid (hq : Invalid q) : codec.consumer.turn x q = .halt { x with conn := x.conn.shutdown } q := by
  rw [consumer_turn, turn, if_neg (Nat.not_lt.mpr hq.1), if_pos hq.2]

theorem turn_frame {m : List UInt8} (hm : Short m) (rest : List UInt8) :
    codec.consumer.turn x (frame m ++ rest) = .more (x.next codec m) rest := by
  have hlen := lengthOf_frame hm rest
  have hlength : (frame m ++ rest).length = kHeaderLen + m.length + rest.length := by
    rw [List.length_append, length_frame]
  have hnot : ¬ Refused (frame m ++ rest) := by
    unfold Refused Short at *
    rw [hlen]
    omega
  rw [consumer_turn, turn, if_neg (by omega), if_neg hnot, hlen, Int.toNat_natCast, if_neg (by omega),
    ← List.drop_drop, drop_frame, List.take_left, List.drop_left]

/-! ## `onMessage` takes these turns -/

/-- Before an iteration: the buffer holds `q`. -/
def At (x : Delivered) (q : List UInt8) (s : CodecSession) : Prop :=
  s.conn = x.conn ∧ s.messages = x.messages ∧ s.buf.Rep q false ∧ q.length < maxObject

/-- After the loop: a connection that was shut down stays so. -/
def Left : Progress Delivered Delivered → List UInt8 → CodecSession → Prop
  | .pending x, q, s => At x q s
  | .halted x, q, s => At x q s ∧ Invalid q ∧ x.conn.shutdown = x.conn

theorem shutdown_shutdown (c : TcpConnection) : c.shutdown.shutdown = c.shutdown := by
  by_cases hs : c.state = .kConnected
  · have hstate : c.shutdown.state = .kDisconnecting := by
      unfold TcpConnection.shutdown TcpConnection.shutdownInLoop TcpConnection.setState
      rw [if_pos hs]
      split <;> rfl
    exact if_neg (by rw [hstate]; decide)
  · have hsame : c.shutdown = c := if_neg hs
    rw [hsame, hsame]

theorem iterate_incomplete (h : At x q s) (hq : Incomplete q) : codec.iterate s = .ok (.leave s) := by
  obtain ⟨-, -, hrep, hfits⟩ := h
  have hlength : networkToHost32 (s.buf.readable.take kHeaderLen) = lengthOf q := by rw [hrep.content]; rfl
  unfold iterate
  rw [hrep.readableBytes_eq]
  dsimp only
  rw [hlength]
  by_cases hshort : q.length < kHeaderLen
  · exact if_neg (Nat.not_le_of_lt hshort)
  · obtain ⟨href, hpart⟩ := hq.resolve_left hshort
    obtain ⟨hmax, hmin⟩ := not_or.mp href
    unfold kMaxLen at hmax
    obtain ⟨n, hn⟩ := Int.eq_ofNat_of_zero_le (not_lt.mp hmin)
    have hsize : SizeT.add (toSizeT (lengthOf q)) kHeaderLen = kHeaderLen + n := by
      rw [hn, toSizeT_natCast (by omega), SizeT.add_eq (by unfold kHeaderLen; omega), Nat.add_comm]
    rw [if_pos (Nat.le_of_not_lt hshort), if_neg (show ¬ (lengthOf q > kMaxLen ∨ lengthOf q < 0) from href), hsize,
      if_neg (by omega)]

theorem iterate_invalid (h : At x q s) (hq : Invalid q) :
    codec.iterate s = .ok (.leave { s with conn := s.conn.shutdown }) := by
  obtain ⟨-, -, hrep, -⟩ := h
  have hlength : networkToHost32 (s.buf.readable.take kHeaderLen) = lengthOf q := by rw [hrep.content]; rfl
  unfold iterate
  rw [hrep.readableBytes_eq, if_pos hq.1]
  dsimp only
  rw [hlength, if_pos (show lengthOf q > kMaxLen ∨ lengthOf q < 0 from hq.2)]

theorem iterate_frame {m : List UInt8} (h : At x (frame m ++ rest) s) (hm : Short m) :
    ∃ s', codec.iterate s = .ok (.again s') ∧ At (x.next codec m) rest s' := by
  obtain ⟨hconn, hmessages, hrep, hfits⟩ := h
  have hlen := lengthOf_frame hm rest
  have hlength : networkToHost32 (s.buf.readable.take kHeaderLen) = m.length := by
    rw [hrep.content]
    exact hlen
  have hsize : (frame m ++ rest).length = kHeaderLen + m.length + rest.length := by
    rw [List.length_append, length_frame]
  unfold Short kMaxLen at hm
  have hcond : ¬ ((m.length : Int) > kMaxLen ∨ (m.length : Int) < 0) := by
    unfold kMaxLen
    omega
  have hneed : SizeT.add (toSizeT m.length) kHeaderLen = kHeaderLen + m.length := by
    rw [toSizeT_natCast (by omega), SizeT.add_eq (by unfold kHeaderLen; omega), Nat.add_comm]
  obtain ⟨b₁, hb₁, h₁⟩ := retrieve_rep hrep (show kHeaderLen ≤ _ by omega)
  rw [drop_frame] at h₁
  obtain ⟨b₂, hb₂, h₂⟩ := retrieve_rep h₁ (show m.length ≤ _ by rw [List.length_append]; omega)
  rw [List.drop_left] at h₂
  refine ⟨⟨codec.messageCallback s.conn m, b₂, s.messages ++ [m]⟩, ?_, ?_, ?_, h₂, ?_⟩
  · unfold iterate
    rw [hrep.readableBytes_eq, if_pos (by omega)]
    dsimp only
    rw [hlength, if_neg hcond, hneed, if_pos (by omega), hb₁, ok_bind, toSizeT_natCast (by omega), hb₂, ok_bind,
      h₁.content, Int.toNat_natCast, List.take_left]
  · rw [hconn]
    rfl
  · rw [hmessages]
    rfl
  · omega

/-- **One iteration** is one turn. -/
theorem iterate_turns (h : At x q s) : codec.consumer.Turns codec.iterate At Left x q s := by
  unfold Consumer.Turns
  rcases front_cases q with hq | hq | ⟨m, rest, hm, rfl⟩
  · rw [turn_incomplete hq]
    exact ⟨s, iterate_incomplete h hq, h⟩
  · rw [turn_invalid hq]
    refine ⟨_, iterate_invalid h hq, ⟨?_, h.2⟩, hq, shutdown_shutdown _⟩
    show s.conn.shutdown = x.conn.shutdown
    rw [h.1]
  · rw [turn_frame hm]
    exact iterate_frame h hm

/-- **One call of `onMessage`** goes as far as the consumer. -/
theorem onMessage_run (codec : LengthHeaderCodec) (h : At x q s) (hfuel : q.length < fuel) :
    ∃ s', codec.onMessage fuel s = some (.ok s') ∧ Left (codec.consumer.run x q).1 (codec.consumer.run x q).2 s' :=
  Consumer.loop (fun _ _ _ => iterate_turns) h hfuel

/-- A call after the connection was shut down: it is shut down again, and that is all. -/
theorem onMessage_halted (codec : LengthHeaderCodec) (h : At x q s) (hq : Invalid q)
    (hdown : x.conn.shutdown = x.conn) (hfuel : q.length < fuel) :
    ∃ s', codec.onMessage fuel s = some (.ok s') ∧ Left (.halted x) q s' := by
  obtain ⟨s', hrun, hleft⟩ := onMessage_run codec h hfuel
  rw [Consumer.run_halt (turn_invalid hq), hdown] at hleft
  exact ⟨s', hrun, hleft⟩

theorem onMessage_resume (codec : LengthHeaderCodec) {y : Progress Delivered Delivered} (h : Left y q s)
    {d : List UInt8} {b : Buffer} (hb : b.Rep (q ++ d) false) (hfits : (q ++ d).length < maxObject) (hfuel : (q ++ d).length < fuel) :
    ∃ s', codec.onMessage fuel { s with buf := b } = some (.ok s') ∧
      Left (codec.consumer.resume y (q ++ d)).1 (codec.consumer.resume y (q ++ d)).2 s' := by
  cases y with
  | pending x => exact onMessage_run codec (s := { s with buf := b }) ⟨h.1, h.2.1, hb, hfits⟩ hfuel
  | halted x =>
      obtain ⟨⟨hconn, hmessages, -, -⟩, hq, hdown⟩ := h
      have hq' : Invalid (q ++ d) := by
        refine ⟨by rw [List.length_append]; exact hq.1.trans (Nat.le_add_right _ _), ?_⟩
        exact (refused_append (Nat.not_lt.mpr hq.1) d).mpr hq.2
      exact onMessage_halted codec (s := { s with buf := b }) ⟨hconn, hmessages, hb, hfits⟩ hq' hdown hfuel

theorem length_halt_le {x r : Delivered} {q rest : List UInt8} (h : codec.consumer.turn x q = .halt r rest) :
    rest.length ≤ q.length := by
  rw [consumer_turn, turn] at h
  split_ifs at h
  rw [(Turn.halt.inj h).2]

/-! ## Every sequence of chunks -/

/-- The bytes of some chunks. -/
def bytes (chunks : List Bytes) : List UInt8 := (chunks.map Bytes.data).flatten

theorem receiveAll_feed (codec : LengthHeaderCodec) {y : Progress Delivered Delivered} {chunks : List Bytes}
    (h : Left y q s) (hfits : (q ++ bytes chunks).length < maxObject) (hfuel : (q ++ bytes chunks).length < fuel) :
    ∃ s', codec.receiveAll fuel s chunks = some (.ok s') ∧
      Left (codec.consumer.feed (y, q) (chunks.map Bytes.data)).1
        (codec.consumer.feed (y, q) (chunks.map Bytes.data)).2 s' := by
  induction chunks generalizing y q s with
  | nil => exact ⟨s, rfl, h⟩
  | cons chunk chunks ih =>
      have hbytes : q ++ bytes (chunk :: chunks) = q ++ chunk.data ++ bytes chunks := by
        rw [List.append_assoc]
        rfl
      rw [hbytes, List.length_append] at hfits hfuel
      have hrep : s.buf.Rep q false := by
        cases y with
        | pending x => exact h.2.2.1
        | halted x => exact h.1.2.2.1
      have hlen : (q ++ chunk.data).length = q.length + chunk.data.length := List.length_append
      have hroom : 2 * chunk.data.length + q.length + kCheapPrepend ≤ maxSize := by
        unfold maxObject at hfits
        unfold maxSize kCheapPrepend
        omega
      obtain ⟨b, hb, hrep'⟩ := append_ok hrep hroom
      obtain ⟨s₁, hone, hleft⟩ := onMessage_resume codec h hrep' (by omega) (show _ < fuel by omega)
      have hle : (codec.consumer.resume y (q ++ chunk.data)).2.length ≤ (q ++ chunk.data).length :=
        Consumer.length_resume_le length_halt_le y _
      have hsum : ((codec.consumer.resume y (q ++ chunk.data)).2 ++ bytes chunks).length ≤
          (q ++ chunk.data).length + (bytes chunks).length := by
        rw [List.length_append]
        exact Nat.add_le_add_right hle _
      rw [receiveAll, receive, hb, Loop.ok_andThen, hone, Loop.ok_andThen]
      exact ih hleft (lt_of_le_of_lt hsum hfits) (lt_of_le_of_lt hsum hfuel)

/-- `q` is the messages `ms` and a rest that is not one. -/
structure Splits (q : List UInt8) (ms : List (List UInt8)) (rest : List UInt8) : Prop where
  eq : q = ms.flatMap frame ++ rest
  short : ∀ m ∈ ms, Short m
  rest : Incomplete rest ∨ Invalid rest

theorem exists_splits (q : List UInt8) : ∃ ms rest, Splits q ms rest := by
  induction hn : q.length using Nat.strong_induction_on generalizing q with
  | _ n ih =>
      rcases front_cases q with hq | hq | ⟨m, rest, hm, rfl⟩
      · exact ⟨[], q, rfl, by simp, Or.inl hq⟩
      · exact ⟨[], q, rfl, by simp, Or.inr hq⟩
      · rw [List.length_append, length_frame] at hn
        obtain ⟨ms, rest', hsplit⟩ := ih rest.length (by unfold kHeaderLen at hn; omega) rest rfl
        refine ⟨m :: ms, rest', ?_, ?_, hsplit.rest⟩
        · rw [List.flatMap_cons, List.append_assoc, ← hsplit.eq]
        · simpa [hm] using hsplit.short

theorem run_frames {ms : List (List UInt8)} (hms : ∀ m ∈ ms, Short m) (x : Delivered) (rest : List UInt8) :
    codec.consumer.run x (ms.flatMap frame ++ rest) =
      codec.consumer.run ⟨ms.foldl codec.messageCallback x.conn, x.messages ++ ms⟩ rest := by
  induction ms generalizing x with
  | nil => rw [List.flatMap_nil, List.nil_append, List.foldl_nil, List.append_nil]
  | cons m ms ih =>
      obtain ⟨hm, hms⟩ := List.forall_mem_cons.mp hms
      rw [List.flatMap_cons, List.append_assoc, Consumer.run_more (turn_frame hm _), ih hms, List.foldl_cons,
        Delivered.next, List.append_assoc, List.singleton_append]

/-- A run on a new connection, by how what has arrived splits. -/
theorem receiveAll_splits (codec : LengthHeaderCodec) (conn : TcpConnection) {chunks : List Bytes}
    (hfits : (bytes chunks).length < maxObject) (hfuel : (bytes chunks).length < fuel) {ms : List (List UInt8)} (h : Splits (bytes chunks) ms rest) :
    ∃ s, codec.receiveAll fuel ⟨conn, Buffer.new, []⟩ chunks = some (.ok s) ∧ s.messages = ms ∧
      s.buf.readable = rest ∧
      (Incomplete rest → s.conn = ms.foldl codec.messageCallback conn) ∧
      (Invalid rest → s.conn = (ms.foldl codec.messageCallback conn).shutdown) := by
  have hstart : Left (.pending ⟨conn, []⟩) [] ⟨conn, Buffer.new, []⟩ := ⟨rfl, rfl, new_rep, by decide⟩
  obtain ⟨s, hrun, hleft⟩ := receiveAll_feed codec hstart (show ([] ++ bytes chunks).length < _ from hfits) hfuel
  have hnil : codec.consumer.run ⟨conn, []⟩ [] = (.pending ⟨conn, []⟩, []) :=
    Consumer.run_wait (turn_incomplete (Or.inl (by decide)))
  have hfeed := Consumer.feed_run (C := codec.consumer) ⟨conn, []⟩ [] (chunks.map Bytes.data)
  have hbytes : (chunks.map Bytes.data).flatten = ms.flatMap frame ++ rest := h.eq
  rw [hnil, List.nil_append, hbytes, run_frames h.short] at hfeed
  rw [hfeed] at hleft
  refine ⟨s, hrun, ?_⟩
  rcases h.rest with hrest | hrest
  · rw [Consumer.run_wait (turn_incomplete hrest)] at hleft
    obtain ⟨hconn, hmessages, hrep, -⟩ := hleft
    refine ⟨hmessages, hrep.content, fun _ => hconn, fun hinvalid => ?_⟩
    rcases hrest with hshort | ⟨href, -⟩
    · exact absurd hinvalid.1 (Nat.not_le_of_lt hshort)
    · exact absurd hinvalid.2 href
  · rw [Consumer.run_halt (turn_invalid hrest)] at hleft
    obtain ⟨⟨hconn, hmessages, hrep, -⟩, -, -⟩ := hleft
    refine ⟨hmessages, hrep.content, fun hincomplete => ?_, fun _ => hconn⟩
    rcases hincomplete with hshort | ⟨href, -⟩
    · exact absurd hrest.1 (Nat.not_le_of_lt hshort)
    · exact absurd hrest.2 href

/-- **Every stream, in any chunks.** Whatever bytes arrive on a new connection, there is one way to split them into
    whole messages and a rest that starts with none. However they are cut into chunks, the codec passes on exactly
    these messages, in their order, leaves the rest in the buffer, and shuts the connection down exactly if a length
    that is refused is in front of the rest. -/
theorem messages_delivered (codec : LengthHeaderCodec) (conn : TcpConnection) (chunks : List Bytes) (fuel : Nat)
    (hfits : (bytes chunks).length < maxObject) (hfuel : (bytes chunks).length < fuel) :
    ∃ ms rest s, (∀ ms' rest', Splits (bytes chunks) ms' rest' ↔ ms' = ms ∧ rest' = rest) ∧
      codec.receiveAll fuel ⟨conn, Buffer.new, []⟩ chunks = some (.ok s) ∧ s.messages = ms ∧ s.buf.readable = rest ∧
      (Incomplete rest → s.conn = ms.foldl codec.messageCallback conn) ∧
      (Invalid rest → s.conn = (ms.foldl codec.messageCallback conn).shutdown) := by
  obtain ⟨ms, rest, hsplit⟩ := exists_splits (bytes chunks)
  obtain ⟨s, hrun, hmessages, hrest, hconn⟩ := receiveAll_splits codec conn hfits hfuel hsplit
  refine ⟨ms, rest, s, fun ms' rest' => ⟨fun hsplit' => ?_, ?_⟩, hrun, hmessages, hrest, hconn⟩
  · obtain ⟨s', hrun', hmessages', hrest', -⟩ := receiveAll_splits codec conn hfits hfuel hsplit'
    obtain rfl := Except.ok.inj (Option.some.inj (hrun.symm.trans hrun'))
    exact ⟨hmessages'.symm.trans hmessages, hrest'.symm.trans hrest⟩
  · rintro ⟨rfl, rfl⟩
    exact hsplit

/-- One message with its length, and a length that is refused, in two chunks. -/
theorem messages_delivered_refused : ∃ chunks : List Bytes, bytes chunks = [0, 0, 0, 1, 0x61, 0xff, 0, 0, 0] ∧
    ∃ ms rest s, (∀ ms' rest', Splits (bytes chunks) ms' rest' ↔ ms' = ms ∧ rest' = rest) ∧
      receiveAll ⟨fun conn _ => conn⟩ 10 ⟨TcpConnection.new false false, Buffer.new, []⟩ chunks = some (.ok s) ∧
      s.messages = ms := by
  obtain ⟨ms, rest, s, hsplit, hrun, hmessages, -⟩ := messages_delivered ⟨fun conn _ => conn⟩
    (TcpConnection.new false false) [⟨[0, 0, 0, 1, 0x61, 0xff], by decide⟩, ⟨[0, 0, 0], by decide⟩] 10 (by decide)
    (by decide)
  exact ⟨_, rfl, ms, rest, s, hsplit, hrun, hmessages⟩

/-! ## Sending -/

/-- **`send` puts the length in front**, on a buffer of its own. -/
theorem encode_frame {m : List UInt8} (hm : m.length < 2 ^ 31) : ∃ b, encode (.ofString m) = .ok b ∧
    b.Rep (frame m) true := by
  obtain ⟨b, hb, hrep⟩ := append_ok (d := m) new_rep (by unfold maxSize kCheapPrepend; rw [List.length_nil]; omega)
  rw [List.nil_append] at hrep
  have hcheap : kCheapPrepend ≤ b.prependableBytes := hrep.cheap rfl
  have hlen : toInt32 (toInt32 m.length) = m.length := by
    rw [toInt32_eq (n := (m.length : Int)) (by omega) (by omega), toInt32_eq (by omega) (by omega)]
  obtain ⟨b', hb', hrep'⟩ := prepend_rep hrep (d := hostToNetwork32 m.length)
    (by rw [length_hostToNetwork32]; unfold kCheapPrepend at hcheap; omega)
  refine ⟨b', ?_, hrep'⟩
  unfold encode StringPiece.ofString
  dsimp only
  rw [toSizeT_toInt32 hm, hb, ok_bind, hlen, hb']

variable {c c' : TcpConnection}

theorem send_said (h : c.Outputs) {m : List UInt8} (hm : Short m) {r : WriteResult} (hr : r ≠ .failed .EPIPE) :
    Safe (send c (.ofString m) r) fun c' => c'.Outputs ∧ c'.said = TcpConnection.say (frame m) false c.said := by
  unfold Short kMaxLen at hm
  obtain ⟨b, hb, hrep⟩ := encode_frame (m := m) (by omega)
  have hfits : (frame m).length < maxObject := by
    rw [length_frame]
    unfold kHeaderLen maxObject
    omega
  unfold send
  rw [hb, ok_bind]
  refine Safe.bind (TcpConnection.sendBuffer_said h ⟨frame m, hfits⟩ hrep hr) ?_
  rintro ⟨c', b'⟩ hsaid
  exact Safe.ok hsaid

/-- Messages sent one after the other, with the kernel's answers. -/
def sendAll (c : TcpConnection) : List (List UInt8 × WriteResult) → Outcome TcpConnection
  | [] => .ok c
  | (m, r) :: ms => do
      let c ← send c (.ofString m) r
      sendAll c ms

theorem sendAll_said (h : c.Outputs) (hup : c.state = .kConnected) {ms : List (List UInt8 × WriteResult)}
    (hms : ∀ m ∈ ms, Short m.1 ∧ m.2 ≠ .failed .EPIPE) (hsent : sendAll c ms = .ok c') :
    c'.stream = c.stream ++ (ms.map Prod.fst).flatMap frame := by
  induction ms generalizing c with
  | nil =>
      obtain rfl := Except.ok.inj hsent
      exact (List.append_nil _).symm
  | cons m ms ih =>
      obtain ⟨hm, hms⟩ := List.forall_mem_cons.mp hms
      obtain ⟨c₁, hone, hsent⟩ := bind_eq_ok.mp hsent
      obtain ⟨hout, hsaid⟩ := (send_said h hm.1 hm.2).of_eq_ok hone
      have hstream : c₁.stream = c.stream ++ frame m.1 := by
        have hsnd := congrArg Prod.snd hsaid
        rw [TcpConnection.said, TcpConnection.said, hup] at hsnd
        exact hsnd
      have hstate : c₁.state = .kConnected := by
        have hfst := congrArg Prod.fst hsaid
        rw [TcpConnection.said, TcpConnection.said, hup] at hfst
        exact hfst
      rw [ih hout hstate hms hsent, hstream, List.map_cons, List.flatMap_cons, List.append_assoc]

/-- **What is sent is delivered.** Messages of at most 65536 bytes are sent on a connection that is up, whatever the
    kernel takes of them at once. Once all that the connection has to send has arrived at the other end, in any
    chunks, exactly these messages have been passed on there, in the order they were sent, and nothing is left. -/
theorem messages_cross (codec : LengthHeaderCodec) (hout : c.Outputs) (hup : c.state = .kConnected)
    (hnew : c.stream = []) {ms : List (List UInt8 × WriteResult)} (hms : ∀ m ∈ ms, Short m.1 ∧ m.2 ≠ .failed .EPIPE)
    (hsent : sendAll c ms = .ok c') (conn : TcpConnection) {chunks : List Bytes} (hchunks : bytes chunks = c'.stream)
    (hfits : (bytes chunks).length < maxObject) (hfuel : (bytes chunks).length < fuel) :
    ∃ s, codec.receiveAll fuel ⟨conn, Buffer.new, []⟩ chunks = some (.ok s) ∧ s.messages = ms.map Prod.fst ∧
      s.buf.readable = [] ∧ s.conn = (ms.map Prod.fst).foldl codec.messageCallback conn := by
  have hstream := sendAll_said hout hup hms hsent
  rw [hnew, List.nil_append] at hstream
  have hempty : Incomplete [] := Or.inl (by decide)
  have hsplit : Splits (bytes chunks) (ms.map Prod.fst) [] := by
    refine ⟨by rw [hchunks, hstream, List.append_nil], fun m hm => ?_, Or.inl hempty⟩
    obtain ⟨m', hm', rfl⟩ := List.mem_map.mp hm
    exact (hms m' hm').1
  obtain ⟨s, hrun, hmessages, hrest, hconn, -⟩ := receiveAll_splits codec conn hfits hfuel hsplit
  exact ⟨s, hrun, hmessages, hrest, hconn hempty⟩

/-- Two messages, of which the kernel takes three bytes at once; they arrive in three chunks. -/
theorem messages_cross_two : ∃ (c c' : TcpConnection) (chunks : List Bytes) (s : CodecSession),
    sendAll c [([0x61], .wrote 3), ([0x62, 0x63], .wrote 3)] = .ok c' ∧ c'.accepted = [0, 0, 0] ∧
    bytes chunks = c'.stream ∧ chunks.map (·.data.length) = [2, 4, 5] ∧
    receiveAll ⟨fun conn _ => conn⟩ 12 ⟨TcpConnection.new false false, Buffer.new, []⟩ chunks = some (.ok s) ∧
    s.messages = [[0x61], [0x62, 0x63]] := by
  let c := (TcpConnection.new false false).setState .kConnected
  have hout : c.Outputs :=
    ⟨(TcpConnection.outputs_new false false).rep, (TcpConnection.outputs_new false false).interest⟩
  have hms : ∀ m ∈ [(([0x61] : List UInt8), WriteResult.wrote 3), ([0x62, 0x63], .wrote 3)],
      Short m.1 ∧ m.2 ≠ .failed .EPIPE := by
    intro m hm
    rcases List.mem_pair.mp hm with rfl | rfl
    · exact ⟨by unfold Short kMaxLen; decide, by simp⟩
    · exact ⟨by unfold Short kMaxLen; decide, by simp⟩
  let chunks : List Bytes :=
    [⟨[0, 0], by decide⟩, ⟨[0, 1, 0x61, 0], by decide⟩, ⟨[0, 0, 2, 0x62, 0x63], by decide⟩]
  obtain ⟨c', hsent, haccepted, hstream⟩ :
      Returns (sendAll c [([0x61], .wrote 3), ([0x62, 0x63], .wrote 3)]) fun c' =>
        c'.accepted = [0, 0, 0] ∧ bytes chunks = c'.stream := by decide +kernel
  obtain ⟨s, hrun, hmessages, -⟩ := messages_cross ⟨fun conn _ => conn⟩ hout rfl
    (show c.accepted ++ c.outputBuffer.readable = [] by decide +kernel) hms hsent (TcpConnection.new false false) hstream
    (by decide) (show _ < 12 by decide)
  exact ⟨c, c', chunks, s, hsent, haccepted, hstream, rfl, hrun, hmessages⟩

end Muduo.Examples.LengthHeaderCodec
