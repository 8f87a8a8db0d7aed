import Muduo.Lib.Adler32
import Muduo.Lib.Blocks
import Muduo.Net.Correctness.RpcCodec

/-!
# `Correctness.RpcStream` — the loop of `onMessage` on whole streams

A stream of frames arrives in chunks that need not respect the frames. After each chunk the buffer holds a part
of the first frame that is not complete, however the chunks were cut, and every frame before it has been
delivered once. For arbitrary contents of the buffer, the loop ends exactly if these are frames followed by an
incomplete one: every other content makes it call the default error callback for ever.
-/

namespace Muduo.Net.RpcCodec

open Lib Blocks

variable {RpcMessage : Type} (codec : RpcCodec RpcMessage) {w : Wire RpcMessage} {s s' : RpcSession RpcMessage}
variable {payload q rest : List UInt8} {p : Bool} {message : RpcMessage} {ms : List RpcMessage} {fuel : Nat}

/-! ## Streams of messages -/

/-- What is relied on in protobuf: `ByteSize` is exact, and parsing inverts serialization. -/
structure Exact (w : Wire RpcMessage) : Prop where
  byteSize : ∀ m, w.byteSize m = (w.serialize m).length
  inverts : ∀ m, w.isInitialized m = true → w.parseFromArray (w.serialize m) = some m

/-- A message that can be sent, in a frame whose length field is at most `kMaxMessageLen`. -/
def Sendable (w : Wire RpcMessage) (m : RpcMessage) : Prop := w.isInitialized m = true ∧ Short (w.serialize m)

/-- The frame of a message. -/
def frameOf (w : Wire RpcMessage) (m : RpcMessage) : List UInt8 := frame w (w.serialize m)

/-- **Complete frames are delivered in order**, and an incomplete one is left for later. -/
theorem onMessage_frames (hw : Exact w) (hms : ∀ m ∈ ms, Sendable w m)
    (h : s.buf.Rep ((ms.map (frameOf w)).flatten ++ rest) p) (hrest : Incomplete rest)
    (hfuel : ms.length < fuel) : ∃ s', codec.onMessage w fuel s = some (.ok s') ∧ s'.buf.Rep rest p ∧
      s'.messages = s.messages ++ ms ∧ s'.errors = s.errors := by
  induction ms generalizing s fuel with
  | nil =>
      obtain ⟨fuel, rfl⟩ := Nat.exists_eq_succ_of_ne_zero (Nat.ne_of_gt hfuel)
      exact ⟨s, Loop.run_leave (iterate_incomplete codec h hrest), h, by simp, rfl⟩
  | cons m ms ih =>
      obtain ⟨fuel, rfl⟩ := Nat.exists_eq_succ_of_ne_zero (Nat.ne_of_gt (Nat.zero_lt_of_lt hfuel))
      obtain ⟨hinit, hshort⟩ := hms m List.mem_cons_self
      rw [List.map_cons, List.flatten_cons, List.append_assoc] at h
      obtain ⟨b, hb, hiter⟩ := iterate_frame codec h hshort (hw.inverts m hinit)
      obtain ⟨s', hrun, hrep, hmsgs, herrs⟩ := ih (s := { codec.deliver s m with buf := b })
        (fun m' hm' => hms m' (List.mem_cons_of_mem _ hm')) hb (Nat.lt_of_succ_lt_succ hfuel)
      refine ⟨s', (Loop.run_again hiter).trans hrun, hrep, ?_, herrs⟩
      rw [hmsgs]
      simp [deliver]

/-- A proper part of a frame is incomplete. -/
theorem incomplete_of_proper (hshort : Short payload) (hpre : rest <+: frame w payload)
    (hlen : rest.length < (frame w payload).length) : Incomplete rest := by
  by_cases hlong : kMinMessageLen + kHeaderLen ≤ rest.length
  · have hfield : lengthField rest = payload.length + 8 := by
      have htake : rest.take kHeaderLen = (frame w payload).take kHeaderLen := by
        obtain ⟨more, hmore⟩ := hpre
        rw [← hmore, List.take_append_of_le_length (le_trans (by decide) hlong)]
      rw [← lengthField_frame (w := w) hshort [], List.append_nil]
      unfold lengthField
      rw [htake]
    have hle := hshort.length_lt
    rw [length_frame] at hlen
    refine Or.inr ?_
    rw [hfield]
    unfold kMinMessageLen kMaxMessageLen kHeaderLen
    omega
  · exact Or.inl (not_le.mp hlong)

theorem incomplete_of_part (hms : ∀ m ∈ ms, Sendable w m) (h : PartOf (ms.map (frameOf w)) rest) :
    Incomplete rest := by
  cases ms with
  | nil =>
      cases h
      exact Or.inl (by decide)
  | cons m ms =>
      cases h with
      | first hpre hlen => exact incomplete_of_proper (hms m List.mem_cons_self).2 hpre hlen

/-- What holds after the bytes `received`, of the stream of the messages `ms`, have arrived from `s₀` on. -/
structure Synced (w : Wire RpcMessage) (s₀ : RpcSession RpcMessage) (ms : List RpcMessage)
    (received : List UInt8) (s : RpcSession RpcMessage) (done todo : List RpcMessage) : Prop where
  split : ms = done ++ todo
  messages : s.messages = s₀.messages ++ done
  errors : s.errors = s₀.errors
  received_eq : received = (done.map (frameOf w)).flatten ++ s.buf.readable
  part : PartOf (todo.map (frameOf w)) s.buf.readable
  valid : s.buf.Valid

theorem length_lt_of_part (hms : ∀ m ∈ ms, Sendable w m) (h : PartOf (ms.map (frameOf w)) rest) :
    rest.length < kMaxMessageLen + 8 := by
  cases ms with
  | nil =>
      cases h
      exact Nat.add_pos_right _ (by decide)
  | cons m ms =>
      cases h with
      | first _ hlen =>
          have hle := (hms m List.mem_cons_self).2.length_lt
          unfold frameOf at hlen
          rw [length_frame] at hlen
          unfold kMaxMessageLen
          omega

variable {s₀ : RpcSession RpcMessage} {received : List UInt8} {done todo : List RpcMessage}

/-- **One chunk**, whatever its length, keeps decoder and stream in step. -/
theorem Synced.receive (h : Synced w s₀ ms received s done todo) (hw : Exact w)
    (hms : ∀ m ∈ ms, Sendable w m) (chunk : Bytes)
    (hstream : received ++ chunk.data <+: (ms.map (frameOf w)).flatten) (hfuel : ms.length < fuel) :
    ∃ s' done' todo', codec.receive w fuel s chunk = some (.ok s') ∧
      Synced w s₀ ms (received ++ chunk.data) s' done' todo' := by
  obtain ⟨rfl, hmsgs, herrs, rfl, hpart, hvalid⟩ := h
  have htodo : ∀ m ∈ todo, Sendable w m := fun m hm => hms m (List.mem_append_right _ hm)
  have hsmall := length_lt_of_part htodo hpart
  have hfits := chunk.fits
  obtain ⟨b, hb, hrep⟩ := Buffer.append_ok (d := chunk.data) hvalid.rep (by
    unfold maxObject kMaxMessageLen Buffer.kCheapPrepend maxSize at *
    omega)
  -- what is in the buffer now is cut anew
  rw [List.append_assoc, List.map_append, List.flatten_append, List.prefix_append_right_inj] at hstream
  obtain ⟨blocks, blocks', rest, hsplit, hcut, hpart'⟩ := exists_cut hstream
  obtain ⟨more, todo', rfl, rfl, rfl⟩ := List.map_eq_append_iff.mp hsplit
  rw [hcut] at hrep
  have htodo' : ∀ m ∈ todo', Sendable w m := fun m hm => htodo m (List.mem_append_right _ hm)
  have hmore : more.length < fuel := by
    simp only [List.length_append] at hfuel
    omega
  obtain ⟨s', hrun, hrep', hmsgs', herrs'⟩ := onMessage_frames codec (s := { s with buf := b }) hw
    (fun m hm => htodo m (List.mem_append_left _ hm)) hrep (incomplete_of_part htodo' hpart') hmore
  refine ⟨s', done ++ more, todo', ?_, ?_⟩
  · unfold RpcCodec.receive
    rw [hb, Loop.ok_andThen, hrun]
  · exact { split := (List.append_assoc _ _ _).symm
            messages := by rw [hmsgs', hmsgs, List.append_assoc]
            errors := herrs'.trans herrs
            received_eq := by
              rw [hrep'.content, List.append_assoc, hcut, List.map_append, List.flatten_append,
                List.append_assoc]
            part := by rw [hrep'.content]; exact hpart'
            valid := hrep'.toValid }

/-- Any number of chunks. -/
theorem Synced.receiveAll (h : Synced w s₀ ms received s done todo) (hw : Exact w)
    (hms : ∀ m ∈ ms, Sendable w m) {chunks : List Bytes}
    (hstream : received ++ (chunks.map Bytes.data).flatten <+: (ms.map (frameOf w)).flatten)
    (hfuel : ms.length < fuel) : ∃ s' done' todo', codec.receiveAll w fuel s chunks = some (.ok s') ∧
      Synced w s₀ ms (received ++ (chunks.map Bytes.data).flatten) s' done' todo' := by
  induction chunks generalizing received s done todo with
  | nil => exact ⟨s, done, todo, rfl, by simpa using h⟩
  | cons chunk chunks ih =>
      rw [List.map_cons, List.flatten_cons, ← List.append_assoc] at hstream ⊢
      obtain ⟨s₁, done₁, todo₁, hrun, h₁⟩ := h.receive codec hw hms chunk
        ((List.prefix_append _ _).trans hstream) hfuel
      obtain ⟨s₂, done₂, todo₂, hrun₂, h₂⟩ := ih h₁ hstream
      refine ⟨s₂, done₂, todo₂, ?_, h₂⟩
      unfold RpcCodec.receiveAll
      rw [hrun, Loop.ok_andThen, hrun₂]

theorem synced_start (ms : List RpcMessage) (hvalid : s₀.buf.Valid) (hempty : s₀.buf.readable = []) :
    Synced w s₀ ms [] s₀ [] ms where
  split := rfl
  messages := (List.append_nil _).symm
  errors := rfl
  received_eq := hempty.symm
  part := by
    rw [hempty]
    cases ms with
    | nil => exact .nothing
    | cons m ms => exact .first List.nil_prefix (by unfold frameOf; simp)
  valid := hvalid

/-- The same, with the messages and frames counted. -/
theorem Synced.index (h : Synced w s₀ ms received s done todo) :
    s.messages = s₀.messages ++ ms.take done.length ∧
    received = ((ms.map (frameOf w)).take done.length).flatten ++ s.buf.readable ∧
    ∀ f ∈ (ms.map (frameOf w))[done.length]?, s.buf.readable.length < f.length := by
  obtain ⟨rfl, hmsgs, -, hreceived, hpart, -⟩ := h
  have hlen : (done.map (frameOf w)).length = done.length := List.length_map _
  rw [List.take_left, List.map_append, List.take_left' hlen]
  refine ⟨hmsgs, hreceived, ?_⟩
  intro f hf
  rw [List.getElem?_append_right hlen.le, hlen, Nat.sub_self] at hf
  cases todo with
  | nil => exact absurd hf (by simp)
  | cons m todo =>
      cases hpart with
      | first _ hlt =>
          obtain rfl : frameOf w m = f := by simpa using hf
          exact hlt

theorem mapM_send (hw : Exact w) (hms : ∀ m ∈ ms, Sendable w m) :
    ms.mapM (send w) = .ok (ms.map (frameOf w)) := by
  induction ms with
  | nil => rfl
  | cons m ms ih =>
      obtain ⟨hinit, hshort⟩ := hms m List.mem_cons_self
      rw [List.mapM_cons, send_frame hinit (hw.byteSize m) hshort, ok_bind,
        ih fun m' hm' => hms m' (List.mem_cons_of_mem _ hm')]
      rfl

/-- **Framing is a round trip, however the stream is cut.** The byte strings that `send` produces for any list
    of messages, concatenated and cut into any chunks, are decoded by `onMessage`, called after each chunk: at
    every point the messages delivered are the first `j`, no error was reported, and the buffer holds exactly
    what has arrived of frame `j`; and in the end all messages have been delivered, once and in order. -/
theorem frames_round_trip (hw : Exact w) (ms : List RpcMessage)
    (hms : ∀ m ∈ ms, w.isInitialized m = true ∧ (w.serialize m).length + kMinMessageLen ≤ kMaxMessageLen) :
    ∃ sent, ms.mapM (send w) = .ok sent ∧
      ∀ (codec : RpcCodec RpcMessage) (s₀ : RpcSession RpcMessage) (chunks : List Bytes) (fuel : Nat),
        s₀.buf.Valid → s₀.buf.readable = [] → (chunks.map Bytes.data).flatten = sent.flatten →
        ms.length < fuel →
        (∀ k, ∃ s j, codec.receiveAll w fuel s₀ (chunks.take k) = some (.ok s) ∧
          s.messages = s₀.messages ++ ms.take j ∧ s.errors = s₀.errors ∧
          ((chunks.take k).map Bytes.data).flatten = (sent.take j).flatten ++ s.buf.readable ∧
          ∀ f ∈ sent[j]?, s.buf.readable.length < f.length) ∧
        ∃ s, codec.receiveAll w fuel s₀ chunks = some (.ok s) ∧ s.messages = s₀.messages ++ ms ∧
          s.errors = s₀.errors ∧ s.buf.readable = [] := by
  refine ⟨ms.map (frameOf w), mapM_send hw hms, ?_⟩
  intro codec s₀ chunks fuel hvalid hempty hchunks hfuel
  have hstart := synced_start (w := w) ms hvalid hempty
  refine ⟨?_, ?_⟩
  · intro k
    have hpre : [] ++ ((chunks.take k).map Bytes.data).flatten <+: (ms.map (frameOf w)).flatten := by
      rw [List.nil_append, ← hchunks]
      nth_rewrite 2 [← List.take_append_drop k chunks]
      rw [List.map_append, List.flatten_append]
      exact List.prefix_append _ _
    obtain ⟨s, done, todo, hrun, h⟩ := hstart.receiveAll codec hw hms hpre hfuel
    obtain ⟨hmsgs, hreceived, hpart⟩ := h.index
    exact ⟨s, done.length, hrun, hmsgs, h.errors, hreceived, hpart⟩
  · obtain ⟨s, done, todo, hrun, h⟩ := hstart.receiveAll codec hw hms
      (by rw [hchunks]; exact List.prefix_refl _) hfuel
    have hall := h.received_eq
    rw [List.nil_append, hchunks, h.split, List.map_append] at hall
    obtain ⟨htodo, hrest⟩ := h.part.eq_nil hall.symm
    refine ⟨s, hrun, ?_, h.errors, hrest⟩
    rw [h.messages, h.split, List.map_eq_nil_iff.mp htodo, List.append_nil]

/-- Requests with no more than the required fields, `type` and `id`: a varint and a `fixed64`. -/
def requestWire : Wire UInt64 where
  isInitialized _ := true
  byteSize _ := 11
  serialize id := [0x08, 0x01, 0x11] ++ (BigEndian.encode 8 id.toNat).reverse
  parseFromArray data :=
    if data.length = 11 ∧ data.take 3 = [0x08, 0x01, 0x11] then
      some (UInt64.ofNat (BigEndian.decode (data.drop 3).reverse))
    else none
  adler32 := Adler32.adler32

theorem requestWire_exact : Exact requestWire where
  byteSize id := by simp [requestWire]
  inverts id _ := by
    simp [requestWire, BigEndian.decode_encode]

/-- Two requests, cut inside the first length field. -/
theorem frames_round_trip_two : ∃ sent, [7, 8].mapM (send requestWire) = .ok sent ∧
    ∃ chunks : List Bytes, chunks.map (·.data.length) = [3, 43] ∧
      (chunks.map Bytes.data).flatten = sent.flatten ∧
      ∃ s, (new fun conn _ => conn).receiveAll requestWire 3 ⟨TcpConnection.new false false, Buffer.new, [], []⟩
        chunks = some (.ok s) ∧ s.messages = [7, 8] ∧ s.errors = [] ∧ s.buf.readable = [] := by
  have hms : ∀ m ∈ ([7, 8] : List UInt64), requestWire.isInitialized m = true ∧
      (requestWire.serialize m).length + kMinMessageLen ≤ kMaxMessageLen := by
    intro m _
    refine ⟨rfl, ?_⟩
    rw [← Int.ofNat_le, Nat.cast_add, ← requestWire_exact.byteSize m]
    show (11 : Int) + kMinMessageLen ≤ kMaxMessageLen
    decide
  obtain ⟨sent, hsent, hall⟩ := frames_round_trip requestWire_exact [7, 8] hms
  have hframes : sent = [7, 8].map (frameOf requestWire) := by
    have hok := hsent.symm.trans (mapM_send requestWire_exact hms)
    cases hok
    rfl
  have hlen : sent.flatten.length = 46 := by
    rw [hframes]
    simp [frameOf, requestWire]
  have hfits : ∀ n, (sent.flatten.take n).length < maxObject ∧ (sent.flatten.drop n).length < maxObject := by
    intro n
    rw [List.length_take, List.length_drop, hlen]
    unfold maxObject
    omega
  have hcut : ([⟨sent.flatten.take 3, (hfits 3).1⟩, ⟨sent.flatten.drop 3, (hfits 3).2⟩].map
      Bytes.data).flatten = sent.flatten := by
    simp
  refine ⟨sent, hsent, [⟨sent.flatten.take 3, (hfits 3).1⟩, ⟨sent.flatten.drop 3, (hfits 3).2⟩], ?_, hcut, ?_⟩
  · simp [hlen]
  · exact (hall _ _ _ 3 Buffer.new_rep.toValid Buffer.new_rep.content hcut (by decide)).2

/-! ## Arbitrary contents -/

/-- Frames whose payloads protobuf accepts, and then one that is not complete. -/
def Framed (w : Wire RpcMessage) (q : List UInt8) : Prop :=
  ∃ (payloads : List (List UInt8)) (rest : List UInt8), q = (payloads.map (frame w)).flatten ++ rest ∧
    (∀ d ∈ payloads, Short d ∧ (w.parseFromArray d).isSome) ∧ Incomplete rest

theorem framed_of_incomplete (h : Incomplete q) : Framed w q := ⟨[], q, rfl, by simp, h⟩

theorem Framed.cons (h : Framed w rest) (hshort : Short payload)
    (hmsg : w.parseFromArray payload = some message) : Framed w (frame w payload ++ rest) := by
  obtain ⟨payloads, last, rfl, hall, hlast⟩ := h
  refine ⟨payload :: payloads, last, by simp, ?_, hlast⟩
  intro d hd
  rcases List.mem_cons.mp hd with rfl | hd
  · exact ⟨hshort, by rw [hmsg]; rfl⟩
  · exact hall d hd

theorem Framed.front (h : Framed w q) : Incomplete q ∨ ∃ payload message rest,
    q = frame w payload ++ rest ∧ Short payload ∧ w.parseFromArray payload = some message ∧ Framed w rest := by
  obtain ⟨payloads, last, rfl, hall, hlast⟩ := h
  cases payloads with
  | nil => exact Or.inl hlast
  | cons d payloads =>
      obtain ⟨hshort, hsome⟩ := hall d List.mem_cons_self
      obtain ⟨message, hmsg⟩ := Option.isSome_iff_exists.mp hsome
      exact Or.inr ⟨d, message, (payloads.map (frame w)).flatten ++ last, by simp, hshort, hmsg,
        payloads, last, rfl, fun d' hd' => hall d' (List.mem_cons_of_mem _ hd'), hlast⟩

/-- On well-formed contents an iteration leaves the loop or consumes a frame. -/
theorem iterate_framed (hvalid : s.buf.Valid) (h : Framed w s.buf.readable) :
    (∃ s', codec.iterate w s = .ok (.leave s')) ∨
    ∃ s', codec.iterate w s = .ok (.again s') ∧ (s'.buf.Valid ∧ Framed w s'.buf.readable) ∧
      s'.buf.readableBytes + (kHeaderLen + kMinMessageLen) ≤ s.buf.readableBytes := by
  rcases h.front with hrest | ⟨payload, message, rest, hq, hshort, hmsg, hrest⟩
  · exact Or.inl ⟨s, iterate_incomplete codec hvalid.rep hrest⟩
  · have hrep := hvalid.rep
    rw [hq] at hrep
    obtain ⟨b, hb, hiter⟩ := iterate_frame codec hrep hshort hmsg
    refine Or.inr ⟨_, hiter, ⟨hb.toValid, ?_⟩, ?_⟩
    · show Framed w b.readable
      rw [hb.content]
      exact hrest
    · show b.readableBytes + (kHeaderLen + kMinMessageLen) ≤ s.buf.readableBytes
      rw [hb.readableBytes_eq, hrep.readableBytes_eq, List.length_append, length_frame]
      unfold kMinMessageLen kHeaderLen
      omega

/-- On well-formed contents the loop ends, whatever the callbacks. -/
theorem onMessage_returns (hvalid : s.buf.Valid) (h : Framed w s.buf.readable) :
    ∃ s', Loop.Returns (codec.iterate w) s (.ok s') := by
  refine Loop.returns_of_measure (I := fun s => s.buf.Valid ∧ Framed w s.buf.readable)
    (fun s => s.buf.readableBytes) (fun s hI => ?_) ⟨hvalid, h⟩
  refine (iterate_framed codec hI.1 hI.2).imp_right ?_
  rintro ⟨s', hs', hI', hless⟩
  exact ⟨s', hs', hI', lt_of_lt_of_le (Nat.lt_add_of_pos_right (by decide)) hless⟩

variable {messageCb : TcpConnection → RpcMessage → TcpConnection}

/-- On any other contents it consumes a frame or nothing, and never leaves the loop. -/
theorem iterate_not_framed (hvalid : s.buf.Valid) (h : ¬ Framed w s.buf.readable) :
    ∃ s', (new messageCb).iterate w s = .ok (.again s') ∧ s'.buf.Valid ∧ ¬ Framed w s'.buf.readable := by
  have hrep := hvalid.rep
  have hcomplete : ¬ Incomplete s.buf.readable := fun hq => h (framed_of_incomplete hq)
  by_cases hframe : StartsWithFrame w s.buf.readable
  · obtain ⟨payload, message, rest, hq, hshort, hmsg⟩ := hframe
    rw [hq] at hrep
    obtain ⟨b, hb, hiter⟩ := iterate_frame (new messageCb) hrep hshort hmsg
    refine ⟨_, hiter, hb.toValid, ?_⟩
    show ¬ Framed w b.readable
    rw [hb.content]
    intro hrest
    rw [hq] at h
    exact h (hrest.cons hshort hmsg)
  · -- the default callback leaves the buffer as it is
    obtain ⟨errorCode, hiter⟩ := iterate_malformed (new messageCb) hrep hcomplete hframe
    exact ⟨_, hiter, hvalid, h⟩

/-- **When decoding ends.** With the default error callback the loop of `onMessage` ends, each of its iterations
    leaving it or consuming at least the shortest frame, if and only if the buffer holds frames that protobuf
    accepts and then an incomplete one. On any other contents it never returns. -/
theorem onMessage_ends_iff (messageCb : TcpConnection → RpcMessage → TcpConnection) (w : Wire RpcMessage)
    (s : RpcSession RpcMessage) (hvalid : s.buf.Valid) :
    ((∃ fuel r, (new messageCb).onMessage w fuel s = some r) ∧
      ∀ s₁ s₂, Loop.Visits ((new messageCb).iterate w) s s₁ → (new messageCb).iterate w s₁ = .ok (.again s₂) →
        s₂.buf.readableBytes + (kHeaderLen + kMinMessageLen) ≤ s₁.buf.readableBytes) ↔
    Framed w s.buf.readable := by
  have hagain : ∀ s₁ s₂, (s₁.buf.Valid ∧ Framed w s₁.buf.readable) →
      (new messageCb).iterate w s₁ = .ok (.again s₂) → (s₂.buf.Valid ∧ Framed w s₂.buf.readable) ∧
        s₂.buf.readableBytes + (kHeaderLen + kMinMessageLen) ≤ s₁.buf.readableBytes := by
    intro s₁ s₂ hI hiter
    rcases iterate_framed (new messageCb) hI.1 hI.2 with ⟨s', hs'⟩ | ⟨s', hs', hI', hless⟩
    · rw [hs'] at hiter
      cases hiter
    · rw [hs'] at hiter
      cases hiter
      exact ⟨hI', hless⟩
  constructor
  · -- contents that are not framed stay so, and the loop is never left
    rintro ⟨⟨fuel, r, hrun⟩, -⟩
    by_contra hnot
    exact Loop.not_returns_of_inv (I := fun s => s.buf.Valid ∧ ¬ Framed w s.buf.readable)
      (fun s hI => iterate_not_framed hI.1 hI.2) ⟨hvalid, hnot⟩ ⟨fuel, hrun⟩
  · intro hframed
    refine ⟨?_, ?_⟩
    · obtain ⟨s', fuel, hrun⟩ := onMessage_returns (new messageCb) hvalid hframed
      exact ⟨fuel, _, hrun⟩
    · intro s₁ s₂ hvisits hiter
      have hI := hvisits.inv (I := fun s => s.buf.Valid ∧ Framed w s.buf.readable)
        (fun s₁ s₂ hI hiter => (hagain s₁ s₂ hI hiter).1) ⟨hvalid, hframed⟩
      exact (hagain s₁ s₂ hI hiter).2

/-- A request and the first 20 of the 23 bytes of another one: the loop is entered, consumes the first, and ends. -/
theorem onMessage_ends_iff_part : ∃ s s₁ : RpcSession UInt64,
    s.buf.readable = frameOf requestWire 7 ++ (frameOf requestWire 8).take 20 ∧
    (new fun conn _ => conn).iterate requestWire s = .ok (.again s₁) ∧ s₁.messages = [7] ∧
    s₁.buf.readable = (frameOf requestWire 8).take 20 ∧
    s₁.buf.readableBytes + (kHeaderLen + kMinMessageLen) ≤ s.buf.readableBytes ∧
    ∃ fuel r, (new fun conn _ => conn).onMessage requestWire fuel s = some r := by
  have hlen : ∀ m, (requestWire.serialize m).length = 11 := by
    intro m
    rw [← Int.ofNat_inj, ← requestWire_exact.byteSize m]
    rfl
  have hshort : ∀ m, Short (requestWire.serialize m) := by
    intro m
    unfold Short
    rw [hlen]
    decide
  have hframe : ∀ m, (frameOf requestWire m).length = 23 := by
    intro m
    unfold frameOf
    rw [length_frame, hlen]
  have hpart : Incomplete ((frameOf requestWire 8).take 20) := by
    refine incomplete_of_proper (hshort 8) (List.take_prefix _ _) ?_
    rw [List.length_take, hframe]
    exact (hframe 8).symm ▸ (by decide : min 20 23 < 23)
  have hmsg : requestWire.parseFromArray (requestWire.serialize 7) = some 7 := requestWire_exact.inverts 7 rfl
  obtain ⟨b, -, hrep⟩ := Buffer.append_ok (d := frameOf requestWire 7 ++ (frameOf requestWire 8).take 20)
    Buffer.new_rep (by
      rw [List.length_append, List.length_take, hframe, hframe]
      decide)
  obtain ⟨b₁, hb₁, hiter⟩ := iterate_frame (s := ⟨TcpConnection.new false false, b, [], []⟩)
    (new fun conn _ => conn) hrep (hshort 7) hmsg
  have hall := (onMessage_ends_iff (fun conn _ => conn) requestWire ⟨TcpConnection.new false false, b, [], []⟩
    hrep.toValid).mpr (by
      rw [hrep.content]
      exact (framed_of_incomplete hpart).cons (hshort 7) hmsg)
  exact ⟨_, _, hrep.content, hiter, rfl, hb₁.content, hall.2 _ _ .start hiter, hall.1⟩

/-- Twelve zero bytes: the length field is out of range, and the loop never ends. -/
theorem onMessage_zeros_never_ends : ∃ s : RpcSession UInt64, s.buf.Valid ∧
    s.buf.readable = List.replicate 12 0 ∧
    ∀ fuel, (new fun conn _ => conn).onMessage requestWire fuel s = none := by
  obtain ⟨b, -, hrep⟩ := Buffer.append_ok (d := List.replicate 12 0) Buffer.new_rep (by decide)
  refine ⟨⟨TcpConnection.new false false, b, [], []⟩, hrep.toValid, hrep.content, ?_⟩
  intro fuel
  rw [Option.eq_none_iff_forall_ne_some]
  intro r hrun
  -- every iteration starts with the same buffer
  refine Loop.not_returns_of_inv (I := fun s : RpcSession UInt64 => s.buf = b) ?_ rfl ⟨fuel, hrun⟩
  intro s hs
  subst hs
  exact ⟨_, iterate_invalidLength _ hrep (by decide) (Or.inr (by decide)), rfl⟩

end Muduo.Net.RpcCodec
