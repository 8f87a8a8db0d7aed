import Muduo.Examples.Hub.Codec
import Muduo.Net.Correctness.HttpHeaders

/-!
# `Correctness.HubCodec` — what `parseMessage` makes of the front of the buffer

Whatever bytes are in the buffer, they start with a part of a message, or with a line that is refused, or with a
message (`front_cases`), and each of the three is what `parseMessage` says it is. A message that is valid is read back
from what `render` makes of it, with anything behind it; this is what both ends of a hub connection send.
-/

namespace Muduo.Net.Buffer

open Lib

variable {b : Buffer} {q : List UInt8} {p : Bool}

/-- `findCRLF(start)`, from inside what is readable. -/
theorem findCRLFFrom_eq (h : b.Rep q p) {k : Nat} (hk : k ≤ q.length) : b.findCRLFFrom (b.readerIndex + k) =
    .ok (if search kCRLF (q.drop k) = (q.drop k).length then none
      else some (b.readerIndex + k + search kCRLF (q.drop k))) := by
  have hlen := h.length_eq
  have hreader := h.reader_le
  have hwindow : window b.buffer (b.readerIndex + k) b.writerIndex = q.drop k := by
    rw [← drop_window, ← h.content]
    rfl
  have hdrop : (q.drop k).length = q.length - k := List.length_drop
  unfold findCRLFFrom
  rw [assert_pos (Nat.le_add_right _ _), ok_bind, assert_pos (by omega), ok_bind]
  dsimp only
  rw [hwindow]
  by_cases hnone : search kCRLF (q.drop k) = (q.drop k).length
  · rw [if_pos hnone, if_pos (by omega)]
  · rw [if_neg hnone, if_neg (by omega)]

end Muduo.Net.Buffer

namespace Muduo.Examples

open Lib Net Buffer

/-! ## Messages as bytes -/

namespace HubMessage

/-- The line that starts a message. -/
def firstLine (cmd topic : List UInt8) : List UInt8 := cmd ++ 0x20 :: topic

/-- A message, as it is sent. -/
def render (m : HubMessage) : List UInt8 :=
  firstLine m.cmd m.topic ++ kCRLF ++ if m.cmd = pub then m.content ++ kCRLF else []

/-- A message that can be sent: no blank in the command, no line end in a line, no content without a line for it. -/
structure Valid (m : HubMessage) : Prop where
  cmd : 0x20 ∉ m.cmd
  line : ¬ kCRLF <:+: firstLine m.cmd m.topic
  content : ¬ kCRLF <:+: m.content
  other : m.cmd ≠ pub → m.content = []

variable {m : HubMessage} {rest : List UInt8}

theorem render_pub (h : m.cmd = pub) : m.render = firstLine m.cmd m.topic ++ kCRLF ++ (m.content ++ kCRLF) := by
  rw [render, if_pos h]

theorem render_other (h : m.cmd ≠ pub) : m.render = firstLine m.cmd m.topic ++ kCRLF := by
  rw [render, if_neg h, List.append_nil]

/-- A line has one command and one topic. -/
theorem firstLine_inj {cmd cmd' topic topic' : List UInt8} (h : 0x20 ∉ cmd) (h' : 0x20 ∉ cmd')
    (heq : firstLine cmd topic = firstLine cmd' topic') : cmd = cmd' ∧ topic = topic' := by
  have hlen : cmd.length = cmd'.length := by
    rw [← idxOf_space h topic, ← idxOf_space h' topic', ← firstLine, heq, firstLine]
  obtain ⟨hcmd, htopic⟩ := List.append_inj heq hlen
  exact ⟨hcmd, (List.cons.inj htopic).2⟩

/-- Where there is no line end in a topic, there is none in the line. -/
theorem not_infix_firstLine {cmd topic : List UInt8} (hc : ¬ kCRLF <:+: cmd) (ht : ¬ kCRLF <:+: topic) :
    ¬ kCRLF <:+: firstLine cmd topic := by
  intro hin
  rcases pair_infix_split (by decide) (by decide) hin with hin | hin
  · exact hc hin
  · exact ht hin

theorem Valid.topic (h : m.Valid) : ¬ kCRLF <:+: m.topic := fun hin =>
  h.line (hin.trans ((List.suffix_cons _ _).trans (List.suffix_append _ _)).isInfix)

/-- The first line of a message. -/
theorem Valid.startsWith (h : m.Valid) (rest : List UInt8) : StartsWith (m.render ++ rest) (firstLine m.cmd m.topic)
    ((if m.cmd = pub then m.content ++ kCRLF else []) ++ rest) :=
  ⟨by rw [render, List.append_assoc], firstAt_kCRLF_iff.mpr h.line⟩

theorem length_render_pos (m : HubMessage) : 0 < m.render.length := by
  unfold render firstLine
  rw [List.length_append, List.length_append, List.length_append, List.length_cons]
  omega

end HubMessage

open HubMessage

variable {m : HubMessage} {q line rest d : List UInt8} {b : Buffer} {p : Bool}

/-! ## The front of a stream -/

/-- A part of a message. -/
def HubPart (q : List UInt8) : Prop :=
  NoLine q ∨ ∃ topic rest, StartsWith q (firstLine pub topic) rest ∧ NoLine rest

/-- A line without a blank. -/
def HubRefused (q : List UInt8) : Prop := ∃ line rest, StartsWith q line rest ∧ 0x20 ∉ line

/-- **What is in front**: a part of a message, a line that is refused, or a message. -/
theorem front_cases (q : List UInt8) : HubPart q ∨ HubRefused q ∨ ∃ (m : HubMessage) (rest : List UInt8),
    m.Valid ∧ q = m.render ++ rest := by
  rcases noLine_or_startsWith q with hnone | ⟨line, rest, hline⟩
  · exact Or.inl (Or.inl hnone)
  by_cases hspace : (0x20 : UInt8) ∈ line
  · obtain ⟨heq, hcmd⟩ := split_idxOf (List.idxOf_lt_length_of_mem hspace).ne
    have hhead : ¬ kCRLF <:+: firstLine (line.take (line.idxOf 0x20)) (line.drop (line.idxOf 0x20 + 1)) := by
      unfold firstLine
      rw [← heq]
      exact firstAt_kCRLF_iff.mp hline.first
    by_cases hpub : line.take (line.idxOf 0x20) = pub
    · rcases noLine_or_startsWith rest with hnone | ⟨content, rest', hcontent⟩
      · refine Or.inl (Or.inr ⟨line.drop (line.idxOf 0x20 + 1), rest, ?_, hnone⟩)
        rw [firstLine, ← hpub, ← heq]
        exact hline
      · refine Or.inr (Or.inr ⟨⟨_, _, content⟩, rest', ⟨hcmd, hhead, ?_, fun hne => absurd hpub hne⟩, ?_⟩)
        · exact firstAt_kCRLF_iff.mp hcontent.first
        · rw [render_pub hpub, firstLine, ← heq, hline.eq, hcontent.eq]
          simp only [List.append_assoc]
    · refine Or.inr (Or.inr ⟨⟨_, _, []⟩, rest, ⟨hcmd, hhead, show ¬ kCRLF <:+: [] by decide, fun _ => rfl⟩, ?_⟩)
      rw [render_other hpub, firstLine, ← heq, hline.eq]
  · exact Or.inr (Or.inl ⟨line, rest, hline, hspace⟩)

/-- In front of a message there is neither a part of one nor a line that is refused. -/
theorem HubMessage.Valid.front (h : m.Valid) (rest : List UInt8) :
    ¬ HubPart (m.render ++ rest) ∧ ¬ HubRefused (m.render ++ rest) := by
  have hstarts := h.startsWith rest
  constructor
  · rintro (hnone | ⟨topic, rest', hstarts', hnone⟩)
    · exact hstarts.not_noLine hnone
    · obtain ⟨hhead, rfl⟩ := hstarts.unique hstarts'
      have hcmd : m.cmd = pub := (firstLine_inj h.cmd (by decide) hhead).1
      rw [if_pos hcmd] at hnone
      have hcontent : StartsWith (m.content ++ kCRLF ++ rest) m.content rest := ⟨rfl, firstAt_kCRLF_iff.mpr h.content⟩
      exact hcontent.not_noLine hnone
  · rintro ⟨line, rest', hstarts', hspace⟩
    obtain ⟨rfl, -⟩ := hstarts.unique hstarts'
    exact hspace (List.mem_append_right _ (List.mem_cons_self ..))

/-- Another message in front is the same. -/
theorem HubMessage.Valid.unique {m' : HubMessage} {rest' : List UInt8} (h : m.Valid) (h' : m'.Valid)
    (heq : m.render ++ rest = m'.render ++ rest') : m = m' ∧ rest = rest' := by
  have hstarts := h.startsWith rest
  rw [heq] at hstarts
  obtain ⟨hhead, hrest⟩ := hstarts.unique (h'.startsWith rest')
  obtain ⟨hcmd, htopic⟩ := firstLine_inj h.cmd h'.cmd hhead
  obtain ⟨cmd, topic, content⟩ := m
  obtain ⟨cmd', topic', content'⟩ := m'
  dsimp only at hcmd htopic hrest
  subst hcmd htopic
  by_cases hpub : cmd = pub
  · rw [if_pos hpub, if_pos hpub] at hrest
    have hcontent : StartsWith (content ++ kCRLF ++ rest) content rest := ⟨rfl, firstAt_kCRLF_iff.mpr h.content⟩
    have hcontent' : StartsWith (content' ++ kCRLF ++ rest') content' rest' :=
      ⟨rfl, firstAt_kCRLF_iff.mpr h'.content⟩
    rw [hrest] at hcontent
    obtain ⟨rfl, rfl⟩ := hcontent.unique hcontent'
    exact ⟨rfl, rfl⟩
  · obtain rfl : content = [] := h.other hpub
    obtain rfl : content' = [] := h'.other hpub
    rw [if_neg hpub, List.nil_append, List.nil_append] at hrest
    exact ⟨rfl, hrest⟩

/-- Messages in front of other messages are the first of them. -/
theorem flatMap_render_prefix {ms xs : List HubMessage} (hms : ∀ m ∈ ms, m.Valid) (hxs : ∀ m ∈ xs, m.Valid)
    (heq : ms.flatMap render ++ rest = xs.flatMap render) : ∃ more, xs = ms ++ more ∧ rest = more.flatMap render := by
  induction ms generalizing xs with
  | nil => exact ⟨xs, rfl, heq⟩
  | cons m ms ih =>
      obtain ⟨hm, hms⟩ := List.forall_mem_cons.mp hms
      rw [List.flatMap_cons, List.append_assoc] at heq
      cases xs with
      | nil =>
          have hnil := (List.append_eq_nil_iff.mp heq).1
          exact absurd (congrArg List.length hnil) (length_render_pos m).ne'
      | cons x xs =>
          obtain ⟨hx, hxs'⟩ := List.forall_mem_cons.mp hxs
          rw [List.flatMap_cons] at heq
          obtain ⟨rfl, hrest⟩ := hm.unique hx heq
          obtain ⟨more, rfl, hmore⟩ := ih hms hxs' hrest
          exact ⟨more, rfl, hmore⟩

/-- What is no message in front is not made up of messages. -/
theorem eq_nil_of_flatMap_render {more : List HubMessage} (hmore : ∀ m ∈ more, m.Valid)
    (hq : HubPart (more.flatMap render) ∨ HubRefused (more.flatMap render)) : more = [] := by
  cases more with
  | nil => rfl
  | cons m more =>
      obtain ⟨hpart, hrefused⟩ := (hmore m (List.mem_cons_self ..)).front (more.flatMap render)
      exact (hq.elim hpart hrefused).elim

/-! ## `parseMessage` -/

theorem parseMessage_part (h : b.Rep q p) (hq : HubPart q) :
    ∃ m, parseMessage b = .ok (.kContinue, m, b) := by
  unfold parseMessage
  rcases hq with hnone | ⟨topic, rest, hstarts, hnone⟩
  · rw [findCRLF_none h hnone]
    exact ⟨_, rfl⟩
  · obtain ⟨hfind, hwindow, -⟩ := findCRLF_line h hstarts
    have hidx : (firstLine pub topic).idxOf 0x20 = pub.length := idxOf_space (by decide) topic
    have htake : (firstLine pub topic).take pub.length = pub := List.take_left
    have hne : pub.length ≠ (firstLine pub topic).length := by
      rw [firstLine, List.length_append, List.length_cons]
      omega
    have hk : (firstLine pub topic).length + 2 ≤ q.length := by
      have := congrArg List.length hstarts.eq
      have hcrlf : kCRLF.length = 2 := rfl
      rw [List.length_append, List.length_append] at this
      omega
    have hdrop : q.drop ((firstLine pub topic).length + 2) = rest := by
      rw [hstarts.eq]
      exact List.drop_left' (by rw [List.length_append]; rfl)
    have hfrom := findCRLFFrom_eq h hk
    rw [hdrop, if_pos (show search kCRLF rest = rest.length from hnone), ← Nat.add_assoc] at hfrom
    rw [hfind]
    dsimp only
    rw [hwindow, hidx, if_pos hne, if_pos htake, hfrom]
    exact ⟨_, rfl⟩

theorem parseMessage_refused (h : b.Rep q p) (hq : HubRefused q) :
    ∃ m, parseMessage b = .ok (.kError, m, b) := by
  obtain ⟨line, rest, hstarts, hspace⟩ := hq
  obtain ⟨hfind, hwindow, -⟩ := findCRLF_line h hstarts
  unfold parseMessage
  rw [hfind]
  dsimp only
  rw [hwindow, if_neg (not_not.mpr (List.idxOf_eq_length hspace))]
  exact ⟨_, rfl⟩

theorem parseMessage_message (h : b.Rep (m.render ++ rest) p) (hm : m.Valid) :
    ∃ b', parseMessage b = .ok (.kSuccess, m, b') ∧ b'.Rep rest p := by
  have hstarts := hm.startsWith rest
  obtain ⟨hfind, hwindow, b', hb', hrep⟩ := findCRLF_line h hstarts
  have hidx : (firstLine m.cmd m.topic).idxOf 0x20 = m.cmd.length := idxOf_space hm.cmd m.topic
  have htake : (firstLine m.cmd m.topic).take m.cmd.length = m.cmd := List.take_left
  have hdrop : (firstLine m.cmd m.topic).drop (m.cmd.length + 1) = m.topic := by
    rw [← List.drop_drop, firstLine, List.drop_left]
    rfl
  have hne : m.cmd.length ≠ (firstLine m.cmd m.topic).length := by
    rw [firstLine, List.length_append, List.length_cons]
    omega
  unfold parseMessage
  rw [hfind]
  dsimp only
  rw [hwindow, hidx, if_pos hne, htake, hdrop]
  by_cases hpub : m.cmd = pub
  · have hlen : (m.render ++ rest).length =
        (firstLine m.cmd m.topic).length + 2 + (m.content.length + 2 + rest.length) := by
      have hcrlf : kCRLF.length = 2 := rfl
      rw [render_pub hpub]
      simp only [List.length_append, hcrlf]
      omega
    have hafter : (m.render ++ rest).drop ((firstLine m.cmd m.topic).length + 2) = m.content ++ kCRLF ++ rest := by
      rw [render_pub hpub, List.append_assoc]
      exact List.drop_left' (by rw [List.length_append]; rfl)
    have hsearch : search kCRLF (m.content ++ kCRLF ++ rest) = m.content.length :=
      (firstAt_kCRLF_iff.mpr hm.content).search_append rest
    have hfrom := findCRLFFrom_eq h (k := (firstLine m.cmd m.topic).length + 2) (by omega)
    rw [hafter, hsearch, if_neg (by simp only [List.length_append]; have : kCRLF.length = 2 := rfl; omega),
      ← Nat.add_assoc] at hfrom
    have hcontent : window b.buffer (b.readerIndex + (firstLine m.cmd m.topic).length + 2)
        (b.readerIndex + (firstLine m.cmd m.topic).length + 2 + m.content.length) = m.content := by
      have hlength := h.length_eq
      rw [← take_window (j := b.writerIndex) (by omega), Nat.add_assoc, ← drop_window]
      show (b.readable.drop _).take _ = _
      rw [h.content, hafter, List.append_assoc, List.take_left]
    obtain ⟨b₂, hb₂, hrep₂⟩ := retrieveUntil_rep h
      (k := (firstLine m.cmd m.topic).length + 2 + (m.content.length + 2)) (by omega)
    have hend : (m.render ++ rest).drop ((firstLine m.cmd m.topic).length + 2 + (m.content.length + 2)) = rest := by
      rw [← List.drop_drop, hafter]
      exact List.drop_left' (by rw [List.length_append]; rfl)
    rw [hend] at hrep₂
    have hoffset : b.readerIndex + (firstLine m.cmd m.topic).length + 2 + m.content.length + 2 =
        b.readerIndex + ((firstLine m.cmd m.topic).length + 2 + (m.content.length + 2)) := by omega
    rw [if_pos hpub, hfrom, ok_bind]
    dsimp only
    rw [hcontent, hoffset, hb₂]
    exact ⟨b₂, rfl, hrep₂⟩
  · rw [if_neg hpub, List.nil_append] at hrep
    rw [if_neg hpub, hb', ok_bind, ← hm.other hpub]
    exact ⟨b', rfl, hrep⟩

end Muduo.Examples
