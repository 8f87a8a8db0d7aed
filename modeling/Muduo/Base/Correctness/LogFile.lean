import Muduo.Base.LogFile
import Muduo.Lib.Components

/-!
# `Base.Correctness.LogFile` — rolling loses and reorders nothing

Once a file is open, the invariant of a run is `Inv`: the lines appended fall into groups, one for each file, the second
of the last roll is that in which the file was opened, and the files were opened at increasing times. A call of
`append` puts its line at the end of the last group, and may then begin a new one (`append_cases`).

It is the constructor that opens the first file, and it does so only when the clock is past the Epoch
(`new_cases`); without a file, `append` has nothing to write to.
-/

namespace Muduo.LogFile

open Lib Detail

/-! ## Short writes -/

namespace File

variable {room : Nat → Nat} {logline : List UInt8}

/-- Another file has the same name and was opened in the same second. -/
def SameOpening (f f' : File) : Prop := f'.filename = f.filename ∧ f'.openedAt = f.openedAt

/-- One `fwrite` that takes something. -/
theorem appendLoop_step (f : File) {k n : Nat} (hroom : 0 < room k) (hn : n < logline.length) :
    f.appendLoop room logline k n =
      (f.write (room k) (logline.drop n)).1.appendLoop room logline (k + 1)
        (n + min (room k) (logline.drop n).length) := by
  have hx : (f.write (room k) (logline.drop n)).2 ≠ 0 := by
    show min (room k) (logline.drop n).length ≠ 0
    rw [List.length_drop]
    omega
  rw [appendLoop, if_pos (Nat.sub_pos_of_lt hn)]
  dsimp only
  rw [if_neg hx]
  rfl

/-- What was taken, and what is left. -/
theorem take_append_drop_min (l : List UInt8) (r : Nat) : l.take r ++ l.drop (min r l.length) = l := by
  rw [List.take_eq_take_min, List.take_append_drop]

/-- **Short writes do not matter**, as long as the stream takes something each time. -/
theorem appendLoop_spec (hroom : ∀ k, 0 < room k) (f : File) (k n : Nat) :
    (f.appendLoop room logline k n).contents = f.contents ++ logline.drop n ∧
      SameOpening f (f.appendLoop room logline k n) := by
  induction hm : logline.length - n using Nat.strong_induction_on generalizing f k n with
  | _ m ih =>
    subst hm
    by_cases hn : n < logline.length
    · have hk := hroom k
      have hless : logline.length - (n + min (room k) (logline.drop n).length) < logline.length - n := by
        rw [List.length_drop]
        omega
      obtain ⟨hcontents, hsame⟩ := ih _ hless (f.write (room k) (logline.drop n)).1 (k + 1) _ rfl
      rw [appendLoop_step f hk hn]
      refine ⟨?_, hsame⟩
      rw [hcontents, write, ← List.drop_drop, List.append_assoc, take_append_drop_min]
    · rw [appendLoop, if_neg (by omega), List.drop_eq_nil_of_le (not_lt.mp hn), List.append_nil]
      exact ⟨rfl, rfl, rfl⟩

/-- **`File::append`** writes the whole line. -/
theorem append_spec (hroom : ∀ k, 0 < room k) (f : File) :
    (f.append room logline).contents = f.contents ++ logline ∧ SameOpening f (f.append room logline) := by
  obtain ⟨hcontents, hsame⟩ := @appendLoop_spec room logline hroom (f.write (room 0) logline).1 1
    (min (room 0) logline.length)
  refine ⟨?_, hsame⟩
  show (appendLoop _ _ _ _ _).contents = _
  rw [write] at hcontents ⊢
  rw [hcontents, List.append_assoc, take_append_drop_min]

end File

variable {stamp : Int → List UInt8}

/-! ## Names -/

/-- **Files of different seconds have different names**, whatever the host and the process are. -/
theorem getLogFileName_inj (hinj : Function.Injective stamp) (hdot : ∀ t, 0x2e ∉ stamp t) {basename : List UInt8}
    {t t' : Int} {o o' : Opening} (h : getLogFileName stamp basename t o = getLogFileName stamp basename t' o') :
    t = t' := by
  unfold getLogFileName at h
  simp only [List.append_assoc, List.append_cancel_left_eq, List.cons_append, List.nil_append, List.cons.injEq,
    true_and] at h
  exact hinj (eq_of_append_sep (hdot t) (hdot t') h)

/-! ## Rolling -/

/-- Nothing changed that has to do with the files. -/
structure Same (s s' : LogFile) : Prop where
  file : s'.file = s.file
  closed : s'.closed = s.closed
  lastRoll : s'.lastRoll = s.lastRoll
  basename : s'.basename = s.basename
  rollSize : s'.rollSize = s.rollSize

/-- A new file was opened, later than the one before. -/
structure Rolled (stamp : Int → List UInt8) (s s' : LogFile) (now : Int) : Prop where
  later : s.lastRoll < now
  file : ∃ o, s'.file = some ⟨getLogFileName stamp s.basename now o, now, [], 0⟩
  closed : s'.closed = s.closed ++ s.file.toList
  lastRoll : s'.lastRoll = now
  basename : s'.basename = s.basename
  rollSize : s'.rollSize = s.rollSize

variable {s s₁ s' : LogFile} {c : Call} {f : File}

theorem rollFile_cases {now : Int} {o : Opening} (h : rollFile stamp s now o = .ok s') :
    s' = s ∧ now ≤ s.lastRoll ∨ Rolled stamp s s' now := by
  unfold rollFile at h
  dsimp only at h
  split at h
  · next hlater =>
      obtain ⟨_, _, h⟩ := bind_eq_ok.mp h
      cases h
      exact .inr ⟨hlater, ⟨o, rfl⟩, rfl, rfl, rfl, rfl⟩
  · next hlater =>
      cases h
      exact .inl ⟨rfl, not_lt.mp hlater⟩

theorem rollFile_returns (s : LogFile) (now : Int) {o : Opening} (ho : o.opens = true) :
    ∃ s', rollFile stamp s now o = .ok s' := by
  unfold rollFile
  dsimp only
  rw [assert_pos ho]
  split
  · exact ⟨_, rfl⟩
  · exact ⟨_, rfl⟩

theorem checkTime_cases (h : checkTime stamp s c = .ok s') : Same s s' ∨ ∃ now, Rolled stamp s s' now := by
  unfold checkTime at h
  split at h
  · dsimp only at h
    split at h
    · rcases rollFile_cases h with ⟨rfl, -⟩ | ⟨hlater, hfile, hclosed, hroll, hbase, hsize⟩
      · exact .inl ⟨rfl, rfl, rfl, rfl, rfl⟩
      · exact .inr ⟨_, hlater, hfile, hclosed, hroll, hbase, hsize⟩
    · split at h <;> cases h <;> exact .inl ⟨rfl, rfl, rfl, rfl, rfl⟩
  · cases h
    exact .inl ⟨rfl, rfl, rfl, rfl, rfl⟩

theorem checkTime_returns (s : LogFile) (ho : c.opening.opens = true) : ∃ s', checkTime stamp s c = .ok s' := by
  unfold checkTime
  dsimp only
  split
  · split
    · exact rollFile_returns _ _ ho
    · split
      · exact ⟨_, rfl⟩
      · exact ⟨_, rfl⟩
  · exact ⟨_, rfl⟩

/-! ## One call of `append` -/

/-- The state after the line is written, before anything is rolled. -/
def afterWrite (s : LogFile) (f : File) (c : Call) : LogFile := { s with file := some (f.append c.room c.logline) }

theorem append_of_gt (hfile : s.file = some f) (h : (f.append c.room c.logline).writtenBytes > s.rollSize) :
    append stamp s c = rollFile stamp (afterWrite s f c) c.now c.opening := by
  unfold append
  rw [hfile]
  exact if_pos h

theorem append_of_le (hfile : s.file = some f) (h : ¬ (f.append c.room c.logline).writtenBytes > s.rollSize) :
    append stamp s c = checkTime stamp (afterWrite s f c) c := by
  unfold append
  rw [hfile]
  exact if_neg h

/-- **What a call does**: after the line is written, a new file may have been opened; if that was due because of the
    size and did not happen, the clock stood still or went back. -/
theorem append_cases (hfile : s.file = some f) (h : append stamp s c = .ok s') :
    (Same (afterWrite s f c) s' ∧
        ((f.append c.room c.logline).writtenBytes > s.rollSize → c.now ≤ s.lastRoll)) ∨
      ∃ now, Rolled stamp (afterWrite s f c) s' now := by
  by_cases hsize : (f.append c.room c.logline).writtenBytes > s.rollSize
  · rw [append_of_gt hfile hsize] at h
    rcases rollFile_cases h with ⟨rfl, hnow⟩ | hrolled
    · exact .inl ⟨⟨rfl, rfl, rfl, rfl, rfl⟩, fun _ => hnow⟩
    · exact .inr ⟨_, hrolled⟩
  · rw [append_of_le hfile hsize] at h
    rcases checkTime_cases h with hsame | hrolled
    · exact .inl ⟨hsame, fun hgt => absurd hgt hsize⟩
    · exact .inr hrolled

theorem append_returns (hfile : s.file = some f) (ho : c.opening.opens = true) : ∃ s', append stamp s c = .ok s' := by
  by_cases hsize : (f.append c.room c.logline).writtenBytes > s.rollSize
  · rw [append_of_gt hfile hsize]
    exact rollFile_returns _ _ ho
  · rw [append_of_le hfile hsize]
    exact checkTime_returns _ ho

/-- Without a file there is nothing to write to. -/
theorem append_of_none (hfile : s.file = none) : append stamp s c = .error .badAccess := by
  unfold append
  rw [hfile]

/-! ## The invariant -/

/-- The file has the name of its second. -/
def Named (stamp : Int → List UInt8) (basename : List UInt8) (f : File) : Prop :=
  ∃ o, f.filename = getLogFileName stamp basename f.openedAt o

/-- What holds after the calls, with `f` the file that is open. -/
structure Inv (stamp : Int → List UInt8) (calls : List Call) (s : LogFile) (f : File) : Prop where
  file : s.file = some f
  lastRoll : s.lastRoll = f.openedAt
  lines : ∃ (groups : List (List (List UInt8))) (group : List (List UInt8)),
    s.closed.map File.contents = groups.map List.flatten ∧ f.contents = group.flatten ∧
      groups.flatten ++ group = calls.map Call.logline
  increasing : (s.closed ++ [f]).Pairwise fun g g' => g.openedAt < g'.openedAt
  named : ∀ g ∈ s.closed ++ [f], Named stamp s.basename g

/-- The line is at the end of the last group. -/
theorem Inv.afterWrite {calls : List Call} (h : Inv stamp calls s f) (hroom : ∀ k, 0 < c.room k) :
    Inv stamp (calls ++ [c]) (afterWrite s f c) (f.append c.room c.logline) := by
  obtain ⟨hcontents, hname, hopened⟩ := @File.append_spec c.room c.logline hroom f
  obtain ⟨groups, group, hgroups, hgroup, hlines⟩ := h.lines
  refine ⟨rfl, h.lastRoll.trans hopened.symm, ⟨groups, group ++ [c.logline], hgroups, ?_, ?_⟩, ?_, ?_⟩
  · rw [hcontents, hgroup, List.flatten_append, List.flatten_singleton]
  · rw [← List.append_assoc, hlines, List.map_append, List.map_singleton]
  · have hincreasing := h.increasing
    rw [List.pairwise_append] at hincreasing ⊢
    refine ⟨hincreasing.1, List.pairwise_singleton _ _, fun g hg g' hg' => ?_⟩
    rw [List.mem_singleton.mp hg', hopened]
    exact hincreasing.2.2 g hg f (List.mem_singleton_self f)
  · intro g hg
    rcases List.mem_append.mp hg with hg | hg
    · exact h.named g (List.mem_append_left _ hg)
    · obtain ⟨o, ho⟩ := h.named f (List.mem_append_right _ (List.mem_singleton_self f))
      rw [List.mem_singleton.mp hg]
      exact ⟨o, by rw [hname, ho, hopened]; rfl⟩

theorem Inv.same {calls : List Call} (h : Inv stamp calls s f) (hsame : Same s s') : Inv stamp calls s' f := by
  obtain ⟨hfile, hclosed, hroll, hbase, -⟩ := hsame
  refine ⟨hfile.trans h.file, hroll.trans h.lastRoll, ?_, ?_, ?_⟩
  · rw [hclosed]
    exact h.lines
  · rw [hclosed]
    exact h.increasing
  · rw [hclosed, hbase]
    exact h.named

/-- A new group is begun. -/
theorem Inv.rolled {calls : List Call} {now : Int} (h : Inv stamp calls s f) (hrolled : Rolled stamp s s' now) :
    ∃ f', Inv stamp calls s' f' ∧ f'.writtenBytes = 0 := by
  obtain ⟨hlater, ⟨o, hfile⟩, hclosed, hroll, hbase, -⟩ := hrolled
  rw [h.file, Option.toList_some] at hclosed
  obtain ⟨groups, group, hgroups, hgroup, hlines⟩ := h.lines
  refine ⟨_, ⟨hfile, hroll, ⟨groups ++ [group], [], ?_, rfl, ?_⟩, ?_, ?_⟩, rfl⟩
  · rw [hclosed, List.map_append, List.map_append, hgroups, List.map_singleton, List.map_singleton, hgroup]
  · rw [List.flatten_append, List.flatten_singleton, List.append_nil, hlines]
  · -- it is later than the last file, and that is the latest of the others
    rw [h.lastRoll] at hlater
    rw [hclosed, List.pairwise_append]
    refine ⟨h.increasing, List.pairwise_singleton _ _, fun g hg g' hg' => ?_⟩
    rw [List.mem_singleton.mp hg']
    rcases List.mem_append.mp hg with hg | hg
    · exact ((List.pairwise_append.mp h.increasing).2.2 g hg f (List.mem_singleton_self f)).trans hlater
    · rw [List.mem_singleton.mp hg]
      exact hlater
  · intro g hg
    rw [hclosed] at hg
    rw [hbase]
    rcases List.mem_append.mp hg with hg | hg
    · exact h.named g hg
    · rw [List.mem_singleton.mp hg]
      exact ⟨o, rfl⟩

/-- **The step**: a call keeps the invariant. -/
theorem Inv.append {calls : List Call} (h : Inv stamp calls s f) (hroom : ∀ k, 0 < c.room k)
    (happend : append stamp s c = .ok s') : ∃ f', Inv stamp (calls ++ [c]) s' f' := by
  have hwritten := h.afterWrite hroom
  rcases append_cases h.file happend with ⟨hsame, -⟩ | ⟨now, hrolled⟩
  · exact ⟨_, hwritten.same hsame⟩
  · obtain ⟨f', hinv, -⟩ := hwritten.rolled hrolled
    exact ⟨f', hinv⟩

/-- **The run.** -/
theorem Inv.path {calls : List Call} (h : Inv stamp [] s f) (hpath : (logFileSystem stamp).Path s calls s') :
    ∃ f', Inv stamp calls s' f' := by
  refine hpath.keeps (I := fun calls s => ∃ f, Inv stamp calls s f) ⟨f, h⟩ ?_
  rintro calls s c s' ⟨f₁, h₁⟩ hc happend
  exact h₁.append hc.2 happend

/-- The constructor opens a file if the clock is past the Epoch, and otherwise none. -/
theorem new_cases {basename : List UInt8} {rollSize : Nat} {flushInterval now : Int} {o : Opening}
    (h : new stamp basename rollSize flushInterval now o = .ok s) :
    0 < now ∧ (∃ f, Inv stamp [] s f) ∨ now ≤ 0 ∧ s.file = none := by
  obtain ⟨_, _, h⟩ := bind_eq_ok.mp h
  rcases rollFile_cases h with ⟨rfl, hnow⟩ | ⟨hlater, ⟨o', hfile⟩, hclosed, hroll, hbase, -⟩
  · exact .inr ⟨hnow, rfl⟩
  · refine .inl ⟨hlater, _, hfile, hroll, ⟨[], [], ?_, rfl, rfl⟩, ?_, ?_⟩
    · rw [hclosed]
      rfl
    · rw [hclosed]
      exact List.pairwise_singleton _ _
    · intro g hg
      rw [hclosed] at hg
      rw [List.mem_singleton.mp hg, hbase]
      exact ⟨o', rfl⟩

/-! ## What is kept -/

/-- The files hold the lines, whole and in order; they were opened at increasing times, under different names; the next
    call returns unless no file can be opened; and when it leaves more in the file than the roll size, the one time it
    looked at the clock, the second in which the file was opened was not over. -/
structure Kept (stamp : Int → List UInt8) (calls : List Call) (s : LogFile) : Prop where
  lines : ∃ groups : List (List (List UInt8)),
    s.files.map File.contents = groups.map List.flatten ∧ groups.flatten = calls.map Call.logline
  increasing : (s.files.map File.openedAt).Pairwise (· < ·)
  names : (s.files.map File.filename).Nodup
  returns : ∀ c, (logFileSystem stamp).enabled s c → c.opening.opens = true → ∃ s', append stamp s c = .ok s'
  full : ∀ c s' f, (logFileSystem stamp).enabled s c → append stamp s c = .ok s' → s'.file = some f →
    f.writtenBytes > s'.rollSize → c.now ≤ f.openedAt ∧ ∀ t, append stamp s { c with later := t } = .ok s'

theorem Inv.kept {calls : List Call} (hinj : Function.Injective stamp) (hdot : ∀ t, 0x2e ∉ stamp t)
    (h : Inv stamp calls s f) : Kept stamp calls s := by
  have hfiles : s.files = s.closed ++ [f] := by rw [files, h.file, Option.toList_some]
  refine ⟨?_, ?_, ?_, fun c _ ho => append_returns h.file ho, ?_⟩
  · obtain ⟨groups, group, hgroups, hgroup, hlines⟩ := h.lines
    refine ⟨groups ++ [group], ?_, ?_⟩
    · rw [hfiles, List.map_append, List.map_append, hgroups, List.map_singleton, List.map_singleton, hgroup]
    · rw [List.flatten_append, List.flatten_singleton, hlines]
  · rw [hfiles, List.pairwise_map]
    exact h.increasing
  · rw [hfiles, List.Nodup, List.pairwise_map]
    refine h.increasing.imp_of_mem fun {g g'} hg hg' hlt heq => ?_
    obtain ⟨o, ho⟩ := h.named g hg
    obtain ⟨o', ho'⟩ := h.named g' hg'
    rw [ho, ho'] at heq
    exact (ne_of_lt hlt) (getLogFileName_inj hinj hdot heq)
  · intro c s' f' hc happend hfile' hfull
    have hwritten := h.afterWrite hc.2
    rcases append_cases h.file happend with ⟨hsame, hnow⟩ | ⟨now, hrolled⟩
    · -- the file is still the same, so it was the size that made it look at the clock
      have hf' : f.append c.room c.logline = f' := Option.some_inj.mp (hsame.file.symm.trans hfile')
      have hsize : (f.append c.room c.logline).writtenBytes > s.rollSize := by
        rw [hf']
        exact hsame.rollSize ▸ hfull
      refine ⟨?_, fun t => ?_⟩
      · rw [← hf', ← hwritten.lastRoll]
        exact hnow hsize
      · rw [append_of_gt (c := { c with later := t }) h.file hsize, ← happend, append_of_gt h.file hsize]
        rfl
    · obtain ⟨f₁, hinv, hzero⟩ := hwritten.rolled hrolled
      cases hinv.file.symm.trans hfile'
      rw [hzero] at hfull
      exact absurd hfull (Nat.not_lt_zero _)

/-- **Nothing is lost or reordered across rolls, if the log was begun after the Epoch.** Whatever is appended, whatever
    the clock does from then on, and however little each `fwrite` takes, all of `Kept` holds in every state reached;
    and if the clock stood at the Epoch or before it in the constructor, there is no file, and not a line is taken. -/
theorem lines_kept_iff (hinj : Function.Injective stamp) (hdot : ∀ t, 0x2e ∉ stamp t) {basename : List UInt8}
    {rollSize : Nat} {flushInterval now : Int} {o : Opening}
    (h : new stamp basename rollSize flushInterval now o = .ok s) :
    (∀ calls s', (logFileSystem stamp).Path s calls s' → Kept stamp calls s') ↔ 0 < now := by
  constructor
  · intro hkept
    rcases new_cases h with ⟨hnow, -⟩ | ⟨-, hnone⟩
    · exact hnow
    · -- an empty line is enough
      obtain ⟨s', hs'⟩ := (hkept [] s .nil).returns ⟨[], fun _ => 1, 0, 0, ⟨[], 0, true⟩⟩
        ⟨by decide, fun _ => Nat.one_pos⟩ rfl
      rw [append_of_none hnone] at hs'
      cases hs'
  · intro hnow calls s' hpath
    rcases new_cases h with ⟨-, f, hinv⟩ | ⟨hnow', -⟩
    · obtain ⟨f', hinv'⟩ := hinv.path hpath
      exact hinv'.kept hinj hdot
    · exact absurd hnow (not_lt.mpr hnow')

/-! ## Two logs -/

/-- `19700101-000001` for the first second, and a text that begins with a hyphen for the others. -/
def sampleStamp (t : Int) : List UInt8 :=
  if t = 1 then [0x31, 0x39, 0x37, 0x30, 0x30, 0x31, 0x30, 0x31, 0x2d, 0x30, 0x30, 0x30, 0x30, 0x30, 0x31]
  else 0x2d :: decimal.integer minus t

theorem sampleStamp_injective : Function.Injective sampleStamp := by
  have hread : ∀ t, decimal.readInteger minus (decimal.integer minus t) = some t :=
    fun t => ((decimal.canonicalInteger_iff minus_not_mem).mpr rfl).2
  intro t t' h
  unfold sampleStamp at h
  split at h
  · next ht =>
      split at h
      · next ht' => rw [ht, ht']
      · cases h
  · split at h
    · cases h
    · have htext := congrArg (decimal.readInteger minus) (List.cons.inj h).2
      rw [hread, hread] at htext
      exact Option.some_inj.mp htext

theorem sampleStamp_dot (t : Int) : 0x2e ∉ sampleStamp t := by
  have hdigits : 0x2e ∉ decimal.numeral t.natAbs := fun h =>
    absurd ((decimal.canonical_numeral _).mem_symbols _ h) (by decide)
  have hminus : (0x2e : UInt8) ≠ minus := by decide
  unfold sampleStamp Alphabet.integer
  split
  · decide
  · split
    · simp only [List.mem_cons, not_or]
      exact ⟨hminus, hminus, hdigits⟩
    · simp only [List.mem_cons, not_or]
      exact ⟨hminus, hdigits⟩

/-- A line of which each `fwrite` takes two bytes. -/
def lineAt (logline : List UInt8) (now : Int) : Call := ⟨logline, fun _ => 2, now, now, ⟨[0x68], 1, true⟩⟩

theorem enabled_lineAt {s : LogFile} {logline : List UInt8} {now : Int} (h : logline.length < 2 ^ 31) :
    (logFileSystem sampleStamp).enabled s (lineAt logline now) :=
  ⟨h, fun _ => Nat.two_pos⟩

/-- A log begun in the first second after the Epoch. The first line exceeds the roll size, and the others go into
    the file that is opened then. -/
theorem lines_kept_after_epoch : ∃ s s', new sampleStamp [0x61] 4 3 1 ⟨[0x68], 1, true⟩ = .ok s ∧
    (logFileSystem sampleStamp).Path s [lineAt [1, 2, 3, 4, 5] 2, lineAt [6, 7] 2, lineAt [8, 9] 3] s' ∧
    s'.files.map File.contents = [[1, 2, 3, 4, 5], [6, 7, 8, 9]] ∧
    Kept sampleStamp [lineAt [1, 2, 3, 4, 5] 2, lineAt [6, 7] 2, lineAt [8, 9] 3] s' := by
  obtain ⟨s, hs, s₁, h₁, s₂, h₂, s₃, h₃, hfiles⟩ : Returns (new sampleStamp [0x61] 4 3 1 ⟨[0x68], 1, true⟩) fun s =>
      Returns (append sampleStamp s (lineAt [1, 2, 3, 4, 5] 2)) fun s₁ =>
      Returns (append sampleStamp s₁ (lineAt [6, 7] 2)) fun s₂ =>
      Returns (append sampleStamp s₂ (lineAt [8, 9] 3)) fun s₃ =>
        s₃.files.map File.contents = [[1, 2, 3, 4, 5], [6, 7, 8, 9]] := by decide +kernel
  have hpath : (logFileSystem sampleStamp).Path s [lineAt [1, 2, 3, 4, 5] 2, lineAt [6, 7] 2, lineAt [8, 9] 3] s₃ :=
    System.Path.nil.next _ (enabled_lineAt (by decide)) h₁
      |>.next _ (enabled_lineAt (by decide)) h₂
      |>.next _ (enabled_lineAt (by decide)) h₃
  exact ⟨s, s₃, hs, hpath, hfiles,
    (lines_kept_iff sampleStamp_injective sampleStamp_dot hs).mpr (by decide) _ _ hpath⟩

/-- **A log begun at the Epoch takes nothing**: the first line that is appended finds no file. -/
theorem lines_lost_at_epoch :
    ¬ ∀ basename rollSize flushInterval now o s, new sampleStamp basename rollSize flushInterval now o = .ok s →
      ∀ calls s', (logFileSystem sampleStamp).Path s calls s' → Kept sampleStamp calls s' := by
  intro hall
  have hkept := hall [0x61] 1000 3 0 ⟨[0x68], 1, true⟩ _ rfl [] _ .nil
  obtain ⟨s', hs'⟩ := hkept.returns ⟨[0x78, 0x0a], fun _ => 2, 0, 0, ⟨[0x68], 1, true⟩⟩
    ⟨by decide, fun _ => Nat.two_pos⟩ rfl
  rw [append_of_none rfl] at hs'
  cases hs'

end Muduo.LogFile
