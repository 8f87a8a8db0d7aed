import Muduo.Base.LogStream
import Muduo.Lib.System

/-!
# `Base.LogFile` — a log that is written to one file after another

`LogFile.h` and `LogFile.cc`. What the system answers during a call is given with the call: how much each `fwrite`
takes, what `time` returns, the host name and the process, and whether a file can be opened. What `fwrite` took counts
as written, so the buffer of the stream and `fflush` are left out. The mutex makes a call of `append` one step.
-/

namespace Muduo

open Lib Detail

namespace LogFile

/-- `LogFile::File`. -/
structure File where
  filename : List UInt8
  /-- The second in which it was opened. -/
  openedAt : Int
  contents : List UInt8
  writtenBytes : Nat

namespace File

/-- `write`, of which the stream takes at most `room` bytes: the file, and how many it took. -/
def write (f : File) (room : Nat) (logline : List UInt8) : File × Nat :=
  ({ f with contents := f.contents ++ logline.take room }, min room logline.length)

/-- The loop of `append`, from `remain` on; the first `n` bytes are written, and `fwrite` was called `k` times. -/
def appendLoop (f : File) (room : Nat → Nat) (logline : List UInt8) (k n : Nat) : File :=
  if logline.length - n > 0 then
    let x := (f.write (room k) (logline.drop n)).2
    let f := (f.write (room k) (logline.drop n)).1
    if x = 0 then f else appendLoop f room logline (k + 1) (n + x)
  else f
termination_by logline.length - n

/-- `File::append`. -/
def append (f : File) (room : Nat → Nat) (logline : List UInt8) : File :=
  let n := (f.write (room 0) logline).2
  let f := appendLoop (f.write (room 0) logline).1 room logline 1 n
  { f with writtenBytes := SizeT.add f.writtenBytes logline.length }

end File

/-- What the system answers when a file is to be opened. -/
structure Opening where
  hostname : List UInt8
  pid : Int
  /-- Whether `fopen` returns a stream. -/
  opens : Bool

/-- A call of `append`, with what the system answers. -/
structure Call where
  logline : List UInt8
  /-- How much the stream takes when `fwrite` is called, for each time it is. -/
  room : Nat → Nat
  /-- What `time` returns the first time. -/
  now : Int
  /-- What it returns the second time. -/
  later : Int
  opening : Opening

end LogFile

open LogFile in
/-- `class LogFile`, with the files it has closed. -/
structure LogFile where
  basename : List UInt8
  rollSize : Nat
  flushInterval : Int
  count : Nat
  startOfPeriod : Int
  lastRoll : Int
  lastFlush : Int
  file : Option File
  closed : List File

namespace LogFile

def kCheckTimeRoll : Nat := 1024

def kRollPerSeconds : Int := 60 * 60 * 24

/-- `getLogFileName`, with what `strftime` makes of the second between the two dots. -/
def getLogFileName (stamp : Int → List UInt8) (basename : List UInt8) (now : Int) (o : Opening) : List UInt8 :=
  basename ++ ([0x2e] ++ stamp now ++ [0x2e]) ++ o.hostname ++ ([0x2e] ++ decimal.integer minus o.pid) ++
    [0x2e, 0x6c, 0x6f, 0x67]

variable (stamp : Int → List UInt8)

/-- `rollFile`, when `time` returns `now`. -/
def rollFile (s : LogFile) (now : Int) (o : Opening) : Outcome LogFile :=
  let filename := getLogFileName stamp s.basename now o
  let start := now.tdiv kRollPerSeconds * kRollPerSeconds
  if now > s.lastRoll then do
    -- the constructor of `File`; `reset` closes the old one
    assert (o.opens = true)
    .ok { s with
      lastRoll := now
      lastFlush := now
      startOfPeriod := start
      file := some ⟨filename, now, [], 0⟩
      closed := s.closed ++ s.file.toList }
  else .ok s

/-- The constructor. -/
def new (basename : List UInt8) (rollSize : Nat) (flushInterval : Int) (now : Int) (o : Opening) :
    Outcome LogFile := do
  assert (0x2f ∉ basename)
  rollFile stamp
    { basename, rollSize, flushInterval, count := 0, startOfPeriod := 0, lastRoll := 0, lastFlush := 0, file := none,
      closed := [] } now o

/-- The `else` of `append_unlocked`: once in a while it looks whether a day has passed. -/
def checkTime (s : LogFile) (c : Call) : Outcome LogFile :=
  if s.count > kCheckTimeRoll then
    let s := { s with count := 0 }
    let thisPeriod := c.now.tdiv kRollPerSeconds * kRollPerSeconds
    if thisPeriod ≠ s.startOfPeriod then rollFile stamp s c.later c.opening
    else if c.now - s.lastFlush > s.flushInterval then .ok { s with lastFlush := c.now }
    else .ok s
  else .ok { s with count := s.count + 1 }

/-- `append`. -/
def append (s : LogFile) (c : Call) : Outcome LogFile :=
  match s.file with
  | none => .error .badAccess
  | some file =>
      let file := file.append c.room c.logline
      let s := { s with file := some file }
      if file.writtenBytes > s.rollSize then rollFile stamp s c.now c.opening else checkTime stamp s c

/-- The files in the order in which they were opened. -/
def files (s : LogFile) : List File := s.closed ++ s.file.toList

/-- `append` is called with an `int` length, and `fwrite` takes at least a byte. -/
def logFileSystem : System LogFile Call where
  init s := ∃ basename rollSize flushInterval now o, new stamp basename rollSize flushInterval now o = .ok s
  enabled _ c := c.logline.length < 2 ^ 31 ∧ ∀ k, 0 < c.room k
  exec s c := append stamp s c

end LogFile

end Muduo
