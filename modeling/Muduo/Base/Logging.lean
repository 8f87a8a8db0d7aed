import Muduo.Base.LogStream
import Muduo.Base.Timestamp

/-!
# `Base.Logging` — one log record, from the constructor of `Logger` to its destructor

`Logging.h` and `Logging.cc`. A record is `<time><microseconds><tid><level>`, perhaps an error, then whatever is
inserted into the stream, and in the destructor ` - <file>:<line>` and a newline; all of it goes into one `LogStream`.
The clock, `gmtime_r` and `strerror_r` are given, as is what the thread kept from its last record (`TimeCache`).
-/

namespace Muduo

open Lib Detail

/-! ## Source files -/

/-- `Logger::SourceFile`. -/
structure SourceFile where
  data : List UInt8
  size : Int
  readable : StringPiece.Readable ⟨data, size⟩

/-- `strrchr(s, '/')`, as an index. -/
def lastSlash (s : List UInt8) : Option Nat := (s.reverse.idxOf? 0x2f).map fun k => s.length - 1 - k

/-- `data_`: what stands behind the last slash. -/
def basename (s : List UInt8) : List UInt8 :=
  match lastSlash s with
  | some slash => s.drop (slash + 1)
  | none => s

theorem readable_toInt32 (s : List UInt8) : StringPiece.Readable ⟨s, toInt32 s.length⟩ := by
  obtain ⟨hmin, hmax⟩ := toInt32_range s.length
  have hle : toInt32 s.length ≤ s.length := by
    by_cases hsmall : s.length < 2 ^ 31
    · exact le_of_eq (toInt32_eq (by omega) (by omega))
    · exact hmax.le.trans (by omega)
  unfold StringPiece.Readable
  dsimp only
  omega

theorem lastSlash_lt {s : List UInt8} {slash : Nat} (h : lastSlash s = some slash) : slash < s.length := by
  obtain ⟨k, hk, rfl⟩ := Option.map_eq_some_iff.mp h
  have hmem : 0x2f ∈ s.reverse := by
    rw [← List.isSome_idxOf?, hk]
    rfl
  have hpos := List.length_pos_of_mem (List.mem_reverse.mp hmem)
  omega

/-- `size_`, for a literal of `n` characters: `N - 1`, less what is cut off in front. -/
def literalSize (s : List UInt8) : Int :=
  match lastSlash s with
  | some slash => s.length - toInt32 (slash + 1)
  | none => s.length

theorem literalSize_eq {s : List UInt8} (h : s.length < 2 ^ 31) : literalSize s = (basename s).length := by
  unfold literalSize basename
  split
  · next slash hslash =>
      have hlt := lastSlash_lt hslash
      rw [toInt32_eq (by omega) (by omega), List.length_drop]
      omega
  · rfl

/-- `SourceFile(const char (&arr)[N])`, for a literal; `N` is an `int`. -/
def SourceFile.ofArray (arr : CString) (hN : arr.chars.data.length < 2 ^ 31) : SourceFile :=
  ⟨basename arr.chars.data, literalSize arr.chars.data, by
    rw [literalSize_eq hN]
    have hle : (basename arr.chars.data).length ≤ arr.chars.data.length := by
      unfold basename
      split <;> simp
    unfold StringPiece.Readable
    dsimp only
    omega⟩

/-- `SourceFile(const char* filename)`. -/
def SourceFile.ofFilename (filename : CString) : SourceFile :=
  ⟨basename filename.chars.data, toInt32 (basename filename.chars.data).length, readable_toInt32 _⟩

/-! ## Printing -/

/-- `%<width>d`. -/
def padded (width : Nat) (v : Int) : List UInt8 :=
  List.replicate (width - (decimal.integer minus v).length) 0x20 ++ decimal.integer minus v

/-- `%0<width>d`. -/
def zeroPadded (width : Nat) (v : Int) : List UInt8 :=
  if v < 0 then
    minus :: (List.replicate (width - 1 - (decimal.numeral v.natAbs).length) 0x30 ++ decimal.numeral v.natAbs)
  else List.replicate (width - (decimal.numeral v.natAbs).length) 0x30 ++ decimal.numeral v.natAbs

/-- `struct tm`. -/
structure Tm where
  sec : Int
  min : Int
  hour : Int
  mday : Int
  mon : Int
  year : Int

/-- `"%4d%02d%02d %02d:%02d:%02d"`. -/
def Tm.format (t : Tm) : List UInt8 :=
  padded 4 (t.year + 1900) ++ zeroPadded 2 (t.mon + 1) ++ zeroPadded 2 t.mday ++ [0x20] ++ zeroPadded 2 t.hour ++
    [0x3a] ++ zeroPadded 2 t.min ++ [0x3a] ++ zeroPadded 2 t.sec

/-- `t_tidString`, as `cacheTid` makes it. -/
def tidString (tid : Int) : List UInt8 := padded 5 tid ++ [0x20]

/-! ## Records -/

inductive LogLevel where
  | trace
  | debug
  | info
  | warn
  | error
  | fatal
deriving DecidableEq, Repr

/-- `LogLevelName`. -/
def LogLevel.name : LogLevel → List UInt8
  | trace => [0x54, 0x52, 0x41, 0x43, 0x45, 0x20]
  | debug => [0x44, 0x45, 0x42, 0x55, 0x47, 0x20]
  | info => [0x49, 0x4e, 0x46, 0x4f, 0x20, 0x20]
  | warn => [0x57, 0x41, 0x52, 0x4e, 0x20, 0x20]
  | error => [0x45, 0x52, 0x52, 0x4f, 0x52, 0x20]
  | fatal => [0x46, 0x41, 0x54, 0x41, 0x4c, 0x20]

/-- The variables `t_lastSecond` and `t_time` of a thread. -/
structure TimeCache where
  lastSecond : Int
  time : List UInt8

/-- What a record finds when it is begun. -/
structure LogEnv where
  /-- What the array of the stream happens to hold. -/
  storage : List UInt8
  storage_length : storage.length = kSmallBuffer
  now : Timestamp
  gmtime : Int → Tm
  cache : TimeCache
  tid : Int
  errno : IntType.int.Value
  strerror : IntType.int.Value → CString

/-- `class Logger`, with its `Impl`. -/
structure Logger where
  stream : LogStream
  level : LogLevel
  line : IntType.int.Value
  basename : SourceFile

/-- `operator<<(LogStream& s, T v)`, with the constructor of `T`. -/
def LogStream.insertT (s : LogStream) (str : List UInt8) (len : Nat) : Outcome LogStream := do
  assert (str.length = len)
  s.append str len

/-- `operator<<(LogStream& s, const Logger::SourceFile& v)`. -/
def LogStream.insertFile (s : LogStream) (v : SourceFile) : Outcome LogStream := s.append v.data (toSizeT v.size)

namespace Logger

/-- `" - "`. -/
def dash : CString := ⟨⟨[0x20, 0x2d, 0x20], by decide⟩, by decide⟩

/-- `" (errno="`. -/
def errnoOpen : CString := ⟨⟨[0x20, 0x28, 0x65, 0x72, 0x72, 0x6e, 0x6f, 0x3d], by decide⟩, by decide⟩

/-- `") "`. -/
def errnoClose : CString := ⟨⟨[0x29, 0x20], by decide⟩, by decide⟩

/-- `if (seconds != t_lastSecond) { ... }`. -/
def refresh (env : LogEnv) (seconds : Int) : Outcome TimeCache :=
  if seconds ≠ env.cache.lastSecond then do
    let time := (env.gmtime seconds).format
    assert (time.length = 17)
    .ok ⟨seconds, time⟩
  else .ok env.cache

/-- `formatTime`. -/
def formatTime (env : LogEnv) (stream : LogStream) : Outcome (TimeCache × LogStream) := do
  let seconds := env.now.tdiv 1000000
  let microseconds := toInt32 (env.now.tmod 1000000)
  let cache ← refresh env seconds
  -- `Fmt us(".%06dZ ", microseconds)`, which is an array of 32
  let us := [0x2e] ++ zeroPadded 6 microseconds ++ [0x5a, 0x20]
  assert (us.length < 32)
  assert (us.length = 9)
  let stream ← stream.insertT cache.time 17
  let stream ← stream.insertT us 9
  .ok (cache, stream)

/-- `if (savedErrno != 0) { ... }`. -/
def insertErrno (env : LogEnv) (stream : LogStream) (savedErrno : IntType.int.Value) : Outcome LogStream :=
  if savedErrno.val ≠ 0 then
    stream.insertAll [.cstring (env.strerror savedErrno), .cstring errnoOpen, .int savedErrno, .cstring errnoClose]
  else .ok stream

/-- `Impl(level, savedErrno, file, line)`. -/
def impl (env : LogEnv) (level : LogLevel) (savedErrno : IntType.int.Value) (file : SourceFile)
    (line : IntType.int.Value) : Outcome (TimeCache × Logger) := do
  let (cache, stream) ← formatTime env (LogStream.new env.storage)
  let stream ← stream.insertT (tidString env.tid) 6
  let stream ← stream.insertT level.name 6
  let stream ← insertErrno env stream savedErrno
  .ok (cache, { stream, level, line, basename := file })

/-- The `savedErrno` of a record that is not about a system call. -/
def noErrno : IntType.int.Value := ⟨0, by decide⟩

/-- `Logger(file, line)`. -/
def new (env : LogEnv) (file : SourceFile) (line : IntType.int.Value) : Outcome (TimeCache × Logger) :=
  impl env .info noErrno file line

/-- `Logger(file, line, level)`. -/
def newAt (env : LogEnv) (file : SourceFile) (line : IntType.int.Value) (level : LogLevel) :
    Outcome (TimeCache × Logger) :=
  impl env level noErrno file line

/-- `Logger(file, line, level, func)`. -/
def newIn (env : LogEnv) (file : SourceFile) (line : IntType.int.Value) (level : LogLevel) (func : CString) :
    Outcome (TimeCache × Logger) := do
  let (cache, l) ← impl env level noErrno file line
  let stream ← l.stream.insertAll [.cstring func, .char 0x20]
  .ok (cache, { l with stream })

/-- `Logger(file, line, toAbort)`. -/
def newSys (env : LogEnv) (file : SourceFile) (line : IntType.int.Value) (toAbort : Bool) :
    Outcome (TimeCache × Logger) :=
  impl env (if toAbort = true then .fatal else .error) env.errno file line

/-- What a constructor makes. -/
inductive Made (env : LogEnv) (l : Logger) : Prop where
  | new {cache file line} : new env file line = .ok (cache, l) → Made env l
  | newAt {cache file line level} : newAt env file line level = .ok (cache, l) → Made env l
  | newIn {cache file line level func} : newIn env file line level func = .ok (cache, l) → Made env l
  | newSys {cache file line toAbort} : newSys env file line toAbort = .ok (cache, l) → Made env l

/-- `Impl::finish`. -/
def finish (l : Logger) : Outcome LogStream := do
  let stream ← l.stream.insert (.cstring dash)
  let stream ← stream.insertFile l.basename
  let stream ← stream.insert (.char 0x3a)
  let stream ← stream.insert (.int l.line)
  stream.insert (.char 0x0a)

/-- `~Logger`: what it passes to `g_output`, and whether it aborts then. -/
def dtor (l : Logger) : Outcome (List UInt8 × Bool) := do
  let stream ← l.finish
  let buf := stream.buffer
  .ok (buf.data.take (toSizeT buf.length), l.level = .fatal)

/-- The insertions between construction and destruction. -/
def insertAll (l : Logger) (os : List Operand) : Outcome Logger := do
  let stream ← l.stream.insertAll os
  .ok { l with stream }

end Logger

end Muduo
