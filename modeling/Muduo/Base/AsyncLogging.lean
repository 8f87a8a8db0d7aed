import Muduo.Lib.System

/-!
# `Base.AsyncLogging` — the back end of the logger, and its front ends

`AsyncLogging.cc` over the `FixedBuffer` of `LogStream.h`. Any thread may call `append`, which holds the mutex from
beginning to end. `threadFunc` runs on a thread of its own and shares `running_`, `currentBuffer_`, `nextBuffer_` and
`buffers_` with the others; what it does with its own variables between two accesses to these is one step, except
that each buffer is written in a step of its own.

The wait in `threadFunc` is timed and not in a loop. It may end at any time, so who notifies `cond_` and when does
not matter, and the notifications are left out.
-/

namespace Muduo

open Lib

/-! ## Buffers -/

/-- `FixedBuffer<SIZE>`: the bytes up to `cur_`. -/
structure FixedBuffer (SIZE : Nat) where
  data : List UInt8
  bounded : data.length ≤ SIZE

namespace FixedBuffer

variable {SIZE : Nat}

def new : FixedBuffer SIZE := ⟨[], Nat.zero_le _⟩

def length (b : FixedBuffer SIZE) : Nat := b.data.length

def avail (b : FixedBuffer SIZE) : Nat := SIZE - b.length

/-- What does not fit is dropped. -/
def append (b : FixedBuffer SIZE) (buf : List UInt8) : FixedBuffer SIZE :=
  if h : buf.length < b.avail then
    ⟨b.data ++ buf, by
      simp only [avail, length] at h
      rw [List.length_append]
      omega⟩
  else b

def reset (_ : FixedBuffer SIZE) : FixedBuffer SIZE := new

end FixedBuffer

def kLargeBuffer : Nat := 4000 * 1000

namespace AsyncLogging

abbrev Buffer := FixedBuffer kLargeBuffer

/-- A call on the `LogFile`. -/
inductive LogCall where
  | append (data : List UInt8)
  /-- `append` of the text `Dropped log messages at <time>, <buffers> larger buffers`. -/
  | notice (buffers : Nat)
  | flush

/-- Where the back end is in `threadFunc`. -/
inductive BackendPoint where
  | starting
  /-- At `while (running_)`. -/
  | loopHead
  /-- It is to lock the mutex. -/
  | locking
  /-- In `waitForSeconds`. -/
  | waiting
  /-- It has taken the buffers, and the mutex is released. -/
  | swapped
  /-- It has written the first `i` of `buffersToWrite`. -/
  | writing (i : Nat)
  | exited

/-- Where the thread that calls `stop` is. -/
inductive StopCall where
  | before
  | called
  /-- `running_` is false; it is to join the back end. -/
  | cleared
  | returned

end AsyncLogging

open AsyncLogging in
/-- `class AsyncLogging`, with the variables of `threadFunc`. -/
structure AsyncLogging where
  running : Bool
  currentBuffer : Option Buffer
  nextBuffer : Option Buffer
  buffers : List Buffer
  newBuffer1 : Option Buffer
  newBuffer2 : Option Buffer
  buffersToWrite : List Buffer
  output : List LogCall
  backend : BackendPoint
  stopping : StopCall
  /-- The lines appended, in the order in which `append` had the mutex. -/
  lines : List (List UInt8)
  /-- The batches that were checked for more than 25 buffers, as they were before the check. -/
  batches : List (List Buffer)
  /-- How many lines there were when the back end took the buffers the last time. -/
  swappedLines : Nat
  /-- How many lines there were when `stop` was called. -/
  calledLines : Nat

namespace AsyncLogging

inductive Action where
  | append (logline : List UInt8)
  /-- The next step of `threadFunc`. -/
  | backend
  /-- The next step of `stop`. -/
  | stop

/-! ## `append` -/

def append (s : AsyncLogging) (logline : List UInt8) : Outcome AsyncLogging :=
  match s.currentBuffer with
  | none => .error .badAccess
  | some current =>
      if logline.length < current.avail then
        -- room in `currentBuffer_`
        .ok { s with
          currentBuffer := some (current.append logline)
          lines := s.lines ++ [logline] }
      else
        -- `nextBuffer_` takes its place, or a new buffer, which rarely happens
        .ok { s with
          buffers := s.buffers ++ [current]
          currentBuffer := some ((s.nextBuffer.getD .new).append logline)
          nextBuffer := none
          lines := s.lines ++ [logline] }

/-! ## `threadFunc` -/

/-- `running_` is true, and the buffers are made. -/
def start (s : AsyncLogging) : Outcome AsyncLogging := do
  assert (s.running = true)
  .ok { s with
    newBuffer1 := some .new
    newBuffer2 := some .new
    backend := .loopHead }

/-- `newBuffer && newBuffer->length() == 0`. -/
def isSpare (newBuffer : Option Buffer) : Bool := newBuffer.any fun b => b.length = 0

def loopHead (s : AsyncLogging) : Outcome AsyncLogging :=
  if s.running = true then do
    assert (isSpare s.newBuffer1 = true)
    assert (isSpare s.newBuffer2 = true)
    assert (s.buffersToWrite.isEmpty = true)
    .ok { s with backend := .locking }
  else .ok { s with output := s.output ++ [.flush], backend := .exited }

/-- The critical section after the wait. -/
def swap (s : AsyncLogging) : Outcome AsyncLogging :=
  match s.currentBuffer with
  | none => .error .badAccess
  | some current =>
      .ok { s with
        -- `buffersToWrite.swap(buffers_)`
        buffers := s.buffersToWrite
        buffersToWrite := s.buffers ++ [current]
        currentBuffer := s.newBuffer1
        newBuffer1 := none
        -- `if (!nextBuffer_) nextBuffer_ = boost::ptr_container::move(newBuffer2)`
        nextBuffer := s.nextBuffer.or s.newBuffer2
        newBuffer2 := if s.nextBuffer.isSome = true then s.newBuffer2 else none
        backend := .swapped
        swappedLines := s.lines.length }

/-- `if (buffers_.empty()) cond_.waitForSeconds(flushInterval_)`. -/
def lock (s : AsyncLogging) : Outcome AsyncLogging :=
  if s.buffers.isEmpty = true then .ok { s with backend := .waiting } else s.swap

/-- Of a batch of more than 25 buffers, two are kept. -/
def kept (batch : List Buffer) : List Buffer := if batch.length > 25 then batch.take 2 else batch

def checkBacklog (s : AsyncLogging) : Outcome AsyncLogging := do
  assert (s.buffersToWrite.isEmpty = false)
  .ok { s with
    output := if s.buffersToWrite.length > 25 then s.output ++ [.notice (s.buffersToWrite.length - 2)] else s.output
    buffersToWrite := kept s.buffersToWrite
    backend := .writing 0
    batches := s.batches ++ [s.buffersToWrite] }

/-- `if (!newBuffer) { ... newBuffer = buffersToWrite.pop_back(); newBuffer->reset(); }`. -/
def recover (newBuffer : Option Buffer) (buffersToWrite : List Buffer) : Outcome (Option Buffer × List Buffer) :=
  match newBuffer with
  | some b => .ok (some b, buffersToWrite)
  | none => do
      assert (buffersToWrite.isEmpty = false)
      match buffersToWrite.getLast? with
      | none => .error .badAccess
      | some b => .ok (some b.reset, buffersToWrite.dropLast)

/-- The end of the body of the loop, after all buffers are written. -/
def endOfTurn (s : AsyncLogging) : Outcome AsyncLogging := do
  -- drop non-bzero-ed buffers, avoid trashing
  let buffersToWrite := if s.buffersToWrite.length > 2 then s.buffersToWrite.take 2 else s.buffersToWrite
  let (newBuffer1, buffersToWrite) ← recover s.newBuffer1 buffersToWrite
  let (newBuffer2, _) ← recover s.newBuffer2 buffersToWrite
  .ok { s with newBuffer1, newBuffer2, buffersToWrite := [], output := s.output ++ [.flush], backend := .loopHead }

def write (s : AsyncLogging) (i : Nat) : Outcome AsyncLogging :=
  match s.buffersToWrite[i]? with
  | some b => .ok { s with output := s.output ++ [.append b.data], backend := .writing (i + 1) }
  | none => s.endOfTurn

def threadFunc (s : AsyncLogging) : Outcome AsyncLogging :=
  match s.backend with
  | .starting => s.start
  | .loopHead => s.loopHead
  | .locking => s.lock
  | .waiting => s.swap
  | .swapped => s.checkBacklog
  | .writing i => s.write i
  | .exited => .ok s

/-! ## The system -/

/-- `stop`. -/
def stop (s : AsyncLogging) : AsyncLogging :=
  match s.stopping with
  | .before => { s with stopping := .called, calledLines := s.lines.length }
  | .called => { s with running := false, stopping := .cleared }
  | .cleared | .returned => { s with stopping := .returned }

def enabled (s : AsyncLogging) : Action → Prop
  | .append logline => logline.length < kLargeBuffer
  | .backend => s.backend ≠ .exited
  | .stop =>
      match s.stopping with
      | .before => s.backend ≠ .starting
      | .called => True
      | .cleared => s.backend = .exited
      | .returned => False

def exec (s : AsyncLogging) : Action → Outcome AsyncLogging
  | .append logline => s.append logline
  | .backend => s.threadFunc
  | .stop => .ok s.stop

/-- The logger when `start` starts its thread. `start` does not return before the thread has begun, and `stop` is
    called after that, once. -/
def loggingSystem : System AsyncLogging Action where
  init s := s =
    { running := true, currentBuffer := some .new, nextBuffer := some .new, buffers := [], newBuffer1 := none,
      newBuffer2 := none, buffersToWrite := [], output := [], backend := .starting, stopping := .before, lines := [],
      batches := [], swappedLines := 0, calledLines := 0 }
  enabled := enabled
  exec := exec

/-! ## What the file was given -/

def contents (buffers : List Buffer) : List UInt8 := buffers.flatMap FixedBuffer.data

/-- The bytes passed to `LogFile::append`, without the notices. -/
def written (output : List LogCall) : List UInt8 :=
  output.flatMap fun
    | .append data => data
    | .notice _ | .flush => []

/-- The part of `buffersToWrite` that is not written yet. -/
def unwritten (s : AsyncLogging) : List Buffer :=
  match s.backend with
  | .writing i => s.buffersToWrite.drop i
  | _ => s.buffersToWrite

/-- What the shared buffers hold. -/
def pending (s : AsyncLogging) : List UInt8 :=
  contents s.buffers ++ (s.currentBuffer.map FixedBuffer.data).getD []

end AsyncLogging

end Muduo
