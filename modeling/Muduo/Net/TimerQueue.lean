import Mathlib.Data.Prod.Lex
import Mathlib.Logic.Function.Basic
import Muduo.Base.Timestamp
import Muduo.Lib.OrderedSet
import Muduo.Lib.System

/-!
# `Net.TimerQueue` — timers, their two indexes, and the timer descriptor

The functions of `TimerQueue.cc` and `Timer.cc`. `Timer` objects live in a heap that maps addresses to objects;
`new` may return any free address, so the address of a deleted timer may come back, and dereferencing or
deleting an address that holds no timer is a fault. `timers_`, `activeTimers_` and `cancelingTimers_` are finite
sets ordered as the source orders them.

`handleRead` is cut where user code runs in it: the callbacks of the expired timers may add and cancel any
timers, so each of these calls is a step, as is each iteration of the loop in `reset`. `log` records what has
happened to which timer and is not read by the code.
-/

namespace Muduo.Net

open Lib OrderedSet

/-! ## `Timer` -/

/-- A positive `double interval`, as the microseconds it is converted to. -/
structure Interval where
  delta : Nat
  fits : delta < 2 ^ 63
deriving DecidableEq, Repr

/-- `class Timer`; the callback is user code. -/
structure Timer where
  expiration : Timestamp
  /-- `none` if `interval > 0.0` does not hold. -/
  interval : Option Interval
  /-- How many timers had been created, this one included. -/
  serial : Nat
deriving DecidableEq, Repr

namespace Timer

/-- `repeat()`. -/
def repeats (t : Timer) : Bool := t.interval.isSome

/-- `sequence()`: `s_numCreated_.incrementAndGet()`, an `int64_t`. -/
def sequence (t : Timer) : Int := toInt64 t.serial

def restart (t : Timer) (now : Timestamp) : Timer :=
  match t.interval with
  | some i => { t with expiration := addTime now i.delta }
  | none => { t with expiration := Timestamp.invalid }

end Timer

/-- `std::pair<Timestamp, Timer*>`. -/
structure Entry where
  when : Timestamp
  timer : Nat
deriving DecidableEq, Repr

/-- The pair, in lexicographic order. -/
def Entry.key (e : Entry) : Int ×ₗ Nat := toLex (e.when, e.timer)

theorem Entry.key_injective : Function.Injective Entry.key := by
  intro a b h
  have h' : (a.when, a.timer) = (b.when, b.timer) := toLex.injective h
  cases a
  cases b
  simpa using h'

instance : LinearOrder Entry := LinearOrder.lift' Entry.key Entry.key_injective

/-- `std::pair<Timer*, int64_t>`; also what a `TimerId` holds. -/
structure ActiveTimer where
  timer : Nat
  sequence : Int
deriving DecidableEq, Repr

/-! ## The timer descriptor -/

/-- A one-shot `timerfd`. -/
structure Timerfd where
  /-- When it will expire, if it is armed. -/
  armed : Option Int
  /-- It has expired and has not been read since. -/
  unread : Bool
  /-- What it was last armed for. -/
  deadline : Int
  /-- When it was last armed. -/
  armedAt : Int
deriving DecidableEq, Repr

structure Timespec where
  tv_sec : Int
  tv_nsec : Int
deriving DecidableEq, Repr

/-- `howMuchTimeFromNow(when)`, at time `now`. -/
def howMuchTimeFromNow (when now : Timestamp) : Timespec :=
  let microseconds := toInt64 (when - now)
  let microseconds := if microseconds < 100 then 100 else microseconds
  ⟨microseconds.tdiv Timestamp.kMicroSecondsPerSecond,
    microseconds.tmod Timestamp.kMicroSecondsPerSecond * 1000⟩

/-- The microseconds a `timespec` stands for. -/
def Timespec.micros (ts : Timespec) : Int := ts.tv_sec * 1000000 + ts.tv_nsec / 1000

/-- `resetTimerfd(timerfd, expiration)`: `timerfd_settime` takes a time from now, and drops what was unread. -/
def resetTimerfd (expiration now : Timestamp) : Timerfd :=
  let deadline := now + (howMuchTimeFromNow expiration now).micros
  ⟨some deadline, false, deadline, now⟩

/-! ## `TimerQueue` -/

/-- What has happened to the timer with this serial number. -/
inductive TimerEvent where
  | created (serial : Nat)
  | inserted (serial : Nat)
  | started (serial : Nat)
  | restarted (serial : Nat)
  | deleted (serial : Nat)
  /-- `cancel` was called with its id and has returned. -/
  | cancelled (serial : Nat)
deriving DecidableEq, Repr

def TimerEvent.serial : TimerEvent → Nat
  | .created k | .inserted k | .started k | .restarted k | .deleted k | .cancelled k => k

/-- Where the loop thread is in `handleRead`. -/
inductive TimerPoint where
  /-- Not in `handleRead`. -/
  | idle
  /-- In the loop over `expired`; `todo` is what has not been started. -/
  | calling (now : Timestamp) (expired todo : List Entry)
  /-- In the loop of `reset`; `rest` is what is left of `expired`. -/
  | resetting (now : Timestamp) (rest : List Entry)
deriving DecidableEq, Repr

/-- `class TimerQueue`, with the heap, the clock, and the `addTimerInLoop` functors on their way to it. -/
structure TimerQueue where
  heap : Nat → Option Timer
  /-- `Timer::s_numCreated_`, before it is reduced to an `int64_t`. -/
  numCreated : Nat
  timers : Finset Entry
  activeTimers : Finset ActiveTimer
  callingExpiredTimers : Bool
  cancelingTimers : Finset ActiveTimer
  timerfd : Timerfd
  clock : Timestamp
  /-- The timers in queued `addTimerInLoop` functors, oldest first. -/
  queued : List Nat
  point : TimerPoint
  log : List TimerEvent

namespace TimerQueue

def UINTPTR_MAX : Nat := 2 ^ 64 - 1

/-- The constructor, at time `now`, when `n` timers have been created for other queues. -/
def new (now : Timestamp) (n : Nat) : TimerQueue where
  heap := fun _ => none
  numCreated := n
  timers := ∅
  activeTimers := ∅
  callingExpiredTimers := false
  cancelingTimers := ∅
  timerfd := ⟨none, false, 0, 0⟩
  clock := now
  queued := []
  point := .idle
  log := []

def record (q : TimerQueue) (e : TimerEvent) : TimerQueue := { q with log := q.log ++ [e] }

/-! ### The heap -/

/-- `*p`. -/
def deref (q : TimerQueue) (p : Nat) : Outcome Timer :=
  match q.heap p with
  | some t => .ok t
  | none => .error .badAccess

def store (q : TimerQueue) (p : Nat) (t : Option Timer) : TimerQueue :=
  { q with heap := Function.update q.heap p t }

/-- `delete p`. -/
def delete (q : TimerQueue) (p : Nat) : Outcome TimerQueue := do
  let t ← q.deref p
  .ok ((q.store p none).record (.deleted t.serial))

/-- `new Timer(cb, when, interval)`, at address `p`. -/
def newTimer (q : TimerQueue) (p : Nat) (when : Timestamp) (interval : Option Interval) : TimerQueue :=
  let q := { q with numCreated := q.numCreated + 1 }
  (q.store p (some ⟨when, interval, q.numCreated⟩)).record (.created q.numCreated)

/-! ### Adding and cancelling -/

/-- `assert(timers_.size() == activeTimers_.size())`. -/
def assertSizes (q : TimerQueue) : Outcome Unit := assert (q.timers.card = q.activeTimers.card)

/-- The new timer would be the first to expire. -/
def earliestChanged (q : TimerQueue) (when : Timestamp) : Bool :=
  match first q.timers with
  | none => true
  | some e => decide (when < e.when)

def insert (q : TimerQueue) (p : Nat) : Outcome (Bool × TimerQueue) := do
  q.assertSizes
  let t ← q.deref p
  let earliestChanged := q.earliestChanged t.expiration
  let entry : Entry := ⟨t.expiration, p⟩
  assert (entry ∉ q.timers)
  let q := { q with timers := Insert.insert entry q.timers }
  let active : ActiveTimer := ⟨p, t.sequence⟩
  assert (active ∉ q.activeTimers)
  let q := { q with activeTimers := Insert.insert active q.activeTimers }
  q.assertSizes
  .ok (earliestChanged, q.record (.inserted t.serial))

def addTimerInLoop (q : TimerQueue) (p : Nat) : Outcome TimerQueue := do
  let (earliestChanged, q) ← q.insert p
  if earliestChanged then
    let t ← q.deref p
    .ok { q with timerfd := resetTimerfd t.expiration q.clock }
  else .ok q

def cancelInLoop (q : TimerQueue) (id : ActiveTimer) : Outcome TimerQueue := do
  q.assertSizes
  let q ← (if id ∈ q.activeTimers then do
      let t ← q.deref id.timer
      assert (⟨t.expiration, id.timer⟩ ∈ q.timers)
      let q := { q with timers := q.timers.erase ⟨t.expiration, id.timer⟩ }
      let q ← q.delete id.timer
      .ok { q with activeTimers := q.activeTimers.erase id }
    else if q.callingExpiredTimers then .ok { q with cancelingTimers := Insert.insert id q.cancelingTimers }
    else .ok q)
  q.assertSizes
  .ok q

/-! ### `handleRead` -/

/-- The loop of `getExpired` over the expired entries. -/
def eraseActive (q : TimerQueue) : List Entry → Outcome TimerQueue
  | [] => .ok q
  | e :: es => do
      let t ← q.deref e.timer
      assert (⟨e.timer, t.sequence⟩ ∈ q.activeTimers)
      { q with activeTimers := q.activeTimers.erase ⟨e.timer, t.sequence⟩ }.eraseActive es

def getExpired (q : TimerQueue) (now : Timestamp) : Outcome (List Entry × TimerQueue) := do
  q.assertSizes
  let sentry : Entry := ⟨now, UINTPTR_MAX⟩
  assert (∀ e ∈ first (removeBelow q.timers sentry), now < e.when)
  let expired := below q.timers sentry
  let q ← { q with timers := removeBelow q.timers sentry }.eraseActive expired
  q.assertSizes
  .ok (expired, q)

/-- `handleRead` up to the first callback. -/
def handleRead (q : TimerQueue) : Outcome TimerQueue := do
  let now := q.clock
  -- `readTimerfd`
  let q := { q with timerfd := { q.timerfd with unread := false } }
  let (expired, q) ← q.getExpired now
  .ok { q with callingExpiredTimers := true, cancelingTimers := ∅, point := .calling now expired expired }

/-- `it->second->run()`: the callback starts, and its calls are steps of their own. -/
def run (q : TimerQueue) (e : Entry) : Outcome TimerQueue := do
  let t ← q.deref e.timer
  .ok (q.record (.started t.serial))

/-- One iteration of the loop in `reset`. -/
def resetOne (q : TimerQueue) (now : Timestamp) (e : Entry) : Outcome TimerQueue := do
  let t ← q.deref e.timer
  if t.repeats ∧ ⟨e.timer, t.sequence⟩ ∉ q.cancelingTimers then
    let q := (q.store e.timer (some (t.restart now))).record (.restarted t.serial)
    let (_, q) ← q.insert e.timer
    .ok q
  else q.delete e.timer

/-- The end of `reset`. -/
def rearm (q : TimerQueue) : Outcome TimerQueue := do
  let nextExpire ← (match first q.timers with
    | none => .ok Timestamp.invalid
    | some e => do
        let t ← q.deref e.timer
        .ok t.expiration)
  .ok (if nextExpire.valid then { q with timerfd := resetTimerfd nextExpire q.clock } else q)

/-! ### Steps -/

inductive TimerOp where
  /-- `addTimer` on the loop thread; `new` returns `p`. -/
  | addTimer (p : Nat) (when : Timestamp) (interval : Option Interval)
  /-- `addTimer` on another thread, up to the push of the functor. -/
  | addTimerElsewhere (p : Nat) (when : Timestamp) (interval : Option Interval)
  /-- The loop runs the next `addTimerInLoop` functor. -/
  | runFunctor
  /-- `cancel` on the loop thread, or the functor of a `cancel` on another. -/
  | cancel (id : ActiveTimer)
  | handleRead
  | runNext
  /-- `callingExpiredTimers_ = false`, and `reset` starts. -/
  | endCalls
  | resetNext
  | resetDone
  /-- The armed timer descriptor expires. -/
  | expire
  /-- The clock moves on. -/
  | tick (now : Timestamp)
  /-- A timer is created for another queue. -/
  | createdElsewhere

/-- User code is running on the loop thread: at top level, or in the callback started last. -/
def userCode (q : TimerQueue) : Prop :=
  match q.point with
  | .idle => True
  | .calling _ expired todo => todo.length < expired.length
  | .resetting _ _ => False

/-- `new` returns an address that holds no timer; it is not null and below `UINTPTR_MAX`. -/
def free (q : TimerQueue) (p : Nat) : Prop := q.heap p = none ∧ 0 < p ∧ p < UINTPTR_MAX

def enabled (q : TimerQueue) : TimerOp → Prop
  | .addTimer p when _ => q.userCode ∧ q.free p ∧ IsInt64 when
  | .addTimerElsewhere p when _ => q.free p ∧ IsInt64 when
  | .runFunctor => q.point = .idle ∧ q.queued ≠ []
  | .cancel _ => q.userCode
  | .handleRead => q.point = .idle
  | .runNext => ∃ now expired e todo, q.point = .calling now expired (e :: todo)
  | .endCalls => ∃ now expired, q.point = .calling now expired []
  | .resetNext => ∃ now e rest, q.point = .resetting now (e :: rest)
  | .resetDone => ∃ now, q.point = .resetting now []
  | .expire => ∃ d, q.timerfd.armed = some d ∧ d ≤ q.clock
  | .tick now => q.clock ≤ now ∧ now < 2 ^ 63
  | .createdElsewhere => True

/-- Note that `cancel` was called with the id of a timer that exists. -/
def noteCancel (q : TimerQueue) (id : ActiveTimer) (before : TimerQueue) : TimerQueue :=
  match before.heap id.timer with
  | some t => if t.sequence = id.sequence then q.record (.cancelled t.serial) else q
  | none => q

def exec (q : TimerQueue) : TimerOp → Outcome TimerQueue
  | .addTimer p when interval => (q.newTimer p when interval).addTimerInLoop p
  | .addTimerElsewhere p when interval =>
      let q := q.newTimer p when interval
      .ok { q with queued := q.queued ++ [p] }
  | .runFunctor =>
      match q.queued with
      | [] => .ok q
      | p :: ps => { q with queued := ps }.addTimerInLoop p
  | .cancel id => do
      let q' ← q.cancelInLoop id
      .ok (q'.noteCancel id q)
  | .handleRead => q.handleRead
  | .runNext =>
      match q.point with
      | .calling now expired (e :: todo) => do
          let q ← q.run e
          .ok { q with point := .calling now expired todo }
      | _ => .ok q
  | .endCalls =>
      match q.point with
      | .calling now expired _ => .ok { q with callingExpiredTimers := false, point := .resetting now expired }
      | _ => .ok q
  | .resetNext =>
      match q.point with
      | .resetting now (e :: rest) => do
          let q ← q.resetOne now e
          .ok { q with point := .resetting now rest }
      | _ => .ok q
  | .resetDone => do
      let q ← q.rearm
      .ok { q with point := .idle }
  | .expire => .ok { q with timerfd := { q.timerfd with armed := none, unread := true } }
  | .tick now => .ok { q with clock := now }
  | .createdElsewhere => .ok { q with numCreated := q.numCreated + 1 }

/-- A queue from its construction on. `gettimeofday` reports times after the Epoch. -/
def timerSystem : System TimerQueue TimerOp where
  init q := ∃ now n, q = TimerQueue.new now n ∧ 0 < now ∧ now < 2 ^ 63
  enabled := enabled
  exec := exec

end TimerQueue

end Muduo.Net
