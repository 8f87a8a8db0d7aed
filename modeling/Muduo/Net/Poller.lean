import Muduo.Net.Channel

/-!
# `Net.Poller` — `PollPoller` and `EPollPoller`

Both pollers keep a map `channels_` from descriptors to channels and store a number of their own in each
`Channel`. For `PollPoller` this `index` is the position of the channel's entry in the vector `pollfds_`, which
is what the kernel is given; for `EPollPoller` it says whether the descriptor is in the kernel's interest set.

Channels are named by the elements of a type `ι`, and a `Channel*` is such a name; the objects themselves are in
the table `objects`. The functions are those of `PollPoller.cc` and `EPollPoller.cc`, and `perform` is what the
operations of `Channel` make of them.
-/

namespace Muduo.Net

open Lib

/-- What a poller uses of a channel. -/
structure PolledChannel where
  channel : Channel
  fd : Int
  index : Int
deriving DecidableEq, Repr

/-- The constructor, for a descriptor. -/
def PolledChannel.new (fd : Int) : PolledChannel := ⟨Channel.new, fd, -1⟩

/-- `struct pollfd`. -/
structure PollFd where
  fd : Int
  events : BitVec 16
  revents : BitVec 16
deriving DecidableEq, Repr

/-- The operations of a channel that end in the poller. -/
inductive ChannelOp where
  | enableReading
  | disableReading
  | enableWriting
  | disableWriting
  | disableAll
deriving DecidableEq, Repr

/-- What the operation does to the interest mask. -/
def ChannelOp.apply : ChannelOp → Channel → Channel
  | .enableReading => Channel.enableReading
  | .disableReading => Channel.disableReading
  | .enableWriting => Channel.enableWriting
  | .disableWriting => Channel.disableWriting
  | .disableAll => Channel.disableAll

/-- A call on one of the channels. -/
inductive PollerCall (ι : Type) where
  | update (c : ι) (op : ChannelOp)
  | remove (c : ι)
deriving DecidableEq, Repr

/-- The channel that is called. -/
def PollerCall.channel {ι : Type} : PollerCall ι → ι
  | .update c _ | .remove c => c

variable {ι : Type} [DecidableEq ι]

/-- The table with `set_index(idx)` called on one channel. -/
def setIndex (objects : ι → PolledChannel) (c : ι) (idx : Int) : ι → PolledChannel :=
  Function.update objects c { objects c with index := idx }

/-- The table with the operation applied to one channel. -/
def setEvents (objects : ι → PolledChannel) (c : ι) (op : ChannelOp) : ι → PolledChannel :=
  Function.update objects c { objects c with channel := op.apply (objects c).channel }

/-- The table with `set_revents(revt)` called on one channel. -/
def setRevents (objects : ι → PolledChannel) (c : ι) (revt : EventMask) : ι → PolledChannel :=
  Function.update objects c { objects c with channel := (objects c).channel.set_revents revt }

/-! ## `PollPoller` -/

/-- `class PollPoller`, and the channels. -/
structure PollPoller (ι : Type) where
  objects : ι → PolledChannel
  channels : Int → Option ι
  pollfds : List PollFd

namespace PollPoller

/-- A poller without channels. -/
def new (fd : ι → Int) : PollPoller ι := ⟨fun c => .new (fd c), fun _ => none, []⟩

/-- `updateChannel`, for a channel that is not there yet. -/
def addChannel (p : PollPoller ι) (c : ι) : Outcome (PollPoller ι) := do
  let channel := p.objects c
  assert (p.channels channel.fd = none)
  let pfd : PollFd := ⟨channel.fd, channel.channel.events.setWidth 16, 0⟩
  let pollfds := p.pollfds ++ [pfd]
  let idx : Int := pollfds.length - 1
  .ok ⟨setIndex p.objects c idx, Function.update p.channels pfd.fd (some c), pollfds⟩

/-- `updateChannel`, for an existing entry. -/
def modifyChannel (p : PollPoller ι) (c : ι) : Outcome (PollPoller ι) := do
  let channel := p.objects c
  assert (p.channels channel.fd ≠ none)
  assert (p.channels channel.fd = some c)
  let idx := channel.index
  assert (0 ≤ idx ∧ idx < p.pollfds.length)
  match p.pollfds[idx.toNat]? with
  | none => .error .badAccess
  | some pfd => do
      assert (pfd.fd = channel.fd ∨ pfd.fd = -channel.fd - 1)
      let pfd := { pfd with events := channel.channel.events.setWidth 16, revents := 0 }
      -- ignore this pollfd
      let pfd := if channel.channel.isNoneEvent then { pfd with fd := -channel.fd - 1 } else pfd
      .ok { p with pollfds := p.pollfds.set idx.toNat pfd }

def updateChannel (p : PollPoller ι) (c : ι) : Outcome (PollPoller ι) :=
  if (p.objects c).index < 0 then p.addChannel c else p.modifyChannel c

/-- The end of `removeChannel`: the last entry takes the place of entry `idx`. -/
def removeEntry (p : PollPoller ι) (idx : Nat) : Outcome (PollPoller ι) :=
  if idx = p.pollfds.length - 1 then .ok { p with pollfds := p.pollfds.dropLast }
  else
    match p.pollfds.getLast? with
    | none => .error .badAccess
    | some last =>
        let channelAtEnd := if last.fd < 0 then -last.fd - 1 else last.fd
        match p.channels channelAtEnd with
        | none => .error .badAccess
        | some c => .ok { p with objects := setIndex p.objects c idx, pollfds := (p.pollfds.set idx last).dropLast }

def removeChannel (p : PollPoller ι) (c : ι) : Outcome (PollPoller ι) := do
  let channel := p.objects c
  assert (p.channels channel.fd ≠ none)
  assert (p.channels channel.fd = some c)
  assert (channel.channel.isNoneEvent = true)
  let idx := channel.index
  assert (0 ≤ idx ∧ idx < p.pollfds.length)
  match p.pollfds[idx.toNat]? with
  | none => .error .badAccess
  | some pfd => do
      assert (pfd.fd = -channel.fd - 1 ∧ pfd.events.signExtend 32 = channel.channel.events)
      { p with channels := Function.update p.channels channel.fd none }.removeEntry idx.toNat

/-- The loop of `fillActiveChannels`, over what is left of `pollfds_`. -/
def fillFrom (p : PollPoller ι) (numEvents : Int) (activeChannels : List ι) :
    List PollFd → Outcome (PollPoller ι × List ι)
  | [] => .ok (p, activeChannels)
  | pfd :: pfds =>
      if numEvents > 0 then
        if pfd.revents.toInt > 0 then do
          assert (p.channels pfd.fd ≠ none)
          match p.channels pfd.fd with
          | none => .error .badAccess
          | some channel => do
              assert ((p.objects channel).fd = pfd.fd)
              { p with objects := setRevents p.objects channel (pfd.revents.signExtend 32) }.fillFrom
                (numEvents - 1) (activeChannels ++ [channel]) pfds
        else p.fillFrom numEvents activeChannels pfds
      else .ok (p, activeChannels)

def fillActiveChannels (p : PollPoller ι) (numEvents : Int) (activeChannels : List ι) :
    Outcome (PollPoller ι × List ι) :=
  p.fillFrom numEvents activeChannels p.pollfds

/-- An operation of a channel: `update()` and `remove()` go to the poller. -/
def perform (p : PollPoller ι) : PollerCall ι → Outcome (PollPoller ι)
  | .update c op => { p with objects := setEvents p.objects c op }.updateChannel c
  | .remove c => do
      (p.objects c).channel.remove
      p.removeChannel c

/-- What the kernel is asked to watch: `poll(2)` ignores entries with a negative descriptor. -/
def watched (p : PollPoller ι) : Set (Int × EventMask) :=
  { w | ∃ pfd ∈ p.pollfds, 0 ≤ pfd.fd ∧ w = (pfd.fd, pfd.events.setWidth 32) ∧ w.2 ≠ Channel.kNoneEvent }

end PollPoller

/-! ## `EPollPoller` -/

/-- The operations of `epoll_ctl`. -/
inductive EPollOp where
  | EPOLL_CTL_ADD
  | EPOLL_CTL_MOD
  | EPOLL_CTL_DEL
deriving DecidableEq, Repr

/-- The arguments of a call of `epoll_ctl`; of `event` the mask and the pointer in `data`. -/
structure EPollCtl (ι : Type) where
  operation : EPollOp
  fd : Int
  event : EventMask × ι
deriving DecidableEq, Repr

/-- `class EPollPoller`, the channels, and the interest set the kernel keeps for `epollfd_`: for each descriptor
    the mask and the pointer in `data`. -/
structure EPollPoller (ι : Type) where
  objects : ι → PolledChannel
  channels : Int → Option ι
  interest : Int → Option (EventMask × ι)
  /-- The calls of `epoll_ctl` so far, oldest first, whether they succeeded or not. -/
  ctls : List (EPollCtl ι)

namespace EPollPoller

def kNew : Int := -1
def kAdded : Int := 1
def kDeleted : Int := 2

/-- A poller without channels. -/
def new (fd : ι → Int) : EPollPoller ι := ⟨fun c => .new (fd c), fun _ => none, fun _ => none, []⟩

/-- `epoll_ctl(2)` on an open descriptor: the new interest set, or an error. -/
def epollCtl (interest : Int → Option (EventMask × ι)) (op : EPollOp) (fd : Int) (event : EventMask × ι) :
    Option (Int → Option (EventMask × ι)) :=
  match op, interest fd with
  | .EPOLL_CTL_ADD, none => some (Function.update interest fd (some event))
  | .EPOLL_CTL_ADD, some _ => none -- EEXIST
  | .EPOLL_CTL_MOD, some _ => some (Function.update interest fd (some event))
  | .EPOLL_CTL_MOD, none => none -- ENOENT
  | .EPOLL_CTL_DEL, some _ => some (Function.update interest fd none)
  | .EPOLL_CTL_DEL, none => none -- ENOENT

/-- `update(operation, channel)`. `LOG_SYSFATAL` aborts, as a failed assertion does. -/
def update (p : EPollPoller ι) (operation : EPollOp) (c : ι) : Outcome (EPollPoller ι) :=
  let event := ((p.objects c).channel.events, c)
  let fd := (p.objects c).fd
  let p := { p with ctls := p.ctls ++ [⟨operation, fd, event⟩] }
  match epollCtl p.interest operation fd event with
  | some interest => .ok { p with interest }
  | none => if operation = .EPOLL_CTL_DEL then .ok p else .error .assertion

/-- `updateChannel`, for a channel that is not in the interest set. -/
def addChannel (p : EPollPoller ι) (c : ι) : Outcome (EPollPoller ι) := do
  let fd := (p.objects c).fd
  let p ← (if (p.objects c).index = kNew then do
      assert (p.channels fd = none)
      .ok { p with channels := Function.update p.channels fd (some c) }
    else do
      assert (p.channels fd ≠ none)
      assert (p.channels fd = some c)
      .ok p)
  { p with objects := setIndex p.objects c kAdded }.update .EPOLL_CTL_ADD c

/-- `updateChannel`, for a channel that is. -/
def modifyChannel (p : EPollPoller ι) (c : ι) : Outcome (EPollPoller ι) := do
  let channel := p.objects c
  assert (p.channels channel.fd ≠ none)
  assert (p.channels channel.fd = some c)
  assert (channel.index = kAdded)
  if channel.channel.isNoneEvent then do
    let p ← p.update .EPOLL_CTL_DEL c
    .ok { p with objects := setIndex p.objects c kDeleted }
  else p.update .EPOLL_CTL_MOD c

def updateChannel (p : EPollPoller ι) (c : ι) : Outcome (EPollPoller ι) :=
  if (p.objects c).index = kNew ∨ (p.objects c).index = kDeleted then p.addChannel c else p.modifyChannel c

def removeChannel (p : EPollPoller ι) (c : ι) : Outcome (EPollPoller ι) := do
  let channel := p.objects c
  assert (p.channels channel.fd ≠ none)
  assert (p.channels channel.fd = some c)
  assert (channel.channel.isNoneEvent = true)
  assert (channel.index = kAdded ∨ channel.index = kDeleted)
  let p := { p with channels := Function.update p.channels channel.fd none }
  let p ← (if channel.index = kAdded then p.update .EPOLL_CTL_DEL c else .ok p)
  .ok { p with objects := setIndex p.objects c kNew }

/-- `fillActiveChannels`, for the entries of `events_` that `epoll_wait` has filled in: a mask and the pointer in
    `data`. -/
def fillActiveChannels (p : EPollPoller ι) (activeChannels : List ι) :
    List (EventMask × ι) → Outcome (EPollPoller ι × List ι)
  | [] => .ok (p, activeChannels)
  | (revents, channel) :: events => do
      assert (p.channels (p.objects channel).fd ≠ none)
      assert (p.channels (p.objects channel).fd = some channel)
      { p with objects := setRevents p.objects channel revents }.fillActiveChannels (activeChannels ++ [channel]) events

/-- An operation of a channel: `update()` and `remove()` go to the poller. -/
def perform (p : EPollPoller ι) : PollerCall ι → Outcome (EPollPoller ι)
  | .update c op => { p with objects := setEvents p.objects c op }.updateChannel c
  | .remove c => do
      (p.objects c).channel.remove
      p.removeChannel c

/-- What the kernel is asked to watch. -/
def watched (p : EPollPoller ι) : Set (Int × EventMask) :=
  { w | ∃ c, p.interest w.1 = some (w.2, c) ∧ w.2 ≠ Channel.kNoneEvent }

end EPollPoller

end Muduo.Net
