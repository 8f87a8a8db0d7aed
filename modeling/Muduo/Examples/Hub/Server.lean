import Muduo.Base.Timestamp
import Muduo.Examples.Hub.Codec
import Muduo.Lib.Loop
import Muduo.Lib.OrderedMap
import Muduo.Lib.OrderedSet
import Muduo.Lib.System
import Muduo.Net.TcpConnection

/-!
# `Examples.Hub.Server` — a hub that connections publish to and subscribe at

`Topic` and `PubSubServer` of `hub.cc`. Everything happens on one loop thread, one callback after the other: connections
come, send bytes, become writable and go, and a timer publishes the time. `kernel conn n` is the kernel's answer to
the write of the `n`-th message that is sent on `conn`, if one is made.

The callbacks change the state as the code does; in addition they record what was executed.
-/

namespace Muduo.Examples

open Lib Net

/-- `class Topic`. -/
structure Topic (Conn : Type) where
  topic : List UInt8
  content : List UInt8
  lastPubTime : Timestamp
  audiences : Finset Conn

/-- A connection of the hub. -/
structure HubConnection where
  conn : TcpConnection
  buf : Buffer
  /-- The `ConnectionSubscription` that is its context. -/
  context : Finset (List UInt8)
  /-- How many messages have been sent on it. -/
  sends : Nat

/-- What the hub has done. -/
inductive Executed (Conn : Type) where
  | command (conn : Conn) (message : HubMessage) (receiveTime : Timestamp)
  /-- `parseMessage` has returned `kError`. -/
  | refused (conn : Conn)
  | timePublish (now : Timestamp) (text : List UInt8)

/-- `class PubSubServer`, with its connections. -/
structure PubSubServer (Conn : Type) where
  topics : List UInt8 → Option (Topic Conn)
  connections : Conn → HubConnection
  /-- Oldest first. -/
  executed : List (Executed Conn)

/-- What happens next on the loop thread. -/
inductive HubAction (Conn : Type) where
  | connect (conn : Conn)
  | receive (conn : Conn) (chunk : Bytes) (receiveTime : Timestamp)
  | writable (conn : Conn) (r : WriteResult)
  | disconnect (conn : Conn)
  /-- `timePublish` is called; `text` is what `now.toFormattedString()` returns. -/
  | timePublish (now : Timestamp) (text : List UInt8)

namespace Topic

variable {Conn : Type} [LinearOrder Conn]

/-- The constructor. -/
def new (topic : List UInt8) : Topic Conn := ⟨topic, [], Timestamp.invalid, ∅⟩

def makeMessage (t : Topic Conn) : List UInt8 :=
  HubMessage.pub ++ [0x20] ++ t.topic ++ Buffer.kCRLF ++ t.content ++ Buffer.kCRLF

/-- `add(conn)`: the topic, and what is sent to whom. -/
def add (t : Topic Conn) (conn : Conn) : Topic Conn × List (Conn × List UInt8) :=
  let t := { t with audiences := insert conn t.audiences }
  (t, if t.lastPubTime.valid then [(conn, t.makeMessage)] else [])

def remove (t : Topic Conn) (conn : Conn) : Topic Conn := { t with audiences := t.audiences.erase conn }

/-- `publish(content, time)`: the topic, and what is sent to whom. -/
def publish (t : Topic Conn) (content : List UInt8) (time : Timestamp) : Topic Conn × List (Conn × List UInt8) :=
  let t := { t with content, lastPubTime := time }
  (t, (OrderedSet.elements t.audiences).map (·, t.makeMessage))

end Topic

namespace PubSubServer

variable {Conn : Type} [LinearOrder Conn]

/-! ## Parts of the state -/

def setConnection (s : PubSubServer Conn) (conn : Conn) (c : HubConnection) : PubSubServer Conn :=
  { s with connections := Function.update s.connections conn c }

def setContext (s : PubSubServer Conn) (conn : Conn) (context : Finset (List UInt8)) : PubSubServer Conn :=
  s.setConnection conn { s.connections conn with context }

def setBuf (s : PubSubServer Conn) (conn : Conn) (buf : Buffer) : PubSubServer Conn :=
  s.setConnection conn { s.connections conn with buf }

def setConn (s : PubSubServer Conn) (conn : Conn) (tcp : TcpConnection) : PubSubServer Conn :=
  s.setConnection conn { s.connections conn with conn := tcp }

/-- `getTopic(topic)`; a topic that is not there is new. -/
def getTopic (s : PubSubServer Conn) (topic : List UInt8) : Topic Conn := (s.topics topic).getD (Topic.new topic)

def setTopic (s : PubSubServer Conn) (topic : List UInt8) (t : Topic Conn) : PubSubServer Conn :=
  { s with topics := Function.update s.topics topic (some t) }

def record (s : PubSubServer Conn) (x : Executed Conn) : PubSubServer Conn := { s with executed := s.executed ++ [x] }

/-! ## The connections -/

variable (kernel : Conn → Nat → WriteResult)

/-- `conn->send(message)`. -/
def send (s : PubSubServer Conn) (conn : Conn) (message : List UInt8) : Outcome (PubSubServer Conn) := do
  let c := s.connections conn
  let tcp ← c.conn.sendPiece (StringPiece.ofString message) (kernel conn c.sends)
  .ok (s.setConnection conn { c with conn := tcp, sends := c.sends + 1 })

def sendAll : PubSubServer Conn → List (Conn × List UInt8) → Outcome (PubSubServer Conn)
  | s, [] => .ok s
  | s, (conn, message) :: sends => do
      let s ← s.send kernel conn message
      s.sendAll sends

/-- `conn->shutdown()`. -/
def shutdown (s : PubSubServer Conn) (conn : Conn) : PubSubServer Conn :=
  s.setConn conn (s.connections conn).conn.shutdown

/-! ## Commands -/

def doSubscribe (s : PubSubServer Conn) (conn : Conn) (topic : List UInt8) : Outcome (PubSubServer Conn) :=
  let s := s.setContext conn (insert topic (s.connections conn).context)
  let (t, sends) := (s.getTopic topic).add conn
  (s.setTopic topic t).sendAll kernel sends

/-- `doUnsubscribe(conn, topic)`; `element` says that `topic` is a reference to the element that is erased. -/
def doUnsubscribe (s : PubSubServer Conn) (conn : Conn) (topic : List UInt8) (element : Bool) :
    Outcome (PubSubServer Conn) :=
  let s := s.setContext conn ((s.connections conn).context.erase topic)
  if element then .error .badAccess -- `getTopic` reads the string
  else .ok (s.setTopic topic ((s.getTopic topic).remove conn))

def doPublish (s : PubSubServer Conn) (topic content : List UInt8) (time : Timestamp) : Outcome (PubSubServer Conn) :=
  let (t, sends) := (s.getTopic topic).publish content time
  (s.setTopic topic t).sendAll kernel sends

/-! ## Callbacks -/

/-- The loop of `onConnection`, over the elements of the set. -/
def unsubscribeAll (conn : Conn) : PubSubServer Conn → List (List UInt8) → Outcome (PubSubServer Conn)
  | s, [] => .ok s
  | s, topic :: topics => do
      let s ← s.doUnsubscribe conn topic true
      unsubscribeAll conn s topics

/-- The elements of a `std::set<string>`. -/
def elements (context : Finset (List UInt8)) : List (List UInt8) := @OrderedSet.elements _ stringOrder context

def onConnection (s : PubSubServer Conn) (conn : Conn) : Outcome (PubSubServer Conn) :=
  if (s.connections conn).conn.connected then .ok (s.setContext conn ∅)
  else s.unsubscribeAll conn (elements (s.connections conn).context)

open HubMessage in
/-- One iteration of the loop in `onMessage`. -/
def iterate (conn : Conn) (receiveTime : Timestamp) (s : PubSubServer Conn) :
    Outcome (Loop.Step (PubSubServer Conn)) := do
  let (result, message, buf) ← parseMessage (s.connections conn).buf
  let s := s.setBuf conn buf
  match result with
  | .kSuccess =>
      let s := s.record (.command conn message receiveTime)
      if message.cmd = pub then do
        let s ← s.doPublish kernel message.topic message.content receiveTime
        .ok (.again s)
      else if message.cmd = sub then do
        let s ← s.doSubscribe kernel conn message.topic
        .ok (.again s)
      else if message.cmd = unsub then do
        let s ← s.doUnsubscribe conn message.topic false
        .ok (.again s)
      else .ok (.leave (s.shutdown conn))
  | .kError => .ok (.leave ((s.record (.refused conn)).shutdown conn))
  | .kContinue => .ok (.leave s)

/-- `onMessage(conn, buf, receiveTime)`. An iteration that is not the last takes bytes out of the buffer; that the
    loop is left in time is for `iterate_spec` to show. -/
def onMessage (s : PubSubServer Conn) (conn : Conn) (receiveTime : Timestamp) : Outcome (PubSubServer Conn) :=
  (Loop.run (iterate kernel conn receiveTime) ((s.connections conn).buf.readableBytes + 1) s).getD (.error .badAccess)

/-- `"utc_time"`. -/
def utcTime : List UInt8 := [0x75, 0x74, 0x63, 0x5f, 0x74, 0x69, 0x6d, 0x65]

def timePublish (s : PubSubServer Conn) (now : Timestamp) (text : List UInt8) : Outcome (PubSubServer Conn) :=
  (s.record (.timePublish now text)).doPublish kernel utcTime text now

/-! ## Every run -/

def exec (s : PubSubServer Conn) : HubAction Conn → Outcome (PubSubServer Conn)
  | .connect conn => do
      let tcp ← (s.connections conn).conn.connectEstablished []
      (s.setConn conn tcp).onConnection conn
  | .receive conn chunk receiveTime => do
      let buf ← (s.connections conn).buf.append chunk.data chunk.data.length
      (s.setBuf conn buf).onMessage kernel conn receiveTime
  | .writable conn r => do
      let tcp ← (s.connections conn).conn.handleWrite r
      .ok (s.setConn conn tcp)
  | .disconnect conn => do
      let tcp ← (s.connections conn).conn.handleClose []
      (s.setConn conn tcp).onConnection conn
  | .timePublish now text => s.timePublish kernel now text

/-- What `toFormattedString` writes: at most 31 digits, blanks, dots, colons and minus signs. -/
def Formatted (text : List UInt8) : Prop :=
  text.length < 32 ∧ ∀ b ∈ text, b = 0x20 ∨ b = 0x2d ∨ b = 0x2e ∨ 0x30 ≤ b ∧ b ≤ 0x3a

/-- The connection is there, and may have been shut down. -/
def Here (s : PubSubServer Conn) (conn : Conn) : Prop :=
  (s.connections conn).conn.state = .kConnected ∨ (s.connections conn).conn.state = .kDisconnecting

/-- A connection comes once, and goes once. The bytes of it that wait in the buffer are less than two gigabytes, so
    that an `int` counts every message. -/
def Enabled (s : PubSubServer Conn) : HubAction Conn → Prop
  | .connect conn => (s.connections conn).conn.state = .kConnecting
  | .receive conn chunk _ => s.Here conn ∧ (s.connections conn).buf.readableBytes + chunk.data.length < 2 ^ 31
  | .writable conn _ => s.Here conn
  | .disconnect conn => s.Here conn
  | .timePublish _ text => Formatted text

instance decidableFormatted (text : List UInt8) : Decidable (Formatted text) := inferInstanceAs (Decidable (_ ∧ _))

instance decidableHere (s : PubSubServer Conn) (conn : Conn) : Decidable (s.Here conn) :=
  inferInstanceAs (Decidable (_ ∨ _))

instance decidableEnabled (s : PubSubServer Conn) : DecidablePred s.Enabled
  | .connect _ => inferInstanceAs (Decidable (_ = _))
  | .receive _ _ _ => inferInstanceAs (Decidable (_ ∧ _))
  | .writable conn _ => decidableHere s conn
  | .disconnect conn => decidableHere s conn
  | .timePublish _ text => decidableFormatted text

/-- The constructor; no connection has come yet. -/
def new : PubSubServer Conn := ⟨fun _ => none, fun _ => ⟨TcpConnection.new false false, Buffer.new, ∅, 0⟩, []⟩

/-- Any order of what happens. -/
def system : System (PubSubServer Conn) (HubAction Conn) where
  init s := s = new
  enabled := Enabled
  exec := exec kernel

instance decidableSystem (s : PubSubServer Conn) : DecidablePred ((system kernel).enabled s) := decidableEnabled s

end PubSubServer

end Muduo.Examples
