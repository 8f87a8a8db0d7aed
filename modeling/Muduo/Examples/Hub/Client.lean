import Muduo.Examples.Hub.Codec
import Muduo.Lib.Loop
import Muduo.Net.TcpConnection

/-!
# `Examples.Hub.Client` — the other end of a hub connection

`PubSubClient` of `pubsub.cc`, on its loop thread. What the user's callback does with the connection is a parameter; it
is recorded what it is called with. The buffer is the input buffer of the connection.
-/

namespace Muduo.Examples

open Lib Net

/-- What `subscribeCallback_` does to the connection, given the topic and the content. -/
abbrev SubscribeCallback : Type := TcpConnection → List UInt8 → List UInt8 → TcpConnection

/-- `class PubSubClient`. -/
structure PubSubClient where
  /-- `conn_`, which may be null. -/
  conn : Option TcpConnection
  subscribeCallback : Option SubscribeCallback
  buf : Buffer
  /-- The topics and contents passed to the callback, oldest first. -/
  calls : List (List UInt8 × List UInt8)

namespace PubSubClient

/-- The constructor. -/
def new : PubSubClient := ⟨none, none, Buffer.new, []⟩

/-- `onConnection(conn)`. -/
def onConnection (client : PubSubClient) (conn : TcpConnection) : PubSubClient :=
  { client with conn := if conn.connected then some conn else none }

/-- `send(message)`. -/
def send (client : PubSubClient) (message : List UInt8) (r : WriteResult) : Outcome (Bool × PubSubClient) :=
  match client.conn with
  | some conn =>
      if conn.connected then do
        let conn ← conn.sendPiece (StringPiece.ofString message) r
        .ok (true, { client with conn := some conn })
      else .ok (false, client)
  | none => .ok (false, client)

def subscribe (client : PubSubClient) (topic : List UInt8) (cb : SubscribeCallback) (r : WriteResult) :
    Outcome (Bool × PubSubClient) :=
  { client with subscribeCallback := some cb }.send (HubMessage.sub ++ [0x20] ++ topic ++ Buffer.kCRLF) r

/-- The result of `send` is dropped. -/
def unsubscribe (client : PubSubClient) (topic : List UInt8) (r : WriteResult) : Outcome PubSubClient := do
  let (_, client) ← client.send (HubMessage.unsub ++ [0x20] ++ topic ++ Buffer.kCRLF) r
  .ok client

def publish (client : PubSubClient) (topic content : List UInt8) (r : WriteResult) : Outcome (Bool × PubSubClient) :=
  client.send (HubMessage.pub ++ [0x20] ++ topic ++ Buffer.kCRLF ++ content ++ Buffer.kCRLF) r

/-- `subscribeCallback_` is called, if it is set. -/
def callback (client : PubSubClient) (m : HubMessage) : PubSubClient :=
  match client.subscribeCallback with
  | some cb =>
      if m.cmd = HubMessage.pub then
        { client with
          conn := client.conn.map fun conn => cb conn m.topic m.content
          calls := client.calls ++ [(m.topic, m.content)] }
      else client
  | none => client

/-- `conn->shutdown()`. -/
def shutdown (client : PubSubClient) : PubSubClient := { client with conn := client.conn.map TcpConnection.shutdown }

/-- One iteration of the loop in `onMessage`. -/
def iterate (client : PubSubClient) : Outcome (Loop.Step PubSubClient) := do
  let (result, message, buf) ← parseMessage client.buf
  let client := { client with buf }
  match result with
  | .kSuccess => .ok (.again (client.callback message))
  | .kError => .ok (.leave client.shutdown)
  | .kContinue => .ok (.leave client)

/-- `onMessage(conn, buf, receiveTime)`, for at most `fuel` iterations. -/
def onMessage (fuel : Nat) (client : PubSubClient) : Option (Outcome PubSubClient) := Loop.run iterate fuel client

/-- Bytes arrive: they are appended to the buffer, and `onMessage` is called. -/
def receive (client : PubSubClient) (fuel : Nat) (chunk : Bytes) : Option (Outcome PubSubClient) :=
  Loop.andThen (some (client.buf.append chunk.data chunk.data.length)) fun buf => onMessage fuel { client with buf }

/-- Several chunks, one after the other. -/
def receiveAll (fuel : Nat) : PubSubClient → List Bytes → Option (Outcome PubSubClient)
  | client, [] => some (.ok client)
  | client, chunk :: chunks => Loop.andThen (client.receive fuel chunk) fun client => receiveAll fuel client chunks

end PubSubClient

end Muduo.Examples
