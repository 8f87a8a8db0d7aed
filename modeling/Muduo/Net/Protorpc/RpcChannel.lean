import Mathlib.Data.List.AList
import Muduo.Lib.System

/-!
# `Net.Protorpc.RpcChannel` — matching replies with calls

The functions of `RpcChannel.cc`. `CallMethod` may be executed on any thread; it takes an id, sends the request and
puts the call into `outstandings_`, and each of these is a step of its own here. `onRpcMessage` runs on the loop
thread; what it does outside of the lock is on data that no other thread touches, so it is one step.

Messages are sent and received as such; how they travel as bytes is `RpcCodec`'s. Response objects and closures are
pointers, and `log` records what is done with them.
-/

namespace Muduo.Net

open Lib

/-- `MessageType` of `rpc.proto`. -/
inductive MessageType where
  | REQUEST
  | RESPONSE
  | ERROR
deriving DecidableEq, Repr

/-- `int64_t`, and `fixed64` in a message. -/
abbrev RpcId := BitVec 64

/-- `RpcMessage` of `rpc.proto`, with the fields that are read or set. -/
structure RpcMessage where
  type : MessageType
  id : RpcId
  service : Option String
  method : Option String
  request : Option (List UInt8)
  response : Option (List UInt8)
deriving DecidableEq, Repr

/-- `OutstandingCall`: two pointers, which may be null. -/
structure OutstandingCall where
  response : Option Nat
  done : Option Nat
deriving DecidableEq, Repr

/-- What is done with a response object, a closure, or a service. -/
inductive RpcEvent where
  /-- `response->ParseFromString(data)`. -/
  | parseFromString (response : Nat) (data : List UInt8)
  /-- `done->Run()`. -/
  | run (done : Nat)
  /-- `delete response`. -/
  | delete (response : Nat)
  /-- `service->CallMethod(method, NULL, request, response, doneCallback)`. -/
  | callMethod (service method : String) (request : List UInt8) (id : RpcId)
deriving DecidableEq, Repr

/-- `services_`, which the constructors leave uninitialized. Of a service only the names of its methods are used. -/
inductive ServicesPtr where
  | uninitialized
  | set (services : Option (AList fun _ : String => List String))

/-- `class RpcChannel`. -/
structure RpcChannel where
  /-- `id_`. -/
  id : RpcId
  outstandings : AList fun _ : RpcId => OutstandingCall
  services : ServicesPtr
  /-- The messages passed to `RpcCodec::send`, oldest first. -/
  sent : List RpcMessage
  /-- The calls into services whose closure was not run yet. -/
  serving : List RpcId
  log : List RpcEvent

namespace RpcChannel

def new : RpcChannel where
  id := 0
  outstandings := ∅
  services := .uninitialized
  sent := []
  serving := []
  log := []

def setServices (c : RpcChannel) (services : Option (AList fun _ : String => List String)) : RpcChannel :=
  { c with services := .set services }

/-- `RpcCodec::send(conn_, message)`. -/
def send (c : RpcChannel) (message : RpcMessage) : RpcChannel := { c with sent := c.sent ++ [message] }

/-! ## `CallMethod` -/

/-- `id_.incrementAndGet()`. -/
def incrementAndGet (c : RpcChannel) : RpcId × RpcChannel := (c.id + 1, { c with id := c.id + 1 })

/-- The message that `CallMethod` sends. -/
def requestMessage (id : RpcId) (service method : String) (request : List UInt8) : RpcMessage where
  type := .REQUEST
  id := id
  service := some service
  method := some method
  request := some request
  response := none

/-- `outstandings_[id] = out`, under the lock. -/
def insertOutstanding (c : RpcChannel) (id : RpcId) (out : OutstandingCall) : RpcChannel :=
  { c with outstandings := c.outstandings.insert id out }

/-- `CallMethod` without a pause. -/
def callMethod (c : RpcChannel) (service method : String) (request : List UInt8) (out : OutstandingCall) : RpcChannel :=
  let (id, c) := c.incrementAndGet
  (c.send (requestMessage id service method request)).insertOutstanding id out

/-! ## `onRpcMessage` -/

/-- What happens to a call when its response has come. -/
def completion (out : OutstandingCall) (data : List UInt8) : List RpcEvent :=
  match out.response with
  | none => []
  | some response =>
      [.parseFromString response data] ++ (out.done.map RpcEvent.run).toList ++ [.delete response]

def onResponse (c : RpcChannel) (message : RpcMessage) : Outcome RpcChannel := do
  assert (message.response.isSome = true)
  match c.outstandings.lookup message.id with
  -- the reply to a call that is not there is dropped
  | none => .ok c
  | some out =>
      .ok { c with
        outstandings := c.outstandings.erase message.id
        log := c.log ++ completion out (message.response.getD []) }

def onRequest (c : RpcChannel) (message : RpcMessage) : Outcome RpcChannel :=
  match c.services with
  -- the test `if (services_)` reads the pointer
  | .uninitialized => .error .badAccess
  | .set none => .ok c -- FIXME:
  | .set (some services) =>
      match services.lookup (message.service.getD "") with
      | none => .ok c -- FIXME:
      | some methods =>
          if message.method.getD "" ∈ methods then
            .ok { c with
              serving := c.serving ++ [message.id]
              log := c.log ++ [.callMethod (message.service.getD "") (message.method.getD "")
                (message.request.getD []) message.id] }
          else .ok c -- FIXME:

def onRpcMessage (c : RpcChannel) (message : RpcMessage) : Outcome RpcChannel :=
  match message.type with
  | .RESPONSE => c.onResponse message
  | .REQUEST => c.onRequest message
  | .ERROR => .ok c

/-- `doneCallback(response, id)`, the closure that a service was given; `data` is the serialized response. -/
def doneCallback (c : RpcChannel) (id : RpcId) (data : List UInt8) : RpcChannel :=
  ({ c with serving := c.serving.erase id }).send
    { type := .RESPONSE, id, service := none, method := none, request := none, response := some data }

end RpcChannel

/-! ## A channel used by many threads -/

/-- Where a thread is in `CallMethod`. -/
inductive RpcPoint where
  | idle
  /-- It has its id, and is to send the request. -/
  | taken (message : RpcMessage) (out : OutstandingCall)
  /-- The request is sent, and the call is to be put into `outstandings_`. -/
  | sent (id : RpcId) (out : OutstandingCall)
deriving DecidableEq, Repr

/-- The id and the pointers of the call that a thread is making. -/
def RpcPoint.call : RpcPoint → Option (RpcId × OutstandingCall)
  | .idle => none
  | .taken message out => some (message.id, out)
  | .sent id out => some (id, out)

structure SharedChannel (τ : Type) where
  channel : RpcChannel
  threads : τ → RpcPoint
  /-- The ids taken, with the pointers they were taken for, in this order. -/
  assigned : List (RpcId × OutstandingCall)
  /-- The ids of the responses that were processed. -/
  processed : List RpcId

inductive RpcAction (τ : Type) where
  | takeId (t : τ) (service method : String) (request : List UInt8) (out : OutstandingCall)
  | sendRequest (t : τ)
  | insert (t : τ)
  | onRpcMessage (message : RpcMessage)
  | doneCallback (id : RpcId) (data : List UInt8)

namespace SharedChannel

variable {τ : Type}

def enabled (s : SharedChannel τ) : RpcAction τ → Prop
  | .takeId t _ _ _ _ => s.threads t = .idle
  | .sendRequest t => ∃ message out, s.threads t = .taken message out
  | .insert t => ∃ id out, s.threads t = .sent id out
  | .onRpcMessage _ => True
  | .doneCallback id _ => id ∈ s.channel.serving

variable [DecidableEq τ]

def exec (s : SharedChannel τ) : RpcAction τ → Outcome (SharedChannel τ)
  | .takeId t service method request out =>
      let (id, channel) := s.channel.incrementAndGet
      .ok { s with
        channel
        threads := Function.update s.threads t (.taken (RpcChannel.requestMessage id service method request) out)
        assigned := s.assigned ++ [(id, out)] }
  | .sendRequest t =>
      match s.threads t with
      | .taken message out =>
          .ok { s with
            channel := s.channel.send message
            threads := Function.update s.threads t (.sent message.id out) }
      | _ => .ok s
  | .insert t =>
      match s.threads t with
      | .sent id out =>
          .ok { s with
            channel := s.channel.insertOutstanding id out
            threads := Function.update s.threads t .idle }
      | _ => .ok s
  | .onRpcMessage message => do
      let channel ← s.channel.onRpcMessage message
      .ok { s with
        channel
        processed := if message.type = .RESPONSE then s.processed ++ [message.id] else s.processed }
  | .doneCallback id data => .ok { s with channel := s.channel.doneCallback id data }

/-- A new channel, with any services or none set. Any message may arrive. -/
def rpcSystem (τ : Type) [DecidableEq τ] : System (SharedChannel τ) (RpcAction τ) where
  init s := (∃ services, s.channel = { RpcChannel.new with services }) ∧ (∀ t, s.threads t = .idle) ∧
    s.assigned = [] ∧ s.processed = []
  enabled := enabled
  exec := exec

/-- The peer answers requests that it has received. -/
def Answers (s : SharedChannel τ) : RpcAction τ → Prop
  | .onRpcMessage message =>
      message.type = .RESPONSE ∧ message.response.isSome = true ∧
        ∃ request ∈ s.channel.sent, request.type = .REQUEST ∧ request.id = message.id
  | _ => True

end SharedChannel

end Muduo.Net
