import Muduo.Net.Buffer

/-!
# `Examples.Hub.Codec` — the commands of a hub

`parseMessage` of `codec.cc`, which the server of `hub.cc` and the client of `pubsub.cc` share. A message is a line
with a command and a topic; the command `pub` is followed by another line, the content.
-/

namespace Muduo.Examples

open Lib Net

/-- `enum ParseResult`. -/
inductive ParseResult where
  | kError
  | kSuccess
  | kContinue
deriving DecidableEq, Repr

/-- The strings `cmd`, `topic` and `content`. -/
structure HubMessage where
  cmd : List UInt8
  topic : List UInt8
  content : List UInt8
deriving DecidableEq, Repr

namespace HubMessage

/-- `"pub"`. -/
def pub : List UInt8 := [0x70, 0x75, 0x62]

/-- `"sub"`. -/
def sub : List UInt8 := [0x73, 0x75, 0x62]

/-- `"unsub"`. -/
def unsub : List UInt8 := [0x75, 0x6e, 0x73, 0x75, 0x62]

/-- The strings before `parseMessage` is called. -/
def empty : HubMessage := ⟨[], [], []⟩

end HubMessage

open HubMessage in
/-- `parseMessage(buf, cmd, topic, content)`: the result, the strings, and the buffer. -/
def parseMessage (buf : Buffer) : Outcome (ParseResult × HubMessage × Buffer) :=
  match buf.findCRLF with
  | some crlf =>
      let line := window buf.buffer buf.readerIndex crlf
      let space := line.idxOf 0x20
      if space ≠ line.length then
        let cmd := line.take space
        let topic := line.drop (space + 1)
        if cmd = pub then do
          let start := crlf + 2
          match ← buf.findCRLFFrom start with
          | some crlf => do
              let content := window buf.buffer start crlf
              let buf ← buf.retrieveUntil (crlf + 2)
              .ok (.kSuccess, ⟨cmd, topic, content⟩, buf)
          | none => .ok (.kContinue, ⟨cmd, topic, []⟩, buf)
        else do
          let buf ← buf.retrieveUntil (crlf + 2)
          .ok (.kSuccess, ⟨cmd, topic, []⟩, buf)
      else .ok (.kError, empty, buf)
  | none => .ok (.kContinue, empty, buf)

end Muduo.Examples
