import Muduo.Net.Poller
import Muduo.Net.TcpServer

/-!
# `Net.ServerTeardown` — `~TcpServer`, with the poller of its loop

The server here has no threads: its connections live on the base loop, and their channels are in the poller of
that loop, an `EPollPoller` whose channels are named by the numbers of the connections. Every operation on a
channel ends in `updateChannel`, so a step of the server comes with the operations it makes on the channel of
the connection it is about. Which these are is left open: any operations that lead from the mask the channel
had to the mask it has afterwards.
-/

namespace Muduo.Net

open Lib

/-- The server on its loop. -/
structure PolledServer where
  run : ServerRun
  poller : EPollPoller Nat

namespace PolledServer

/-- The connection that a step is about. -/
def subject (s : ServerRun) : ServerRun.Action → Nat
  | .newConnection _ => s.server.nextConnId
  | .handleEvent id _ => id
  | .userCall id _ => id
  | .runNext l _ =>
      match s.queues l with
      | [] => 0
      | f :: _ => f.id

/-- The step runs `connectDestroyed`, which ends with `channel_->remove()`. -/
def removes (s : ServerRun) : ServerRun.Action → Bool
  | .runNext l _ =>
      match s.queues l with
      | [] => false
      | f :: _ => f.task == .connectDestroyed
  | _ => false

/-- The operations `ops` on the channel of connection `id`, in order. -/
def updateChannel (p : EPollPoller Nat) (id : Nat) : List ChannelOp → Outcome (EPollPoller Nat)
  | [] => .ok p
  | op :: ops => do
      let p ← p.perform (.update id op)
      updateChannel p id ops

/-- A step of the server that makes the operations `ops` on the channel of its connection. -/
def exec (s : PolledServer) (a : ServerRun.Action × List ChannelOp) : Outcome PolledServer := do
  let id := subject s.run a.1
  let run ← s.run.exec a.1
  let poller ← updateChannel s.poller id a.2
  let poller ← (if removes s.run a.1 then poller.perform (.remove id) else .ok poller)
  .ok ⟨run, poller⟩

/-- `connectDestroyed` of connection `id`, on the base loop, with what it does to the poller. -/
def connectDestroyed (s : PolledServer) (id : Nat) (us : List UserCall) : Outcome PolledServer := do
  let o ← s.run.deref id
  let run ← s.run.connectDestroyed .base id us
  let poller ← (if o.conn.state = .kConnected then s.poller.perform (.update id .disableAll) else .ok s.poller)
  let poller ← poller.perform (.remove id)
  .ok ⟨run, poller⟩

end PolledServer

end Muduo.Net
