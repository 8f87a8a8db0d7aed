import Muduo.Net.Correctness.HttpKeepAlive
import Muduo.Net.Correctness.HttpResponse
import Muduo.Net.Correctness.TcpSays

/-!
# `Correctness.HttpAnswers` — what the client of a connection reads

On a connection the responses follow one another. Once a response has closed it, or a request has been refused,
nothing is added any more, although further requests may still be parsed and handed to the callback. `Standing` is
what the stream holds, for the requests served so far; each event keeps it, and `Read` is what the client makes of
the stream.
-/

namespace Muduo.Net.HttpServer

open Lib Buffer Detail HttpResponse HttpReader RequestText TcpConnection

variable {server : HttpServer} {cb : HttpRequest → Members → Members} {c : TcpConnection} {b : Buffer}
variable {s s' : HttpSession} {a : Received} {fuel : Nat} {r : WriteResult}

/-! ## What one answer adds -/

/-- The response that the callback fills in for a request. -/
def reply (cb : HttpRequest → Members → Members) (req : HttpRequest) : Members := cb req (Members.new (wantsClose req))

/-- The state of a connection and its stream, when `requests` have been served. -/
inductive Standing (cb : HttpRequest → Members → Members) (requests : List HttpRequest) : StateE × List UInt8 → Prop
  /-- Every one has been answered. -/
  | up : (∀ req ∈ requests, (reply cb req).closeConnection = false) →
      Standing cb requests (.kConnected, requests.flatMap fun req => (reply cb req).render)
  /-- The response to `last` has closed the connection. -/
  | closed {served : List HttpRequest} {last : HttpRequest} {unanswered : List HttpRequest} :
      requests = served ++ last :: unanswered → (∀ req ∈ served, (reply cb req).closeConnection = false) →
      (reply cb last).closeConnection = true →
      Standing cb requests
        (.kDisconnecting, (served.flatMap fun req => (reply cb req).render) ++ (reply cb last).render)
  /-- After those `served`, something was refused. -/
  | refused {served unanswered : List HttpRequest} : requests = served ++ unanswered →
      (∀ req ∈ served, (reply cb req).closeConnection = false) →
      Standing cb requests (.kDisconnecting, (served.flatMap fun req => (reply cb req).render) ++ badRequest)

variable {requests : List HttpRequest} {x : StateE × List UInt8}

theorem Standing.refuse (h : Standing cb requests x) : Standing cb requests (say badRequest true x) := by
  cases h with
  | up hopen => exact .refused (List.append_nil requests).symm hopen
  | closed hreqs hopen hclose => exact .closed hreqs hopen hclose
  | refused hreqs hopen => exact .refused hreqs hopen

/-! ## Every run -/

/-- What arrives at a peer that reads: no write is answered by `EPIPE`. -/
def Event.Delivered : Event → Prop
  | .received a => a.onBadRequest ≠ .failed .EPIPE ∧ a.onResponse ≠ .failed .EPIPE
  | .writable _ => True

/-- The head of the answer to a request that is refused. -/
def badRequestHead : Head :=
  ⟨400, chars ['B', 'a', 'd', ' ', 'R', 'e', 'q', 'u', 'e', 's', 't'], []⟩

theorem run_badRequest (read : List Response) :
    client.run (.status read) badRequest = (.pending (.untilClosed read badRequestHead), []) := by
  have htext : badRequest = render (statusText 400 badRequestHead.reason :: List.map fieldLine []) ++ (kCRLF ++ []) := by
    rfl
  rw [htext, run_head (by decide) (by simp)]
  exact run_uncounted rfl read []

/-- What the client has read when `requests` have been served, and, of a body that ends with the connection, what it
    holds. -/
inductive Read (cb : HttpRequest → Members → Members) (requests : List HttpRequest) :
    StateE → Progress State Unit × List UInt8 → Prop
  | up : (∀ req ∈ requests, (reply cb req).closeConnection = false) →
      Read cb requests .kConnected (.pending (.status (requests.map fun req => (reply cb req).response)), [])
  | closed {served : List HttpRequest} {last : HttpRequest} {unanswered : List HttpRequest} :
      requests = served ++ last :: unanswered → (∀ req ∈ served, (reply cb req).closeConnection = false) →
      (reply cb last).closeConnection = true →
      Read cb requests .kDisconnecting (.pending (.untilClosed (served.map fun req => (reply cb req).response)
        (reply cb last).head), (reply cb last).body)
  | refused {served unanswered : List HttpRequest} : requests = served ++ unanswered →
      (∀ req ∈ served, (reply cb req).closeConnection = false) →
      Read cb requests .kDisconnecting
        (.pending (.untilClosed (served.map fun req => (reply cb req).response) badRequestHead), [])

theorem run_served {served : List HttpRequest} (hcb : ∀ req, (reply cb req).WellFormed)
    (hopen : ∀ req ∈ served, (reply cb req).closeConnection = false) (rest : List UInt8) :
    client.run (.status []) ((served.flatMap fun req => (reply cb req).render) ++ rest) =
      client.run (.status (served.map fun req => (reply cb req).response)) rest := by
  have hall : ∀ m ∈ served.map (reply cb), m.WellFormed ∧ m.closeConnection = false := by
    intro m hm
    obtain ⟨req, hreq, rfl⟩ := List.mem_map.mp hm
    exact ⟨hcb req, hopen req hreq⟩
  have hrun := run_flatMap_render hall [] rest
  rw [List.flatMap_map, List.map_map, List.nil_append] at hrun
  exact hrun

theorem Standing.read (h : Standing cb requests x) (hcb : ∀ req, (reply cb req).WellFormed) :
    Read cb requests x.1 (client.run (.status []) x.2) := by
  cases h with
  | up hopen =>
      have hrun := run_served hcb hopen []
      rw [List.append_nil, run_nil] at hrun
      show Read cb requests .kConnected (client.run _ _)
      rw [hrun]
      exact .up hopen
  | @closed served last unanswered hreqs hopen hclose =>
      have hrun := run_render (hcb last) (served.map fun req => (reply cb req).response) []
      rw [hclose, if_pos rfl, List.append_nil, List.append_nil] at hrun
      show Read cb requests .kDisconnecting (client.run _ _)
      rw [run_served hcb hopen, hrun]
      exact .closed hreqs hopen hclose
  | refused hreqs hopen =>
      show Read cb requests .kDisconnecting (client.run _ _)
      rw [run_served hcb hopen, run_badRequest]
      exact .refused hreqs hopen

end Muduo.Net.HttpServer
