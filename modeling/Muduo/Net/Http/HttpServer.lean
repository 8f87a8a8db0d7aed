import Mathlib.Data.List.DropRight
import Muduo.Base.Timestamp
import Muduo.Lib.Loop
import Muduo.Net.TcpConnection

/-!
# `Net.Http.HttpServer` — requests on one connection

`HttpRequest.h`, `HttpContext.h` and the functions of `HttpServer.cc`. The parser is an incremental one: what
it has made of a request so far is in the `HttpContext` of the connection, what it has not yet looked at stays
in the input buffer, and `onMessage` is called whenever bytes have been appended there.

The user's `httpCallback_` is a parameter. Of the response it fills in, only the text that `appendToBuffer`
writes and the flag `closeConnection_` reach the connection. The loop of `parseRequest` is run with fuel: in the
states `kExpectBody` and `kGotAll` it would not end.
-/

namespace Muduo.Net

open Lib

/-- `HttpRequest::Method`. -/
inductive Method where
  | kInvalid
  | kGet
  | kPost
  | kHead
  | kPut
  | kDelete
deriving DecidableEq, Repr

/-- `HttpRequest::Version`. -/
inductive Version where
  | kUnknown
  | kHttp10
  | kHttp11
deriving DecidableEq, Repr

/-- `HttpContext::HttpRequestParseState`. -/
inductive HttpRequestParseState where
  | kExpectRequestLine
  | kExpectHeaders
  | kExpectBody
  | kGotAll
deriving DecidableEq, Repr

/-- `class HttpRequest`; `headers_` maps the fields it has to their values. -/
structure HttpRequest where
  method : Method
  version : Version
  path : List UInt8
  receiveTime : Timestamp
  headers : List UInt8 → Option (List UInt8)

/-- `class HttpContext`. -/
structure HttpContext where
  state : HttpRequestParseState
  request : HttpRequest

/-- What a `HttpResponse` ends up as. -/
structure HttpResponse where
  /-- What `appendToBuffer` writes. -/
  text : Bytes
  closeConnection : Bool

/-- The characters of a literal. -/
def chars (s : List Char) : List UInt8 := s.map fun c => UInt8.ofNat c.toNat

/-- `isspace`, in the "C" locale. -/
def isspace (c : UInt8) : Bool := c == 0x20 || (0x09 ≤ c && c ≤ 0x0d)

namespace HttpRequest

/-- The default constructor. -/
def new : HttpRequest := ⟨.kInvalid, .kUnknown, [], Timestamp.invalid, fun _ => none⟩

/-- `methodString`, for each value of `method_`. -/
def methodString : Method → List UInt8
  | .kInvalid => chars ['U', 'N', 'K', 'N', 'O', 'W', 'N']
  | .kGet => chars ['G', 'E', 'T']
  | .kPost => chars ['P', 'O', 'S', 'T']
  | .kHead => chars ['H', 'E', 'A', 'D']
  | .kPut => chars ['P', 'U', 'T']
  | .kDelete => chars ['D', 'E', 'L', 'E', 'T', 'E']

/-- The chain of comparisons in `setMethod`. -/
def methodOf (m : List UInt8) : Method :=
  if m = chars ['G', 'E', 'T'] then .kGet
  else if m = chars ['P', 'O', 'S', 'T'] then .kPost
  else if m = chars ['H', 'E', 'A', 'D'] then .kHead
  else if m = chars ['P', 'U', 'T'] then .kPut
  else if m = chars ['D', 'E', 'L', 'E', 'T', 'E'] then .kDelete
  else .kInvalid

/-- `setMethod(start, end)`, and whether the method is a known one. -/
def setMethod (r : HttpRequest) (m : List UInt8) : Outcome (Bool × HttpRequest) := do
  assert (r.method = .kInvalid)
  let r := { r with method := methodOf m }
  .ok (r.method != .kInvalid, r)

def setPath (r : HttpRequest) (path : List UInt8) : HttpRequest := { r with path }

def setVersion (r : HttpRequest) (v : Version) : HttpRequest := { r with version := v }

def setReceiveTime (r : HttpRequest) (t : Timestamp) : HttpRequest := { r with receiveTime := t }

/-- `addHeader(start, colon, end)`, on the line from `start` to `end`. -/
def addHeader (r : HttpRequest) (line : List UInt8) (colon : Nat) : HttpRequest :=
  let field := line.take colon
  let value := ((line.drop (colon + 1)).dropWhile isspace).rdropWhile isspace
  { r with headers := Function.update r.headers field (some value) }

/-- `getHeader(field)`: empty, if there is none. -/
def getHeader (r : HttpRequest) (field : List UInt8) : List UInt8 := (r.headers field).getD []

/-- `swap(that)`, which does not exchange `version_`: the request afterwards. -/
def swap (r that : HttpRequest) : HttpRequest := { that with version := r.version }

end HttpRequest

namespace HttpContext

/-- The default constructor. -/
def new : HttpContext := ⟨.kExpectRequestLine, HttpRequest.new⟩

def expectRequestLine (c : HttpContext) : Bool := c.state == .kExpectRequestLine

def expectHeaders (c : HttpContext) : Bool := c.state == .kExpectHeaders

def gotAll (c : HttpContext) : Bool := c.state == .kGotAll

def receiveRequestLine (c : HttpContext) : HttpContext := { c with state := .kExpectHeaders }

def receiveHeaders (c : HttpContext) : HttpContext := { c with state := .kGotAll }

def reset (c : HttpContext) : HttpContext := ⟨.kExpectRequestLine, c.request.swap HttpRequest.new⟩

end HttpContext

/-! ## Parsing -/

/-- `"HTTP/1."`. -/
def http1 : List UInt8 := chars ['H', 'T', 'T', 'P', '/', '1', '.']

/-- The end of `processRequestLine`: what follows the second space. -/
def processVersion (version : List UInt8) (request : HttpRequest) : Bool × HttpRequest :=
  if version.length = 8 ∧ version.take 7 = http1 then
    if version.drop 7 = chars ['1'] then (true, request.setVersion .kHttp11)
    else if version.drop 7 = chars ['0'] then (true, request.setVersion .kHttp10)
    else (false, request)
  else (false, request)

/-- `processRequestLine(begin, end, context)`, on the line and the request of the context. -/
def processRequestLine (line : List UInt8) (request : HttpRequest) : Outcome (Bool × HttpRequest) :=
  let space := line.idxOf 0x20
  if space = line.length then .ok (false, request)
  else do
    let (known, request) ← request.setMethod (line.take space)
    if known then
      let start := line.drop (space + 1)
      let space := start.idxOf 0x20
      if space = start.length then .ok (false, request)
      else .ok (processVersion (start.drop (space + 1)) (request.setPath (start.take space)))
    else .ok (false, request)

/-- The variables of `parseRequest`, apart from `hasMore`. -/
structure Parse where
  buf : Buffer
  context : HttpContext
  ok : Bool

/-- `hasMore`, as the loop tests it next. -/
def Parse.next (p : Parse) (hasMore : Bool) : Loop.Step Parse := if hasMore then .again p else .leave p

/-- One iteration, in the state `kExpectRequestLine`. -/
def parseRequestLine (receiveTime : Timestamp) (p : Parse) : Outcome (Loop.Step Parse) :=
  match p.buf.findCRLF with
  | none => .ok (p.next false)
  | some crlf => do
      let (ok, request) ← processRequestLine (window p.buf.buffer p.buf.readerIndex crlf) p.context.request
      if ok then
        let request := request.setReceiveTime receiveTime
        let buf ← p.buf.retrieveUntil (crlf + 2)
        .ok (Parse.next ⟨buf, { p.context with request }.receiveRequestLine, ok⟩ true)
      else .ok (Parse.next ⟨p.buf, { p.context with request }, ok⟩ false)

/-- One iteration, in the state `kExpectHeaders`. -/
def parseHeader (p : Parse) : Outcome (Loop.Step Parse) :=
  match p.buf.findCRLF with
  | none => .ok (p.next false)
  | some crlf => do
      let line := window p.buf.buffer p.buf.readerIndex crlf
      let colon := line.idxOf 0x3a
      let (context, hasMore) :=
        if colon ≠ line.length then
          ({ p.context with request := p.context.request.addHeader line colon }, true)
        else
          -- an empty line, as the code has it
          (p.context.receiveHeaders, !p.context.receiveHeaders.gotAll)
      let buf ← p.buf.retrieveUntil (crlf + 2)
      .ok (Parse.next ⟨buf, context, p.ok⟩ hasMore)

/-- One iteration of the loop in `parseRequest`. -/
def parseIteration (receiveTime : Timestamp) (p : Parse) : Outcome (Loop.Step Parse) :=
  if p.context.expectRequestLine then parseRequestLine receiveTime p
  else if p.context.expectHeaders then parseHeader p
  else .ok (p.next true) -- `expectBody()` has an empty branch, and `gotAll()` none

/-- `parseRequest(buf, context, receiveTime)`, for at most `fuel` iterations. -/
def parseRequest (fuel : Nat) (buf : Buffer) (context : HttpContext) (receiveTime : Timestamp) :
    Option (Outcome Parse) :=
  Loop.run (parseIteration receiveTime) fuel ⟨buf, context, true⟩

/-- A reader that calls `parseRequest` after each piece it appends to one buffer, until a call returns false or the
    whole request is there, as `testParseRequestInTwoPieces` does; the pieces that are not appended come last. -/
def parsePieces (fuel : Nat) :
    Buffer → HttpContext → List (Bytes × Timestamp) → Option (Outcome (Parse × List (Bytes × Timestamp)))
  | buf, context, [] => some (.ok (⟨buf, context, true⟩, []))
  | buf, context, (piece, receiveTime) :: pieces =>
      Loop.andThen (some (buf.append piece.data piece.data.length)) fun buf =>
        Loop.andThen (parseRequest fuel buf context receiveTime) fun p =>
          if p.ok && !p.context.gotAll then parsePieces fuel p.buf p.context pieces
          else some (.ok (p, pieces))

/-! ## Serving -/

/-- `class HttpServer`: the callback is given the request and the flag the response was constructed with. -/
structure HttpServer where
  httpCallback : HttpRequest → Bool → HttpResponse

/-- A connection with its input buffer, its context, and the requests passed to `httpCallback_` so far. -/
structure HttpSession where
  conn : TcpConnection
  buf : Buffer
  context : HttpContext
  requests : List HttpRequest

/-- What is received: the bytes, the time, and the kernel's answers to the writes of `onMessage`. -/
structure Received where
  chunk : Bytes
  time : Timestamp
  onBadRequest : WriteResult
  onResponse : WriteResult

namespace HttpServer

/-- `"HTTP/1.1 400 Bad Request\r\n\r\n"`. -/
def badRequest : List UInt8 :=
  http1 ++ chars ['1', ' ', '4', '0', '0', ' ', 'B', 'a', 'd', ' ', 'R', 'e', 'q', 'u', 'e', 's', 't'] ++
    Buffer.kCRLF ++ Buffer.kCRLF

/-- The session of a new connection, after `onConnection`. -/
def onConnection (conn : TcpConnection) : HttpSession := ⟨conn, Buffer.new, HttpContext.new, []⟩

/-- Whether the request asks for the connection to be closed. -/
def wantsClose (req : HttpRequest) : Bool :=
  let connection := req.getHeader (chars ['C', 'o', 'n', 'n', 'e', 'c', 't', 'i', 'o', 'n'])
  connection == chars ['c', 'l', 'o', 's', 'e'] ||
    (req.version == .kHttp10 && connection != chars ['K', 'e', 'e', 'p', '-', 'A', 'l', 'i', 'v', 'e'])

/-- `onRequest(conn, req)`. -/
def onRequest (server : HttpServer) (conn : TcpConnection) (req : HttpRequest) (r : WriteResult) :
    Outcome TcpConnection := do
  let response := server.httpCallback req (wantsClose req)
  let buf ← Buffer.new.append response.text.data response.text.data.length
  let (conn, _) ← conn.sendBuffer buf r
  .ok (if response.closeConnection then conn.shutdown else conn)

/-- The first half of `onMessage`: a request that was refused is answered, and the connection shut down. -/
def reject (conn : TcpConnection) (r : WriteResult) : Outcome TcpConnection := do
  let conn ← conn.sendPiece (StringPiece.ofString badRequest) r
  .ok conn.shutdown

/-- `onMessage`, once `parseRequest` has returned `p`. -/
def respond (server : HttpServer) (s : HttpSession) (p : Parse) (a : Received) : Outcome HttpSession := do
  let conn ← (if p.ok then .ok s.conn else reject s.conn a.onBadRequest)
  if p.context.gotAll then do
    let conn ← server.onRequest conn p.context.request a.onResponse
    .ok ⟨conn, p.buf, p.context.reset, s.requests ++ [p.context.request]⟩
  else .ok ⟨conn, p.buf, p.context, s.requests⟩

/-- `onMessage(conn, buf, receiveTime)`. -/
def onMessage (server : HttpServer) (fuel : Nat) (s : HttpSession) (a : Received) :
    Option (Outcome HttpSession) :=
  Loop.andThen (parseRequest fuel s.buf s.context a.time) fun p => some (server.respond s p a)

/-- Bytes arrive: they are appended to the buffer, and `onMessage` is called. -/
def receive (server : HttpServer) (fuel : Nat) (s : HttpSession) (a : Received) : Option (Outcome HttpSession) :=
  Loop.andThen (some (s.buf.append a.chunk.data a.chunk.data.length)) fun buf =>
    server.onMessage fuel { s with buf } a

/-- Several chunks, one after the other. -/
def receiveAll (server : HttpServer) (fuel : Nat) : HttpSession → List Received → Option (Outcome HttpSession)
  | s, [] => some (.ok s)
  | s, a :: as => Loop.andThen (server.receive fuel s a) fun s => server.receiveAll fuel s as

end HttpServer

end Muduo.Net
