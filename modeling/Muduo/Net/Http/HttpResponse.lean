import Muduo.Base.LogStream
import Muduo.Lib.OrderedMap
import Muduo.Net.Http.HttpServer

/-!
# `Net.Http.HttpResponse` — the text of a response

`HttpResponse.h` and `appendToBuffer` of `HttpResponse.cc`, and the callback an `HttpServer` starts with. A
response of which the connection is to be closed has no `Content-Length`: its body ends where the connection
does.

The strings of a response are handed to the buffer as `StringPiece`s, so that their lengths pass through `int`;
what `snprintf` writes is cut at the size of `buf`.
-/

namespace Muduo.Net

open Lib Detail

/-- `HttpResponse::HttpStatusCode`. -/
inductive HttpStatusCode where
  | kUnknown
  | k200Ok
  | k301MovedPermanently
  | k400BadRequest
  | k404NotFound
deriving DecidableEq, Repr

/-- The value of the enumerator, as `%d` prints it. -/
def HttpStatusCode.value : HttpStatusCode → Nat
  | .kUnknown => 0
  | .k200Ok => 200
  | .k301MovedPermanently => 301
  | .k400BadRequest => 400
  | .k404NotFound => 404

namespace HttpResponse

/-- `std::map<string, string>`. -/
abbrev HeaderMap : Type := @OrderedMap (List UInt8) (List UInt8) stringOrder

/-- The members of `class HttpResponse`. -/
structure Members where
  headers : HeaderMap
  statusCode : HttpStatusCode
  statusMessage : List UInt8
  closeConnection : Bool
  body : List UInt8

/-- `sizeof buf` in `appendToBuffer`. -/
def kBuf : Nat := 32

/-- What is in `buf` after `snprintf(buf, sizeof buf, …)`, up to its end. -/
def snprintf (text : List UInt8) : List UInt8 := text.take (kBuf - 1)

/-- `"Content-Length"`. -/
def contentLength : List UInt8 :=
  chars ['C', 'o', 'n', 't', 'e', 'n', 't', '-', 'L', 'e', 'n', 'g', 't', 'h']

/-- `"Connection"`. -/
def connection : List UInt8 := chars ['C', 'o', 'n', 'n', 'e', 'c', 't', 'i', 'o', 'n']

/-- `"close"`. -/
def close : List UInt8 := chars ['c', 'l', 'o', 's', 'e']

/-- `"Keep-Alive"`. -/
def keepAlive : List UInt8 := chars ['K', 'e', 'e', 'p', '-', 'A', 'l', 'i', 'v', 'e']

namespace Members

/-- The constructor. -/
def new (close : Bool) : Members := ⟨@OrderedMap.empty _ _ stringOrder, .kUnknown, [], close, []⟩

def addHeader (m : Members) (key value : List UInt8) : Members :=
  { m with headers := @OrderedMap.insert _ _ stringOrder m.headers key value }

def setContentType (m : Members) (contentType : List UInt8) : Members :=
  m.addHeader (chars ['C', 'o', 'n', 't', 'e', 'n', 't', '-', 'T', 'y', 'p', 'e']) contentType

def setBody (m : Members) (body : List UInt8) : Members := { m with body }

/-- `headers_`, as it is gone over. -/
def entries (m : Members) : List (List UInt8 × List UInt8) := @OrderedMap.entries _ _ stringOrder m.headers

end Members

end HttpResponse

open HttpResponse

namespace HttpServer

/-- What the loop calls on a connection of the server. -/
inductive Event where
  | received (a : Received)
  | writable (r : WriteResult)

end HttpServer

end Muduo.Net
