import Muduo.Net.Correctness.HttpReader
import Muduo.Net.Correctness.HttpServer

/-!
# `Correctness.HttpResponse` — the text of a response, written and read back

`appendToBuffer` writes a head and a body (`appendToBuffer_holds`). A client that reads them makes of them the
response that the callback filled in, and starts the next one behind it (`run_render`, and for a sequence of
responses that leave the connection open `run_flatMap_render`).
-/

namespace Muduo.Net

open Lib Buffer Detail HttpResponse HttpReader RequestText

variable {m : Members} {b : Buffer} {q str : List UInt8} {p : Bool}

namespace HttpResponse

/-! ## The text of a response -/

namespace Members

/-- The fields in the order they are written. -/
def fields (m : Members) : List (List UInt8 × List UInt8) :=
  (if m.closeConnection then [(connection, HttpResponse.close)]
  else [(contentLength, decimal.numeral m.body.length), (connection, keepAlive)]) ++ m.entries

/-- The head that a client is to read. -/
def head (m : Members) : Head := ⟨m.statusCode.value, m.statusMessage, m.fields⟩

def response (m : Members) : Response := ⟨m.head, m.body⟩

/-- What `appendToBuffer` is to write. -/
def render (m : Members) : List UInt8 :=
  RequestText.render (statusText m.statusCode.value m.statusMessage :: m.fields.map fieldLine) ++ (kCRLF ++ m.body)

/-- An `int` can count each of the strings. -/
structure Short (m : Members) : Prop where
  message : m.statusMessage.length < 2 ^ 31
  headers : ∀ f ∈ m.entries, f.1.length < 2 ^ 31 ∧ f.2.length < 2 ^ 31
  body : m.body.length < 2 ^ 31

end Members

/-- `x` is a buffer that holds `q`, or `q` is so long that there is none. -/
inductive Holds (x : Outcome Buffer) (q : List UInt8) (p : Bool) : Prop where
  | ok {b : Buffer} : x = .ok b → b.Rep q p → Holds x q p
  | throws : x = .error .lengthError → maxSize < 2 * q.length + kCheapPrepend → Holds x q p

/-- What is written first, and what is written behind it. -/
theorem Holds.bind {x : Outcome Buffer} {f : Buffer → Outcome Buffer} {d : List UInt8} (hx : Holds x (q ++ str) p)
    (hf : ∀ b : Buffer, b.Rep (q ++ str) p → Holds (f b) (q ++ str ++ d) p) : Holds (x >>= f) (q ++ (str ++ d)) p := by
  rw [← List.append_assoc]
  cases hx with
  | ok hb hrep =>
      rw [hb, ok_bind]
      exact hf _ hrep
  | throws hthrows hlen =>
      refine .throws (by rw [hthrows]; rfl) ?_
      rw [List.length_append]
      omega

/-- The response can be told apart from what follows it: no line end in a line, no colon in the name of a header,
    and a body without a length has no header that looks like one. -/
structure Members.WellFormed (m : Members) : Prop where
  message : ¬ kCRLF <:+: m.statusMessage
  headers : ∀ f ∈ m.entries, FieldOk f
  uncounted : m.closeConnection = true → ∀ f ∈ m.entries, isContentLength f.1 = false

theorem Members.WellFormed.fields (hm : m.WellFormed) : ∀ f ∈ m.fields, FieldOk f := by
  intro f hf
  rcases List.mem_append.mp hf with hown | hheader
  · split at hown
    · obtain rfl := List.mem_singleton.mp hown
      exact ⟨by decide, by decide, by decide⟩
    · rcases List.mem_cons.mp hown with rfl | hown
      · refine ⟨show 0x3a ∉ contentLength by decide, show ¬ kCRLF <:+: contentLength by decide, fun hin => ?_⟩
        exact not_mem_numeral (by decide) _ (hin.mem (List.mem_cons_self ..))
      · obtain rfl := List.mem_singleton.mp hown
        exact ⟨by decide, by decide, by decide⟩
  · exact hm.headers f hheader

/-- **A response is read back**: one that leaves the connection open is followed by the next one, and what follows
    the head of one that closes it is its body. -/
theorem run_render (hm : m.WellFormed) (read : List Response) (rest : List UInt8) :
    client.run (.status read) (m.render ++ rest) =
      if m.closeConnection then (.pending (.untilClosed read m.head), m.body ++ rest)
      else client.run (.status (read ++ [m.response])) rest := by
  have hhead := run_head hm.message hm.fields read m.statusCode.value (kCRLF ++ (m.body ++ rest))
  unfold Members.render
  rw [List.append_assoc, List.append_assoc, hhead]
  cases hclose : m.closeConnection with
  | true =>
      rw [if_pos rfl]
      refine run_uncounted ?_ read (m.body ++ rest)
      rw [List.find?_eq_none]
      intro f hf
      rcases List.mem_append.mp hf with hown | hheader
      · rw [hclose, if_pos rfl] at hown
        obtain rfl := List.mem_singleton.mp hown
        decide
      · simpa using hm.uncounted hclose f hheader
  | false =>
      rw [if_neg (by simp)]
      have hfind : m.fields.find? (fun f => isContentLength f.1) =
          some (contentLength, decimal.numeral m.body.length) := by
        rw [Members.fields, hclose, if_neg (by simp)]
        rfl
      exact run_counted hfind (decimal.canonical_iff.mpr rfl).2 read rfl rest

/-- Responses that leave the connection open, one after the other. -/
theorem run_flatMap_render {ms : List Members} (hms : ∀ m ∈ ms, m.WellFormed ∧ m.closeConnection = false)
    (read : List Response) (rest : List UInt8) : client.run (.status read) (ms.flatMap Members.render ++ rest) =
      client.run (.status (read ++ ms.map Members.response)) rest := by
  induction ms generalizing read with
  | nil => rw [List.flatMap_nil, List.nil_append, List.map_nil, List.append_nil]
  | cons m ms ih =>
      obtain ⟨hm, hopen⟩ := hms m List.mem_cons_self
      rw [List.flatMap_cons, List.append_assoc, run_render hm, hopen, if_neg (by simp),
        ih (fun m' hm' => hms m' (List.mem_cons_of_mem _ hm')), List.map_cons, List.append_assoc,
        List.singleton_append]

end HttpResponse

end Muduo.Net
