import Muduo.Net.Correctness.HttpServer

/-!
# `Correctness.HttpRequestLine` — the grammar of the request line

`processRequestLine` finds its way through the line with two searches for a space, a table of methods, a length
and a prefix. `IsRequestLine` says which lines these tests let through and what the three parts of such a line
are; the parts determine the request, whatever was in it before.
-/

namespace Muduo.Net

open Lib Buffer

variable {line path m version : List UInt8} {method : Method} {v : Version} {req req' : HttpRequest} {l : List UInt8}

/-! ## The parts of a line -/

def versionText : Version → List UInt8
  | .kUnknown => []
  | .kHttp10 => http1 ++ chars ['0']
  | .kHttp11 => http1 ++ chars ['1']

/-- The line is made of a method there is, a path without a space, and a version there is, with a space between
    them. -/
structure IsRequestLine (line : List UInt8) (method : Method) (path : List UInt8) (v : Version) : Prop where
  eq : line = HttpRequest.methodString method ++ 0x20 :: (path ++ 0x20 :: versionText v)
  method : method ≠ .kInvalid
  path : 0x20 ∉ path
  version : v ≠ .kUnknown

theorem idxOf_space {l : List UInt8} (h : 0x20 ∉ l) (rest : List UInt8) :
    (l ++ 0x20 :: rest).idxOf 0x20 = l.length := by
  rw [List.idxOf_append_of_notMem h, List.idxOf_cons_self, Nat.add_zero]

theorem methodOf_methodString {m : Method} (h : m ≠ .kInvalid) :
    HttpRequest.methodOf (HttpRequest.methodString m) = m ∧ 0x20 ∉ HttpRequest.methodString m := by
  cases m with
  | kInvalid => exact absurd rfl h
  | kGet => decide
  | kPost => decide
  | kHead => decide
  | kPut => decide
  | kDelete => decide

theorem processVersion_versionText {v : Version} (h : v ≠ .kUnknown) :
    processVersion (versionText v) req = (true, req.setVersion v) := by
  cases v with
  | kUnknown => exact absurd rfl h
  | kHttp10 => rfl
  | kHttp11 => rfl

/-- A list is cut by the first occurrence of an element. -/
theorem split_idxOf {a : UInt8} (h : l.idxOf a ≠ l.length) :
    l = l.take (l.idxOf a) ++ a :: l.drop (l.idxOf a + 1) ∧ a ∉ l.take (l.idxOf a) := by
  have hlt : l.idxOf a < l.length := lt_of_le_of_ne List.idxOf_le_length h
  constructor
  · have hdrop : l.drop (l.idxOf a) = a :: l.drop (l.idxOf a + 1) := by
      rw [List.drop_eq_getElem_cons hlt, List.getElem_idxOf hlt]
    rw [← hdrop, List.take_append_drop]
  · intro hmem
    have hmem' : a ∈ l := List.mem_of_mem_take hmem
    rw [List.mem_take_iff_idxOf_lt hmem'] at hmem
    exact absurd hmem (Nat.lt_irrefl _)

/-- The table of methods. -/
theorem methodOf_eq (h : HttpRequest.methodOf m ≠ .kInvalid) :
    m = HttpRequest.methodString (HttpRequest.methodOf m) := by
  unfold HttpRequest.methodOf at h ⊢
  split
  · assumption
  · split
    · assumption
    · split
      · assumption
      · split
        · assumption
        · split
          · assumption
          · next h₁ h₂ h₃ h₄ h₅ =>
              rw [if_neg h₁, if_neg h₂, if_neg h₃, if_neg h₄, if_neg h₅] at h
              exact absurd rfl h

/-- What follows the second space is accepted exactly if it is one of the two versions. -/
theorem processVersion_eq_true (h : processVersion version req = (true, req')) :
    ∃ v, v ≠ .kUnknown ∧ version = versionText v ∧ req' = req.setVersion v := by
  have htake : version.take 7 ++ version.drop 7 = version := List.take_append_drop 7 version
  unfold processVersion at h
  split at h
  · next htext =>
      split at h
      · next hone =>
          refine ⟨.kHttp11, by decide, ?_, (Prod.mk.inj h).2.symm⟩
          rw [← htake, htext.2, hone]
          rfl
      · split at h
        · next hzero =>
            refine ⟨.kHttp10, by decide, ?_, (Prod.mk.inj h).2.symm⟩
            rw [← htake, htext.2, hzero]
            rfl
        · cases h
  · cases h

/-- The request after an accepted line. -/
def HttpRequest.withLine (req : HttpRequest) (method : Method) (path : List UInt8) (v : Version) : HttpRequest :=
  { req with method, path, version := v }

/-! ## What is accepted -/

/-- A line of the grammar is accepted. -/
theorem IsRequestLine.accepted (h : IsRequestLine line method path v) (hreq : req.method = .kInvalid) :
    processRequestLine line req = .ok (true, req.withLine method path v) := by
  obtain ⟨hmethod, hspace⟩ := methodOf_methodString h.method
  have hfirst := idxOf_space hspace (path ++ 0x20 :: versionText v)
  have hsecond := idxOf_space h.path (versionText v)
  have hdrop : ∀ l₁ l₂ : List UInt8, (l₁ ++ 0x20 :: l₂).drop (l₁.length + 1) = l₂ := by
    intro l₁ l₂
    rw [← List.drop_drop, List.drop_left]
    rfl
  rw [h.eq]
  unfold processRequestLine HttpRequest.setMethod
  dsimp only
  rw [hfirst, if_neg (by simp), assert_pos hreq]
  dsimp only [ok_bind]
  rw [List.take_left, hmethod, if_pos (bne_iff_ne.mpr h.method), hdrop, hsecond, if_neg (by simp), hdrop,
    List.take_left, processVersion_versionText h.version]
  rfl

/-- An accepted line is one of the grammar. -/
theorem isRequestLine_of_accepted (hreq : req.method = .kInvalid)
    (h : processRequestLine line req = .ok (true, req')) :
    ∃ method path v, IsRequestLine line method path v ∧ req' = req.withLine method path v := by
  unfold processRequestLine HttpRequest.setMethod at h
  dsimp only at h
  split at h
  · cases h
  · next hfirst =>
      rw [assert_pos hreq] at h
      dsimp only [ok_bind] at h
      split at h
      · next hknown =>
          split at h
          · cases h
          · next hsecond =>
              -- both spaces are there, and the method is known
              obtain ⟨hline, -⟩ := split_idxOf hfirst
              obtain ⟨hstart, hpath⟩ := split_idxOf hsecond
              have hmethod : HttpRequest.methodOf (line.take (line.idxOf 0x20)) ≠ .kInvalid :=
                bne_iff_ne.mp hknown
              obtain ⟨v, hv, hversion, hreq'⟩ := processVersion_eq_true (Except.ok.inj h)
              refine ⟨_, _, v, ⟨?_, hmethod, hpath, hv⟩, hreq'⟩
              rw [← methodOf_eq hmethod, ← hversion, ← hstart]
              exact hline
      · cases h

/-- **The result of an accepted line**, whatever the request was before. -/
theorem processRequestLine_true_iff (hreq : req.method = .kInvalid) :
    processRequestLine line req = .ok (true, req') ↔
      ∃ method path v, IsRequestLine line method path v ∧ req' = req.withLine method path v := by
  constructor
  · exact isRequestLine_of_accepted hreq
  · rintro ⟨method, path, v, hline, rfl⟩
    exact hline.accepted hreq

/-- **The request line is accepted exactly when it matches its grammar**, and its parts are then those of the
    request. A line that does not match is refused; in neither case does anything fail. -/
theorem processRequestLine_accepts_iff (line : List UInt8) (req : HttpRequest) (hreq : req.method = .kInvalid) :
    ∃ succeed req', processRequestLine line req = .ok (succeed, req') ∧
      (succeed = true ↔ ∃ method path v, IsRequestLine line method path v) ∧
      ∀ method path v, IsRequestLine line method path v →
        req'.method = method ∧ req'.path = path ∧ req'.version = v := by
  obtain ⟨succeed, req', hprocess⟩ := processRequestLine_ok line hreq
  refine ⟨succeed, req', hprocess, ⟨?_, ?_⟩, ?_⟩
  · rintro rfl
    obtain ⟨method, path, v, hline, -⟩ := (processRequestLine_true_iff hreq).mp hprocess
    exact ⟨method, path, v, hline⟩
  · rintro ⟨method, path, v, hline⟩
    rw [hline.accepted hreq] at hprocess
    exact (Prod.mk.inj (Except.ok.inj hprocess)).1.symm
  · intro method path v hline
    rw [hline.accepted hreq] at hprocess
    obtain rfl := (Prod.mk.inj (Except.ok.inj hprocess)).2
    exact ⟨rfl, rfl, rfl⟩

/-- The line `GET / HTTP/1.1`, in a new request. -/
theorem processRequestLine_accepts_get : ∃ succeed req',
    processRequestLine (chars ['G', 'E', 'T', ' ', '/', ' '] ++ http1 ++ chars ['1']) HttpRequest.new =
      .ok (succeed, req') ∧ succeed = true ∧ req'.path = chars ['/'] := by
  have hline : IsRequestLine (chars ['G', 'E', 'T', ' ', '/', ' '] ++ http1 ++ chars ['1']) .kGet (chars ['/'])
      .kHttp11 := ⟨rfl, by decide, by decide, by decide⟩
  obtain ⟨succeed, req', hprocess, hiff, hparts⟩ := processRequestLine_accepts_iff
    (chars ['G', 'E', 'T', ' ', '/', ' '] ++ http1 ++ chars ['1']) HttpRequest.new rfl
  exact ⟨succeed, req', hprocess, hiff.mpr ⟨_, _, _, hline⟩, (hparts _ _ _ hline).2.1⟩

end Muduo.Net
