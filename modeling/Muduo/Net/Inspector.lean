import Muduo.Net.Http.HttpServer

/-!
# `Net.Inspector` — commands by their paths

`split` of `Inspector.cc`, and what `onRequest` does with a path: its first two components name a module and a
command, and the others are the arguments. The list of commands that the path `/` is answered with is left out.
-/

namespace Muduo.Net

/-- `'/'`. -/
def slash : UInt8 := 0x2f

namespace Inspector

/-- `str.find('/', pos)`; `none` is `npos`. -/
def find (str : List UInt8) (pos : Nat) : Option Nat := ((str.drop pos).idxOf? slash).map (pos + ·)

/-- `str.substr(pos, n)`. -/
def substr (str : List UInt8) (pos n : Nat) : List UInt8 := (str.drop pos).take n

theorem find_lt {str : List UInt8} {start pos : Nat} (h : find str start = some pos) :
    start ≤ pos ∧ pos < str.length := by
  obtain ⟨k, hk, rfl⟩ := Option.map_eq_some_iff.mp h
  obtain ⟨hlt, -⟩ := List.idxOf?_eq_some_iff.mp hk
  rw [List.length_drop] at hlt
  exact ⟨Nat.le_add_right _ _, by omega⟩

/-- The `while` loop of `split`: what `start` and `result` are behind it. -/
def splitLoop (str : List UInt8) (start : Nat) (result : List (List UInt8)) : Nat × List (List UInt8) :=
  match _h : find str start with
  | some pos =>
      splitLoop str (pos + 1) (if pos > start then result ++ [substr str start (pos - start)] else result)
  | none => (start, result)
termination_by str.length - start
decreasing_by
  have := find_lt _h
  omega

def split (str : List UInt8) : List (List UInt8) :=
  let (start, result) := splitLoop str 0 []
  -- the last component has no slash behind it
  if start < str.length then result ++ [str.drop start] else result

end Inspector

/-- `Inspector::Callback`: from the method and the arguments to the body of the response. -/
abbrev InspectorCallback := Method → List (List UInt8) → List UInt8

/-- `class Inspector`: `commands_`, whose callbacks may be empty. -/
structure Inspector where
  commands : List UInt8 → Option (List UInt8 → Option (Option InspectorCallback))

/-- How `onRequest` fills in the response. -/
inductive InspectorResponse where
  /-- `200 OK`, as `text/plain`, with this body. -/
  | ok (body : List UInt8)
  /-- `404 Not Found`. -/
  | notFound
deriving DecidableEq

namespace Inspector

/-- `add(module, command, cb, help)`, as far as `commands_` is concerned. -/
def add (s : Inspector) (module command : List UInt8) (cb : Option InspectorCallback) : Inspector where
  commands := Function.update s.commands module
    (some (Function.update ((s.commands module).getD fun _ => none) command (some cb)))

/-- `onRequest`, for a path other than `/`. -/
def onRequest (s : Inspector) (method : Method) (path : List UInt8) : InspectorResponse :=
  match split path with
  | module :: command :: args =>
      match s.commands module with
      | none => .notFound
      | some commList =>
          match commList command with
          | some (some cb) => .ok (cb method args)
          | some none | none => .notFound
  | _ => .notFound

end Inspector

end Muduo.Net
