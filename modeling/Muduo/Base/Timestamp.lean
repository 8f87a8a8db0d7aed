import Muduo.Base.Types

/-!
# `Base.Timestamp` — microseconds since the Epoch

`class Timestamp` is an `int64_t` in a wrapper; it is an `Int` here, and the one operation that can leave the
range of the type, `addTime`, reduces explicitly. The `double` argument of `addTime` is used once, in
`static_cast<int64_t>(seconds * kMicroSecondsPerSecond)`, and appears here as that value.
-/

namespace Muduo

abbrev Timestamp := Int

namespace Timestamp

def kMicroSecondsPerSecond : Int := 1000 * 1000

def invalid : Timestamp := 0

def valid (t : Timestamp) : Bool := decide (0 < t)

end Timestamp

/-- The timestamps an `int64_t` can hold. -/
def IsInt64 (t : Int) : Prop := -2 ^ 63 ≤ t ∧ t < 2 ^ 63

theorem isInt64_sub {m n : Int} (hm : 0 < m) (hm' : m < 2 ^ 63) (hn : 0 < n) (hn' : n < 2 ^ 63) :
    IsInt64 (m - n) :=
  ⟨by omega, by omega⟩

theorem toInt64_isInt64 (n : Int) : IsInt64 (toInt64 n) := by
  unfold toInt64 IsInt64
  constructor
  · have := Int.le_bmod (x := n) (m := 2 ^ 64) (by decide)
    omega
  · have := Int.bmod_lt (x := n) (m := 2 ^ 64) (by decide)
    omega

/-- `addTime(timestamp, seconds)`, with `delta` the microseconds of `seconds`. -/
def addTime (t : Timestamp) (delta : Int) : Timestamp := toInt64 (t + delta)

end Muduo
