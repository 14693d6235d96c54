import Mathlib.Algebra.Group.Int.Defs
import Mathlib.Algebra.Group.Nat.Defs
import Mathlib.Data.Int.Init

/-!
# Go's clock and fixed-width integers

A point in time is a number of nanoseconds since the Unix epoch; a process starts at
a natural one. `time.Duration` and every `int64` of the source wrap around, a
`time.Time` does not.
-/

set_option autoImplicit false

namespace AnyCable.Source

/-- Nanoseconds since the Unix epoch; the reading of `time.Now()`. -/
abbrev Instant := Int

/-- `time.Second`. -/
def second : Int := 10 ^ 9

/-- `Time.Unix()`: whole seconds, rounded towards the past. -/
def unix (t : Instant) : Int := t / second

/-- The `int64` a mathematical integer wraps to. -/
def int64 (x : Int) : Int := (x + 2 ^ 63) % 2 ^ 64 - 2 ^ 63

/-- The number of values of a `uint64`. -/
def uint64Size : Nat := 2 ^ 64

theorem unix_mono {t u : Instant} (h : t ≤ u) : unix t ≤ unix u :=
  Int.ediv_le_ediv (by decide) h

/-- Wrapping an integer that is not too small never makes it larger. -/
theorem int64_le {x : Int} (low : -(2 ^ 63) ≤ x) : int64 x ≤ x := by
  unfold int64
  omega

theorem int64_of_range {x : Int} (low : -(2 ^ 63) ≤ x) (high : x < 2 ^ 63) : int64 x = x := by
  unfold int64
  omega

end AnyCable.Source
