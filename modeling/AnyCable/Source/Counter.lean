import Mathlib.Init

/-!
# A counter of the metrics

Source: `metrics/counter.go`. The value is changed by any goroutine; the other two fields by the
loop that rotates the metrics. `UpdateDelta` loads the value once, and increments may come before it
stores what follows from it.
-/

set_option autoImplicit false

namespace AnyCable.Source

structure Counter where
  value : UInt64 := 0
  lastIntervalValue : UInt64 := 0
  lastIntervalDelta : UInt64 := 0
  deriving DecidableEq, Repr

namespace Counter

def add (c : Counter) (n : UInt64) : Counter := { c with value := c.value + n }

def intervalValue (c : Counter) : UInt64 :=
  if c.lastIntervalValue = 0 then c.value else c.lastIntervalDelta

/-- The part of `UpdateDelta` after the value was loaded. -/
def storeDelta (c : Counter) (now : UInt64) : Counter :=
  { c with lastIntervalDelta := now - c.lastIntervalValue, lastIntervalValue := now }

/-- `UpdateDelta` with no increment in between. -/
def updateDelta (c : Counter) : Counter := c.storeDelta c.value

end Counter

end AnyCable.Source
