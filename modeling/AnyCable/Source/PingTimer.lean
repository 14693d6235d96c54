import AnyCable.Lib.Texts
import AnyCable.Source.Clock

/-!
# The first ping of a session

Source: `cli/session_options.go:34-57`, `node/session.go:71-77,137-176,637-652`. A client may choose
the interval of its pings by a number of seconds in the query. Durations are `int64` numbers of
nanoseconds: every product, sum and difference wraps around, and division cuts off the fraction.

`rand.Int63n` panics for an argument that is not positive, which is `none` here. What it draws is
the remainder of an arbitrary number, so that every result it can have is covered.
-/

set_option autoImplicit false

namespace AnyCable.Source.PingTimer
open AnyCable.Lib

/-- `time.Duration(val)*time.Second`. -/
def seconds (val : Int) : Int := int64 (val * second)

/-- The ping interval that `sessionOptionsFromParams` sets for the parameter `pi`, if it does. -/
def pingIntervalOption (rawVal : String) : Option Int :=
  if rawVal = "" then none else (parseInt rawVal.toList).map seconds

def int63n (random : Nat) (n : Int) : Option Int :=
  if n ≤ 0 then none else some (random % n)

/-- `s.pingInterval / 2`. -/
def minDuration (pingInterval : Int) : Int := pingInterval.tdiv 2

/-- `s.pingInterval * 3 / 2`. -/
def maxDuration (pingInterval : Int) : Int := (int64 (pingInterval * 3)).tdiv 2

/-- When the timers of a session fire first. -/
structure Timers where
  ping : Int
  pong : Option Int
  deriving DecidableEq, Repr

def startPing (pingInterval pongTimeout : Int) (random : Nat) : Option Timers := do
  let drawn ← int63n random (int64 (maxDuration pingInterval - minDuration pingInterval))
  let initialInterval := int64 (drawn + minDuration pingInterval)
  return { ping := initialInterval
           pong := if 0 < pongTimeout then some (int64 (pongTimeout + initialInterval)) else none }

/-- The part of `NewSession` about pings: the configured interval may be replaced by an option, and
an interval that is not positive means no pings. -/
def newSession (configured pongTimeout : Int) (rawVal : String) (random : Nat) :
    Option (Option Timers) :=
  let pingInterval := (pingIntervalOption rawVal).getD (seconds configured)
  if 0 < pingInterval then (startPing pingInterval pongTimeout random).map some else some none

end AnyCable.Source.PingTimer
