import AnyCable.Source.Clock

/-!
# Retries of an RPC call

Source: `rpc/rpc.go:33-52,456-509`. The callback may answer differently each time, so it is a
sequence of answers; the connection's state is one, too. `time.Sleep` is what a turn of the loop
ends with. `int` and `time.Duration` have 64 bits and wrap around; powers of 2 are exact in
`math.Pow` as long as they fit. Metrics and the barrier, which only counts, are left out.
-/

set_option autoImplicit false

namespace AnyCable.Source.RpcRetry

/-- In milliseconds, as the other constants. -/
def invokeTimeout : Int := 3000

def retryExhaustedInterval : Int := 10

def retryUnavailableInterval : Int := 100

/-- `time.Millisecond`. -/
def millisecond : Int := 10 ^ 6

/-- `status.FromError(err)`; an error without a status and every other code is `other`. -/
inductive Code where
  | resourceExhausted | unavailable | other
  deriving DecidableEq, Repr

structure Failure (ε : Type) where
  code : Code
  err : ε

variable {ρ ε : Type}

/-- The variables of the loop. -/
structure Loop where
  retryAge : Int := 0
  attempt : Nat := 0
  wasExhausted : Bool := false
  deriving DecidableEq, Repr

/-- How a turn of the loop ends. -/
inductive Turn (ρ ε : Type) where
  | returns (res : Except ε ρ)
  | sleeps (duration : Int) (next : Loop)

/-- The exponent starts again when the kind of error changes. -/
def Loop.reset (st : Loop) (exhausted : Bool) : Loop :=
  if exhausted then
    if !st.wasExhausted then { st with attempt := 0, wasExhausted := true } else st
  else
    if st.wasExhausted then { st with attempt := 0, wasExhausted := false } else st

/-- The end of a turn that is going to be repeated. -/
def Loop.sleep (st : Loop) (interval : Int) : Turn ρ ε :=
  let delayMS := int64 (int64 (2 ^ st.attempt) * interval)
  .sleeps (int64 (delayMS * millisecond))
    { st with retryAge := int64 (st.retryAge + delayMS), attempt := st.attempt + 1 }

/-- One turn, given the state of the connection and the answer of the callback. -/
def Loop.turn (st : Loop) (stErr : Option ε) (answer : Except (Failure ε) ρ) : Turn ρ ε :=
  match stErr with
  | some err => .returns (.error err)
  | none =>
    match answer with
    | .ok res => .returns (.ok res)
    | .error failure =>
      if st.retryAge > invokeTimeout then .returns (.error failure.err)
      else match failure.code with
        | .other => .returns (.error failure.err)
        | .resourceExhausted => (st.reset true).sleep retryExhaustedInterval
        | .unavailable => (st.reset false).sleep retryUnavailableInterval

/-- The loop from its turn number `i` on, for at most `fuel` turns. Returns the result and the
durations slept. -/
def loop (ready : Nat → Option ε) (callback : Nat → Except (Failure ε) ρ) :
    Nat → Nat → Loop → Option (Except ε ρ × List Int)
  | 0, _, _ => none
  | fuel + 1, i, st =>
    match st.turn (ready i) (callback i) with
    | .returns res => some (res, [])
    | .sleeps duration next => do
      let (res, durations) ← loop ready callback fuel (i + 1) next
      return (res, duration :: durations)

/-- `c.retry`, cut off after `fuel` turns. -/
def retry (ready : Nat → Option ε) (callback : Nat → Except (Failure ε) ρ) (fuel : Nat) :
    Option (Except ε ρ × List Int) :=
  loop ready callback fuel 0 {}

end AnyCable.Source.RpcRetry
