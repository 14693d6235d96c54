import AnyCable.Source.RpcRetry
import Mathlib.Data.Nat.Find

/-!
# The time spent on retries

Source: `rpc/rpc.go:456-509`. The delays of a call are given by its answers alone: the interval of
the error, doubled for each retry directly before that was for the same kind of error (`streak`).
The exponent starts again whenever the kind changes, so neither it nor the delay grows all the time.

What bounds a delay is the time already spent: the delays of the current streak add up to the next
one less its interval (`delay_le`). A retry is made only while that time is at most `invokeTimeout`,
hence the total is at most twice as much and one interval. Each retry takes at least the shorter
interval, hence there are few of them.
-/

set_option autoImplicit false

namespace AnyCable.Guarantees.RetryBudget
open AnyCable.Source AnyCable.Source.RpcRetry

variable {ρ ε : Type} (callback : Nat → Except (Failure ε) ρ)

/-! ### The delays that the answers call for -/

/-- The kind of error that a call ends with, if it does. -/
def code (i : Nat) : Option Code :=
  match callback i with
  | .ok _ => none
  | .error failure => some failure.code

/-- The interval for a kind of error. -/
def interval : Option Code → Nat
  | some .resourceExhausted => 10
  | _ => 100

/-- How many calls directly before ended with the same kind of error. -/
def streak : Nat → Nat
  | 0 => 0
  | i + 1 => if code callback i = code callback (i + 1) then streak i + 1 else 0

/-- The delay after a call that is repeated, in milliseconds. -/
def delay (i : Nat) : Nat := interval (code callback i) * 2 ^ streak callback i

/-- The delays before a call, in total. -/
def age : Nat → Nat
  | 0 => 0
  | i + 1 => age i + delay callback i

/-- A call after which the loop ends. -/
def Stops (i : Nat) : Prop :=
  match callback i with
  | .ok _ => True
  | .error failure => failure.code = .other ∨ 3000 < age callback i

/-- What the caller gets if a call is the last one. -/
def answer (i : Nat) : Except ε ρ := (callback i).mapError Failure.err

/-- `n` is the first call after which the loop ends. -/
structure Last (n : Nat) : Prop where
  stops : Stops callback n
  first : ∀ i < n, ¬ Stops callback i

theorem interval_range (c : Option Code) : 10 ≤ interval c ∧ interval c ≤ 100 := by
  unfold interval
  split <;> omega

/-- The delays of a streak add up to the next one, less an interval. -/
theorem delay_le (i : Nat) :
    delay callback i ≤ age callback i + interval (code callback i) := by
  induction i with
  | zero => simp [delay, streak]
  | succ i ih =>
    by_cases same : code callback i = code callback (i + 1)
    · have doubled : delay callback (i + 1) = delay callback i + delay callback i := by
        rw [delay, streak, if_pos same, ← same, delay, Nat.pow_succ, ← Nat.mul_assoc, Nat.mul_two]
      rw [doubled, age, ← same]
      omega
    · have single : delay callback (i + 1) = interval (code callback (i + 1)) := by
        rw [delay, streak, if_neg same, Nat.pow_zero, Nat.mul_one]
      omega

/-- Every delay is at least the shorter interval. -/
theorem le_age (i : Nat) : 10 * i ≤ age callback i := by
  induction i with
  | zero => simp [age]
  | succ i ih =>
    have short : interval (code callback i) ≤ delay callback i :=
      Nat.le_mul_of_pos_right _ (Nat.two_pow_pos _)
    have := interval_range (code callback i)
    rw [age]
    omega

variable {callback}

/-- A call that is repeated was made in time. -/
theorem age_of_not_stops {i : Nat} (goes : ¬ Stops callback i) : age callback i ≤ 3000 := by
  unfold Stops at goes
  split at goes
  · exact absurd trivial goes
  · omega

theorem age_le {n : Nat} (last : Last callback n) : age callback n ≤ 6100 := by
  cases n with
  | zero => simp [age]
  | succ i =>
    have bounded := age_of_not_stops (last.first i (Nat.lt_succ_self i))
    have next := delay_le callback i
    have := interval_range (code callback i)
    rw [age]
    omega

/-- A call that is made too late, or is the last one for another reason, comes. -/
theorem exists_last (callback : Nat → Except (Failure ε) ρ) : ∃ n ≤ 301, Last callback n := by
  classical
  have stops : Stops callback 301 := by
    have late := le_age callback 301
    unfold Stops
    split
    · trivial
    · exact .inr (by omega)
  exact ⟨Nat.find ⟨301, stops⟩, Nat.find_min' _ stops, Nat.find_spec ⟨301, stops⟩,
    fun i before => Nat.find_min ⟨301, stops⟩ before⟩

/-! ### The loop -/

variable (callback) in
/-- The variables of the loop before call number `i`: all calls before were repeated. -/
structure At (i : Nat) (st : Loop) : Prop where
  retryAge : st.retryAge = age callback i
  start : i = 0 → st.attempt = 0 ∧ st.wasExhausted = false
  later : ∀ j, i = j + 1 → st.attempt = streak callback j + 1 ∧
    code callback j =
      some (if st.wasExhausted then Code.resourceExhausted else Code.unavailable)

variable {i : Nat} {st : Loop}

theorem at_zero : At callback 0 {} := by
  refine ⟨rfl, fun _ => ⟨rfl, rfl⟩, ?_⟩
  intro j next
  cases next

/-- After the reset the exponent is the streak of the error at hand. -/
theorem At.reset (here : At callback i st) (exhausted : Bool)
    (kind : code callback i =
      some (if exhausted then Code.resourceExhausted else Code.unavailable)) :
    st.reset exhausted =
      { retryAge := age callback i, attempt := streak callback i, wasExhausted := exhausted } := by
  have age_eq := here.retryAge
  obtain ⟨retryAge, attempt, wasExhausted⟩ := st
  cases i with
  | zero =>
    obtain ⟨first, fresh⟩ := here.start rfl
    simp only at age_eq first fresh
    cases exhausted <;> simp [Loop.reset, age_eq, first, fresh, streak]
  | succ j =>
    obtain ⟨count, previous⟩ := here.later j rfl
    simp only at age_eq count previous
    cases exhausted <;> cases wasExhausted <;>
      simp [Loop.reset, age_eq, count, streak, previous, kind]

/-- In time, nothing wraps around: the loop sleeps for the delay and counts it. -/
theorem sleep_eq (inTime : age callback i ≤ 3000) (exhausted : Bool)
    (kind : code callback i =
      some (if exhausted then Code.resourceExhausted else Code.unavailable)) :
    (Loop.sleep { retryAge := age callback i, attempt := streak callback i,
                  wasExhausted := exhausted }
        (if exhausted then retryExhaustedInterval else retryUnavailableInterval) : Turn ρ ε) =
      .sleeps (delay callback i * millisecond)
        { retryAge := age callback (i + 1), attempt := streak callback i + 1,
          wasExhausted := exhausted } := by
  have bounded := delay_le callback i
  have range := interval_range (code callback i)
  have power : 2 ^ streak callback i ≤ delay callback i :=
    Nat.le_mul_of_pos_left _ (by omega)
  have interval_eq : (if exhausted then retryExhaustedInterval else retryUnavailableInterval) =
      (interval (code callback i) : Int) := by
    rw [kind]
    cases exhausted <;> rfl
  have product : int64 (2 ^ streak callback i) * (interval (code callback i) : Int) =
      delay callback i := by
    have fits : int64 (2 ^ streak callback i) = ((2 ^ streak callback i : Nat) : Int) := by
      have cast : (2 : Int) ^ streak callback i = ((2 ^ streak callback i : Nat) : Int) :=
        (Int.natCast_pow 2 _).symm
      have nonneg : 0 ≤ ((2 ^ streak callback i : Nat) : Int) := Int.natCast_nonneg _
      rw [cast]
      exact int64_of_range (by omega) (by omega)
    rw [fits, Int.mul_comm, ← Int.natCast_mul, delay]
  have slept : int64 (delay callback i) = delay callback i :=
    int64_of_range (by omega) (by omega)
  have duration : int64 ((delay callback i : Int) * millisecond) = delay callback i * millisecond :=
    int64_of_range (by simp only [millisecond]; omega) (by simp only [millisecond]; omega)
  have total : int64 ((age callback i : Int) + delay callback i) = (age callback (i + 1) : Nat) := by
    rw [age, Int.natCast_add]
    exact int64_of_range (by omega) (by omega)
  simp only [Loop.sleep, interval_eq, product, slept, duration, total]

/-- A call that is repeated has failed in one of two ways. -/
theorem failed_of_not_stops (goes : ¬ Stops callback i) :
    ∃ (failure : Failure ε) (exhausted : Bool), callback i = .error failure ∧
      failure.code = if exhausted then Code.resourceExhausted else Code.unavailable := by
  unfold Stops at goes
  split at goes
  · exact absurd trivial goes
  next failure failed =>
    cases shape : failure.code with
    | resourceExhausted => exact ⟨failure, true, failed, shape⟩
    | unavailable => exact ⟨failure, false, failed, shape⟩
    | other => exact absurd (.inl shape) goes

/-- A turn after which the loop goes on. -/
theorem At.goesOn (here : At callback i st) (goes : ¬ Stops callback i) :
    ∃ next, st.turn none (callback i) = .sleeps (delay callback i * millisecond) next ∧
      At callback (i + 1) next := by
  have inTime := age_of_not_stops goes
  have early : ¬ st.retryAge > invokeTimeout := by
    rw [here.retryAge, invokeTimeout]
    omega
  obtain ⟨failure, exhausted, failed, shape⟩ := failed_of_not_stops goes
  have kind : code callback i =
      some (if exhausted then Code.resourceExhausted else Code.unavailable) := by
    simp only [code, failed, shape]
  refine ⟨{ retryAge := age callback (i + 1), attempt := streak callback i + 1,
            wasExhausted := exhausted }, ?_, rfl, by simp, ?_⟩
  · have slept := sleep_eq inTime exhausted kind
    have reset := here.reset exhausted kind
    rw [failed, Loop.turn]
    rw [if_neg early, shape]
    cases exhausted with
    | true => exact (congrArg (Loop.sleep · _) reset).trans slept
    | false => exact (congrArg (Loop.sleep · _) reset).trans slept
  · intro j next
    cases next
    exact ⟨rfl, kind⟩

/-- The turn that the loop ends with. -/
theorem At.returns (here : At callback i st) (stops : Stops callback i) :
    st.turn none (callback i) = .returns (answer callback i) := by
  have late : st.retryAge > invokeTimeout ↔ 3000 < age callback i := by
    rw [here.retryAge, invokeTimeout]
    omega
  unfold Stops at stops
  split at stops
  next res succeeded => simp [Loop.turn, answer, succeeded, Except.mapError]
  next failure failed =>
    simp only [Loop.turn, answer, failed, Except.mapError, late]
    rcases stops with other | beyond
    · split
      · rfl
      · rw [other]
    · rw [if_pos beyond]

/-- Induction on the calls that are left. -/
theorem loop_eq {n fuel : Nat} (last : Last callback n) (here : At callback i st) (before : i ≤ n)
    (enough : n - i < fuel) :
    loop (fun _ => none) callback fuel i st =
      some (answer callback n,
        (List.range' i (n - i)).map fun j => (delay callback j : Int) * millisecond) := by
  induction fuel generalizing i st with
  | zero => omega
  | succ fuel ih =>
    by_cases stops : Stops callback i
    · have same : i = n := by
        by_contra other
        exact last.first i (by omega) stops
      subst same
      simp [loop, here.returns stops]
    · have further : i < n := by
        have other : i ≠ n := by
          rintro rfl
          exact stops last.stops
        omega
      obtain ⟨next, slept, there⟩ := here.goesOn stops
      have left : n - i = (n - (i + 1)) + 1 := by omega
      simp only [loop, slept, ih there (by omega) (by omega), Option.bind_eq_bind,
        Option.bind_some, pure]
      rw [left, List.range'_succ, List.map_cons]

/-- What is promised of the retries of a call. -/
structure WithinBudget (callback : Nat → Except (Failure ε) ρ) (n : Nat) : Prop where
  /-- Call number `n` is the first that succeeds, fails for another reason, or fails with more than
  `invokeTimeout` spent. -/
  last : Last callback n
  /-- The loop ends with it and returns its answer. The delays before it are those that the answers
  call for; none of them wraps around. -/
  returns : ∀ fuel, n < fuel →
    retry (fun _ => none) callback fuel =
      some (answer callback n,
        (List.range n).map fun i => (delay callback i : Int) * millisecond)
  /-- In milliseconds. -/
  total : age callback n ≤ 2 * 3000 + 100

/-- For every sequence of answers of the callback, over a connection that is always ready, the call
ends after at most 301 retries. -/
theorem retry_within_budget (callback : Nat → Except (Failure ε) ρ) :
    ∃ n ≤ 301, WithinBudget callback n := by
  obtain ⟨n, few, last⟩ := exists_last callback
  refine ⟨n, few, last, fun fuel enough => ?_, age_le last⟩
  rw [retry, loop_eq last at_zero (Nat.zero_le n) (by omega), Nat.sub_zero, List.range_eq_range']

end AnyCable.Guarantees.RetryBudget
