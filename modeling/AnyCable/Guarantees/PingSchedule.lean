import AnyCable.Source.PingTimer

/-!
# Ping intervals chosen by clients

Source: `cli/session_options.go:34-57`, `node/session.go:137-176,637-652`. A number of seconds is
multiplied by `10^9` and later by 3, both in 64 bits. `longest` is the largest number for which
neither product wraps around.

`ping_safe_iff` says for which numbers the first ping is scheduled as intended. A larger number
either has a duration whose triple wraps around, and then the difference of the two bounds is
negative and `NewSession` panics, or it is taken for a much shorter interval.
-/

set_option autoImplicit false

namespace AnyCable.Guarantees.PingSchedule
open AnyCable.Lib AnyCable.Source AnyCable.Source.PingTimer

/-- The number of seconds up to which three times the interval fits. -/
def longest : Int := 3074457345

/-- What is expected of a session whose client has asked for `val` seconds. -/
structure Safe (configured pongTimeout val : Int) (rawVal : String) (random : Nat) : Prop where
  returns : ∃ timers, newSession configured pongTimeout rawVal random = some timers
  /-- Neither bound wraps around: `interval/2` never does. -/
  exactly : 0 < seconds val → int64 (seconds val * 3) = seconds val * 3
  positive : 0 < seconds val →
    0 < int64 (maxDuration (seconds val) - minDuration (seconds val))
  /-- The first ping comes between half and three halves of the seconds asked for. -/
  between : 0 < seconds val → ∃ timers,
    newSession configured pongTimeout rawVal random = some (some timers) ∧
      val * second ≤ 2 * timers.ping ∧ 2 * timers.ping < 3 * (val * second)

/-! ### The arithmetic of an interval -/

section Interval

variable {d : Int}

/-- `2^9` divides `10^9` and survives the wrapping, so an interval has an exact half. -/
theorem seconds_even (val : Int) : 2 ∣ seconds val := by
  simp only [seconds, int64, second]
  omega

theorem seconds_range (val : Int) : -(2 ^ 63) ≤ seconds val ∧ seconds val < 2 ^ 63 := by
  simp only [seconds, int64]
  omega

/-- A triple that fits leaves the interval itself as the range to draw from. -/
theorem difference_fits (even : 2 ∣ d) (positive : 0 < d) (fits : d * 3 < 2 ^ 63) :
    int64 (maxDuration d - minDuration d) = d ∧ 2 * minDuration d = d := by
  have triple : int64 (d * 3) = d * 3 := int64_of_range (by omega) fits
  obtain ⟨half, rfl⟩ := even
  have low : (2 * half).tdiv 2 = half := Int.mul_tdiv_cancel_left half (by decide)
  have high : (2 * half * 3).tdiv 2 = half * 3 := by
    rw [Int.mul_assoc]
    exact Int.mul_tdiv_cancel_left _ (by decide)
  rw [maxDuration, minDuration, triple, low, high]
  exact ⟨by rw [int64_of_range (by omega) (by omega)]; omega, rfl⟩

/-- A triple that wraps around leaves a negative range. -/
theorem difference_wraps (even : 2 ∣ d) (small : d < 2 ^ 63) (large : 2 ^ 63 ≤ d * 3) :
    int64 (maxDuration d - minDuration d) ≤ 0 := by
  have triple : int64 (d * 3) = d * 3 - 2 ^ 64 := by
    unfold int64
    omega
  obtain ⟨half, rfl⟩ := even
  have low : (2 * half).tdiv 2 = half := Int.mul_tdiv_cancel_left half (by decide)
  have high : (2 * half * 3 - 2 ^ 64).tdiv 2 = half * 3 - 2 ^ 63 := by
    have double : 2 * half * 3 - 2 ^ 64 = 2 * (half * 3 - 2 ^ 63) := by omega
    rw [double]
    exact Int.mul_tdiv_cancel_left _ (by decide)
  rw [maxDuration, minDuration, triple, low, high, int64_of_range (by omega) (by omega)]
  omega

/-- The first ping of an interval whose triple fits. -/
theorem startPing_fits (pongTimeout : Int) (random : Nat) (even : 2 ∣ d) (positive : 0 < d)
    (fits : d * 3 < 2 ^ 63) :
    ∃ timers, startPing d pongTimeout random = some timers ∧
      d ≤ 2 * timers.ping ∧ 2 * timers.ping < 3 * d := by
  obtain ⟨range, half⟩ := difference_fits even positive fits
  have drawn_low : 0 ≤ (random : Int) % d := Int.emod_nonneg _ (by omega)
  have drawn_high : (random : Int) % d < d := Int.emod_lt_of_pos _ positive
  have sum : int64 ((random : Int) % d + minDuration d) = (random : Int) % d + minDuration d :=
    int64_of_range (by omega) (by omega)
  have drawn : int63n random d = some (random % d) := by
    rw [int63n, if_neg (by omega)]
  simp only [startPing, range, drawn, Option.bind_eq_bind, Option.bind_some, pure, sum]
  exact ⟨_, rfl, by dsimp only; omega, by dsimp only; omega⟩

theorem startPing_wraps (pongTimeout : Int) (random : Nat) (even : 2 ∣ d) (small : d < 2 ^ 63)
    (large : 2 ^ 63 ≤ d * 3) : startPing d pongTimeout random = none := by
  have range := difference_wraps even small large
  simp [startPing, int63n, range]

end Interval

section Session

variable (configured pongTimeout : Int) {rawVal : String} {val : Int} (random : Nat)

/-- An accepted parameter replaces the configured interval. -/
theorem newSession_accepted (accepted : parseInt rawVal.toList = some val) :
    newSession configured pongTimeout rawVal random =
      if 0 < seconds val then (startPing (seconds val) pongTimeout random).map some
      else some none := by
  have given : rawVal ≠ "" := by
    rintro rfl
    simp [parseInt, parseDigits, isDigits] at accepted
  simp [newSession, pingIntervalOption, given, accepted]

theorem seconds_fits (positive : 0 < val) (short : val ≤ longest) :
    seconds val = val * second ∧ seconds val * 3 < 2 ^ 63 := by
  simp only [longest] at short
  have exact : seconds val = val * second :=
    int64_of_range (by simp only [second]; omega) (by simp only [second]; omega)
  refine ⟨exact, ?_⟩
  rw [exact, second]
  omega

theorem safe_of_short (accepted : parseInt rawVal.toList = some val)
    (short : seconds val ≤ 0 ∨ 0 < val ∧ val ≤ longest) :
    Safe configured pongTimeout val rawVal random := by
  have session := newSession_accepted configured pongTimeout random accepted
  by_cases pings : 0 < seconds val
  · rw [if_pos pings] at session
    obtain ⟨positive, short⟩ := short.resolve_left (by omega)
    obtain ⟨exact, fits⟩ := seconds_fits positive short
    obtain ⟨timers, started, low, high⟩ :=
      startPing_fits pongTimeout random (seconds_even val) pings fits
    rw [started, Option.map_some] at session
    refine ⟨⟨_, session⟩, fun _ => int64_of_range (by omega) fits, fun _ => ?_, fun _ => ?_⟩
    · rw [(difference_fits (seconds_even val) pings fits).1]
      exact pings
    · exact ⟨timers, session, by omega, by omega⟩
  · rw [if_neg pings] at session
    exact ⟨⟨_, session⟩, fun positive => absurd positive pings,
      fun positive => absurd positive pings, fun positive => absurd positive pings⟩

theorem short_of_safe (accepted : parseInt rawVal.toList = some val)
    (safe : Safe configured pongTimeout val rawVal random) (pings : 0 < seconds val) :
    0 < val ∧ val ≤ longest := by
  have fits : seconds val * 3 < 2 ^ 63 := by
    have exactly := safe.exactly pings
    unfold int64 at exactly
    omega
  obtain ⟨timers, session, low, high⟩ := safe.between pings
  obtain ⟨same, started, least, most⟩ :=
    startPing_fits pongTimeout random (seconds_even val) pings fits
  rw [newSession_accepted configured pongTimeout random accepted, if_pos pings, started,
    Option.map_some, Option.some.injEq, Option.some.injEq] at session
  subst session
  -- the seconds asked for are bounded by the first ping, so their product has not wrapped around
  have exact : seconds val = val * second := int64_of_range (by omega) (by omega)
  simp only [second] at exact high
  simp only [longest]
  omega

/-- For every parameter that `strconv.Atoi` accepts, every configuration and every number drawn: the
first ping is scheduled without wrapping, from a positive range and within the seconds asked for, if
and only if the interval is not positive or the seconds are at most `longest`; and `NewSession`
panics if and only if three times the interval does not fit. -/
theorem ping_safe_iff (accepted : parseInt rawVal.toList = some val) :
    (Safe configured pongTimeout val rawVal random ↔
      seconds val ≤ 0 ∨ 0 < val ∧ val ≤ longest) ∧
    (newSession configured pongTimeout rawVal random = none ↔ 2 ^ 63 ≤ seconds val * 3) := by
  refine ⟨⟨fun safe => ?_, safe_of_short configured pongTimeout random accepted⟩, ?_⟩
  · by_cases pings : 0 < seconds val
    · exact .inr (short_of_safe configured pongTimeout random accepted safe pings)
    · exact .inl (by omega)
  · rw [newSession_accepted configured pongTimeout random accepted]
    by_cases pings : 0 < seconds val
    · rw [if_pos pings]
      by_cases fits : seconds val * 3 < 2 ^ 63
      · obtain ⟨timers, started, -⟩ :=
          startPing_fits pongTimeout random (seconds_even val) pings fits
        simp only [started, Option.map_some, reduceCtorEq, false_iff]
        omega
      · rw [startPing_wraps pongTimeout random (seconds_even val) (seconds_range val).2 (by omega)]
        exact iff_of_true rfl (by omega)
    · rw [if_neg pings]
      exact iff_of_false (by simp) (by omega)

end Session

/-- Pings every half a minute. -/
theorem thirty_seconds_safe : Safe 3 0 30 "30" 12345 :=
  have accepted : parseInt "30".toList = some 30 := by decide
  (ping_safe_iff 3 0 12345 accepted).1.mpr (.inr ⟨by decide, by decide⟩)

/-- The parameter `pi=5000000000`. -/
theorem long_interval_panics :
    parseInt "5000000000".toList = some 5000000000 ∧ 0 < seconds 5000000000 ∧
      newSession 3 0 "5000000000" 0 = none := by
  decide

end AnyCable.Guarantees.PingSchedule
