import Mathlib.Data.List.Nodup
import Mathlib.Data.List.Perm.Subperm
import Mathlib.Data.List.Range
import Mathlib.Data.Nat.ModEq

/-!
# A ticker

A ticker sends at every multiple of its period, into a channel with room for one tick; a tick that
finds the channel full is dropped. Time passes by `advance`.

Whoever waits for a tick before each of its actions never gets two within one period
(`Spaced.receive`), so that the ticks in any window of time are bounded (`Spaced.window`). The
action may come later than its tick; still there is at most one in a window that got its tick before
the window (`Throttled.window`).
-/

set_option autoImplicit false

namespace AnyCable.Lib

structure Ticker where
  period : Nat
  now : Nat := 0
  /-- The channel has a tick. -/
  pending : Bool := false
  positive : 0 < period

namespace Ticker

/-- Periods that have passed. -/
def elapsed (t : Ticker) : Nat := t.now / t.period

def advance (t : Ticker) (time : Nat) : Ticker :=
  { t with
    now := t.now + time
    pending := t.pending || t.elapsed < (t.now + time) / t.period }

def receive (t : Ticker) : Option Ticker :=
  if t.pending then some { t with pending := false } else none

/-- The times at which ticks were received. -/
structure Spaced (t : Ticker) (times : List Nat) : Prop where
  increasing : (times.map (· / t.period)).Pairwise (· < ·)
  past : ∀ time ∈ times, time / t.period ≤ t.elapsed
  used : t.pending = true → ∀ time ∈ times, time / t.period < t.elapsed

variable {t next : Ticker} {times : List Nat}

theorem spaced_nil : t.Spaced [] where
  increasing := by simp
  past := by simp
  used := by simp

theorem Spaced.advance (spaced : t.Spaced times) (time : Nat) : (t.advance time).Spaced times where
  increasing := spaced.increasing
  past := by
    intro action member
    exact Nat.le_trans (spaced.past action member) (Nat.div_le_div_right (Nat.le_add_right _ _))
  used := by
    intro pending action member
    have later : t.elapsed ≤ (t.advance time).elapsed :=
      Nat.div_le_div_right (Nat.le_add_right _ _)
    simp only [Ticker.advance, Bool.or_eq_true, decide_eq_true_eq] at pending
    rcases pending with before | ticked
    · exact Nat.lt_of_lt_of_le (spaced.used before action member) later
    · exact Nat.lt_of_le_of_lt (spaced.past action member) ticked

theorem Spaced.receive (spaced : t.Spaced times) (received : t.receive = some next) :
    next.Spaced (times ++ [t.now]) := by
  simp only [Ticker.receive, Option.ite_none_right_eq_some, Option.some.injEq] at received
  obtain ⟨pending, rfl⟩ := received
  constructor
  · rw [List.map_append, List.map_singleton, List.pairwise_append]
    refine ⟨spaced.increasing, List.pairwise_singleton _ _, ?_⟩
    intro quotient member last same
    obtain ⟨action, earlier, rfl⟩ := List.mem_map.mp member
    rw [List.mem_singleton.mp same]
    exact spaced.used pending action earlier
  · exact List.forall_mem_append.mpr ⟨spaced.past, by simp [elapsed]⟩
  · simp

/-- Ticks in a window of time: one for each period that meets the window, at most. -/
theorem Spaced.window (spaced : t.Spaced times) (start length : Nat) (some : 0 < length) :
    (times.filter fun time => start ≤ time ∧ time < start + length).length ≤
      (length - 1) / t.period + 2 := by
  have positive := t.positive
  let inside := times.filter fun time => start ≤ time ∧ time < start + length
  let last := (start + length - 1) / t.period
  have nodup : (inside.map (· / t.period)).Nodup :=
    (spaced.increasing.imp (fun less => Nat.ne_of_lt less)).sublist
      (List.Sublist.map _ List.filter_sublist)
  have bounded : ∀ quotient ∈ inside.map (· / t.period),
      quotient ∈ List.range' (start / t.period) (last + 1 - start / t.period) := by
    intro quotient member
    obtain ⟨time, within, rfl⟩ := List.mem_map.mp member
    obtain ⟨-, bounds⟩ := List.mem_filter.mp within
    simp only [decide_eq_true_eq] at bounds
    have low : start / t.period ≤ time / t.period := Nat.div_le_div_right bounds.1
    have high : time / t.period ≤ last := Nat.div_le_div_right (by omega)
    rw [List.mem_range'_1]
    omega
  have few := (List.subperm_of_subset nodup bounded).length_le
  rw [List.length_map, List.length_range'] at few
  have span : last ≤ start / t.period + (length - 1) / t.period + 1 := by
    have sum : start + length - 1 = start + (length - 1) := by omega
    simp only [last, sum]
    exact Nat.add_div_le_div_add_div_add_one start (length - 1) t.period
  show inside.length ≤ _
  generalize start / t.period = first at few span
  generalize (length - 1) / t.period = periods at span ⊢
  omega

/-- Actions with the ticks before them, and a tick that was received for the next one. -/
structure Throttled (t : Ticker) (actions : List (Nat × Nat)) (tick : Option Nat) : Prop where
  spaced : t.Spaced (actions.map Prod.fst ++ tick.toList)
  after : ∀ a ∈ actions, a.1 ≤ a.2
  inTurn : actions.Pairwise fun a b => a.2 ≤ b.1
  past : ∀ a ∈ actions, a.2 ≤ t.now
  latest : ∀ time ∈ tick, time ≤ t.now ∧ ∀ a ∈ actions, a.2 ≤ time

variable {actions : List (Nat × Nat)} {tick : Option Nat}

theorem throttled_nil : t.Throttled [] none where
  spaced := spaced_nil
  after := by simp
  inTurn := .nil
  past := by simp
  latest := by simp

theorem Throttled.advance (throttled : t.Throttled actions tick) (time : Nat) :
    (t.advance time).Throttled actions tick where
  spaced := throttled.spaced.advance time
  after := throttled.after
  inTurn := throttled.inTurn
  past a member := Nat.le_trans (throttled.past a member) (Nat.le_add_right _ _)
  latest held received :=
    ⟨Nat.le_trans (throttled.latest held received).1 (Nat.le_add_right _ _),
      (throttled.latest held received).2⟩

theorem Throttled.receive (throttled : t.Throttled actions none)
    (received : t.receive = some next) : next.Throttled actions (some t.now) := by
  have spaced := throttled.spaced.receive received
  simp only [Ticker.receive, Option.ite_none_right_eq_some, Option.some.injEq] at received
  obtain ⟨-, rfl⟩ := received
  refine ⟨by simpa using spaced, throttled.after, throttled.inTurn, throttled.past, ?_⟩
  rintro time ⟨⟩
  exact ⟨Nat.le_refl _, throttled.past⟩

theorem Throttled.act {held : Nat} (throttled : t.Throttled actions (some held)) :
    t.Throttled (actions ++ [(held, t.now)]) none := by
  obtain ⟨before, others⟩ := throttled.latest held rfl
  refine ⟨by simpa using throttled.spaced, ?_, ?_, ?_, by simp⟩
  · exact List.forall_mem_append.mpr ⟨throttled.after, by simpa using before⟩
  · exact List.pairwise_append.mpr ⟨throttled.inTurn, List.pairwise_singleton _ _,
      by simpa using others⟩
  · exact List.forall_mem_append.mpr ⟨throttled.past, by simp⟩

/-- In a window there is at most one action whose tick came before it. -/
theorem Throttled.window (throttled : t.Throttled actions tick) (start length : Nat)
    (some : 0 < length) :
    (actions.filter fun a => start ≤ a.2 ∧ a.2 < start + length).length ≤
      (length - 1) / t.period + 3 := by
  let inside := actions.filter fun a => start ≤ a.2 ∧ a.2 < start + length
  let ticked := actions.filter fun a => start ≤ a.1 ∧ a.1 < start + length
  have within : inside.Sublist actions := List.filter_sublist
  -- the ticks of all but the first come after the first, which is in the window
  have later : inside.tail.Sublist ticked := by
    have kept : inside.tail.filter (fun a => start ≤ a.1 ∧ a.1 < start + length) = inside.tail := by
      cases shape : inside with
      | nil => rfl
      | cons first rest =>
        have order := throttled.inTurn.sublist within
        rw [shape, List.pairwise_cons] at order
        have bounds : ∀ a ∈ first :: rest, start ≤ a.2 ∧ a.2 < start + length := by
          intro a member
          rw [← shape] at member
          simpa using (List.mem_filter.mp member).2
        simp only [List.tail_cons, List.filter_eq_self, decide_eq_true_eq]
        intro a member
        have after := throttled.after a (within.subset (shape ▸ List.mem_cons_of_mem _ member))
        have mine := bounds a (List.mem_cons_of_mem _ member)
        have start_ := bounds first List.mem_cons_self
        have turn := order.1 a member
        omega
    rw [← kept]
    exact ((List.tail_sublist _).trans within).filter _
  have few := throttled.spaced.window start length some
  have counted : ticked.length ≤ ((actions.map Prod.fst ++ tick.toList).filter
      fun time => start ≤ time ∧ time < start + length).length := by
    rw [List.filter_append, List.filter_map, List.length_append, List.length_map]
    exact Nat.le_add_right _ _
  have tail := later.length_le
  rw [List.length_tail] at tail
  show inside.length ≤ _
  omega

end Ticker

end AnyCable.Lib
