import AnyCable.Lib.Run
import AnyCable.Source.Counter
import Mathlib.Logic.Function.Basic

/-!
# Reported intervals add up to the counter

The loop of the metrics takes the difference to the last interval from every counter and has each
writer report it (`metrics/metrics.go:151-166`). `IntervalValue` returns that difference unless the
counter was 0 when it was last rotated; then it returns the value as it is at the time of the report
(`metrics/counter.go:35-41`). An increment between that rotation and the report is reported now, and
in the next interval again (`increment_counted_twice`).

What a writer has reported is the value at the last rotation, after every rotation of a run, if and
only if the live value is never anything but the difference when it is taken for it
(`sums_iff_steady`).

Counters are independent of each other, and so are the writers. Increments come at any time, also
while a counter is rotated.
-/

set_option autoImplicit false

namespace AnyCable.Guarantees.IntervalSums
open AnyCable.Lib AnyCable.Source

/-- A counter, and what has been made of it. -/
structure Ledger where
  counter : Counter := {}
  /-- The value that an `UpdateDelta` under way has loaded. -/
  loaded : Option UInt64 := none
  /-- The values that the rotations have found. -/
  values : List UInt64 := []
  /-- What each writer has reported. -/
  reports : Nat → List UInt64 := fun _ => []

inductive Act where
  | add (n : UInt64)
  | load
  | store
  | report (writer : Nat)
  deriving DecidableEq, Repr

/-- A counter is rotated once all writers have reported it, and reported once per rotation. -/
def Ledger.step (writers : Nat) (l : Ledger) : Act → Option Ledger
  | .add n => some { l with counter := l.counter.add n }
  | .load =>
    if l.loaded = none ∧ ∀ w < writers, (l.reports w).length = l.values.length then
      some { l with loaded := some l.counter.value, values := l.values ++ [l.counter.value] }
    else none
  | .store =>
    match l.loaded with
    | none => none
    | some now => some { l with counter := l.counter.storeDelta now, loaded := none }
  | .report w =>
    if w < writers ∧ l.loaded = none ∧ (l.reports w).length + 1 = l.values.length then
      some { l with
        reports := Function.update l.reports w (l.reports w ++ [l.counter.intervalValue]) }
    else none

/-- All counters, by name. -/
def step (writers : Nat) (x : String → Ledger) (a : String × Act) : Option (String → Ledger) :=
  ((x a.1).step writers a.2).map (Function.update x a.1)

/-- The sum, as a `uint64`. -/
def total (reported : List UInt64) : UInt64 := reported.foldl (· + ·) 0

/-- Whoever has reported all rotations of the counter has reported its value at the last of them. -/
def Ledger.AddsUp (writers : Nat) (l : Ledger) : Prop :=
  ∀ w < writers, (l.reports w).length = l.values.length → total (l.reports w) = l.values.getLastD 0

instance (writers : Nat) (l : Ledger) : Decidable (l.AddsUp writers) :=
  inferInstanceAs (Decidable (∀ w < writers, _ → total (l.reports w) = l.values.getLastD 0))

/-- A live value that is reported is the difference. -/
def Ledger.Steady (l : Ledger) : Act → Prop
  | .report _ => l.counter.lastIntervalValue = 0 → l.counter.value = l.counter.lastIntervalDelta
  | _ => True

instance (l : Ledger) : (a : Act) → Decidable (l.Steady a)
  | .report _ => inferInstanceAs (Decidable
      (l.counter.lastIntervalValue = 0 → l.counter.value = l.counter.lastIntervalDelta))
  | .add _ | .load | .store => isTrue trivial

theorem total_append (reported : List UInt64) (value : UInt64) :
    total (reported ++ [value]) = total reported + value := by
  simp [total]

/-- What is reported is the difference exactly if the report is steady. -/
theorem intervalValue_iff (l : Ledger) (w : Nat) :
    l.counter.intervalValue = l.counter.lastIntervalDelta ↔ l.Steady (.report w) := by
  unfold Counter.intervalValue Ledger.Steady
  split
  next zero => exact ⟨fun same _ => same, fun steady => steady zero⟩
  next other => exact ⟨fun _ zero => absurd zero other, fun _ => rfl⟩

/-- Between its rotations, each writer has reported the counter up to the last one or has yet to
report the difference. Once its value is loaded, the fields are those of the interval before. -/
structure Inv (writers : Nat) (l : Ledger) : Prop where
  last : l.loaded = none → l.counter.lastIntervalValue = l.values.getLastD 0
  idle : l.loaded = none → ∀ w < writers,
    ((l.reports w).length = l.values.length ∧
      total (l.reports w) = l.counter.lastIntervalValue) ∨
    ((l.reports w).length + 1 = l.values.length ∧
      total (l.reports w) + l.counter.lastIntervalDelta = l.counter.lastIntervalValue)
  rotating : ∀ now, l.loaded = some now → l.values.getLastD 0 = now ∧
    ∀ w < writers, (l.reports w).length + 1 = l.values.length ∧
      total (l.reports w) = l.counter.lastIntervalValue

section Steps

variable {writers : Nat} {l next : Ledger}

theorem Inv.addsUp (inv : Inv writers l) : l.AddsUp writers := by
  intro w writer same
  cases loaded : l.loaded with
  | none =>
    rcases inv.idle loaded w writer with ⟨-, sum⟩ | ⟨behind, -⟩
    · rw [sum, inv.last loaded]
    · omega
  | some now =>
    have behind := ((inv.rotating now loaded).2 w writer).1
    omega

theorem Inv.add (inv : Inv writers l) (n : UInt64) :
    Inv writers { l with counter := l.counter.add n } :=
  ⟨inv.last, inv.idle, inv.rotating⟩

theorem Inv.load (inv : Inv writers l) (free : l.loaded = none)
    (reported : ∀ w < writers, (l.reports w).length = l.values.length) :
    Inv writers { l with loaded := some l.counter.value,
                         values := l.values ++ [l.counter.value] } where
  last := fun loaded => by cases loaded
  idle := fun loaded => by cases loaded
  rotating := by
    intro now loaded
    cases loaded
    refine ⟨by simp, fun w writer => ?_⟩
    have same := reported w writer
    rcases inv.idle free w writer with ⟨-, sum⟩ | ⟨behind, -⟩
    · exact ⟨by simp [same], sum⟩
    · omega

theorem Inv.store (inv : Inv writers l) {now : UInt64} (loaded : l.loaded = some now) :
    Inv writers { l with counter := l.counter.storeDelta now, loaded := none } where
  last := fun _ => (inv.rotating now loaded).1.symm
  idle := by
    intro _ w writer
    obtain ⟨behind, sum⟩ := (inv.rotating now loaded).2 w writer
    refine Or.inr ⟨behind, ?_⟩
    -- the sum so far and the difference are the value just loaded
    change total (l.reports w) + (now - l.counter.lastIntervalValue) = now
    rw [sum, UInt64.add_comm, UInt64.sub_add_cancel]
  rotating := fun _ loaded => by cases loaded

theorem Inv.report (inv : Inv writers l) {w : Nat} (free : l.loaded = none) (writer : w < writers)
    (behind : (l.reports w).length + 1 = l.values.length) (steady : l.Steady (.report w)) :
    Inv writers { l with
      reports := Function.update l.reports w (l.reports w ++ [l.counter.intervalValue]) } where
  last := inv.last
  idle := by
    intro _ w' writer'
    by_cases same : w' = w
    · subst same
      rcases inv.idle free w' writer with ⟨done, -⟩ | ⟨-, sum⟩
      · omega
      · refine Or.inl ⟨by simp [behind], ?_⟩
        simp only [Function.update_self, total_append]
        rw [(intervalValue_iff l w').mpr steady, sum]
    · simp only [Function.update_of_ne same]
      exact inv.idle free w' writer'
  rotating := fun now loaded => by
    rw [free] at loaded
    cases loaded

/-- A report that leaves the sum right has reported the difference. -/
theorem steady_of_addsUp (inv : Inv writers l) {w : Nat} (free : l.loaded = none)
    (writer : w < writers) (behind : (l.reports w).length + 1 = l.values.length)
    (right : Ledger.AddsUp writers { l with
      reports := Function.update l.reports w (l.reports w ++ [l.counter.intervalValue]) }) :
    l.Steady (.report w) := by
  rw [← intervalValue_iff]
  have after := right w writer (by simp [behind])
  simp only [Function.update_self, total_append] at after
  rcases inv.idle free w writer with ⟨done, -⟩ | ⟨-, sum⟩
  · omega
  · rw [← inv.last free, ← sum] at after
    exact (UInt64.add_right_inj _).mp after

/-- What a step does to a counter. -/
theorem Ledger.step_cases {a : Act} (stepped : l.step writers a = some next) :
    (∃ n, a = .add n ∧ next = { l with counter := l.counter.add n }) ∨
    (a = .load ∧ l.loaded = none ∧ (∀ w < writers, (l.reports w).length = l.values.length) ∧
      next = { l with loaded := some l.counter.value, values := l.values ++ [l.counter.value] }) ∨
    (∃ now, a = .store ∧ l.loaded = some now ∧
      next = { l with counter := l.counter.storeDelta now, loaded := none }) ∨
    (∃ w, a = .report w ∧ w < writers ∧ l.loaded = none ∧
      (l.reports w).length + 1 = l.values.length ∧
      next = { l with
        reports := Function.update l.reports w (l.reports w ++ [l.counter.intervalValue]) }) := by
  cases a with
  | add n => exact Or.inl ⟨n, rfl, (Option.some.inj stepped).symm⟩
  | load =>
    simp only [Ledger.step] at stepped
    split at stepped
    next ready => exact Or.inr (Or.inl ⟨rfl, ready.1, ready.2, (Option.some.inj stepped).symm⟩)
    next => cases stepped
  | store =>
    simp only [Ledger.step] at stepped
    split at stepped
    next => cases stepped
    next now loaded =>
      exact Or.inr (Or.inr (Or.inl ⟨now, rfl, loaded, (Option.some.inj stepped).symm⟩))
  | report w =>
    simp only [Ledger.step] at stepped
    split at stepped
    next ready =>
      exact Or.inr (Or.inr (Or.inr ⟨w, rfl, ready.1, ready.2.1, ready.2.2,
        (Option.some.inj stepped).symm⟩))
    next => cases stepped

/-- The two halves of a rotation with nothing in between are `UpdateDelta`. -/
theorem Ledger.load_store (free : l.loaded = none)
    (reported : ∀ w < writers, (l.reports w).length = l.values.length) :
    Run.exec (Ledger.step writers) l [.load, .store] = some { l with
      counter := l.counter.updateDelta, values := l.values ++ [l.counter.value] } := by
  have first : l.step writers .load = some { l with
      loaded := some l.counter.value, values := l.values ++ [l.counter.value] } :=
    if_pos ⟨free, reported⟩
  rw [Run.exec, first, Option.bind_some]
  simp [Run.exec, Ledger.step, Counter.updateDelta, free]

theorem Inv.step {a : Act} (inv : Inv writers l) (steady : l.Steady a)
    (stepped : l.step writers a = some next) : Inv writers next := by
  rcases Ledger.step_cases stepped with ⟨n, rfl, rfl⟩ | ⟨rfl, free, reported, rfl⟩ |
    ⟨now, rfl, loaded, rfl⟩ | ⟨w, rfl, writer, free, behind, rfl⟩
  · exact inv.add n
  · exact inv.load free reported
  · exact inv.store loaded
  · exact inv.report free writer behind steady

theorem Inv.steady {a : Act} (inv : Inv writers l) (stepped : l.step writers a = some next)
    (right : next.AddsUp writers) : l.Steady a := by
  rcases Ledger.step_cases stepped with ⟨n, rfl, -⟩ | ⟨rfl, -⟩ | ⟨now, rfl, -⟩ |
    ⟨w, rfl, writer, free, behind, rfl⟩
  · trivial
  · trivial
  · trivial
  · exact steady_of_addsUp inv free writer behind right

end Steps

/-- The counters before the first rotation. -/
def start : String → Ledger := fun _ => {}

theorem inv_start (writers : Nat) (name : String) : Inv writers (start name) where
  last := fun _ => rfl
  idle := fun _ _ _ => Or.inl ⟨rfl, rfl⟩
  rotating := fun _ loaded => by cases loaded

/-- For every number of writers, all counters and every interleaving of increments with the loop:
what each writer has reported adds up all the time if and only if every live value that is reported
is the difference of its interval. -/
theorem sums_iff_steady (writers : Nat) (schedule : List (String × Act)) (x : String → Ledger)
    (ran : Run.exec (step writers) start schedule = some x) :
    Run.Always (step writers) (fun x => ∀ name, (x name).AddsUp writers) start schedule ↔
      Run.Meets (step writers) (fun x a => (x a.1).Steady a.2) start schedule := by
  have keeps : ∀ x a y, (∀ name, Inv writers (x name)) → (x a.1).Steady a.2 →
      step writers x a = some y → ∀ name, Inv writers (y name) := by
    intro x a y inv steady stepped name
    obtain ⟨next, own, rfl⟩ := Option.map_eq_some_iff.mp stepped
    by_cases same : name = a.1
    · subst same
      rw [Function.update_self]
      exact (inv a.1).step steady own
    · rw [Function.update_of_ne same]
      exact inv name
  have shows : ∀ x a y, (∀ name, Inv writers (x name)) → step writers x a = some y →
      (∀ name, (y name).AddsUp writers) → (x a.1).Steady a.2 := by
    intro x a y inv stepped right
    obtain ⟨next, own, rfl⟩ := Option.map_eq_some_iff.mp stepped
    have sums := right a.1
    rw [Function.update_self] at sums
    exact (inv a.1).steady own sums
  exact Run.always_iff_meets keeps shows (fun x inv name => (inv name).addsUp) (inv_start writers) ran

/-- Two intervals with increments before, between and after the steps of the loop. -/
def busy : List (String × Act) :=
  [("calls", .add 3), ("calls", .load), ("calls", .add 4), ("calls", .store), ("calls", .add 1),
   ("calls", .report 0), ("calls", .load), ("calls", .store), ("calls", .report 0)]

theorem busy_sums :
    ∃ x, Run.exec (step 1) start busy = some x ∧ (x "calls").reports 0 = [3, 5] ∧
      Run.Always (step 1) (fun x => ∀ name, (x name).AddsUp 1) start busy :=
  ⟨_, rfl, by decide, (sums_iff_steady 1 busy _ rfl).mpr (by decide)⟩

/-- Five increments that come between the first rotation and its report are reported as ten. -/
theorem increment_counted_twice :
    ∃ x, Run.exec (step 1) start
        [("calls", .load), ("calls", .store), ("calls", .add 5), ("calls", .report 0),
         ("calls", .load), ("calls", .store), ("calls", .report 0)] = some x ∧
      (x "calls").values = [0, 5] ∧ (x "calls").reports 0 = [5, 5] ∧
      ¬ (x "calls").AddsUp 1 :=
  ⟨_, rfl, by decide, by decide, by decide⟩

end AnyCable.Guarantees.IntervalSums
