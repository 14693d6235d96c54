import AnyCable.Lib.Run
import AnyCable.Source.Tracker

/-!
# The streams tracker as a reference counter

Source: `broker/broker.go:107-151`. `Add` counts the references to a name and `Remove` deletes a
name whose count is 1. It never takes a higher count down, so a name that has been added twice is
there until its counter has gone once through all 2^64 values (`kept_until_wrap`).

`References` is what the tracker stands for: the references to each name that have not been given
back. The tracker answers like it, call by call, exactly if the last reference to a name is given
back where the name has had one reference since it was absent, and no other reference is given
back where it has; all numbers of references count modulo 2^64 (`answers_iff`).
-/

set_option autoImplicit false

namespace AnyCable.Guarantees.ReferenceCounts
open AnyCable.Lib AnyCable.Source

/-- How many references to each name are outstanding. -/
structure References where
  outstanding : String → Nat := fun _ => 0
  /-- References made since the name was last without one. -/
  made : String → Nat := fun _ => 0

namespace References

/-- The flag says that the name had no reference. -/
def add (r : References) (name : String) : References × Bool :=
  (⟨Function.update r.outstanding name (r.outstanding name + 1),
    Function.update r.made name (if r.outstanding name = 0 then 1 else r.made name + 1)⟩,
   r.outstanding name == 0)

/-- The flag says that the last reference is given back. -/
def remove (r : References) (name : String) : References × Bool :=
  ({ r with outstanding := Function.update r.outstanding name (r.outstanding name - 1) },
   r.outstanding name == 1)

def has (r : References) (name : String) : Bool := 0 < r.outstanding name

end References

inductive Call where
  | add (name : String)
  | remove (name : String)
  deriving DecidableEq, Repr

/-- The tracker beside what it stands for, and the answers of both to the last call. -/
structure Trace where
  tracker : StreamsTracker := .new
  references : References := {}
  answer : Bool := false
  expected : Bool := false

def step (x : Trace) : Call → Option Trace
  | .add name =>
    some { tracker := (x.tracker.add name).1, references := (x.references.add name).1
           answer := (x.tracker.add name).2, expected := (x.references.add name).2 }
  | .remove name =>
    some { tracker := (x.tracker.remove name).1, references := (x.references.remove name).1
           answer := (x.tracker.remove name).2, expected := (x.references.remove name).2 }

/-- `Has` and the last call answer as they should. -/
def Answers (x : Trace) : Prop :=
  (∀ name, x.tracker.has name = x.references.has name) ∧ x.answer = x.expected

/-- A reference that is given back is the last one exactly if it was the only one ever made, as
far as 64 bits tell. -/
def OnlyOne (x : Trace) : Call → Prop
  | .remove name => 0 < x.references.outstanding name →
      (x.references.outstanding name = 1 ↔ x.references.made name % 2 ^ 64 = 1)
  | .add _ => True

instance (x : Trace) : (c : Call) → Decidable (OnlyOne x c)
  | .remove name => inferInstanceAs (Decidable (0 < x.references.outstanding name →
      (x.references.outstanding name = 1 ↔ x.references.made name % 2 ^ 64 = 1)))
  | .add _ => isTrue trivial

/-! ### Call by call -/

/-- The tracker has counted the references made, and forgets them with the last one. -/
structure Inv (x : Trace) : Prop where
  store : ∀ name, x.tracker.store name =
    if x.references.outstanding name = 0 then none else some (.ofNat (x.references.made name))
  answer : x.answer = x.expected

section Steps

variable {x y : Trace}

/-- What `Remove` takes for the last reference. -/
theorem Inv.isLast (inv : Inv x) (name : String) :
    x.tracker.store name = some 1 ↔
      0 < x.references.outstanding name ∧ x.references.made name % 2 ^ 64 = 1 := by
  rw [inv.store]
  split
  next none => simp [none]
  next some =>
    simp only [Option.some.injEq, ← UInt64.toNat_inj, UInt64.toNat_ofNat']
    exact ⟨fun one => ⟨Nat.pos_of_ne_zero some, one⟩, fun both => both.2⟩

theorem Inv.add (inv : Inv x) {name : String} (stepped : step x (.add name) = some y) : Inv y := by
  obtain rfl := Option.some.inj stepped
  refine ⟨fun other => ?_, ?_⟩
  · simp only [StreamsTracker.store_add, References.add, Function.update_apply, inv.store]
    split
    · split <;> simp
    · rfl
  · simp only [StreamsTracker.add_isNew, References.add, StreamsTracker.has, inv.store]
    split <;> simp_all

theorem Inv.remove (inv : Inv x) {name : String} (only : OnlyOne x (.remove name))
    (stepped : step x (.remove name) = some y) : Inv y := by
  obtain rfl := Option.some.inj stepped
  have last : x.tracker.store name = some 1 ↔ x.references.outstanding name = 1 := by
    rw [inv.isLast]
    constructor
    · rintro ⟨there, one⟩
      exact (only there).mpr one
    · intro one
      have there : 0 < x.references.outstanding name := by omega
      exact ⟨there, (only there).mp one⟩
  refine ⟨fun other => ?_, ?_⟩
  · simp only [StreamsTracker.store_remove, last, References.remove, Function.update_apply]
    by_cases same : other = name
    · subst same
      by_cases one : x.references.outstanding other = 1
      · simp [one]
      · -- the count is not taken down, and more than one reference was outstanding
        rw [if_neg (fun both => one both.2), inv.store, if_pos rfl]
        have more : (x.references.outstanding other = 0) =
            (x.references.outstanding other - 1 = 0) := by
          rw [eq_iff_iff]
          omega
        simp only [more]
    · simp [same, inv.store]
  · rw [Bool.eq_iff_iff, StreamsTracker.remove_isLast, last]
    simp [References.remove]

theorem Inv.answers (inv : Inv x) : Answers x := by
  refine ⟨fun name => ?_, inv.answer⟩
  rw [StreamsTracker.has, inv.store, References.has]
  split
  next none => simp [none]
  next some => simp [Nat.pos_of_ne_zero some]

/-- Otherwise the tracker does not see the last reference go, or takes another one for it. -/
theorem onlyOne_of_answers (inv : Inv x) {c : Call} (stepped : step x c = some y)
    (answers : Answers y) : OnlyOne x c := by
  cases c with
  | add name => trivial
  | remove name =>
    intro there
    obtain rfl := Option.some.inj stepped
    have answer : (x.tracker.remove name).2 = (x.references.remove name).2 := answers.2
    rw [Bool.eq_iff_iff, StreamsTracker.remove_isLast, inv.isLast] at answer
    simp only [References.remove, beq_iff_eq, there, true_and] at answer
    exact answer.symm

end Steps

theorem inv_new : Inv {} where
  store name := by simp [StreamsTracker.new]
  answer := rfl

theorem answers_iff (calls : List Call) :
    Run.Always step Answers {} calls ↔ Run.Meets step OnlyOne {} calls := by
  have moves : ∀ x c, ∃ y, step x c = some y := by
    intro x c
    cases c <;> exact ⟨_, rfl⟩
  have keeps : ∀ x c y, Inv x → OnlyOne x c → step x c = some y → Inv y := by
    intro x c y inv only stepped
    cases c with
    | add name => exact inv.add stepped
    | remove name => exact inv.remove only stepped
  obtain ⟨final, ran⟩ := Run.exec_total moves {} calls
  exact Run.always_iff_meets keeps (fun _ _ _ inv stepped => onlyOne_of_answers inv stepped)
    (fun _ inv => inv.answers) inv_new ran

/-- Two references, both given back: the name stays and no `Remove` tells that it was the last. -/
theorem references_leak :
    ∃ first second, Run.exec step {} [.add "a", .add "a", .remove "a"] = some first ∧
      step first (.remove "a") = some second ∧ first.answer = false ∧
      second.answer = false ∧ second.expected = true ∧
      second.tracker.has "a" = true ∧ second.references.has "a" = false :=
  ⟨_, _, rfl, rfl, rfl, rfl, rfl, rfl, rfl⟩

/-- A name that has been added twice is not absent again, and no `Remove` is its last, before the
counter has gone through all its values. -/
theorem kept_until_wrap {x final : Trace} {name : String} {calls : List Call} {n : UInt64}
    (counted : x.tracker.store name = some n) (twice : 2 ≤ n.toNat)
    (room : n.toNat + calls.length < 2 ^ 64) (ran : Run.exec step x calls = some final) :
    final.tracker.has name = true ∧ (final.tracker.remove name).2 = false := by
  induction calls generalizing x n with
  | nil =>
    obtain rfl := Option.some.inj ran
    refine ⟨StreamsTracker.has_iff.mpr ⟨_, counted⟩, ?_⟩
    rw [Bool.eq_false_iff, ne_eq, StreamsTracker.remove_isLast, counted]
    intro one
    rw [Option.some.inj one] at twice
    exact absurd twice (by decide)
  | cons c calls ih =>
    obtain ⟨y, stepped, ran⟩ := Run.exec_cons_some ran
    rw [List.length_cons] at room
    cases c with
    | add other =>
      obtain rfl := Option.some.inj stepped
      by_cases same : name = other
      · subst same
        have more : (n + 1).toNat = n.toNat + 1 := by
          rw [UInt64.toNat_add, UInt64.toNat_one]
          exact Nat.mod_eq_of_lt (by omega)
        refine ih (n := n + 1) ?_ (by omega) (by omega) ran
        rw [StreamsTracker.store_add, if_pos rfl, counted]
        rfl
      · refine ih ?_ twice (by omega) ran
        rw [StreamsTracker.store_add, if_neg same, counted]
    | remove other =>
      obtain rfl := Option.some.inj stepped
      refine ih ?_ twice (by omega) ran
      rw [StreamsTracker.store_remove, if_neg, counted]
      rintro ⟨rfl, one⟩
      rw [counted] at one
      rw [Option.some.inj one] at twice
      exact absurd twice (by decide)

end AnyCable.Guarantees.ReferenceCounts
