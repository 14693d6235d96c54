import Mathlib.Data.Option.Basic

/-!
# Schedules of a partial step function

A machine is a partial function `step : σ → α → Option σ`; `none` says that the
label is not enabled in that state. A schedule is a list of labels and `exec`
runs it. Concurrent parties are interleaved by the order of their labels, so a
statement about every schedule is a statement about every interleaving.

`Meets` restricts a schedule by a condition on each label and the state the
label is taken from. Every prefix of such a schedule is again one, hence a fact
proved about the state `exec` ends in holds in every state passed on the way.
`Always` says so of a whole schedule; where a label that breaks the condition also
breaks the fact, the two are equivalent (`always_iff_meets`).

`Inevitably` is about what comes: the labels of one party lead to a goal, however
the party's environment chooses among them.
-/

set_option autoImplicit false

namespace AnyCable.Lib.Run

variable {σ α : Type}

/-- Run the labels of a schedule in order. -/
def exec (step : σ → α → Option σ) : σ → List α → Option σ
  | s, [] => some s
  | s, a :: rest => (step s a).bind fun next => exec step next rest

/-- Every label meets `ok` in the state it is taken from. -/
def Meets (step : σ → α → Option σ) (ok : σ → α → Prop) : σ → List α → Prop
  | _, [] => True
  | s, a :: rest => ok s a ∧ ∀ next ∈ step s a, Meets step ok next rest

instance decidableMeets (step : σ → α → Option σ) (ok : σ → α → Prop)
    [∀ s a, Decidable (ok s a)] : ∀ s schedule, Decidable (Meets step ok s schedule)
  | _, [] => isTrue trivial
  | s, a :: rest =>
    have : ∀ next, Decidable (Meets step ok next rest) :=
      fun next => decidableMeets step ok next rest
    inferInstanceAs (Decidable (ok s a ∧ ∀ next ∈ step s a, Meets step ok next rest))

/-- Every state that the schedule passes through has the property. -/
def Always (step : σ → α → Option σ) (P : σ → Prop) : σ → List α → Prop
  | s, [] => P s
  | s, a :: rest => P s ∧ ∀ next ∈ step s a, Always step P next rest

instance decidableAlways (step : σ → α → Option σ) (P : σ → Prop) [∀ s, Decidable (P s)] :
    ∀ s schedule, Decidable (Always step P s schedule)
  | s, [] => inferInstanceAs (Decidable (P s))
  | s, a :: rest =>
    have : ∀ next, Decidable (Always step P next rest) :=
      fun next => decidableAlways step P next rest
    inferInstanceAs (Decidable (P s ∧ ∀ next ∈ step s a, Always step P next rest))

variable {step : σ → α → Option σ} {ok : σ → α → Prop}

theorem exec_cons_some {s final : σ} {a : α} {rest : List α}
    (ran : exec step s (a :: rest) = some final) :
    ∃ next, step s a = some next ∧ exec step next rest = some final := by
  simpa only [exec, Option.bind_eq_some_iff] using ran

theorem exec_append (s : σ) (first second : List α) :
    exec step s (first ++ second) =
      (exec step s first).bind fun middle => exec step middle second := by
  induction first generalizing s with
  | nil => rfl
  | cons a rest ih =>
    simp only [List.cons_append, exec]
    cases step s a with
    | none => rfl
    | some next => exact ih next

/-- A condition that the labels meet in every state. -/
theorem meets_of_forall {schedule : List α} (all : ∀ a ∈ schedule, ∀ s, ok s a) (s : σ) :
    Meets step ok s schedule := by
  induction schedule generalizing s with
  | nil => trivial
  | cons a rest ih =>
    refine ⟨all a (by simp) s, fun next _ => ih (fun b member => all b (by simp [member])) next⟩

/-- A condition on the labels alone, in a schedule that runs to its end. -/
theorem meets_label_iff {P : α → Prop} {schedule : List α} {s final : σ}
    (ran : exec step s schedule = some final) :
    Meets step (fun _ a => P a) s schedule ↔ ∀ a ∈ schedule, P a := by
  induction schedule generalizing s with
  | nil => simp [Meets]
  | cons a rest ih =>
    obtain ⟨next, stepped, ran⟩ := exec_cons_some ran
    simp only [Meets, stepped, Option.mem_def, Option.some.injEq, forall_eq', ih ran,
      List.forall_mem_cons]

theorem Meets.imp {other : σ → α → Prop} (weaker : ∀ s a, ok s a → other s a)
    {schedule : List α} {s : σ} (met : Meets step ok s schedule) :
    Meets step other s schedule := by
  induction schedule generalizing s with
  | nil => trivial
  | cons a rest ih => exact ⟨weaker s a met.1, fun next stepped => ih (met.2 next stepped)⟩

/-- Add a condition on the labels alone. -/
theorem Meets.and_forall {P : α → Prop} {schedule : List α} {s : σ}
    (met : Meets step ok s schedule) (all : ∀ a ∈ schedule, P a) :
    Meets step (fun s a => ok s a ∧ P a) s schedule := by
  induction schedule generalizing s with
  | nil => trivial
  | cons a rest ih =>
    exact ⟨⟨met.1, all a (by simp)⟩,
      fun next stepped => ih (met.2 next stepped) fun b member => all b (by simp [member])⟩

/-- The invariant rule under a condition on the labels. -/
theorem invariant_of_meets {Inv : σ → Prop}
    (keeps : ∀ s a next, Inv s → ok s a → step s a = some next → Inv next)
    {schedule : List α} {s final : σ} (start : Inv s) (met : Meets step ok s schedule)
    (ran : exec step s schedule = some final) : Inv final := by
  induction schedule generalizing s with
  | nil =>
    cases ran
    exact start
  | cons a rest ih =>
    obtain ⟨next, stepped, ran⟩ := exec_cons_some ran
    exact ih (keeps s a next start met.1 stepped) (met.2 next stepped) ran

/-- The invariant rule over all schedules. -/
theorem invariant {Inv : σ → Prop}
    (keeps : ∀ s a next, Inv s → step s a = some next → Inv next)
    {schedule : List α} {s final : σ} (start : Inv s)
    (ran : exec step s schedule = some final) : Inv final :=
  invariant_of_meets (fun s a next inv _ stepped => keeps s a next inv stepped) start
    (meets_of_forall (fun _ _ _ => trivial) s) ran

theorem Always.here {P : σ → Prop} {s : σ} {schedule : List α}
    (always : Always step P s schedule) : P s := by
  cases schedule with
  | nil => exact always
  | cons a rest => exact always.1

/-- What follows from an invariant holds all the way. -/
theorem always_of_invariant {Inv P : σ → Prop}
    (keeps : ∀ s a next, Inv s → step s a = some next → Inv next) (gives : ∀ s, Inv s → P s)
    {s : σ} (start : Inv s) (schedule : List α) : Always step P s schedule := by
  induction schedule generalizing s with
  | nil => exact gives s start
  | cons a rest ih =>
    exact ⟨gives s start, fun next stepped => ih (keeps s a next start stepped)⟩

/-- The same under a condition on the labels. -/
theorem always_of_meets {Inv P : σ → Prop}
    (keeps : ∀ s a next, Inv s → ok s a → step s a = some next → Inv next)
    (gives : ∀ s, Inv s → P s) {schedule : List α} {s : σ} (start : Inv s)
    (met : Meets step ok s schedule) : Always step P s schedule := by
  induction schedule generalizing s with
  | nil => exact gives s start
  | cons a rest ih =>
    refine ⟨gives s start, fun next stepped => ?_⟩
    exact ih (keeps s a next start met.1 stepped) (met.2 next stepped)

/-- The invariant rule where the states passed are known to have a property. -/
theorem invariant_of_always {Inv P : σ → Prop}
    (keeps : ∀ s a next, Inv s → P s → step s a = some next → Inv next)
    {schedule : List α} {s final : σ} (start : Inv s) (always : Always step P s schedule)
    (ran : exec step s schedule = some final) : Inv final := by
  induction schedule generalizing s with
  | nil =>
    cases ran
    exact start
  | cons a rest ih =>
    obtain ⟨next, stepped, ran⟩ := exec_cons_some ran
    exact ih (keeps s a next start always.1 stepped) (always.2 next stepped) ran

/-- A machine that takes every label takes every schedule. -/
theorem exec_total (moves : ∀ s a, ∃ next, step s a = some next) (s : σ) (schedule : List α) :
    ∃ final, exec step s schedule = some final := by
  induction schedule generalizing s with
  | nil => exact ⟨s, rfl⟩
  | cons a rest ih =>
    obtain ⟨next, stepped⟩ := moves s a
    obtain ⟨final, ran⟩ := ih next
    exact ⟨final, by simp [exec, stepped, ran]⟩

/-- A machine that takes every label which meets the condition takes every such schedule. -/
theorem exec_of_meets {Inv P : σ → Prop}
    (moves : ∀ s a, Inv s → ok s a → ∃ next, step s a = some next ∧ Inv next)
    (gives : ∀ s, Inv s → P s) {schedule : List α} {s : σ} (start : Inv s)
    (met : Meets step ok s schedule) :
    (∃ final, exec step s schedule = some final) ∧ Always step P s schedule := by
  induction schedule generalizing s with
  | nil => exact ⟨⟨s, rfl⟩, gives s start⟩
  | cons a rest ih =>
    obtain ⟨next, stepped, inv⟩ := moves s a start met.1
    obtain ⟨⟨final, ran⟩, always⟩ := ih inv (met.2 next stepped)
    refine ⟨⟨final, by simp [exec, stepped, ran]⟩, gives s start, fun other same => ?_⟩
    rw [stepped] at same
    cases same
    exact always

/-- A condition that keeps up `Inv` and whose failure shows at once, in schedules that meet another
condition anyway. -/
theorem always_iff_meets_within {Inv P : σ → Prop} {side : σ → α → Prop}
    (keeps : ∀ s a next, Inv s → side s a → ok s a → step s a = some next → Inv next)
    (shows : ∀ s a next, Inv s → side s a → step s a = some next → P next → ok s a)
    (gives : ∀ s, Inv s → P s) {s final : σ} {schedule : List α} (start : Inv s)
    (within : Meets step side s schedule) (ran : exec step s schedule = some final) :
    Always step P s schedule ↔ Meets step ok s schedule := by
  induction schedule generalizing s with
  | nil => exact ⟨fun _ => trivial, fun _ => gives s start⟩
  | cons a rest ih =>
    obtain ⟨next, stepped, ran⟩ := exec_cons_some ran
    obtain ⟨here, further⟩ := within
    have later : ok s a → (Always step P next rest ↔ Meets step ok next rest) :=
      fun met => ih (keeps s a next start here met stepped) (further next stepped) ran
    simp only [Always, Meets, stepped, Option.mem_def, Option.some.injEq, forall_eq']
    constructor
    · rintro ⟨-, always⟩
      have met := shows s a next start here stepped always.here
      exact ⟨met, (later met).mp always⟩
    · rintro ⟨met, meets⟩
      exact ⟨gives s start, (later met).mpr meets⟩

/-- The same for all schedules. -/
theorem always_iff_meets {Inv P : σ → Prop}
    (keeps : ∀ s a next, Inv s → ok s a → step s a = some next → Inv next)
    (shows : ∀ s a next, Inv s → step s a = some next → P next → ok s a)
    (gives : ∀ s, Inv s → P s) {s final : σ} {schedule : List α} (start : Inv s)
    (ran : exec step s schedule = some final) :
    Always step P s schedule ↔ Meets step ok s schedule :=
  always_iff_meets_within (fun s a next inv _ met stepped => keeps s a next inv met stepped)
    (fun s a next inv _ stepped P => shows s a next inv stepped P) gives start
    (meets_of_forall (fun _ _ _ => trivial) s) ran

/-- Whatever labels out of `may` are taken, one is enabled until a state of `goal` is reached, and
one is reached. -/
inductive Inevitably (step : σ → α → Option σ) (may : α → Prop) (goal : σ → Prop) : σ → Prop
  | now {s : σ} (reached : goal s) : Inevitably step may goal s
  | later {s : σ} (enabled : ∃ a next, may a ∧ step s a = some next)
      (all : ∀ a next, may a → step s a = some next → Inevitably step may goal next) :
      Inevitably step may goal s

section Inevitably

variable {may : α → Prop} {goal : σ → Prop} {s : σ}

theorem not_inevitably_of_stuck (pending : ¬ goal s) (stuck : ∀ a, may a → step s a = none) :
    ¬ Inevitably step may goal s := by
  intro inevitable
  cases inevitable with
  | now reached => exact pending reached
  | later enabled _ =>
    obtain ⟨a, next, allowed, stepped⟩ := enabled
    rw [stuck a allowed] at stepped
    cases stepped

theorem Inevitably.next (inevitable : Inevitably step may goal s) (pending : ¬ goal s) {a : α}
    {next : σ} (allowed : may a) (stepped : step s a = some next) :
    Inevitably step may goal next := by
  cases inevitable with
  | now reached => exact absurd reached pending
  | later _ all => exact all a next allowed stepped

/-- A number that falls with every label, in states where one is enabled. -/
theorem inevitably_of_falling {Inv : σ → Prop} (left : σ → Nat)
    (enabled : ∀ s, Inv s → ¬ goal s → ∃ a next, may a ∧ step s a = some next)
    (falls : ∀ s a next, Inv s → may a → step s a = some next → Inv next ∧ left next < left s)
    (start : Inv s) : Inevitably step may goal s := by
  induction bound : left s using Nat.strongRecOn generalizing s with
  | ind n ih =>
    by_cases reached : goal s
    · exact .now reached
    · refine .later (enabled s start reached) fun a next allowed stepped => ?_
      obtain ⟨inv, less⟩ := falls s a next start allowed stepped
      exact ih (left next) (by omega) inv rfl

end Inevitably

/-- Two machines that take the same labels step by step take the same schedules. -/
theorem exec_rel {τ : Type} {other : τ → α → Option τ} {R : σ → τ → Prop}
    (simulates : ∀ s t a, R s t → Option.Rel R (step s a) (other t a))
    {schedule : List α} {s : σ} {t : τ} (start : R s t) :
    Option.Rel R (exec step s schedule) (exec other t schedule) := by
  induction schedule generalizing s t with
  | nil => exact .some start
  | cons a rest ih =>
    have one := simulates s t a start
    unfold exec
    generalize step s a = left at one ⊢
    generalize other t a = right at one ⊢
    cases one with
    | none => exact .none
    | some related => exact ih related

end AnyCable.Lib.Run
