import AnyCable.Lib.Run
import Mathlib.Data.List.Induction
import Mathlib.Data.List.Perm.Lattice
import Mathlib.Logic.Function.Basic

/-!
# Calls made of sections

A shared object is used by calls, and a call is one section after the other. Each section runs
alone, under a lock; between two sections of a call there may be any of other calls. A history is
what happens in order: a call is made, one of its sections runs, it returns.

A sequential order of the calls explains a history if it keeps to the time in which they were made
and returned (`Order`). Where every section but the last leaves the content of the object alone, and
the last has the effect of the whole call, the calls in the order of their last sections are such an
order, with the same outcome (`order_of_run`, `Refines.settled`).
-/

set_option autoImplicit false

namespace AnyCable.Lib.Sections

variable {σ Op Stage : Type}

/-- Where a call begins, and what its next section does: what is left of the call is `none` if that
was the last one. -/
structure Object (σ Op Stage : Type) where
  enter : Op → Stage
  run : Op → Stage → σ → σ × Option Stage

/-- Calls are numbered by whoever makes them. -/
inductive Event (Op : Type) where
  | invoke (call : Nat) (op : Op)
  | advance (call : Nat)
  | respond (call : Nat)
  deriving DecidableEq, Repr

structure State (σ Op Stage : Type) where
  shared : σ
  live : Nat → Option (Op × Stage) := fun _ => none
  /-- The calls whose last section has run, in that order. -/
  ended : List (Nat × Op) := []
  returned : List Nat := []

def step (object : Object σ Op Stage) (x : State σ Op Stage) : Event Op → Option (State σ Op Stage)
  | .invoke call op =>
    if (x.live call).isNone ∧ call ∉ x.ended.map Prod.fst then
      some { x with live := Function.update x.live call (some (op, object.enter op)) }
    else none
  | .advance call =>
    match x.live call with
    | none => none
    | some (op, stage) =>
      match object.run op stage x.shared with
      | (shared, some stage) =>
        some { x with shared, live := Function.update x.live call (some (op, stage)) }
      | (shared, none) =>
        some { x with shared, live := Function.update x.live call none,
                      ended := x.ended ++ [(call, op)] }
  | .respond call =>
    if call ∈ x.ended.map Prod.fst ∧ call ∉ x.returned then
      some { x with returned := x.returned ++ [call] }
    else none

def Event.call? : Event Op → Option (Nat × Op)
  | .invoke call op => some (call, op)
  | _ => none

/-- The calls made. -/
def calls (events : List (Event Op)) : List (Nat × Op) := events.filterMap Event.call?

/-- One call has returned before another is made. -/
def Precedes (events : List (Event Op)) (first second : Nat) : Prop :=
  ∃ before op after, events = before ++ .invoke second op :: after ∧ .respond first ∈ before

/-- A sequential order of the calls of a history. Calls that have not returned may be left out. -/
structure Order (events : List (Event Op)) (order : List (Nat × Op)) : Prop where
  distinct : ((calls events).map Prod.fst).Nodup
  made : ∀ c ∈ order, c ∈ calls events
  once : (order.map Prod.fst).Nodup
  complete : ∀ c ∈ calls events, .respond c.1 ∈ events → c ∈ order
  realTime : order.Pairwise fun a b => ¬ Precedes events b.1 a.1

theorem precedes_append {events : List (Event Op)} {e : Event Op} {first second : Nat}
    (precedes : Precedes (events ++ [e]) first second) :
    Precedes events first second ∨ ∃ op, e = .invoke second op := by
  obtain ⟨before, op, after, split, responded⟩ := precedes
  rcases List.eq_nil_or_concat after with rfl | ⟨rest, last, rfl⟩
  · obtain ⟨-, same⟩ := List.append_inj' split rfl
    exact Or.inr ⟨op, by simpa using same⟩
  · have split : events ++ [e] = (before ++ .invoke second op :: rest) ++ [last] := by
      simpa using split
    exact Or.inl ⟨before, op, rest, (List.append_inj' split rfl).1, responded⟩

theorem responded_of_precedes {events : List (Event Op)} {first second : Nat}
    (precedes : Precedes events first second) : .respond first ∈ events := by
  obtain ⟨before, op, after, rfl, responded⟩ := precedes
  exact List.mem_append_left _ responded

/-- What a step can do. -/
theorem step_cases {object : Object σ Op Stage} {x y : State σ Op Stage} {e : Event Op}
    (stepped : step object x e = some y) :
    (∃ call op, e = .invoke call op ∧ x.live call = none ∧ call ∉ x.ended.map Prod.fst ∧
      y = { x with live := Function.update x.live call (some (op, object.enter op)) }) ∨
    (∃ call op stage, e = .advance call ∧ x.live call = some (op, stage) ∧
      ((∃ next, (object.run op stage x.shared).2 = some next ∧
        y = { x with shared := (object.run op stage x.shared).1,
                     live := Function.update x.live call (some (op, next)) }) ∨
      ((object.run op stage x.shared).2 = none ∧
        y = { x with shared := (object.run op stage x.shared).1,
                     live := Function.update x.live call none,
                     ended := x.ended ++ [(call, op)] }))) ∨
    (∃ call, e = .respond call ∧ call ∈ x.ended.map Prod.fst ∧
      y = { x with returned := x.returned ++ [call] }) := by
  cases e with
  | invoke call op =>
    simp only [step] at stepped
    split at stepped
    next fresh =>
      exact Or.inl ⟨call, op, rfl, Option.isNone_iff_eq_none.mp fresh.1, fresh.2,
        (Option.some.inj stepped).symm⟩
    next => cases stepped
  | advance call =>
    refine Or.inr (Or.inl ?_)
    simp only [step] at stepped
    split at stepped
    next => cases stepped
    next op stage found =>
      refine ⟨call, op, stage, rfl, found, ?_⟩
      split at stepped
      next shared next ran =>
        refine Or.inl ⟨next, by rw [ran], ?_⟩
        rw [ran, (Option.some.inj stepped).symm]
      next shared ran =>
        refine Or.inr ⟨by rw [ran], ?_⟩
        rw [ran, (Option.some.inj stepped).symm]
  | respond call =>
    refine Or.inr (Or.inr ⟨call, rfl, ?_⟩)
    simp only [step] at stepped
    split at stepped
    next ended => exact ⟨ended.1, (Option.some.inj stepped).symm⟩
    next => cases stepped

/-! ### The order of the last sections -/

/-- What a history has made of the calls. -/
structure Tracked (events : List (Event Op)) (x : State σ Op Stage) : Prop where
  distinct : ((calls events).map Prod.fst).Nodup
  calls : ∀ c, c ∈ calls events ↔ (∃ stage, x.live c.1 = some (c.2, stage)) ∨ c ∈ x.ended
  apart : ∀ call ∈ x.ended.map Prod.fst, x.live call = none
  once : (x.ended.map Prod.fst).Nodup
  responded : ∀ call, .respond call ∈ events → call ∈ x.ended.map Prod.fst
  realTime : x.ended.Pairwise fun a b => ¬ Precedes events b.1 a.1

section Tracked

variable {events : List (Event Op)} {x y : State σ Op Stage}

theorem calls_append (events : List (Event Op)) (e : Event Op) :
    calls (events ++ [e]) = calls events ++ e.call?.toList := by
  unfold calls
  rw [List.filterMap_append]
  cases e <;> rfl

/-- An event that makes no call puts nothing before anything else. -/
theorem Tracked.pairwise (tracked : Tracked events x) {e : Event Op} (quiet : e.call? = none) :
    x.ended.Pairwise fun a b => ¬ Precedes (events ++ [e]) b.1 a.1 := by
  refine tracked.realTime.imp fun {a b} free precedes => ?_
  rcases precedes_append precedes with before | ⟨op, rfl⟩
  · exact free before
  · cases quiet

theorem Tracked.distinct_append (tracked : Tracked events x) {e : Event Op}
    (quiet : e.call? = none) : ((Sections.calls (events ++ [e])).map Prod.fst).Nodup := by
  rw [calls_append, quiet, Option.toList_none, List.append_nil]
  exact tracked.distinct

theorem Tracked.invoke (tracked : Tracked events x) {call : Nat} {op : Op} {stage : Stage}
    (free : x.live call = none) (fresh : call ∉ x.ended.map Prod.fst) :
    Tracked (events ++ [.invoke call op])
      { x with live := Function.update x.live call (some (op, stage)) } where
  distinct := by
    rw [calls_append, List.map_append, List.nodup_append]
    refine ⟨tracked.distinct, by simp [Event.call?], ?_⟩
    rintro id used _ own rfl
    obtain rfl : id = call := by simpa [Event.call?] using own
    obtain ⟨⟨_, op'⟩, made, rfl⟩ := List.mem_map.mp used
    rcases (tracked.calls _).mp made with ⟨stage, live⟩ | ended
    · rw [free] at live
      cases live
    · exact fresh (List.mem_map_of_mem ended)
  calls := by
    intro c
    rw [calls_append, List.mem_append, tracked.calls c]
    by_cases same : c.1 = call
    · obtain ⟨id, own⟩ := c
      subst same
      have absent : (id, own) ∉ x.ended := fun ended => fresh (List.mem_map_of_mem ended)
      simp [Event.call?, free, absent, eq_comm]
    · have other : c ≠ (call, op) := fun equal => same (by rw [equal])
      simp [Event.call?, Function.update_of_ne same, other]
  apart := by
    intro id ended
    have other : id ≠ call := by
      rintro rfl
      exact fresh ended
    exact (Function.update_of_ne other _ _).trans (tracked.apart id ended)
  once := tracked.once
  responded := by
    intro id responded
    exact tracked.responded id (by simpa using responded)
  realTime := by
    refine tracked.realTime.imp_of_mem fun {a b} here _ free precedes => ?_
    rcases precedes_append precedes with before | ⟨op', same⟩
    · exact free before
    · -- the call that is made now is none of those that have ended
      cases same
      exact fresh (List.mem_map_of_mem here)

theorem Tracked.proceed (tracked : Tracked events x) {call : Nat} {op : Op} {stage next : Stage}
    {shared : σ} (found : x.live call = some (op, stage)) :
    Tracked (events ++ [.advance call])
      { x with shared, live := Function.update x.live call (some (op, next)) } where
  distinct := tracked.distinct_append rfl
  calls := by
    intro c
    rw [calls_append, List.mem_append, tracked.calls c]
    by_cases same : c.1 = call
    · subst same
      simp [Event.call?, found]
    · simp [Event.call?, Function.update_of_ne same]
  apart := by
    intro id ended
    have other : id ≠ call := by
      rintro rfl
      rw [tracked.apart id ended] at found
      cases found
    exact (Function.update_of_ne other _ _).trans (tracked.apart id ended)
  once := tracked.once
  responded := by
    intro id responded
    exact tracked.responded id (by simpa using responded)
  realTime := tracked.pairwise rfl

theorem Tracked.finish (tracked : Tracked events x) {call : Nat} {op : Op} {stage : Stage}
    {shared : σ} (found : x.live call = some (op, stage)) :
    Tracked (events ++ [.advance call])
      { x with shared, live := Function.update x.live call none,
               ended := x.ended ++ [(call, op)] } := by
  have absent : call ∉ x.ended.map Prod.fst := by
    intro ended
    rw [tracked.apart call ended] at found
    cases found
  have silent : Event.respond call ∉ events := fun responded =>
    absent (tracked.responded call responded)
  exact
    { distinct := tracked.distinct_append rfl
      calls := by
        intro c
        rw [calls_append, List.mem_append, tracked.calls c]
        by_cases same : c.1 = call
        · obtain ⟨id, own⟩ := c
          subst same
          simp [Event.call?, found, eq_comm, or_comm]
        · have other : c ≠ (call, op) := fun equal => same (by rw [equal])
          simp [Event.call?, Function.update_of_ne same, other]
      apart := by
        intro id ended
        by_cases same : id = call
        · subst same
          exact Function.update_self _ _ _
        · have before : id ∈ x.ended.map Prod.fst := by simpa [same] using ended
          exact (Function.update_of_ne same _ _).trans (tracked.apart id before)
      once := by
        rw [List.map_append, List.nodup_append]
        refine ⟨tracked.once, by simp, ?_⟩
        rintro id ended _ own rfl
        exact absent (by simpa [show id = call by simpa using own] using ended)
      responded := by
        intro id responded
        have before : id ∈ x.ended.map Prod.fst :=
          tracked.responded id (by simpa using responded)
        rw [List.map_append]
        exact List.mem_append_left _ before
      realTime := by
        rw [List.pairwise_append]
        refine ⟨tracked.pairwise rfl, List.pairwise_singleton _ _, ?_⟩
        -- the call has not returned, so it precedes none of the others
        rintro a - b own precedes
        obtain rfl : b = (call, op) := by simpa using own
        rcases precedes_append precedes with before | ⟨op', same⟩
        · exact silent (responded_of_precedes before)
        · cases same }

theorem Tracked.respond (tracked : Tracked events x) {call : Nat}
    (ended : call ∈ x.ended.map Prod.fst) :
    Tracked (events ++ [.respond call]) { x with returned := x.returned ++ [call] } where
  distinct := tracked.distinct_append rfl
  calls := by
    intro c
    rw [calls_append, List.mem_append, tracked.calls c]
    simp [Event.call?]
  apart := tracked.apart
  once := tracked.once
  responded := by
    intro id responded
    rcases List.mem_append.mp responded with before | now
    · exact tracked.responded id before
    · obtain rfl : id = call := by simpa using now
      exact ended
  realTime := tracked.pairwise rfl

theorem Tracked.step {object : Object σ Op Stage} (tracked : Tracked events x) {e : Event Op}
    (stepped : step object x e = some y) : Tracked (events ++ [e]) y := by
  rcases step_cases stepped with ⟨call, op, rfl, free, fresh, rfl⟩ |
    ⟨call, op, stage, rfl, found, ⟨next, -, rfl⟩ | ⟨-, rfl⟩⟩ | ⟨call, rfl, ended, rfl⟩
  · exact tracked.invoke free fresh
  · exact tracked.proceed found
  · exact tracked.finish found
  · exact tracked.respond ended

theorem tracked_start (shared : σ) : Tracked ([] : List (Event Op)) ({ shared } : State σ Op Stage)
    where
  distinct := List.nodup_nil
  calls := by simp [Sections.calls]
  apart := by simp
  once := by simp
  responded := by simp
  realTime := List.Pairwise.nil

theorem Tracked.run {object : Object σ Op Stage} {more : List (Event Op)}
    (tracked : Tracked events x) (ran : Run.exec (Sections.step object) x more = some y) :
    Tracked (events ++ more) y := by
  induction more generalizing events x with
  | nil =>
    cases ran
    rwa [List.append_nil]
  | cons e more ih =>
    obtain ⟨next, stepped, ran⟩ := Run.exec_cons_some ran
    have tracked := ih (tracked.step stepped) ran
    rwa [List.append_assoc] at tracked

theorem Tracked.order (tracked : Tracked events x) : Order events x.ended where
  distinct := tracked.distinct
  made := fun c ended => (tracked.calls c).mpr (Or.inr ended)
  once := tracked.once
  complete := by
    intro c made responded
    have ended := tracked.responded c.1 responded
    rcases (tracked.calls c).mp made with ⟨stage, live⟩ | ended
    · rw [tracked.apart c.1 ended] at live
      cases live
    · exact ended
  realTime := tracked.realTime

end Tracked

/-- Once all calls have returned, an order is one of all of them. -/
theorem Order.perm {events : List (Event Op)} {order : List (Nat × Op)} (ordered : Order events order)
    (all : ∀ c ∈ calls events, .respond c.1 ∈ events) : order.Perm (calls events) := by
  rw [List.perm_ext_iff_of_nodup ordered.once.of_map ordered.distinct.of_map]
  intro c
  exact ⟨ordered.made c, fun made => ordered.complete c made (all c made)⟩

/-! ### The outcome -/

/-- Every section but the last of a call leaves the content alone; the last has the effect of the
call. -/
structure Refines {A : Type} (object : Object σ Op Stage) (content : σ → A) (effect : Op → A → A)
    (Ok : σ → Prop) : Prop where
  keeps : ∀ op stage s, Ok s → Ok (object.run op stage s).1
  quiet : ∀ op stage s next, Ok s → (object.run op stage s).2 = some next →
    content (object.run op stage s).1 = content s
  takesEffect : ∀ op stage s, Ok s → (object.run op stage s).2 = none →
    content (object.run op stage s).1 = effect op (content s)

section Refines

variable {A : Type} {object : Object σ Op Stage} {content : σ → A} {effect : Op → A → A}
  {Ok : σ → Prop} {events : List (Event Op)} {shared : σ} {x : State σ Op Stage}

/-- The content is that of the calls whose last section has run. -/
structure Settled (content : σ → A) (effect : Op → A → A) (Ok : σ → Prop) (start : A)
    (x : State σ Op Stage) : Prop where
  ok : Ok x.shared
  content : content x.shared = x.ended.foldl (fun a c => effect c.2 a) start

theorem Refines.settled (refines : Refines object content effect Ok) (ok : Ok shared)
    (ran : Run.exec (step object) { shared } events = some x) :
    Settled content effect Ok (content shared) x := by
  refine Run.invariant (fun s e next settled stepped => ?_) ⟨ok, rfl⟩ ran
  rcases step_cases stepped with ⟨call, op, rfl, -, -, rfl⟩ |
    ⟨call, op, stage, rfl, -, ⟨more, left, rfl⟩ | ⟨last, rfl⟩⟩ | ⟨call, rfl, -, rfl⟩
  · exact ⟨settled.ok, settled.content⟩
  · exact ⟨refines.keeps op stage _ settled.ok,
      (refines.quiet op stage _ more settled.ok left).trans settled.content⟩
  · refine ⟨refines.keeps op stage _ settled.ok, ?_⟩
    rw [List.foldl_append, ← settled.content]
    exact refines.takesEffect op stage _ settled.ok last
  · exact ⟨settled.ok, settled.content⟩

end Refines

/-- The calls in the order of their last sections. -/
theorem order_of_run {object : Object σ Op Stage} {events : List (Event Op)} {shared : σ}
    {x : State σ Op Stage} (ran : Run.exec (step object) { shared } events = some x) :
    Order events x.ended :=
  ((tracked_start shared).run ran).order

end AnyCable.Lib.Sections
