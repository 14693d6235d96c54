import AnyCable.Lib.Run
import AnyCable.Source.History

/-!
# A stream's record outlives its entries

Entries are cut when they are older than `HistoryTTL`; the record itself leaves the map when its
deadline has passed, which every append moves ten times that far ahead
(`broker/memory.go:80-126,625-644`). The distance is computed in nanoseconds, in an `int64`: from
922337204 seconds on it wraps around, and is too short for most times to live. Records outlive their
entries in every run if and only if `HistoryTTL` is in one of the five ranges of
`Memstream.lastingRanges` (`outlive_iff_lasting`).

With a limit below 1 no entry can be added at all.
-/

set_option autoImplicit false

namespace AnyCable.Guarantees.RecordLifetime
open AnyCable.Lib AnyCable.Source AnyCable.Source.Memstream

structure State where
  history : History
  clock : Instant := 0
  /-- When entries were added to a stream, since the broker was started. -/
  added : String → List Instant := fun _ => []

inductive Act where
  | add (name data : String) (now : Instant)
  | expire (now : Instant)

def step (x : State) : Act → Option State
  | .add name data now =>
    if x.clock ≤ now then
      (x.history.add name data now).map fun r =>
        { history := r.1, clock := now
          added := Function.update x.added name (x.added name ++ [now]) }
    else none
  | .expire now =>
    if x.clock ≤ now then some { x with history := x.history.expire now, clock := now } else none

def start (config : Config) (epoch : String) : State := { history := .new config epoch }

/-- No deadline is earlier than the end of an entry's time to live. -/
def DeadlineDue (ttl : Int64) (x : State) : Prop :=
  ∀ name r, x.history.streams name = some r → ∀ t ∈ x.added name,
    unix t + ttl.toInt ≤ (x.history.records name r).deadline

/-- Whenever `expire` is called next, it deletes a stream only if all that was ever added to it is
older than the time to live. -/
def DeletesPast (ttl : Int64) (x : State) : Prop :=
  ∀ now, x.clock ≤ now → ∀ name, x.history.streams name ≠ none →
    (x.history.expire now).streams name = none → ∀ t ∈ x.added name,
      unix t + ttl.toInt < unix now

/-- An expiry deletes the streams whose deadline has passed. -/
theorem deleted_iff {b : History} {now : Instant} {name : String} {r : Nat}
    (mapped : b.streams name = some r) :
    (b.expire now).streams name = none ↔ (b.records name r).deadline < unix now := by
  rw [← Int.not_le, ← not_iff_not, not_not, ← Ne, Option.ne_none_iff_exists']
  simp only [History.expire_streams, mapped, Option.some.injEq]
  constructor
  · rintro ⟨r', rfl, early⟩
    exact early
  · intro early
    exact ⟨r, rfl, early⟩

theorem DeadlineDue.deletesPast {ttl : Int64} {x : State} (due : DeadlineDue ttl x) :
    DeletesPast ttl x := by
  intro now _ name mapped deleted t member
  obtain ⟨r, mapped⟩ := Option.ne_none_iff_exists'.mp mapped
  exact Int.lt_of_le_of_lt (due name r mapped t member) ((deleted_iff mapped).mp deleted)

/-! ### The deadline of an append -/

/-- An `add` fails if its record is empty and has no room. -/
theorem add_eq_none_iff {b : History} {name data : String} {now : Instant} :
    b.add name data now = none ↔
      ((b.lookup name).1.records name (b.lookup name).2).limit < 1 ∧
      ((b.lookup name).1.records name (b.lookup name).2).data = [] := by
  simp only [History.add, History.appendTo, Memstream.add, Option.bind_eq_bind, pure,
    Option.bind_eq_none_iff, reduceCtorEq, imp_false, Option.bind_assoc, Option.bind_some,
    ← Option.eq_none_iff_forall_ne_some, Memstream.appendEntry_eq_none_iff]

/-- A stream that is not in the map gets an empty record. -/
theorem lookup_fresh {b : History} {name : String} (absent : b.streams name = none) :
    (b.lookup name).1.records name (b.lookup name).2 = History.newRecord b.config := by
  rcases History.lookup_cases b name with ⟨r, mapped, -⟩ | ⟨-, eq⟩
  · rw [absent] at mapped
    cases mapped
  · rw [eq]
    exact History.setRecord_same b name _ _

/-- What an `add` leaves: the mapped record of its stream with a new deadline, and every other
stream as it was. -/
theorem add_spec {b after : History} {name data : String} {now : Instant} {offset : Nat}
    (records : ∀ st r, b.streams st = some r → (b.records st r).ttl = b.config.historyTTL)
    (ran : b.add name data now = some (after, offset)) :
    after.config = b.config ∧
    (∃ r, after.streams name = some r ∧ (after.records name r).ttl = b.config.historyTTL ∧
      (after.records name r).deadline =
        unix (now + Memstream.keepAlive b.config.historyTTL)) ∧
    ∀ st, st ≠ name → after.streams st = b.streams st ∧
      ∀ r, after.records st r = b.records st r := by
  have second : (b.lookup name).1.appendTo name (b.lookup name).2 data now =
      some (after, offset) := ran
  obtain ⟨-, ms, appended, rfl⟩ := History.appendTo_eq_some second
  obtain ⟨-, -, ttl, -, deadline, -⟩ := Memstream.appendEntry_spec appended
  have others : ∀ st, st ≠ name →
      ((b.lookup name).1.setRecord name (b.lookup name).2 ms).streams st = b.streams st ∧
      ∀ r, ((b.lookup name).1.setRecord name (b.lookup name).2 ms).records st r =
        b.records st r := by
    intro st other
    obtain ⟨streams, -, same⟩ := History.lookup_frame b other
    refine ⟨streams, fun r => ?_⟩
    rw [History.setRecord_other _ _ (Or.inl other), same]
  -- the record is the mapped one or a new one; either has the time to live of the broker
  have own : (b.lookup name).1.config = b.config ∧
      (b.lookup name).1.streams name = some (b.lookup name).2 ∧
      ((b.lookup name).1.records name (b.lookup name).2).ttl = b.config.historyTTL := by
    rcases History.lookup_cases b name with ⟨r, mapped, eq⟩ | ⟨-, eq⟩
    · rw [eq]
      exact ⟨rfl, mapped, records name r mapped⟩
    · rw [eq]
      refine ⟨rfl, Function.update_self _ _ _, ?_⟩
      exact congrArg Memstream.ttl (History.setRecord_same b name _ _)
  refine ⟨own.1, ⟨(b.lookup name).2, own.2.1, ?_, ?_⟩, others⟩
  · rw [History.setRecord_same, ttl, own.2.2]
  · rw [History.setRecord_same, deadline, own.2.2]

/-! ### Runs -/

structure Inv (config : Config) (x : State) : Prop where
  fixed : x.history.config = config
  ttl : ∀ name r, x.history.streams name = some r →
    (x.history.records name r).ttl = config.historyTTL
  past : ∀ name, ∀ t ∈ x.added name, t ≤ x.clock
  deadline : DeadlineDue config.historyTTL x

section Steps

variable {config : Config} {x y : State}

theorem inv_start (config : Config) (epoch : String) : Inv config (start config epoch) where
  fixed := rfl
  ttl := by simp [start, History.new]
  past := by simp [start]
  deadline := by simp [DeadlineDue, start]

/-- What is added at `now` to entries that are not newer. -/
theorem past_append (name : String) {now : Instant} (past : ∀ st, ∀ t ∈ x.added st, t ≤ x.clock)
    (later : x.clock ≤ now) :
    ∀ st, ∀ t ∈ Function.update x.added name (x.added name ++ [now]) st, t ≤ now := by
  intro st t member
  by_cases same : st = name
  · subst same
    rw [Function.update_self, List.mem_append, List.mem_singleton] at member
    rcases member with old | rfl
    · exact Int.le_trans (past st t old) later
    · exact Int.le_refl t
  · rw [Function.update_of_ne same] at member
    exact Int.le_trans (past st t member) later

theorem Inv.add (lasting : Lasting config.historyTTL) (inv : Inv config x) {name data : String}
    {now : Instant} (later : x.clock ≤ now) {after : History} {offset : Nat}
    (ran : x.history.add name data now = some (after, offset)) :
    Inv config { history := after, clock := now,
                 added := Function.update x.added name (x.added name ++ [now]) } := by
  obtain ⟨kept, ⟨r, mapped, ttl, deadline⟩, others⟩ :=
    add_spec (fun st r mapped => (inv.ttl st r mapped).trans (by rw [inv.fixed])) ran
  have past := past_append name inv.past later
  refine ⟨kept.trans inv.fixed, ?_, past, ?_⟩
  · intro st r' found
    by_cases same : st = name
    · subst same
      cases mapped.symm.trans found
      exact ttl.trans (by rw [inv.fixed])
    · obtain ⟨streams, records⟩ := others st same
      rw [records]
      exact inv.ttl st r' (streams.symm.trans found)
  · intro st r' found t member
    by_cases same : st = name
    · -- every entry of the stream is at most as new as the one that sets the deadline
      subst same
      cases mapped.symm.trans found
      rw [deadline, inv.fixed]
      have before := unix_mono (past st t member)
      have ahead := le_deadline lasting now
      omega
    · obtain ⟨streams, records⟩ := others st same
      have before : t ∈ x.added st := by simpa [same] using member
      rw [records]
      exact inv.deadline st r' (streams.symm.trans found) t before

theorem Inv.expire (inv : Inv config x) {now : Instant} (later : x.clock ≤ now) :
    Inv config { x with history := x.history.expire now, clock := now } where
  fixed := inv.fixed
  ttl := by
    intro name r mapped
    have before := (History.expire_streams.mp mapped).1
    simp only [History.expire, before, if_true, Memstream.expire]
    exact inv.ttl name r before
  past := fun name t member => Int.le_trans (inv.past name t member) later
  deadline := by
    intro name r mapped t member
    have before := (History.expire_streams.mp mapped).1
    simp only [History.expire, before, if_true, Memstream.expire]
    exact inv.deadline name r before t member

theorem step_cases {a : Act} (stepped : step x a = some y) :
    (∃ name data now after offset, a = .add name data now ∧ x.clock ≤ now ∧
      x.history.add name data now = some (after, offset) ∧
      y = { history := after, clock := now,
            added := Function.update x.added name (x.added name ++ [now]) }) ∨
    (∃ now, a = .expire now ∧ x.clock ≤ now ∧
      y = { x with history := x.history.expire now, clock := now }) := by
  cases a with
  | add name data now =>
    simp only [step] at stepped
    split at stepped
    next later =>
      obtain ⟨⟨after, offset⟩, ran, rfl⟩ := Option.map_eq_some_iff.mp stepped
      exact Or.inl ⟨name, data, now, after, offset, rfl, later, ran, rfl⟩
    next => cases stepped
  | expire now =>
    simp only [step] at stepped
    split at stepped
    next later => exact Or.inr ⟨now, rfl, later, (Option.some.inj stepped).symm⟩
    next => cases stepped

theorem Inv.step {a : Act} (lasting : Lasting config.historyTTL) (inv : Inv config x)
    (stepped : step x a = some y) : Inv config y := by
  rcases step_cases stepped with ⟨name, data, now, after, offset, rfl, later, ran, rfl⟩ |
    ⟨now, rfl, later, rfl⟩
  · exact inv.add lasting later ran
  · exact inv.expire later

/-- With a limit below 1 no stream is ever mapped. -/
structure Barren (x : State) : Prop where
  limit : x.history.config.historyLimit < 1
  streams : ∀ name, x.history.streams name = none

theorem Barren.add (barren : Barren x) (name data : String) (now : Instant) :
    x.history.add name data now = none := by
  rw [add_eq_none_iff, lookup_fresh (barren.streams name)]
  exact ⟨barren.limit, rfl⟩

theorem Barren.step {a : Act} (barren : Barren x) (stepped : step x a = some y) : Barren y := by
  rcases step_cases stepped with ⟨name, data, now, after, offset, rfl, later, ran, rfl⟩ |
    ⟨now, rfl, later, rfl⟩
  · rw [barren.add] at ran
    cases ran
  · refine ⟨barren.limit, fun name => ?_⟩
    simp only [History.expire, barren.streams name, Option.filter_none]

end Steps

/-- The first entry of a stream, added when the clock starts. -/
theorem first_add {config : Config} (room : 1 ≤ config.historyLimit) (epoch : String) :
    ∃ x r, Run.exec step (start config epoch) [.add "s" "" 0] = some x ∧
      x.clock = 0 ∧ x.history.streams "s" = some r ∧ x.added "s" = [0] ∧
      (x.history.records "s" r).deadline =
        unix (0 + Memstream.keepAlive config.historyTTL) := by
  have fits : (History.new config epoch).add "s" "" 0 ≠ none := by
    rw [Ne, add_eq_none_iff, lookup_fresh rfl]
    exact fun full => absurd room (Int.not_le.mpr full.1)
  obtain ⟨⟨after, offset⟩, ran⟩ := Option.ne_none_iff_exists'.mp fits
  obtain ⟨-, ⟨r, mapped, -, deadline⟩, -⟩ := add_spec (by simp [History.new]) ran
  refine ⟨{ history := after, clock := 0, added := Function.update (fun _ => []) "s" [0] }, r,
    ?_, rfl, mapped, by simp, deadline⟩
  simp [Run.exec, step, start, ran]

/-- A distance that is too short deletes the stream while its entry is still due, if `expire` is
called once the deadline has passed. -/
theorem not_deletesPast {ttl : Int64} (nonneg : 0 ≤ ttl.toInt) (short : ¬ Lasting ttl) {x : State}
    {name : String} {r : Nat} (clock : x.clock = 0) (mapped : x.history.streams name = some r)
    (added : x.added name = [0])
    (deadline : (x.history.records name r).deadline = unix (0 + Memstream.keepAlive ttl)) :
    ¬ DeletesPast ttl x := by
  intro past
  have early : (x.history.records name r).deadline < ttl.toInt := by
    rw [deadline, Int.zero_add]
    rw [lasting_iff nonneg] at short
    exact Int.ediv_lt_of_lt_mul (by decide) (Int.not_le.mp short)
  -- the second after the deadline, or the first one of the clock
  obtain ⟨now, clockFirst, passed, due⟩ : ∃ now : Int, 0 ≤ now ∧
      (x.history.records name r).deadline < now ∧ now ≤ ttl.toInt :=
    ⟨max 0 ((x.history.records name r).deadline + 1), by omega, by omega, by omega⟩
  have seconds : unix (now * second) = now := by
    rw [← Int.zero_add (now * second), unix_add_seconds]
    exact Int.zero_add now
  have later : x.clock ≤ now * second := by
    rw [clock]
    exact Int.mul_nonneg clockFirst (by decide)
  have deleted : (x.history.expire (now * second)).streams name = none := by
    rw [deleted_iff mapped, seconds]
    exact passed
  have old := past _ later name (by rw [mapped]; simp) deleted 0 (by simp [added])
  rw [seconds] at old
  have zero : unix 0 = 0 := rfl
  omega

/-- For every time to live from 0 on: in every run of `add` and `expire`, streams are deleted only
when all their entries are past, and deadlines are not earlier than that, if and only if the time to
live is in one of the ranges, or no entry can be added. -/
theorem outlive_iff_lasting (config : Config) (epoch : String)
    (nonneg : 0 ≤ config.historyTTL.toInt) :
    ((∀ schedule x, Run.exec step (start config epoch) schedule = some x →
        DeletesPast config.historyTTL x) ↔
      (config.historyLimit < 1 ∨ Lasting config.historyTTL)) ∧
    ((∀ schedule x, Run.exec step (start config epoch) schedule = some x →
        DeadlineDue config.historyTTL x) ↔
      (config.historyLimit < 1 ∨ Lasting config.historyTTL)) := by
  have due : config.historyLimit < 1 ∨ Lasting config.historyTTL →
      ∀ schedule x, Run.exec step (start config epoch) schedule = some x →
        DeadlineDue config.historyTTL x := by
    rintro (barren | lasting) schedule x ran
    · have none := Run.invariant (fun _ _ _ barren stepped => Barren.step barren stepped)
        (⟨barren, fun _ => rfl⟩ : Barren (start config epoch)) ran
      intro name r mapped
      rw [none.streams name] at mapped
      cases mapped
    · exact (Run.invariant (fun _ _ _ inv stepped => Inv.step lasting inv stepped)
        (inv_start config epoch) ran).deadline
  have needed : (∀ schedule x, Run.exec step (start config epoch) schedule = some x →
      DeletesPast config.historyTTL x) → config.historyLimit < 1 ∨ Lasting config.historyTTL := by
    intro all
    by_contra other
    obtain ⟨room, short⟩ := not_or.mp other
    obtain ⟨x, r, ran, clock, mapped, added, deadline⟩ := first_add (Int.not_lt.mp room) epoch
    exact not_deletesPast nonneg short clock mapped added deadline (all _ x ran)
  refine ⟨⟨needed, fun holds schedule x ran => (due holds schedule x ran).deletesPast⟩,
    ⟨fun all => needed fun schedule x ran => (all schedule x ran).deletesPast, due⟩⟩

/-- An entry that has expired while the record is kept. -/
def quiet : List Act := [.add "s" "hi" 0, .expire (400 * second)]

/-- With the default of five minutes. -/
theorem default_outlive :
    ∃ x, Run.exec step (start {} "epoch") quiet = some x ∧
      x.history.streams "s" = some 0 ∧ DeletesPast 300 x ∧ DeadlineDue 300 x := by
  have lasts := outlive_iff_lasting {} "epoch" (by decide)
  have holds : ({} : Config).historyLimit < 1 ∨ Lasting ({} : Config).historyTTL :=
    Or.inr (by decide)
  exact ⟨_, rfl, by decide, lasts.1.mpr holds quiet _ rfl, lasts.2.mpr holds quiet _ rfl⟩

/-- With a time to live of thirty years, the deadline is in the past when it is set: an expiry in
the same instant deletes the stream with its new entry. -/
theorem deadline_wraps :
    ∃ x y, Run.exec step (start { historyTTL := 922337204 } "epoch") [.add "s" "hi" 0] = some x ∧
      step x (.expire 0) = some y ∧ x.history.streams "s" = some 0 ∧
      y.history.streams "s" = none ∧ y.added "s" = [0] ∧ ¬ DeletesPast 922337204 x := by
  refine ⟨_, _, rfl, rfl, by decide, by decide, by decide, fun past => ?_⟩
  have old := past 0 (by decide) "s" (by decide) (by decide) 0 (by decide)
  exact absurd old (by decide)

end AnyCable.Guarantees.RecordLifetime
