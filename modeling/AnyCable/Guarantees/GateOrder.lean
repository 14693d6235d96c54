import AnyCable.Lib.Sections
import AnyCable.Source.Gate

/-!
# The gate as if its calls were made one after the other

`Unsubscribe` looks for the subscription under the read lock and deletes it under the write lock
(`hub/gate.go:82-114`). In between, the subscription, the map of its session or that of its stream
may have gone or have come back. None of this shows: the calls, in the order of their last
sections, have the same outcome when each is made alone (`gate_in_sequence`). A deletion that comes
too late finds nothing, and one that was overtaken by a `Subscribe` takes effect after it.
-/

set_option autoImplicit false

namespace AnyCable.Guarantees.GateOrder
open AnyCable.Lib AnyCable.Source

inductive Op where
  | subscribe (session : SessionRef) (stream identifier : String)
  | unsubscribe (session : SessionRef) (stream identifier : String)
  deriving DecidableEq, Repr

/-- Where a call stands: `Unsubscribe` has found the subscription or has not looked yet. -/
inductive Stage where
  | start
  | listed
  deriving DecidableEq, Repr

def runSection (stage : Stage) (g : Gate) : Op → Gate × Option Stage
  | .subscribe session stream identifier => (g.subscribe session stream identifier, none)
  | .unsubscribe session stream identifier =>
    match stage with
    | .start => if g.listed session stream identifier then (g, some .listed) else (g, none)
    | .listed => (g.delete session stream identifier, none)

/-- The sections of the calls. -/
def gate : Sections.Object Gate Op Stage where
  enter := fun _ => .start
  run := fun op stage g => runSection stage g op

/-- A call that nothing comes between. -/
def Op.alone (g : Gate) : Op → Gate
  | .subscribe session stream identifier => g.subscribe session stream identifier
  | .unsubscribe session stream identifier => g.unsubscribe session stream identifier

/-- The gate after calls that are made one after the other. -/
def inSequence (order : List (Nat × Op)) : Gate := order.foldl (fun g c => c.2.alone g) {}

/-- Which subscriptions there are. -/
abbrev Content := SessionRef → String → String → Prop

def Op.effect : Op → Content → Content
  | .subscribe session stream identifier, c =>
    fun s st id => (s = session ∧ st = stream ∧ id = identifier) ∨ c s st id
  | .unsubscribe session stream identifier, c =>
    fun s st id => c s st id ∧ ¬ (s = session ∧ st = stream ∧ id = identifier)

theorem has_alone (g : Gate) (op : Op) : (op.alone g).Has = op.effect g.Has := by
  funext s st id
  cases op with
  | subscribe session stream identifier => exact propext Gate.has_subscribe
  | unsubscribe session stream identifier => exact propext Gate.has_unsubscribe

theorem has_inSequence (order : List (Nat × Op)) :
    (inSequence order).Has = order.foldl (fun c call => call.2.effect c) ({} : Gate).Has := by
  unfold inSequence
  induction order using List.reverseRecOn with
  | nil => rfl
  | append_singleton order call ih => simp only [List.foldl_append, List.foldl, has_alone, ih]

/-- The check of `Unsubscribe` changes nothing, and the last section does what the call would do
alone. -/
theorem gate_refines : Sections.Refines gate Gate.Has Op.effect Gate.NoEmptyMap where
  keeps := by
    intro op stage g full
    cases op with
    | subscribe session stream identifier => exact Gate.noEmptyMap_subscribe full _ _ _
    | unsubscribe session stream identifier =>
      cases stage with
      | start =>
        simp only [gate, runSection]
        split <;> exact full
      | listed => exact Gate.noEmptyMap_delete full _ _ _
  quiet := by
    intro op stage g next _ left
    cases op with
    | subscribe session stream identifier => cases left
    | unsubscribe session stream identifier =>
      cases stage with
      | start =>
        simp only [gate, runSection]
        split <;> rfl
      | listed => cases left
  takesEffect := by
    intro op stage g _ last
    cases op with
    | subscribe session stream identifier =>
      funext s st id
      exact propext Gate.has_subscribe
    | unsubscribe session stream identifier =>
      cases stage with
      | listed =>
        funext s st id
        exact propext Gate.has_delete
      | start =>
        simp only [gate, runSection] at last ⊢
        split at last
        next => cases last
        next absent =>
          rw [if_neg absent, ← has_alone]
          simp only [Op.alone, Gate.unsubscribe, if_neg absent]

/-- The gate when the calls begin. -/
def start : Sections.State Gate Op Stage := { shared := {} }

/-- A section takes at most the subscription of its own `Unsubscribe` away. -/
theorem removed_by_own {x y : Sections.State Gate Op Stage} {event : Sections.Event Op}
    (stepped : Sections.step gate x event = some y) {s : SessionRef} {st id : String}
    (before : x.shared.Has s st id) (after : ¬ y.shared.Has s st id) :
    ∃ call stage, event = .advance call ∧ x.live call = some (.unsubscribe s st id, stage) := by
  -- what every section but a deletion leaves in the gate was there before
  have kept : ∀ op stage, (gate.run op stage x.shared).1 = y.shared →
      op = .unsubscribe s st id := by
    intro op stage same
    rw [← same] at after
    cases op with
    | subscribe session stream identifier =>
      exact absurd (Gate.has_subscribe.mpr (Or.inr before)) after
    | unsubscribe session stream identifier =>
      cases stage with
      | start =>
        refine absurd before ?_
        simp only [gate, runSection] at after
        split at after <;> exact after
      | listed =>
        by_contra other
        refine after (Gate.has_delete.mpr ⟨before, ?_⟩)
        rintro ⟨rfl, rfl, rfl⟩
        exact other rfl
  rcases Sections.step_cases stepped with ⟨call, op, rfl, -, -, rfl⟩ |
    ⟨call, op, stage, rfl, found, ⟨next, -, rfl⟩ | ⟨-, rfl⟩⟩ | ⟨call, rfl, -, rfl⟩
  · exact absurd before after
  · exact ⟨call, stage, rfl, kept op stage rfl ▸ found⟩
  · exact ⟨call, stage, rfl, kept op stage rfl ▸ found⟩
  · exact absurd before after

/-- For every interleaving of the sections, there is an order of the calls, in accordance with the
time in which they were made and returned, that leads to the same subscriptions. No section takes
away a subscription but its own, and no map is left empty. -/
theorem gate_in_sequence (events : List (Sections.Event Op)) (x : Sections.State Gate Op Stage)
    (ran : Run.exec (Sections.step gate) start events = some x) :
    (∃ order, Sections.Order events order ∧
      ((∀ c ∈ Sections.calls events, .respond c.1 ∈ events) →
        order.Perm (Sections.calls events)) ∧
      ∀ s st id, x.shared.Has s st id ↔ (inSequence order).Has s st id) ∧
    (∀ event y, Sections.step gate x event = some y →
      ∀ s st id, x.shared.Has s st id → ¬ y.shared.Has s st id →
        ∃ call stage, event = .advance call ∧ x.live call = some (.unsubscribe s st id, stage)) ∧
    x.shared.NoEmptyMap := by
  have settled := gate_refines.settled Gate.noEmptyMap_empty ran
  have order : Sections.Order events x.ended := Sections.order_of_run ran
  refine ⟨⟨x.ended, order, order.perm, ?_⟩, ?_, settled.ok⟩
  · intro s st id
    rw [settled.content, has_inSequence]
  · intro event y stepped s st id before after
    exact removed_by_own stepped before after

/-- Two sessions leave a stream at the same time, and one of them comes back in between. -/
def overlapping : List (Sections.Event Op) :=
  [.invoke 0 (.subscribe 1 "chat" "a"), .advance 0, .respond 0,
   .invoke 1 (.unsubscribe 1 "chat" "a"), .invoke 2 (.unsubscribe 1 "chat" "a"),
   .advance 1, .advance 2, .advance 1, .respond 1,
   .invoke 3 (.subscribe 1 "chat" "a"), .advance 3, .respond 3, .advance 2, .respond 2]

theorem overlapping_in_sequence :
    ∃ x, Run.exec (Sections.step gate) start overlapping = some x ∧
      ∃ order, Sections.Order overlapping order ∧ order.Perm (Sections.calls overlapping) ∧
        ∀ s st id, x.shared.Has s st id ↔ (inSequence order).Has s st id := by
  have runs : (Run.exec (Sections.step gate) start overlapping).isSome = true := by decide +kernel
  obtain ⟨x, ran⟩ := Option.isSome_iff_exists.mp runs
  obtain ⟨⟨order, ordered, perm, same⟩, -⟩ := gate_in_sequence overlapping x ran
  exact ⟨x, ran, order, ordered, perm (by decide +kernel), same⟩

end AnyCable.Guarantees.GateOrder
