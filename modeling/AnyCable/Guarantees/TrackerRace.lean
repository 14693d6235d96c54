import AnyCable.Lib.Pending
import AnyCable.Lib.Run
import AnyCable.Source.Tracker

/-!
# Concurrent `Subscribe` and `Unsubscribe` calls of a broker

Each call takes one step of the tracker under its lock and afterwards, outside of it,
possibly calls the Broadcaster (`broker/broker.go:117-151,191-210`,
`broker/memory.go:314-332`, `broker/nats.go:344-363`). `pending` holds the Broadcaster calls
that are decided but not made, in the order of the tracker steps that decided them.

The last `Unsubscribe` and the next first `Subscribe` can cross: the tracker then holds
the stream while the Broadcaster has left it (`crossed_calls_disagree`). If calls for one
stream reach the Broadcaster in the order of the tracker steps, the two agree once all
calls have returned (`agree_unless_crossed`).
-/

set_option autoImplicit false

namespace AnyCable.Guarantees.TrackerRace
open AnyCable.Lib AnyCable.Source

structure State where
  tracker : StreamsTracker := .new
  broadcaster : Broadcaster := {}
  pending : List BroadcasterCall := []

inductive Act where
  | add (stream : String)
  | remove (stream : String)
  | call (i : Nat)

def step (s : State) : Act → Option State
  | .add stream =>
    let (tracker, isNew) := s.tracker.add stream
    some { s with tracker,
                  pending := if isNew then s.pending ++ [.subscribe stream] else s.pending }
  | .remove stream =>
    let (tracker, isLast) := s.tracker.remove stream
    some { s with tracker,
                  pending := if isLast then s.pending ++ [.unsubscribe stream] else s.pending }
  | .call i => (s.pending[i]?).map fun c =>
      { s with broadcaster := s.broadcaster.record c, pending := s.pending.eraseIdx i }

/-- The property of one state. -/
def Agree (s : State) : Prop :=
  s.pending = [] → ∀ stream,
    s.broadcaster.lastCall stream = some (.subscribe stream) ↔ s.tracker.has stream = true

/-- The condition on a step: no older call for the same stream is still to be made. -/
def InTurn (s : State) : Act → Prop
  | .call i => ∀ c ∈ s.pending[i]?, ∀ older ∈ s.pending.take i, older.topic ≠ c.topic
  | _ => True

instance (s : State) : (a : Act) → Decidable (InTurn s a)
  | .call i => inferInstanceAs (Decidable
      (∀ c ∈ s.pending[i]?, ∀ older ∈ s.pending.take i, older.topic ≠ c.topic))
  | .add _ => isTrue trivial
  | .remove _ => isTrue trivial

/-- The interest as it will be once the pending calls are made in order. -/
def settled (s : State) : Interest := ⟨s.tracker, ⟨s.pending.reverse ++ s.broadcaster.calls⟩⟩

theorem settled_add {s t : State} {stream : String} (stepped : step s (.add stream) = some t) :
    settled t = (settled s).subscribe stream := by
  simp only [step, Option.some.injEq] at stepped
  subst stepped
  simp only [settled, Interest.subscribe]
  by_cases isNew : (s.tracker.add stream).2 = true <;> simp [Broadcaster.record, isNew]

theorem settled_remove {s t : State} {stream : String}
    (stepped : step s (.remove stream) = some t) :
    settled t = (settled s).unsubscribe stream := by
  simp only [step, Option.some.injEq] at stepped
  subst stepped
  simp only [settled, Interest.unsubscribe]
  by_cases isLast : (s.tracker.remove stream).2 = true <;> simp [Broadcaster.record, isLast]

/-- A call made in turn does not change what is said last about any stream. -/
theorem settled_call {s t : State} {i : Nat} (turn : InTurn s (.call i))
    (stepped : step s (.call i) = some t) (stream : String) :
    (settled t).tracker = (settled s).tracker ∧
      (settled t).broadcaster.lastCall stream = (settled s).broadcaster.lastCall stream := by
  simp only [step, Option.map_eq_some_iff] at stepped
  obtain ⟨c, found, rfl⟩ := stepped
  obtain ⟨split, erased⟩ := eraseIdx_split found
  have older := turn c found
  refine ⟨rfl, ?_⟩
  simp only [settled, Broadcaster.lastCall, Broadcaster.record, erased]
  conv_rhs => rw [split]
  simp only [List.reverse_append, List.reverse_cons, List.append_assoc, List.find?_append,
    List.find?_cons, List.singleton_append]
  cases about : c.concerns stream with
  | false => simp
  | true =>
    -- the calls it overtakes are about other streams
    have silent : (s.pending.take i).reverse.find? (BroadcasterCall.concerns stream) = none := by
      rw [List.find?_eq_none]
      intro other member same
      refine older other (List.mem_reverse.mp member) ?_
      simp only [BroadcasterCall.concerns, beq_iff_eq] at about same
      rw [about, same]
    simp [silent]

theorem step_agrees {s t : State} {a : Act} (agrees : (settled s).Agrees) (turn : InTurn s a)
    (stepped : step s a = some t) : (settled t).Agrees := by
  cases a with
  | add stream =>
    rw [settled_add stepped]
    exact agrees.subscribe stream
  | remove stream =>
    rw [settled_remove stepped]
    exact agrees.unsubscribe stream
  | call i =>
    intro stream
    obtain ⟨tracker, last⟩ := settled_call turn stepped stream
    rw [tracker, last]
    exact agrees stream

/-- In every interleaving in which the Broadcaster hears about a stream in the order of the
tracker steps, tracker and Broadcaster agree once all calls have returned. -/
theorem agree_unless_crossed (schedule : List Act) (s : State)
    (turns : Run.Meets step InTurn {} schedule) (ran : Run.exec step {} schedule = some s) :
    Agree s := by
  have start : (settled {}).Agrees := Interest.agrees_new
  have agrees := Run.invariant_of_meets (fun _ _ _ inv turn stepped => step_agrees inv turn stepped)
    start turns ran
  intro returned stream
  simpa [settled, returned] using agrees stream

/-- One subscriber leaves while another one comes; their calls to the Broadcaster cross. -/
def crossed : List Act :=
  [.add "chat", .call 0, .remove "chat", .add "chat", .call 1, .call 0]

theorem crossed_calls_disagree :
    ¬ ∀ (schedule : List Act) (s : State), Run.exec step {} schedule = some s → Agree s := by
  intro always
  exact absurd ((always crossed _ rfl rfl "chat").mpr (by decide)) (by decide)

/-- The same four calls without the crossing, interleaved with another stream. -/
def uncrossed : List Act :=
  [.add "chat", .add "news", .call 1, .call 0, .remove "chat", .add "chat", .call 0, .call 0]

theorem uncrossed_agree :
    ∃ s, Run.exec step {} uncrossed = some s ∧ s.pending = [] ∧
      s.broadcaster.calls = [.subscribe "chat", .unsubscribe "chat", .subscribe "chat",
        .subscribe "news"] ∧ Agree s :=
  ⟨_, rfl, rfl, rfl, agree_unless_crossed uncrossed _ (by decide) rfl⟩

end AnyCable.Guarantees.TrackerRace
