import AnyCable.Source.Common
import Mathlib.Logic.Function.Basic
import Mathlib.Tactic.Tauto

/-!
# The streams tracker and its Broadcaster

Source: `broker/broker.go:11-18,107-151`. The tracker counts the subscriptions of
a node to each stream; the broker tells its Broadcaster about the first and the
last one. `Subscribe` and `Unsubscribe` have the same text in `LegacyBroker`,
`Memory` and (up to the JetStream consumer) `NATS`; it is written once here.

The counter is a `uint64` and wraps around: after 2^64 + 1 calls of `Add` it is 1 again.
-/

set_option autoImplicit false

namespace AnyCable.Source

structure StreamsTracker where
  store : String → Option UInt64

namespace StreamsTracker

/-- `NewStreamsTracker`. -/
def new : StreamsTracker := ⟨fun _ => none⟩

/-- Write or delete the counter of a name. -/
def set (t : StreamsTracker) (name : String) (count : Option UInt64) : StreamsTracker :=
  ⟨Function.update t.store name count⟩

@[simp] theorem set_store (t : StreamsTracker) (name : String) (count : Option UInt64) :
    (t.set name count).store = Function.update t.store name count := rfl

/-- The flag is `isNew`. -/
def add (t : StreamsTracker) (name : String) : StreamsTracker × Bool :=
  match t.store name with
  | none => (t.set name (some 1), true)
  | some n => (t.set name (some (n + 1)), false)

def has (t : StreamsTracker) (name : String) : Bool := (t.store name).isSome

/-- The flag is `isLast`. Any other counter than 1 stays as it was. -/
def remove (t : StreamsTracker) (name : String) : StreamsTracker × Bool :=
  match t.store name with
  | none => (t, false)
  | some n => if n = 1 then (t.set name none, true) else (t, false)

/-- `Add` for every name in turn. -/
def addEach (t : StreamsTracker) (names : List String) : StreamsTracker :=
  names.foldl (fun t name => (t.add name).1) t

/-- `Remove` for every name in turn. -/
def removeEach (t : StreamsTracker) (names : List String) : StreamsTracker :=
  names.foldl (fun t name => (t.remove name).1) t

end StreamsTracker

/-- A call the broker makes to its Broadcaster. -/
inductive BroadcasterCall where
  | subscribe (stream : String)
  | unsubscribe (stream : String)
  | broadcast (msg : StreamMessage)
  deriving DecidableEq, Repr

/-- The Broadcaster as the broker sees it: the calls made so far, newest first. -/
structure Broadcaster where
  calls : List BroadcasterCall := []
  deriving DecidableEq, Repr

/-- The stream a `Subscribe` or `Unsubscribe` call is about. -/
def BroadcasterCall.topic : BroadcasterCall → Option String
  | .subscribe st => some st
  | .unsubscribe st => some st
  | .broadcast _ => none

/-- A `Subscribe` or `Unsubscribe` call for the stream. -/
def BroadcasterCall.concerns (stream : String) (call : BroadcasterCall) : Bool :=
  call.topic == some stream

/-- The message of a `Broadcast` call. -/
def BroadcasterCall.message : BroadcasterCall → Option StreamMessage
  | .broadcast msg => some msg
  | .subscribe _ | .unsubscribe _ => none

namespace Broadcaster

def record (bc : Broadcaster) (call : BroadcasterCall) : Broadcaster := ⟨call :: bc.calls⟩

/-- The last `Subscribe` or `Unsubscribe` call received for the stream. -/
def lastCall (bc : Broadcaster) (stream : String) : Option BroadcasterCall :=
  bc.calls.find? (BroadcasterCall.concerns stream)

/-- The messages broadcast since an earlier state, oldest first. -/
def broadcastSince (bc earlier : Broadcaster) : List StreamMessage :=
  ((bc.calls.take (bc.calls.length - earlier.calls.length)).filterMap
    BroadcasterCall.message).reverse

end Broadcaster

/-- The tracker together with the Broadcaster it drives. -/
structure Interest where
  tracker : StreamsTracker
  broadcaster : Broadcaster

namespace Interest

/-- The text shared by the `Subscribe` methods of the brokers. -/
def subscribe (i : Interest) (stream : String) : Interest :=
  let (tracker, isNew) := i.tracker.add stream
  ⟨tracker, if isNew then i.broadcaster.record (.subscribe stream) else i.broadcaster⟩

/-- The text shared by the `Unsubscribe` methods of the brokers. -/
def unsubscribe (i : Interest) (stream : String) : Interest :=
  let (tracker, isLast) := i.tracker.remove stream
  ⟨tracker, if isLast then i.broadcaster.record (.unsubscribe stream) else i.broadcaster⟩

/-- `broadcaster.Broadcast(msg)`. -/
def broadcast (i : Interest) (msg : StreamMessage) : Interest :=
  { i with broadcaster := i.broadcaster.record (.broadcast msg) }

end Interest

section Lemmas

variable {t : StreamsTracker} {name st : String}

theorem StreamsTracker.has_iff : t.has st = true ↔ ∃ n, t.store st = some n :=
  Option.isSome_iff_exists

theorem StreamsTracker.add_isNew : (t.add name).2 = !t.has name := by
  unfold add has
  cases t.store name <;> rfl

theorem StreamsTracker.add_has : (t.add name).1.has st = true ↔ st = name ∨ t.has st = true := by
  unfold add has
  by_cases same : st = name
  · subst same
    cases t.store st <;> simp
  · cases t.store name <;> simp [same]

theorem StreamsTracker.remove_isLast : (t.remove name).2 = true ↔ t.store name = some 1 := by
  unfold remove
  cases t.store name with
  | none => simp
  | some n => by_cases one : n = 1 <;> simp [one]

theorem StreamsTracker.remove_has :
    (t.remove name).1.has st = true ↔
      t.has st = true ∧ ¬ (st = name ∧ t.store name = some 1) := by
  unfold remove has
  cases found : t.store name with
  | none =>
    by_cases same : st = name
    · subst same
      simp [found]
    · simp [same]
  | some n =>
    by_cases one : n = 1
    · by_cases same : st = name
      · subst same
        simp [one]
      · simp [one, same]
    · simp [one]

theorem StreamsTracker.store_add :
    (t.add name).1.store st =
      if st = name then some ((t.store name).getD 0 + 1) else t.store st := by
  unfold add
  cases t.store name <;> by_cases same : st = name <;> simp [same]

/-- Only a counter of 1 is taken down, to nothing. -/
theorem StreamsTracker.store_remove :
    (t.remove name).1.store st =
      if st = name ∧ t.store name = some 1 then none else t.store st := by
  unfold remove
  cases found : t.store name with
  | none => simp
  | some n =>
    by_cases one : n = 1
    · by_cases same : st = name
      · simp [one, same]
      · simp [one, same]
    · simp [one]

theorem StreamsTracker.store_removeEach (names : List String) :
    (t.removeEach names).store st =
      if st ∈ names ∧ t.store st = some 1 then none else t.store st := by
  unfold removeEach
  induction names generalizing t with
  | nil => simp
  | cons name names ih =>
    rw [List.foldl_cons, ih]
    simp only [store_remove, List.mem_cons]
    by_cases same : st = name
    · subst same
      by_cases one : t.store st = some 1 <;> simp [one]
    · simp [same]

theorem StreamsTracker.has_removeEach (names : List String) :
    (t.removeEach names).has st = true ↔
      t.has st = true ∧ ¬ (st ∈ names ∧ t.store st = some 1) := by
  unfold has
  rw [store_removeEach]
  split
  next last => simp [last]
  next kept => simp only [kept, not_false_eq_true, and_true]

theorem StreamsTracker.has_addEach (names : List String) :
    (t.addEach names).has st = true ↔ st ∈ names ∨ t.has st = true := by
  unfold addEach
  induction names generalizing t with
  | nil => simp
  | cons name names ih =>
    rw [List.foldl_cons, ih, add_has, List.mem_cons]
    tauto

theorem Broadcaster.lastCall_record (bc : Broadcaster) (call : BroadcasterCall) :
    (bc.record call).lastCall st = if call.concerns st then some call else bc.lastCall st := by
  unfold record lastCall
  rw [List.find?_cons]
  split <;> simp [*]

theorem Broadcaster.broadcastSince_self (bc : Broadcaster) : bc.broadcastSince bc = [] := by
  simp [broadcastSince]

theorem Broadcaster.broadcastSince_record (bc : Broadcaster) (msg : StreamMessage) :
    (bc.record (.broadcast msg)).broadcastSince bc = [msg] := by
  simp [broadcastSince, record, BroadcasterCall.message]

theorem Broadcaster.lastCall_cases (bc : Broadcaster) (st : String) :
    bc.lastCall st = none ∨ bc.lastCall st = some (.subscribe st) ∨
      bc.lastCall st = some (.unsubscribe st) := by
  unfold lastCall
  cases found : bc.calls.find? (BroadcasterCall.concerns st) with
  | none => exact Or.inl rfl
  | some call =>
    have concerns := List.find?_some found
    cases call <;> simp_all [BroadcasterCall.concerns, BroadcasterCall.topic]

/-- The Broadcaster was last told to subscribe to exactly the tracked streams. -/
def Interest.Agrees (i : Interest) : Prop :=
  ∀ st, i.broadcaster.lastCall st = some (.subscribe st) ↔ i.tracker.has st = true

theorem Interest.agrees_new : Interest.Agrees ⟨.new, {}⟩ := by
  intro st
  simp [Broadcaster.lastCall, StreamsTracker.new, StreamsTracker.has]

theorem Interest.Agrees.subscribe {i : Interest} (agrees : i.Agrees) (stream : String) :
    (i.subscribe stream).Agrees := by
  intro st
  simp only [Interest.subscribe, StreamsTracker.add_has, StreamsTracker.add_isNew]
  by_cases same : st = stream
  · subst same
    cases tracked : i.tracker.has st with
    | true => simpa using (agrees st).mpr tracked
    | false => simp [Broadcaster.lastCall_record, BroadcasterCall.concerns, BroadcasterCall.topic]
  · have other : stream ≠ st := Ne.symm same
    cases i.tracker.has stream <;>
      simp [Broadcaster.lastCall_record, BroadcasterCall.concerns, BroadcasterCall.topic, other,
        same, agrees st]

theorem Interest.Agrees.unsubscribe {i : Interest} (agrees : i.Agrees) (stream : String) :
    (i.unsubscribe stream).Agrees := by
  intro st
  simp only [Interest.unsubscribe, StreamsTracker.remove_has]
  by_cases last : (i.tracker.remove stream).2 = true
  · have one := StreamsTracker.remove_isLast.mp last
    by_cases same : st = stream
    · subst same
      simp [last, one, Broadcaster.lastCall_record, BroadcasterCall.concerns, BroadcasterCall.topic]
    · have other : stream ≠ st := Ne.symm same
      simp [last, same, Broadcaster.lastCall_record, BroadcasterCall.concerns,
        BroadcasterCall.topic, other, agrees st]
  · have more : i.tracker.store stream ≠ some 1 := fun one =>
      last (StreamsTracker.remove_isLast.mpr one)
    simp [last, more, agrees st]

theorem Interest.Agrees.broadcast {i : Interest} (agrees : i.Agrees) (msg : StreamMessage) :
    (i.broadcast msg).Agrees := by
  intro st
  simp only [Interest.broadcast, Broadcaster.lastCall_record, BroadcasterCall.concerns,
    BroadcasterCall.topic]
  exact agrees st

end Lemmas

end AnyCable.Source
