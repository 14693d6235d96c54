import AnyCable.Lib.GoMap
import Mathlib.Tactic.Tauto

/-!
# Subscriptions of a session

Source: `node/subscription_state.go`. Every channel identifier a session is subscribed to has
the set of its streams. Each method takes the lock for its whole body. Slices returned by the
source are only ranged over, so `nil` and an empty slice are both the empty list.
-/

set_option autoImplicit false

namespace AnyCable.Source
open AnyCable.Lib

structure SubscriptionState where
  channels : GoMap String (GoMap String Unit) := ∅

namespace SubscriptionState

def hasChannel (st : SubscriptionState) (id : String) : Bool := (st.channels.lookup id).isSome

def addChannel (st : SubscriptionState) (id : String) : SubscriptionState :=
  ⟨st.channels.insert id ∅⟩

def removeChannel (st : SubscriptionState) (id : String) : SubscriptionState :=
  ⟨st.channels.erase id⟩

/-- The method `Channels`. -/
def channelIds (st : SubscriptionState) : List String := st.channels.keys

def toMap (st : SubscriptionState) : GoMap String (List String) :=
  GoMap.mapValues (fun streams => streams.keys) st.channels

/-- A missing channel stays missing. -/
def addChannelStream (st : SubscriptionState) (id stream : String) : SubscriptionState :=
  match st.channels.lookup id with
  | none => st
  | some streams => ⟨st.channels.insert id (streams.insert stream ())⟩

def removeChannelStream (st : SubscriptionState) (id stream : String) : SubscriptionState :=
  match st.channels.lookup id with
  | none => st
  | some streams => ⟨st.channels.insert id (streams.erase stream)⟩

/-- Empties the channel and returns what it held. -/
def removeChannelStreams (st : SubscriptionState) (id : String) :
    SubscriptionState × List String :=
  match st.channels.lookup id with
  | none => (st, [])
  | some streams => (⟨st.channels.insert id ∅⟩, streams.keys)

def streamsFor (st : SubscriptionState) (id : String) : List String :=
  match st.channels.lookup id with
  | none => []
  | some streams => streams.keys

/-- The identifier-stream pairs, as nested `range` loops visit them. -/
def pairs (st : SubscriptionState) : List (String × String) :=
  st.channels.toPairs.flatMap fun p => p.2.keys.map fun stream => (p.1, stream)

/-- The channel is there and has the stream. -/
def Holds (st : SubscriptionState) (id stream : String) : Prop := stream ∈ st.streamsFor id

instance (st : SubscriptionState) (id stream : String) : Decidable (st.Holds id stream) :=
  inferInstanceAs (Decidable (stream ∈ st.streamsFor id))

section Lemmas

variable {st : SubscriptionState} {id id' stream other : String}

theorem holds_iff :
    st.Holds id stream ↔ ∃ streams, st.channels.lookup id = some streams ∧ stream ∈ streams := by
  unfold Holds streamsFor
  cases st.channels.lookup id with
  | none => simp
  | some streams => simp [AList.mem_keys]

theorem mem_pairs : (id, stream) ∈ st.pairs ↔ st.Holds id stream := by
  simp only [pairs, List.mem_flatMap, List.mem_map, Prod.mk.injEq, holds_iff]
  constructor
  · rintro ⟨⟨id, streams⟩, listed, stream, member, rfl, rfl⟩
    exact ⟨streams, GoMap.lookup_of_mem_toPairs listed, AList.mem_keys.mp member⟩
  · rintro ⟨streams, found, member⟩
    exact ⟨(id, streams), GoMap.mem_toPairs_iff.mpr found, stream, AList.mem_keys.mpr member,
      rfl, rfl⟩

theorem hasChannel_of_holds (holds : st.Holds id stream) : st.hasChannel id = true := by
  obtain ⟨streams, found, -⟩ := holds_iff.mp holds
  simp [hasChannel, found]

theorem not_holds_empty : ¬ ({} : SubscriptionState).Holds id stream := by
  simp [holds_iff]

theorem holds_addChannel : (st.addChannel id).Holds id' stream ↔ id' ≠ id ∧ st.Holds id' stream := by
  simp only [holds_iff, addChannel]
  by_cases same : id' = id
  · subst same
    simp
  · simp [AList.lookup_insert_ne same, same]

theorem holds_removeChannel :
    (st.removeChannel id).Holds id' stream ↔ id' ≠ id ∧ st.Holds id' stream := by
  simp only [holds_iff, removeChannel]
  by_cases same : id' = id
  · subst same
    simp
  · simp [AList.lookup_erase_ne same, same]

theorem holds_addChannelStream :
    (st.addChannelStream id stream).Holds id' other ↔
      (id' = id ∧ other = stream ∧ st.hasChannel id = true) ∨ st.Holds id' other := by
  unfold addChannelStream hasChannel
  cases found : st.channels.lookup id with
  | none => simp
  | some streams =>
    by_cases same : id' = id
    · subst same
      simp [holds_iff, found]
    · simp [holds_iff, AList.lookup_insert_ne same, same]

theorem holds_removeChannelStream :
    (st.removeChannelStream id stream).Holds id' other ↔
      st.Holds id' other ∧ ¬ (id' = id ∧ other = stream) := by
  unfold removeChannelStream
  cases found : st.channels.lookup id with
  | none =>
    refine ⟨fun holds => ⟨holds, ?_⟩, fun holds => holds.1⟩
    rintro ⟨rfl, -⟩
    simp [holds_iff, found] at holds
  | some streams =>
    by_cases same : id' = id
    · subst same
      simp [holds_iff, found, AList.mem_erase, and_comm]
    · simp [holds_iff, AList.lookup_insert_ne same, same]

theorem holds_removeChannelStreams :
    (st.removeChannelStreams id).1.Holds id' stream ↔ id' ≠ id ∧ st.Holds id' stream := by
  unfold removeChannelStreams
  cases found : st.channels.lookup id with
  | none =>
    refine ⟨fun holds => ⟨?_, holds⟩, fun holds => holds.2⟩
    rintro rfl
    simp [holds_iff, found] at holds
  | some streams => exact holds_addChannel

theorem removeChannelStreams_returns : (st.removeChannelStreams id).2 = st.streamsFor id := by
  unfold removeChannelStreams streamsFor
  cases st.channels.lookup id <;> rfl

/-- New streams for a channel that is there make no channel appear or vanish. -/
theorem hasChannel_replace {old : GoMap String Unit} (found : st.channels.lookup id = some old)
    (streams : GoMap String Unit) :
    (⟨st.channels.insert id streams⟩ : SubscriptionState).hasChannel id' = st.hasChannel id' := by
  unfold hasChannel
  by_cases same : id' = id
  · subst same
    simp [found]
  · simp [AList.lookup_insert_ne same]

theorem hasChannel_addChannelStream :
    (st.addChannelStream id stream).hasChannel id' = st.hasChannel id' := by
  unfold addChannelStream
  split
  next => rfl
  next streams found => exact hasChannel_replace found _

theorem hasChannel_removeChannelStream :
    (st.removeChannelStream id stream).hasChannel id' = st.hasChannel id' := by
  unfold removeChannelStream
  split
  next => rfl
  next streams found => exact hasChannel_replace found _

theorem hasChannel_removeChannelStreams :
    (st.removeChannelStreams id).1.hasChannel id' = st.hasChannel id' := by
  unfold removeChannelStreams
  split
  next => rfl
  next streams found => exact hasChannel_replace found _

theorem streamsFor_addChannel : (st.addChannel id).streamsFor id = [] := by
  simp [streamsFor, addChannel]

theorem streamsFor_removeChannel : (st.removeChannel id).streamsFor id = [] := by
  simp [streamsFor, removeChannel]

theorem streamsFor_missing (missing : st.hasChannel id = false) : st.streamsFor id = [] := by
  have none : st.channels.lookup id = none := by simpa [hasChannel] using missing
  simp [streamsFor, none]

theorem hasChannel_addChannel : (st.addChannel id).hasChannel id = true := by
  simp [hasChannel, addChannel]

theorem hasChannel_removeChannel : (st.removeChannel id).hasChannel id = false := by
  simp [hasChannel, removeChannel]

/-- `RemoveChannelStream` for every stream in turn. -/
theorem holds_removeEach (streams : List String) :
    (streams.foldl (fun st stream => st.removeChannelStream id stream) st).Holds id' other ↔
      st.Holds id' other ∧ ¬ (id' = id ∧ other ∈ streams) := by
  induction streams generalizing st with
  | nil => simp
  | cons stream streams ih =>
    rw [List.foldl_cons, ih, holds_removeChannelStream, List.mem_cons]
    tauto

theorem hasChannel_removeEach (streams : List String) :
    (streams.foldl (fun st stream => st.removeChannelStream id stream) st).hasChannel id' =
      st.hasChannel id' := by
  induction streams generalizing st with
  | nil => rfl
  | cons stream streams ih => rw [List.foldl_cons, ih, hasChannel_removeChannelStream]

/-- `AddChannelStream` for every stream in turn. -/
theorem holds_addEach (streams : List String) :
    (streams.foldl (fun st stream => st.addChannelStream id stream) st).Holds id' other ↔
      (id' = id ∧ other ∈ streams ∧ st.hasChannel id = true) ∨ st.Holds id' other := by
  induction streams generalizing st with
  | nil => simp
  | cons stream streams ih =>
    rw [List.foldl_cons, ih, holds_addChannelStream, hasChannel_addChannelStream, List.mem_cons]
    tauto

end Lemmas

end SubscriptionState

end AnyCable.Source
