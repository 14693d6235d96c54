import AnyCable.Source.Node

/-!
# What a cached entry says about a session

`CommitSession` stores the JSON text of a session (`node/session.go:427-448`,
`broker/memory.go:409-433`) and `RestoreFromCache` merges it into another one
(`node/session.go:450-480`). An entry describes a session if it has the session's identifiers,
channels with their streams, states and disconnect flag. Maps are compared by their entries
and stream lists up to order: Go enumerates maps in no particular order.

Merging treats an empty value as a deletion, so a state survives the way through the cache
only because no stored value is ever empty (`NoBlank`).
-/

set_option autoImplicit false

namespace AnyCable.Source
open AnyCable.Lib

/-- The same entries. -/
def SameState (a b : GoMap String String) : Prop := ∀ k, a.lookup k = b.lookup k

instance (a b : GoMap String String) : Decidable (SameState a b) :=
  decidable_of_iff _ (GoMap.forall_lookup_iff (P := Eq) rfl a b).symm

/-- The same channels with the same states. -/
def SameStates (a b : GoMap String (GoMap String String)) : Prop :=
  ∀ id, Option.Rel SameState (a.lookup id) (b.lookup id)

instance (a b : GoMap String (GoMap String String)) : Decidable (SameStates a b) :=
  decidable_of_iff _ (GoMap.forall_lookup_iff (P := Option.Rel SameState) .none a b).symm

structure CacheEntry.Describes (entry : CacheEntry) (s : Session) : Prop where
  identifiers : entry.identifiers = s.env.identifiers
  subscriptions : ∀ id, Option.Rel (fun listed streams => listed.Perm streams.keys)
    (entry.subscriptions.lookup id) (s.subscriptions.channels.lookup id)
  connectionState : SameState entry.connectionState s.env.connectionState
  channelsState : SameStates entry.channelsState s.env.channelStates
  disconnectable : entry.disconnectable = s.disconnectInterest

/-- The two sessions agree in everything the cache keeps. -/
structure Session.Alike (s r : Session) : Prop where
  identifiers : r.env.identifiers = s.env.identifiers
  channels : ∀ id, Option.Rel (fun a b => ∀ stream, stream ∈ a ↔ stream ∈ b)
    (r.subscriptions.channels.lookup id) (s.subscriptions.channels.lookup id)
  connectionState : SameState r.env.connectionState s.env.connectionState
  channelStates : SameStates r.env.channelStates s.env.channelStates
  disconnectable : r.disconnectInterest = s.disconnectInterest

theorem SameState.refl (a : GoMap String String) : SameState a a := fun _ => rfl

theorem Session.toCacheEntry_eq {s : Session} (free : s.smu = false) :
    s.toCacheEntry = some
      { identifiers := s.env.identifiers
        subscriptions := s.subscriptions.toMap
        connectionState := s.env.connectionState
        channelsState := s.env.channelStates
        disconnectable := s.disconnectInterest
        writer := s.ref } := by
  simp [Session.toCacheEntry, Session.lock, free]

theorem SubscriptionState.toMap_lists (st : SubscriptionState) (id : String) :
    Option.Rel (fun listed streams => listed.Perm streams.keys)
      (st.toMap.lookup id) (st.channels.lookup id) := by
  rw [SubscriptionState.toMap, GoMap.lookup_mapValues]
  cases st.channels.lookup id with
  | none => exact .none
  | some streams => exact .some (List.Perm.refl _)

theorem Session.toCacheEntry_describes {s : Session} {entry : CacheEntry}
    (stored : s.toCacheEntry = some entry) : entry.Describes s := by
  unfold Session.toCacheEntry Session.lock at stored
  split at stored
  · cases stored
  · cases stored
    exact ⟨rfl, s.subscriptions.toMap_lists, SameState.refl _,
      fun id => GoMap.rel_refl SameState.refl _, rfl⟩

theorem perm_keys_iff {listed : List String} {a b : GoMap String Unit}
    (perm : listed.Perm b.keys) :
    listed.Perm a.keys ↔ ∀ stream, stream ∈ a ↔ stream ∈ b := by
  constructor
  · intro other stream
    rw [AList.mem_keys, AList.mem_keys, ← other.mem_iff, perm.mem_iff]
  · intro same
    refine perm.trans ((List.perm_ext_iff_of_nodup b.keys_nodup a.keys_nodup).mpr ?_)
    intro stream
    rw [← AList.mem_keys, ← AList.mem_keys, same]

/-- The sessions that an entry describes are alike. -/
theorem CacheEntry.Describes.alike_iff {entry : CacheEntry} {s r : Session}
    (describes : entry.Describes s) : entry.Describes r ↔ s.Alike r := by
  have channels : ∀ id, Option.Rel (fun listed streams => listed.Perm streams.keys)
      (entry.subscriptions.lookup id) (r.subscriptions.channels.lookup id) ↔
      Option.Rel (fun a b => ∀ stream, stream ∈ a ↔ stream ∈ b)
        (r.subscriptions.channels.lookup id) (s.subscriptions.channels.lookup id) := by
    intro id
    have listed := describes.subscriptions id
    generalize entry.subscriptions.lookup id = a at listed ⊢
    generalize s.subscriptions.channels.lookup id = b at listed ⊢
    cases listed with
    | none => cases r.subscriptions.channels.lookup id <;> simp
    | some perm =>
      cases r.subscriptions.channels.lookup id with
      | none => simp
      | some streams => simpa using perm_keys_iff perm
  have states : ∀ id, Option.Rel SameState (entry.channelsState.lookup id)
      (r.env.channelStates.lookup id) ↔
      Option.Rel SameState (r.env.channelStates.lookup id) (s.env.channelStates.lookup id) := by
    intro id
    have same := describes.channelsState id
    generalize entry.channelsState.lookup id = a at same ⊢
    generalize s.env.channelStates.lookup id = b at same ⊢
    cases same with
    | none => cases r.env.channelStates.lookup id <;> simp
    | some equal =>
      cases r.env.channelStates.lookup id with
      | none => simp
      | some state =>
        simp only [Option.rel_some_some]
        exact ⟨fun other k => (other k).symm.trans (equal k),
          fun other k => (equal k).trans (other k).symm⟩
  constructor
  · intro other
    exact ⟨other.identifiers.symm.trans describes.identifiers,
      fun id => (channels id).mp (other.subscriptions id),
      fun k => (other.connectionState k).symm.trans (describes.connectionState k),
      fun id => (states id).mp (other.channelsState id),
      other.disconnectable.symm.trans describes.disconnectable⟩
  · intro alike
    exact ⟨describes.identifiers.trans alike.identifiers.symm,
      fun id => (channels id).mpr (alike.channels id),
      fun k => (describes.connectionState k).trans (alike.connectionState k).symm,
      fun id => (states id).mpr (alike.channelStates id),
      describes.disconnectable.trans alike.disconnectable.symm⟩

section Merge

theorem lookup_mergeState (state other : GoMap String String) (k : String) :
    (mergeState state other).lookup k =
      (other.lookup k).elim (state.lookup k) fun v => if v = "" then none else some v := by
  unfold mergeState
  refine GoMap.foldl_toPairs (fun m k => m.lookup k)
    (fun v _ => if v = "" then none else some v) (fun m p k => ?_) other state k
  by_cases blank : p.2 = ""
  · simp [blank, GoMap.lookup_erase_apply]
  · simp [blank, GoMap.lookup_insert_apply]

/-- No value is empty. -/
def NoBlank (state : GoMap String String) : Prop := ∀ k, state.lookup k ≠ some ""

theorem noBlank_empty : NoBlank ∅ := by
  intro k
  simp

theorem noBlank_mergeState {state : GoMap String String} (full : NoBlank state)
    (other : GoMap String String) : NoBlank (mergeState state other) := by
  intro k
  rw [lookup_mergeState]
  cases other.lookup k with
  | none => exact full k
  | some v =>
    by_cases blank : v = ""
    · simp [blank]
    · simp [blank]

/-- Merging into an empty state copies. -/
theorem mergeState_empty {other : GoMap String String} (full : NoBlank other) :
    SameState (mergeState ∅ other) other := by
  intro k
  rw [lookup_mergeState]
  cases found : other.lookup k with
  | none => simp
  | some v =>
    have used : v ≠ "" := by
      rintro rfl
      exact full k found
    simp [used]

end Merge

/-- A resumable session over a memory broker is in the cache after `commit`. -/
theorem Node.commit_stores {n n' : Node} {s : Session} (resumable : s.resumable = true)
    (memory : n.broker.memory.isSome = true) (success : n.commit s = some n') :
    n'.broker.memory.isSome = true ∧
      ∃ entry, n'.broker.restoreSession s.uid = some entry ∧ entry.Describes s := by
  obtain ⟨m, found⟩ := Option.isSome_iff_exists.mp memory
  simp only [Node.commit, resumable, if_true, Broker.commitSession, found, Memory.commitSession,
    Option.bind_eq_bind, Option.bind_eq_some_iff] at success
  obtain ⟨broker, ⟨stored, ⟨entry, written, update⟩, success⟩, done⟩ := success
  cases update
  cases success
  cases done
  refine ⟨rfl, entry, ?_, Session.toCacheEntry_describes written⟩
  simp [Broker.restoreSession, Memory.restoreSession]

/-- `commit` comes back, and changes nothing but the broker. -/
theorem Node.commit_returns (n : Node) {s : Session} (free : s.smu = false) :
    ∃ broker, n.commit s = some { n with broker := broker } := by
  unfold Node.commit
  split
  · unfold Broker.commitSession
    cases n.broker.memory with
    | none => exact ⟨n.broker, rfl⟩
    | some m =>
      unfold Memory.commitSession
      rw [Session.toCacheEntry_eq free]
      exact ⟨_, rfl⟩
  · exact ⟨n.broker, rfl⟩

end AnyCable.Source
