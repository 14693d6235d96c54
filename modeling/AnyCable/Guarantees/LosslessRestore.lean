import AnyCable.Source.HubEdits
import AnyCable.Source.SessionCache
import AnyCable.Source.SystemSteps

/-!
# A restored session is the session that was stored

A session is stored as JSON and a later connection merges the decoded text into its own new
session (`node/session.go:427-480`), then subscribes again to every stream it finds there
(`node/node.go:379-434`). `Change` lists the calls that build up what is stored. The maps and
stream lists of the decoded text may come in any order (`Decoded`).

Nothing is lost on the way, and the gates end up with the cached pairs and nothing else of the
new session (`restore_lossless`).
-/

set_option autoImplicit false

namespace AnyCable.Guarantees.LosslessRestore
open AnyCable.Lib AnyCable.Source AnyCable.Source.System

inductive Change where
  | setIdentifiers (ids : String)
  | mergeConnectionState (other : GoMap String String)
  | mergeChannelState (id : String) (other : GoMap String String)
  | removeChannelState (id : String)
  | addChannel (id : String)
  | addChannelStream (id stream : String)
  | removeChannel (id : String)
  | removeChannelStream (id stream : String)
  | removeChannelStreams (id : String)
  | markDisconnectable (val : Bool)

def change (s : Session) : Change → Session
  | .setIdentifiers ids => s.setIdentifiers ids
  | .mergeConnectionState other => { s with env := s.env.mergeConnectionState other }
  | .mergeChannelState id other => { s with env := s.env.mergeChannelState id other }
  | .removeChannelState id => { s with env := s.env.removeChannelState id }
  | .addChannel id => { s with subscriptions := s.subscriptions.addChannel id }
  | .addChannelStream id stream =>
    { s with subscriptions := s.subscriptions.addChannelStream id stream }
  | .removeChannel id => { s with subscriptions := s.subscriptions.removeChannel id }
  | .removeChannelStream id stream =>
    { s with subscriptions := s.subscriptions.removeChannelStream id stream }
  | .removeChannelStreams id =>
    { s with subscriptions := (s.subscriptions.removeChannelStreams id).1 }
  | .markDisconnectable val => s.markDisconnectable val

/-- What reading the stored text gives. -/
structure Decoded (stored entry : CacheEntry) : Prop where
  identifiers : entry.identifiers = stored.identifiers
  subscriptions : ∀ id, Option.Rel List.Perm
    (entry.subscriptions.lookup id) (stored.subscriptions.lookup id)
  connectionState : SameState entry.connectionState stored.connectionState
  channelsState : SameStates entry.channelsState stored.channelsState
  disconnectable : entry.disconnectable = stored.disconnectable

/-- A session that the cache can keep. -/
structure Storable (s : Session) : Prop where
  free : s.smu = false
  connectionState : NoBlank s.env.connectionState
  channelStates : ∀ id state, s.env.channelStates.lookup id = some state → NoBlank state

variable {s r : Session} {entry stored : CacheEntry}

section Storable

theorem storable_new (ref : SessionRef) (client : Client) : Storable (newSession ref client) where
  free := rfl
  connectionState := noBlank_empty
  channelStates := by simp [newSession]

theorem storable_change (storable : Storable s) (c : Change) : Storable (change s c) := by
  cases c with
  | mergeConnectionState other =>
    exact ⟨storable.free, noBlank_mergeState storable.connectionState other,
      storable.channelStates⟩
  | mergeChannelState id other =>
    refine ⟨storable.free, storable.connectionState, fun id' state found => ?_⟩
    simp only [change, SessionEnv.mergeChannelState, GoMap.lookup_insert_apply] at found
    split at found
    · cases found
      refine noBlank_mergeState ?_ other
      cases before : s.env.channelStates.lookup id with
      | none => exact noBlank_empty
      | some old => exact storable.channelStates id old before
    · exact storable.channelStates id' state found
  | removeChannelState id =>
    refine ⟨storable.free, storable.connectionState, fun id' state found => ?_⟩
    simp only [change, SessionEnv.removeChannelState, GoMap.lookup_erase_apply] at found
    split at found
    · cases found
    · exact storable.channelStates id' state found
  | setIdentifiers _ | addChannel _ | addChannelStream _ _ | removeChannel _
  | removeChannelStream _ _ | removeChannelStreams _ | markDisconnectable _ =>
    exact ⟨storable.free, storable.connectionState, storable.channelStates⟩

theorem storable_changes (storable : Storable s) (changes : List Change) :
    Storable (changes.foldl change s) := by
  induction changes generalizing s with
  | nil => exact storable
  | cons c changes ih => exact ih (storable_change storable c)

theorem describes_of_decoded (describes : stored.Describes s) (decoded : Decoded stored entry) :
    entry.Describes s where
  identifiers := decoded.identifiers.trans describes.identifiers
  subscriptions := by
    intro id
    have first := decoded.subscriptions id
    have second := describes.subscriptions id
    generalize entry.subscriptions.lookup id = a at first ⊢
    generalize stored.subscriptions.lookup id = b at first second
    generalize s.subscriptions.channels.lookup id = c at second ⊢
    cases first with
    | none => exact second
    | some perm =>
      cases second with
      | some listed => exact .some (perm.trans listed)
  connectionState := fun k => (decoded.connectionState k).trans (describes.connectionState k)
  channelsState := by
    intro id
    have first := decoded.channelsState id
    have second := describes.channelsState id
    generalize entry.channelsState.lookup id = a at first ⊢
    generalize stored.channelsState.lookup id = b at first second
    generalize s.env.channelStates.lookup id = c at second ⊢
    cases first with
    | none => exact second
    | some same =>
      cases second with
      | some next => exact .some fun k => (same k).trans (next k)
  disconnectable := decoded.disconnectable.trans describes.disconnectable

end Storable

section Restore

/-- The streams of one cached channel. -/
def streamSet (listed : List String) : GoMap String Unit :=
  listed.foldl (fun streams stream => streams.insert stream ()) ∅

theorem mem_streamSet {listed : List String} {stream : String} :
    stream ∈ streamSet listed ↔ stream ∈ listed := by
  have grown : ∀ streams : GoMap String Unit,
      stream ∈ listed.foldl (fun streams stream => streams.insert stream ()) streams ↔
        stream ∈ listed ∨ stream ∈ streams := by
    induction listed with
    | nil => simp
    | cons first listed ih =>
      intro streams
      rw [List.foldl_cons, ih, AList.mem_insert, List.mem_cons]
      tauto
  rw [streamSet, grown]
  simp

theorem lookup_addEach (st : SubscriptionState) (id : String) (listed : List String) (k : String) :
    (listed.foldl (fun st stream => st.addChannelStream id stream) st).channels.lookup k =
      if k = id then (st.channels.lookup id).map fun streams =>
        listed.foldl (fun streams stream => streams.insert stream ()) streams
      else st.channels.lookup k := by
  induction listed generalizing st with
  | nil =>
    split
    next same =>
      subst same
      simp
    · rfl
  | cons stream listed ih =>
    rw [List.foldl_cons, ih]
    unfold SubscriptionState.addChannelStream
    cases found : st.channels.lookup id with
    | none => simp [found]
    | some streams =>
      by_cases same : k = id
      · simp [same]
      · simp [same, AList.lookup_insert_ne same]

theorem lookup_restoreSubscriptions (st : SubscriptionState) (cached : GoMap String (List String))
    (id : String) :
    (Session.restoreSubscriptions st cached).channels.lookup id =
      (cached.lookup id).elim (st.channels.lookup id) fun listed => some (streamSet listed) := by
  unfold Session.restoreSubscriptions
  refine GoMap.foldl_toPairs (fun st id => st.channels.lookup id)
    (fun listed _ => some (streamSet listed)) (fun st p k => ?_) cached st id
  rw [lookup_addEach]
  by_cases same : k = p.1
  · simp [same, SubscriptionState.addChannel, streamSet]
  · simp [same, SubscriptionState.addChannel, AList.lookup_insert_ne same]

theorem mergeEach_frame (pairs : List (String × GoMap String String)) (env : SessionEnv) :
    (pairs.foldl (fun env p => env.mergeChannelState p.1 p.2) env).identifiers = env.identifiers ∧
    (pairs.foldl (fun env p => env.mergeChannelState p.1 p.2) env).connectionState =
      env.connectionState := by
  induction pairs generalizing env with
  | nil => exact ⟨rfl, rfl⟩
  | cons p pairs ih => exact ih (env.mergeChannelState p.1 p.2)

theorem lookup_mergeEach (env : SessionEnv) (states : GoMap String (GoMap String String))
    (id : String) :
    (states.toPairs.foldl (fun env p => env.mergeChannelState p.1 p.2) env).channelStates.lookup id =
      (states.lookup id).elim (env.channelStates.lookup id) fun state =>
        some (mergeState ((env.channelStates.lookup id).getD ∅) state) := by
  refine GoMap.foldl_toPairs (fun env id => env.channelStates.lookup id)
    (fun state old => some (mergeState (old.getD ∅) state)) (fun env p k => ?_) states env id
  rw [SessionEnv.mergeChannelState, GoMap.lookup_insert_apply]
  split
  next same => rw [same]
  · rfl

/-- What `RestoreFromCache` makes of a new session. -/
theorem restoreFromCache_new (ref : SessionRef) (client : Client) (entry : CacheEntry) :
    ∃ r, (newSession ref client).restoreFromCache entry = some r ∧
      r.ref = ref ∧ r.smu = false ∧ r.resumable = client.resumable ∧ r.uid = client.uid ∧
      r.disconnectInterest = entry.disconnectable ∧ r.env.identifiers = entry.identifiers ∧
      r.env.connectionState = mergeState ∅ entry.connectionState ∧
      (∀ id, r.env.channelStates.lookup id =
        (entry.channelsState.lookup id).map (mergeState ∅)) ∧
      ∀ id, r.subscriptions.channels.lookup id =
        (entry.subscriptions.lookup id).map streamSet := by
  refine ⟨_, rfl, rfl, rfl, rfl, rfl, ?_, ?_, ?_, ?_, ?_⟩
  · simp [Session.unlock, Session.setIdentifiers, Session.markDisconnectable, newSession]
  · exact (mergeEach_frame _ _).1
  · exact (mergeEach_frame _ _).2
  · intro id
    refine (lookup_mergeEach _ _ id).trans ?_
    cases entry.channelsState.lookup id <;> rfl
  · intro id
    refine (lookup_restoreSubscriptions _ _ id).trans ?_
    cases entry.subscriptions.lookup id <;> rfl

theorem restored_same (storable : Storable s) (describes : entry.Describes s)
    (identifiers : r.env.identifiers = entry.identifiers)
    (flag : r.disconnectInterest = entry.disconnectable)
    (connectionState : r.env.connectionState = mergeState ∅ entry.connectionState)
    (channelStates : ∀ id, r.env.channelStates.lookup id =
      (entry.channelsState.lookup id).map (mergeState ∅))
    (channels : ∀ id, r.subscriptions.channels.lookup id =
      (entry.subscriptions.lookup id).map streamSet) :
    s.Alike r where
  identifiers := identifiers.trans describes.identifiers
  channels := by
    intro id
    rw [channels]
    have listed := describes.subscriptions id
    generalize entry.subscriptions.lookup id = a at listed ⊢
    generalize s.subscriptions.channels.lookup id = b at listed ⊢
    cases listed with
    | none => exact .none
    | some perm => exact .some fun stream => mem_streamSet.trans (perm.mem_iff.trans AList.mem_keys)
  connectionState := by
    have full : NoBlank entry.connectionState := by
      intro k
      rw [describes.connectionState k]
      exact storable.connectionState k
    intro k
    rw [connectionState, mergeState_empty full k, describes.connectionState k]
  channelStates := by
    intro id
    rw [channelStates]
    have same := describes.channelsState id
    have full := storable.channelStates id
    generalize entry.channelsState.lookup id = a at same ⊢
    generalize s.env.channelStates.lookup id = b at same full ⊢
    cases same with
    | none => exact .none
    | @some state kept equal =>
      have noBlank : NoBlank state := by
        intro k
        rw [equal k]
        exact full kept rfl k
      exact .some fun k => (mergeState_empty noBlank k).trans (equal k)
  disconnectable := flag.trans describes.disconnectable

end Restore

section Gates

/-- `TryRestoreSession` comes back with the restored session, resubscribed. -/
theorem tryRestoreSession_restores {n : Node} (named : s.prevSid ≠ "")
    (cached : n.broker.restoreSession s.prevSid = some entry)
    (restored : s.restoreFromCache entry = some r) (free : r.smu = false) :
    ∃ n' r', n.tryRestoreSession s = some (n', r', true) ∧ r'.env = r.env ∧
      r'.subscriptions = r.subscriptions ∧ r'.disconnectInterest = r.disconnectInterest ∧
      ∀ k ref st id, (n'.hub.gates k).Has ref st id ↔
        (k = index st n.hub.gatesNum ∧ ref = r.ref ∧ r.subscriptions.Holds id st) ∨
          (n.hub.gates k).Has ref st id := by
  unfold Node.tryRestoreSession
  rw [if_neg named, cached]
  simp only [Option.bind_eq_bind, restored, Option.bind_some]
  generalize answered : ({ r with connected := true } : Session).send _ = told
  have unlocked : told.smu = false := by
    rw [← answered]
    exact free
  obtain ⟨broker, committed⟩ := Node.commit_returns
    (({ r with connected := true } : Session).subscriptions.pairs.foldl
      (Node.resubscribe { r with connected := true })
      { n with hub := n.hub.addSession ({ r with connected := true } : Session).toHub }) unlocked
  rw [committed]
  refine ⟨_, told, rfl, ?_, ?_, ?_, fun k ref st id => ?_⟩
  · rw [← answered]
    rfl
  · rw [← answered]
    rfl
  · rw [← answered]
    rfl
  · exact (Node.resubscribeEach_spec _ { r with connected := true }).2.2 k ref st id

end Gates

/-- A session built up by any changes and stored is found again by the next connection,
whatever order its maps come back in: `RestoreFromCache` gives the same state, and
`TryRestoreSession` puts the cached pairs, once each, into the gates of their streams. -/
theorem restore_lossless (ref : SessionRef) (client : Client) (changes : List Change) :
    ∃ stored, (changes.foldl change (newSession ref client)).toCacheEntry = some stored ∧
      ∀ entry, Decoded stored entry → ∀ (next : SessionRef) (again : Client),
        (∃ r, (newSession next again).restoreFromCache entry = some r ∧
          (changes.foldl change (newSession ref client)).Alike r) ∧
        ∀ n : Node, again.prevSid ≠ "" →
          n.broker.restoreSession again.prevSid = some entry →
          (∀ k st id, ¬ (n.hub.gates k).Has next st id) →
          ∃ n' r, n.tryRestoreSession (newSession next again) = some (n', r, true) ∧
            (changes.foldl change (newSession ref client)).Alike r ∧
            ∀ k st id, (n'.hub.gates k).Has next st id ↔
              k = index st n.hub.gatesNum ∧
                ∃ listed, stored.subscriptions.lookup id = some listed ∧ st ∈ listed := by
  have storable := storable_changes (storable_new ref client) changes
  generalize changes.foldl change (newSession ref client) = s at storable ⊢
  refine ⟨_, Session.toCacheEntry_eq storable.free, fun entry decoded next again => ?_⟩
  have describes := describes_of_decoded
    (Session.toCacheEntry_describes (Session.toCacheEntry_eq storable.free)) decoded
  obtain ⟨r, restored, own, free, -, -, flag, identifiers, connectionState, channelStates,
    channels⟩ := restoreFromCache_new next again entry
  have same := restored_same storable describes identifiers flag connectionState channelStates
    channels
  refine ⟨⟨r, restored, same⟩, fun n named cached absent => ?_⟩
  obtain ⟨n', r', returned, env, subscriptions, interest, gates⟩ :=
    tryRestoreSession_restores named cached restored free
  refine ⟨n', r', returned, ?_, fun k st id => ?_⟩
  · refine ⟨?_, ?_, ?_, ?_, ?_⟩
    · rw [env]; exact same.identifiers
    · rw [subscriptions]; exact same.channels
    · rw [env]; exact same.connectionState
    · rw [env]; exact same.channelStates
    · rw [interest]; exact same.disconnectable
  · rw [gates]
    -- the streams of the restored channels are the cached ones
    have held : r.subscriptions.Holds id st ↔
        ∃ listed, s.subscriptions.toMap.lookup id = some listed ∧ st ∈ listed := by
      rw [SubscriptionState.holds_iff, SubscriptionState.toMap, GoMap.lookup_mapValues]
      have streams := same.channels id
      generalize r.subscriptions.channels.lookup id = a at streams ⊢
      generalize s.subscriptions.channels.lookup id = b at streams ⊢
      cases streams with
      | none => simp
      | some equal => simpa [AList.mem_keys] using equal st
    rw [held]
    simp [own, absent]

/-- A channel with a stream, a channel without one, and a state that was emptied again. -/
def visit : List Change :=
  [.setIdentifiers "user", .addChannel "room", .addChannelStream "room" "chat",
   .addChannel "quiet", .mergeChannelState "quiet" (AList.singleton "a" "1"),
   .mergeChannelState "quiet" (AList.singleton "a" ""), .markDisconnectable true]

/-- A cache with the entry under "old". -/
def cacheWith (entry : CacheEntry) : Memory :=
  { history := .new {} "epoch", sessions := fun sid => if sid = "old" then some entry else none }

def nodeWith (entry : CacheEntry) : Node :=
  { codec := .blank
    hub := { gatesNum := 4 }
    broker := { memory := some (cacheWith entry) } }

theorem visit_restored :
    ∃ entry n r, (visit.foldl change (newSession 1 ⟨"old", "", true⟩)).toCacheEntry = some entry ∧
      (nodeWith entry).tryRestoreSession (newSession 2 ⟨"new", "old", true⟩) = some (n, r, true) ∧
      (visit.foldl change (newSession 1 ⟨"old", "", true⟩)).Alike r ∧
      (n.hub.gates (index "chat" 4)).Has 2 "chat" "room" := by
  obtain ⟨stored, written, lossless⟩ := restore_lossless 1 ⟨"old", "", true⟩ visit
  have decoded : Decoded stored stored :=
    ⟨rfl, fun id => GoMap.rel_refl List.Perm.refl _, SameState.refl _,
      fun id => GoMap.rel_refl SameState.refl _, rfl⟩
  obtain ⟨n, r, returned, same, gates⟩ := (lossless stored decoded 2 ⟨"new", "old", true⟩).2
    (nodeWith stored) (by decide) rfl fun k st id => Gate.not_has_empty 2 st id
  refine ⟨stored, n, r, written, returned, same, (gates _ _ _).mpr ⟨rfl, ?_⟩⟩
  cases written
  exact ⟨["chat"], by decide, by decide⟩

end AnyCable.Guarantees.LosslessRestore
