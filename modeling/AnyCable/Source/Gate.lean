import AnyCable.Lib.Shards
import AnyCable.Source.Common

/-!
# A gate of the hub

Source: `hub/gate.go`. The nested map of subscriptions is kept as it is, because
`Unsubscribe` deletes a level once it is empty and `Broadcast` looks at the outermost
one only. The field `sessionsStreams` is never used by the source and left out.
`Unsubscribe` checks under the read lock and deletes under the write lock.
-/

set_option autoImplicit false

namespace AnyCable.Source
open AnyCable.Lib

/-- stream → session → identifier → true. -/
structure Gate where
  streams : GoMap String (GoMap SessionRef (GoMap String Bool)) := ∅

namespace Gate

def subscribe (g : Gate) (session : SessionRef) (stream identifier : String) : Gate :=
  let sessions := (g.streams.lookup stream).getD ∅
  let ids := (sessions.lookup session).getD ∅
  ⟨g.streams.insert stream (sessions.insert session (ids.insert identifier true))⟩

/-- The session is in the entry of a stream, under the identifier. -/
def among (session : SessionRef) (identifier : String) :
    Option (GoMap SessionRef (GoMap String Bool)) → Bool
  | none => false
  | some sessions => match sessions.lookup session with
    | none => false
    | some ids => (ids.lookup identifier).isSome

/-- The read-locked check of `Unsubscribe`. -/
def listed (g : Gate) (session : SessionRef) (stream identifier : String) : Bool :=
  among session identifier (g.streams.lookup stream)

/-- The write section of `Unsubscribe`. Deleting from a missing map does nothing. -/
def delete (g : Gate) (session : SessionRef) (stream identifier : String) : Gate :=
  let sessions := (g.streams.lookup stream).getD ∅
  let ids := ((sessions.lookup session).getD ∅).erase identifier
  if GoMap.isEmpty ids then
    let sessions := sessions.erase session
    if GoMap.isEmpty sessions then ⟨g.streams.erase stream⟩
    else ⟨g.streams.insert stream sessions⟩
  else ⟨g.streams.insert stream (sessions.insert session ids)⟩

def unsubscribe (g : Gate) (session : SessionRef) (stream identifier : String) : Gate :=
  if g.listed session stream identifier then g.delete session stream identifier else g

/-- The check of `Broadcast` before the message is queued. -/
def hasStream (g : Gate) (stream : String) : Bool := (g.streams.lookup stream).isSome

/-- Number of streams. -/
def size (g : Gate) : Nat := g.streams.keys.length

/-- The `Send` calls for one session of the snapshot: none for the excluded socket. -/
def sessionTargets (uid : SessionRef → String) (msg : StreamMessage)
    (p : SessionRef × GoMap String Bool) : List (SessionRef × String) :=
  if msg.excludes (uid p.1) then [] else p.2.keys.map fun id => (p.1, id)

/-- The `Send` calls of `performBroadcast`. Go walks the snapshot in no particular order. -/
def targets (g : Gate) (uid : SessionRef → String) (msg : StreamMessage) :
    List (SessionRef × String) :=
  ((g.streams.lookup msg.stream).getD ∅).toPairs.flatMap (sessionTargets uid msg)

/-- The session is subscribed to the stream under the identifier. -/
def Has (g : Gate) (session : SessionRef) (stream identifier : String) : Prop :=
  ∃ sessions ids, g.streams.lookup stream = some sessions ∧
    sessions.lookup session = some ids ∧ identifier ∈ ids

theorem listed_iff {g : Gate} {session : SessionRef} {stream identifier : String} :
    g.listed session stream identifier ↔ g.Has session stream identifier := by
  unfold listed among Has
  cases outer : g.streams.lookup stream with
  | none => simp
  | some sessions =>
    cases inner : sessions.lookup session with
    | none => simp [inner]
    | some ids => simp [inner, AList.lookup_isSome]

instance (g : Gate) (session : SessionRef) (stream identifier : String) :
    Decidable (g.Has session stream identifier) :=
  decidable_of_iff _ listed_iff

theorem hasStream_of_has {g : Gate} {session : SessionRef} {stream identifier : String}
    (has : g.Has session stream identifier) : g.hasStream stream := by
  obtain ⟨sessions, -, found, -⟩ := has
  simp [hasStream, found]

theorem not_has_empty (session : SessionRef) (stream identifier : String) :
    ¬ ({} : Gate).Has session stream identifier := by
  rintro ⟨sessions, ids, found, -⟩
  simp at found

theorem has_subscribe {g : Gate} {session s : SessionRef} {stream st identifier id : String} :
    (g.subscribe session stream identifier).Has s st id ↔
      (s = session ∧ st = stream ∧ id = identifier) ∨ g.Has s st id := by
  unfold subscribe Has
  by_cases sameStream : st = stream
  · subst sameStream
    simp only [AList.lookup_insert, Option.some.injEq, exists_and_left, exists_eq_left',
      true_and]
    by_cases sameSession : s = session
    · subst sameSession
      simp only [AList.lookup_insert, Option.some.injEq, exists_eq_left', AList.mem_insert,
        true_and]
      refine or_congr_right ?_
      cases outer : g.streams.lookup st with
      | none => simp
      | some sessions =>
        cases inner : sessions.lookup s with
        | none => simp [inner]
        | some ids => simp [inner]
    · simp only [AList.lookup_insert_ne sameSession, sameSession, false_and, false_or]
      cases outer : g.streams.lookup st with
      | none => simp
      | some sessions => simp
  · simp [AList.lookup_insert_ne sameStream, sameStream]

theorem has_delete {g : Gate} {session s : SessionRef} {stream st identifier id : String} :
    (g.delete session stream identifier).Has s st id ↔
      g.Has s st id ∧ ¬ (s = session ∧ st = stream ∧ id = identifier) := by
  by_cases sameStream : st = stream
  · subst sameStream
    -- the sessions and identifiers left after the deletion
    generalize hsessions : (g.streams.lookup st).getD ∅ = sessions
    generalize hids : (sessions.lookup session).getD ∅ = ids
    have has : g.Has s st id ↔ ∃ own, sessions.lookup s = some own ∧ id ∈ own := by
      unfold Has
      cases outer : g.streams.lookup st with
      | none => simp [← hsessions, outer]
      | some found => simp [← hsessions, outer]
    have own : s = session → (g.Has s st id ↔ id ∈ ids) := by
      rintro rfl
      rw [has]
      cases inner : sessions.lookup s with
      | none => simp [← hids, inner]
      | some found => simp [← hids, inner]
    have other : s ≠ session → ((sessions.erase session).lookup s = sessions.lookup s) :=
      fun different => AList.lookup_erase_ne different
    unfold delete
    simp only [hsessions, hids]
    split
    next emptied =>
      have gone : ∀ k, k ∈ ids → k = identifier := by
        intro k member
        by_contra different
        exact GoMap.isEmpty_iff.mp emptied k (by simp [AList.mem_erase, different, member])
      split
      next allGone =>
        constructor
        · rintro ⟨left, -, found, -⟩
          simp at found
        · rintro ⟨present, keep⟩
          by_cases same : s = session
          · exact absurd ⟨same, trivial, gone id ((own same).mp present)⟩ keep
          · obtain ⟨mine, found, -⟩ := has.mp present
            have member : s ∈ sessions.erase session := by
              rw [GoMap.mem_iff_lookup]
              exact ⟨mine, (other same).trans found⟩
            exact absurd member (GoMap.isEmpty_iff.mp allGone s)
      next =>
        have left : (⟨g.streams.insert st (sessions.erase session)⟩ : Gate).Has s st id ↔
            ∃ own, (sessions.erase session).lookup s = some own ∧ id ∈ own := by
          simp [Has]
        rw [left]
        by_cases same : s = session
        · subst same
          rw [own rfl]
          simp only [AList.lookup_erase, reduceCtorEq, false_and, exists_false, false_iff, true_and,
            not_and_not_right]
          exact fun member => gone id member
        · rw [other same, ← has]
          simp [same]
    next =>
      have left : (⟨g.streams.insert st (sessions.insert session (ids.erase identifier))⟩ :
          Gate).Has s st id ↔
          ∃ own, (sessions.insert session (ids.erase identifier)).lookup s = some own ∧ id ∈ own := by
        simp [Has]
      rw [left]
      by_cases same : s = session
      · subst same
        rw [own rfl]
        simp [AList.mem_erase, and_comm]
      · rw [AList.lookup_insert_ne same, ← has]
        simp [same]
  · have untouched : (g.delete session stream identifier).streams.lookup st =
        g.streams.lookup st := by
      unfold delete
      dsimp only
      split
      · split
        · exact AList.lookup_erase_ne sameStream
        · exact AList.lookup_insert_ne sameStream
      · exact AList.lookup_insert_ne sameStream
    simp [Has, untouched, sameStream]

theorem has_unsubscribe {g : Gate} {session s : SessionRef} {stream st identifier id : String} :
    (g.unsubscribe session stream identifier).Has s st id ↔
      g.Has s st id ∧ ¬ (s = session ∧ st = stream ∧ id = identifier) := by
  unfold unsubscribe
  split
  · exact has_delete
  next absent =>
    rw [listed_iff] at absent
    constructor
    · intro present
      refine ⟨present, ?_⟩
      rintro ⟨rfl, rfl, rfl⟩
      exact absent present
    · exact And.left

/-- Both operations look at one stream of the map and change that one only. -/
theorem subscribe_changesOnly (session : SessionRef) (stream identifier : String) :
    ∃ f, ChangesOnly stream f fun streams =>
      (Gate.subscribe ⟨streams⟩ session stream identifier).streams := by
  refine ⟨fun entry => some ((entry.getD ∅).insert session
    ((((entry.getD ∅).lookup session).getD ∅).insert identifier true)), fun streams other => ?_⟩
  unfold subscribe
  split
  next same => rw [same, AList.lookup_insert]
  next different => rw [AList.lookup_insert_ne different]

/-- The entry of a stream without one subscription. -/
def without (session : SessionRef) (identifier : String)
    (sessions : GoMap SessionRef (GoMap String Bool)) :
    Option (GoMap SessionRef (GoMap String Bool)) :=
  let ids := ((sessions.lookup session).getD ∅).erase identifier
  if GoMap.isEmpty ids then
    if GoMap.isEmpty (sessions.erase session) then none else some (sessions.erase session)
  else some (sessions.insert session ids)

theorem delete_changesOnly (session : SessionRef) (stream identifier : String) :
    ChangesOnly stream (fun entry => without session identifier (entry.getD ∅)) fun streams =>
      (Gate.delete ⟨streams⟩ session stream identifier).streams := by
  intro streams other
  unfold delete without
  dsimp only
  by_cases same : other = stream
  · subst same
    rw [if_pos rfl]
    split
    · split
      · exact AList.lookup_erase _ _
      · exact AList.lookup_insert _
    · exact AList.lookup_insert _
  · rw [if_neg same]
    split
    · split
      · exact AList.lookup_erase_ne same
      · exact AList.lookup_insert_ne same
    · exact AList.lookup_insert_ne same

theorem unsubscribe_changesOnly (session : SessionRef) (stream identifier : String) :
    ∃ f, ChangesOnly stream f fun streams =>
      (Gate.unsubscribe ⟨streams⟩ session stream identifier).streams := by
  refine ⟨fun entry => if among session identifier entry
    then without session identifier (entry.getD ∅) else entry, fun streams other => ?_⟩
  dsimp only
  unfold unsubscribe listed
  split
  · exact delete_changesOnly session stream identifier streams other
  · split
    next same => rw [same]
    · rfl

/-- No level of the nested map is empty. -/
def NoEmptyMap (g : Gate) : Prop :=
  ∀ st sessions, g.streams.lookup st = some sessions →
    (∃ s, s ∈ sessions) ∧ ∀ s ids, sessions.lookup s = some ids → ∃ id, id ∈ ids

theorem noEmptyMap_empty : ({} : Gate).NoEmptyMap := by
  intro st sessions found
  simp at found

/-- The sessions of a stream, or none, are full where the gate has no empty map. -/
theorem NoEmptyMap.inner {g : Gate} (full : g.NoEmptyMap) (stream : String) :
    ∀ s ids, ((g.streams.lookup stream).getD ∅).lookup s = some ids → ∃ id, id ∈ ids := by
  intro s ids found
  cases outer : g.streams.lookup stream with
  | none => simp [outer] at found
  | some sessions => exact (full stream sessions outer).2 s ids (by simpa [outer] using found)

theorem noEmptyMap_insert {g : Gate} {stream : String} {sessions : GoMap SessionRef (GoMap String Bool)}
    (full : g.NoEmptyMap) (some_session : ∃ s, s ∈ sessions)
    (inner : ∀ s ids, sessions.lookup s = some ids → ∃ id, id ∈ ids) :
    (⟨g.streams.insert stream sessions⟩ : Gate).NoEmptyMap := by
  intro st found lookup
  by_cases same : st = stream
  · subst same
    simp only [AList.lookup_insert, Option.some.injEq] at lookup
    subst lookup
    exact ⟨some_session, inner⟩
  · simp only [AList.lookup_insert_ne same] at lookup
    exact full st found lookup

theorem noEmptyMap_subscribe {g : Gate} (full : g.NoEmptyMap) (session : SessionRef)
    (stream identifier : String) : (g.subscribe session stream identifier).NoEmptyMap := by
  refine noEmptyMap_insert full ⟨session, by simp⟩ fun s ids found => ?_
  by_cases same : s = session
  · subst same
    simp only [AList.lookup_insert, Option.some.injEq] at found
    exact ⟨identifier, by simp [← found]⟩
  · rw [AList.lookup_insert_ne same] at found
    exact full.inner stream s ids found

theorem noEmptyMap_delete {g : Gate} (full : g.NoEmptyMap) (session : SessionRef)
    (stream identifier : String) : (g.delete session stream identifier).NoEmptyMap := by
  unfold delete
  dsimp only
  split
  next =>
    split
    next =>
      intro st sessions found
      by_cases same : st = stream
      · subst same
        simp at found
      · simp only [AList.lookup_erase_ne same] at found
        exact full st sessions found
    next left =>
      refine noEmptyMap_insert full (by simpa [GoMap.isEmpty_iff] using left) fun s ids found => ?_
      by_cases same : s = session
      · subst same
        simp at found
      · rw [AList.lookup_erase_ne same] at found
        exact full.inner stream s ids found
  next left =>
    refine noEmptyMap_insert full ⟨session, by simp⟩ fun s ids found => ?_
    by_cases same : s = session
    · subst same
      simp only [AList.lookup_insert, Option.some.injEq] at found
      subst found
      simpa [GoMap.isEmpty_iff] using left
    · rw [AList.lookup_insert_ne same] at found
      exact full.inner stream s ids found

theorem noEmptyMap_unsubscribe {g : Gate} (full : g.NoEmptyMap) (session : SessionRef)
    (stream identifier : String) : (g.unsubscribe session stream identifier).NoEmptyMap := by
  unfold unsubscribe
  split
  · exact noEmptyMap_delete full session stream identifier
  · exact full

theorem mem_sessionTargets {uid : SessionRef → String} {msg : StreamMessage}
    {p : SessionRef × GoMap String Bool} {s : SessionRef} {id : String} :
    (s, id) ∈ sessionTargets uid msg p ↔
      s = p.1 ∧ id ∈ p.2 ∧ msg.excludes (uid p.1) = false := by
  unfold sessionTargets
  split
  next skipped => simp [skipped]
  next kept =>
    simp only [List.mem_map, Prod.mk.injEq, exists_eq_right_right]
    exact ⟨fun ⟨listed, same⟩ => ⟨same.symm, listed, by simpa using kept⟩,
      fun ⟨same, listed, _⟩ => ⟨listed, same.symm⟩⟩

theorem mem_targets {g : Gate} {uid : SessionRef → String} {msg : StreamMessage}
    {s : SessionRef} {id : String} :
    (s, id) ∈ g.targets uid msg ↔ g.Has s msg.stream id ∧ msg.excludes (uid s) = false := by
  unfold targets Has
  simp only [List.mem_flatMap, mem_sessionTargets]
  constructor
  · rintro ⟨⟨session, ids⟩, found, rfl, listed, kept⟩
    have inner := GoMap.lookup_of_mem_toPairs found
    cases outer : g.streams.lookup msg.stream with
    | none => simp [outer] at inner
    | some sessions => exact ⟨⟨sessions, ids, rfl, by simpa [outer] using inner, listed⟩, kept⟩
  · rintro ⟨⟨sessions, ids, outer, inner, listed⟩, kept⟩
    exact ⟨(s, ids), GoMap.mem_toPairs_iff.mpr (by simpa [outer] using inner), rfl, listed, kept⟩

/-- No identifier of a session is served twice. -/
theorem targets_nodup (g : Gate) (uid : SessionRef → String) (msg : StreamMessage) :
    (g.targets uid msg).Nodup := by
  unfold targets
  rw [List.nodup_flatMap]
  constructor
  · rintro ⟨session, ids⟩ -
    unfold sessionTargets
    split
    · exact List.nodup_nil
    · exact ids.keys_nodup.map fun a b same => (Prod.mk.inj same).2
  · refine (GoMap.toPairs_distinct _).imp fun {p q} different => ?_
    rintro ⟨s, id⟩ left right
    rw [mem_sessionTargets] at left right
    exact different (left.1.symm.trans right.1)

end Gate

end AnyCable.Source
