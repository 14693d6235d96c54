import AnyCable.Lib.Run
import AnyCable.Source.Hub

/-!
# The index of connection identifiers

The hub finds the sessions of a user through `identifiers`, a map from the connection
identifiers to the ids of the sessions registered with them (`hub/hub.go:190-236,309-350`).
A remote disconnect and `LookupSession` go through it. A session is registered from its
`AddSession` to its `RemoveSession`; `Trace.registered` keeps track of that beside the hub.

Both maps of the hub are keyed by the session id, which the client may choose (`FetchUID` takes it
from the `X-Request-ID` header, `server/request_info.go:86-94`). `AddSession` replaces the entry of
an id without looking at the session that was there, and `RemoveSession` deletes the entry of
an id whosever it is. So a second session with the id of a registered one hides it, is taken for
it, or is lost with it (`colliding_ids_mislead`). The index is exact in every state of a run
exactly if no session is added or removed while another one with its id is registered
(`exact_iff_apart`).
-/

set_option autoImplicit false

namespace AnyCable.Guarantees.IdentifierIndex
open AnyCable.Lib AnyCable.Source

inductive Act where
  | add (r : SessionRef)
  | remove (r : SessionRef)
  deriving DecidableEq, Repr

/-- The hub, and the sessions that were added and not removed since. -/
structure Trace where
  hub : Hub
  registered : SessionRef → Bool := fun _ => false

def step (people : People) (t : Trace) : Act → Option Trace
  | .add r => some ⟨t.hub.addSession (people.session r), Function.update t.registered r true⟩
  | .remove r => some ⟨t.hub.removeSession (people.session r), Function.update t.registered r false⟩

/-- The id is in the set kept for the identifiers. -/
def Indexed (h : Hub) (x uid : String) : Prop := ∃ ids, h.identifiers x = some ids ∧ uid ∈ ids

/-- Go may range over a map in any order. -/
def Walk (walk : GoMap String Bool → List String) : Prop := ∀ ids, (walk ids).Perm ids.keys

/-- The property of one state. -/
structure Exact (people : People) (t : Trace) : Prop where
  index : ∀ x uid, Indexed t.hub x uid ↔
    ∃ r, t.registered r = true ∧ people.uid r = uid ∧ people.identifiers r = x
  nonempty : ∀ x ids, t.hub.identifiers x = some ids → ∃ uid, uid ∈ ids
  disconnected : ∀ x r, r ∈ t.hub.disconnectSessions x ↔
    t.registered r = true ∧ people.identifiers r = x
  found : ∀ walk, Walk walk → ∀ x r, t.hub.findByIdentifier walk x = some r →
    t.registered r = true ∧ people.identifiers r = x
  finds : ∀ walk, Walk walk → ∀ r, t.registered r = true →
    (t.hub.findByIdentifier walk (people.identifiers r)).isSome = true

/-- The condition on a step: no other registered session has the id of the session. -/
def Apart (people : People) (t : Trace) : Act → Prop
  | .add r | .remove r => ∀ other, t.registered other = true →
      people.uid other = people.uid r → other = r

/-- What the two lookups rest on. -/
structure Inverse (people : People) (t : Trace) : Prop where
  /-- The entry of an id is that of the one registered session with it. -/
  sessions : ∀ uid r, (t.hub.sessions uid).map (·.session) = some r ↔
    t.registered r = true ∧ people.uid r = uid
  index : ∀ x uid, Indexed t.hub x uid ↔
    ∃ r, t.registered r = true ∧ people.uid r = uid ∧ people.identifiers r = x
  nonempty : ∀ x ids, t.hub.identifiers x = some ids → ∃ uid, uid ∈ ids

variable {people : People} {h : Hub} {t : Trace} {r : SessionRef}

theorem inverse_start (gatesNum : Nat) : Inverse people { hub := { gatesNum } } where
  sessions := by simp
  index := by simp [Indexed]
  nonempty := by simp

/-- Two registered sessions have different ids. -/
theorem Inverse.apart (inverse : Inverse people t) {other : SessionRef}
    (there : t.registered r = true) (also : t.registered other = true)
    (same : people.uid other = people.uid r) : other = r := by
  have first := (inverse.sessions _ r).mpr ⟨there, rfl⟩
  have second := (inverse.sessions _ other).mpr ⟨also, same⟩
  exact Option.some.inj (second.symm.trans first)

theorem mem_disconnectSessions {x : String} {r : SessionRef} :
    r ∈ h.disconnectSessions x ↔
      ∃ uid, Indexed h x uid ∧ (h.sessions uid).map (·.session) = some r := by
  unfold Hub.disconnectSessions Indexed
  cases h.identifiers x with
  | none => simp
  | some ids => simp [AList.mem_keys]

/-- What is found is among the sessions that would be disconnected. -/
theorem findByIdentifier_mem {walk : GoMap String Bool → List String} (walks : Walk walk)
    {x : String} {r : SessionRef} (found : h.findByIdentifier walk x = some r) :
    r ∈ h.disconnectSessions x := by
  unfold Hub.findByIdentifier at found
  unfold Hub.disconnectSessions
  cases set : h.identifiers x with
  | none => simp [set] at found
  | some ids =>
    simp only [set] at found
    obtain ⟨uid, visited, entry⟩ := List.exists_of_findSome?_eq_some found
    exact List.mem_filterMap.mpr ⟨uid, (walks ids).mem_iff.mp visited, entry⟩

theorem findByIdentifier_isSome {walk : GoMap String Bool → List String} (walks : Walk walk)
    {x : String} {r : SessionRef} (member : r ∈ h.disconnectSessions x) :
    (h.findByIdentifier walk x).isSome = true := by
  unfold Hub.disconnectSessions at member
  unfold Hub.findByIdentifier
  cases set : h.identifiers x with
  | none => simp [set] at member
  | some ids =>
    simp only [set, List.mem_filterMap] at member
    obtain ⟨uid, listed, entry⟩ := member
    simp only [List.findSome?_isSome_iff]
    exact ⟨uid, (walks ids).mem_iff.mpr listed, by simp [entry]⟩

theorem Inverse.exact (inverse : Inverse people t) : Exact people t := by
  have disconnected : ∀ x r, r ∈ t.hub.disconnectSessions x ↔
      t.registered r = true ∧ people.identifiers r = x := by
    intro x r
    rw [mem_disconnectSessions]
    constructor
    · rintro ⟨uid, indexed, entry⟩
      obtain ⟨there, own⟩ := (inverse.sessions uid r).mp entry
      obtain ⟨other, also, same, identifiers⟩ := (inverse.index x uid).mp indexed
      obtain rfl := inverse.apart there also (same.trans own.symm)
      exact ⟨there, identifiers⟩
    · rintro ⟨there, identifiers⟩
      exact ⟨people.uid r, (inverse.index x _).mpr ⟨r, there, rfl, identifiers⟩,
        (inverse.sessions _ r).mpr ⟨there, rfl⟩⟩
  refine ⟨inverse.index, inverse.nonempty, disconnected, ?_, ?_⟩
  · intro walk walks x r found
    exact (disconnected x r).mp (findByIdentifier_mem walks found)
  · intro walk walks r there
    exact findByIdentifier_isSome walks ((disconnected _ r).mpr ⟨there, rfl⟩)

section Maps

variable {s : HubSession} {x uid : String}

/-- The index after `AddSession`. -/
theorem indexed_addSession :
    Indexed (h.addSession s) x uid ↔ (x = s.identifiers ∧ uid = s.uid) ∨ Indexed h x uid := by
  unfold Indexed Hub.addSession
  by_cases same : x = s.identifiers
  · subst same
    cases h.identifiers s.identifiers <;> simp [-AList.insert_empty]
  · simp [same]

/-- The index after the last section of `RemoveSession`. -/
theorem indexed_unregister :
    Indexed (h.unregister s) x uid ↔
      Indexed h x uid ∧ ¬ (x = s.identifiers ∧ uid = s.uid) := by
  unfold Indexed Hub.unregister
  by_cases same : x = s.identifiers
  · subst same
    simp only [Function.update_self, true_and]
    cases found : h.identifiers s.identifiers with
    | none => simp [GoMap.isEmpty]
    | some ids =>
      by_cases emptied : GoMap.isEmpty (ids.erase s.uid) = true
      · have gone := GoMap.isEmpty_iff.mp emptied uid
        simp only [AList.mem_erase, not_and] at gone
        simp only [emptied, if_true, Option.getD_some, reduceCtorEq, false_and, exists_false,
          Option.some.injEq, exists_eq_left', false_iff]
        tauto
      · simp [emptied, AList.mem_erase, and_comm]
  · simp [same]

/-- No set is empty. -/
def NoEmptySet (h : Hub) : Prop := ∀ x ids, h.identifiers x = some ids → ∃ uid, uid ∈ ids

theorem noEmptySet_addSession (full : NoEmptySet h) : NoEmptySet (h.addSession s) := by
  intro x ids found
  simp only [Hub.addSession, Function.update_apply] at found
  split at found
  · cases found
    exact ⟨s.uid, by simp⟩
  · exact full x ids found

theorem noEmptySet_unregister (full : NoEmptySet h) : NoEmptySet (h.unregister s) := by
  intro x ids found
  simp only [Hub.unregister, Function.update_apply] at found
  split at found
  · split at found
    · cases found
    next left =>
      cases found
      simpa [GoMap.isEmpty_iff] using left
  · exact full x ids found

end Maps

/-- Who is registered after the session was added, where its id is its own. -/
theorem registered_add (apart : Apart people t (.add r)) {other : SessionRef} {uid : String} :
    Function.update t.registered r true other = true ∧ people.uid other = uid ↔
      (uid = people.uid r ∧ other = r) ∨
        (uid ≠ people.uid r ∧ t.registered other = true ∧ people.uid other = uid) := by
  by_cases own : other = r
  · subst own
    simp only [Function.update_self, true_and, and_true]
    constructor
    · rintro rfl
      exact Or.inl rfl
    · rintro (rfl | ⟨other, -, same⟩)
      · rfl
      · exact same
  · simp only [Function.update_of_ne own, own, and_false, false_or]
    constructor
    · rintro ⟨there, rfl⟩
      exact ⟨fun same => own (apart other there same), there, rfl⟩
    · exact fun both => both.2

/-- Who is registered after the session was removed, where its id is its own. -/
theorem registered_remove (apart : Apart people t (.remove r)) {other : SessionRef}
    {uid : String} :
    Function.update t.registered r false other = true ∧ people.uid other = uid ↔
      uid ≠ people.uid r ∧ t.registered other = true ∧ people.uid other = uid := by
  by_cases own : other = r
  · subst own
    simp only [Function.update_self, Bool.false_eq_true, false_and, false_iff]
    rintro ⟨different, -, same⟩
    exact different same.symm
  · simp only [Function.update_of_ne own]
    constructor
    · rintro ⟨there, rfl⟩
      exact ⟨fun same => own (apart other there same), there, rfl⟩
    · exact fun both => both.2

theorem add_inverse (inverse : Inverse people t) (apart : Apart people t (.add r)) :
    Inverse people ⟨t.hub.addSession (people.session r), Function.update t.registered r true⟩ where
  sessions := by
    intro uid other
    rw [registered_add apart]
    simp only [Hub.addSession, People.session, Function.update_apply]
    split
    next same =>
      simp only [same, Option.map_some, Option.some.injEq, true_and, ne_eq, not_true, false_and,
        or_false]
      exact eq_comm
    next different => simpa [different] using inverse.sessions uid other
  index := by
    intro x uid
    simp only [← and_assoc, registered_add apart]
    rw [indexed_addSession, inverse.index]
    simp only [People.session]
    by_cases own : uid = people.uid r
    · subst own
      simp only [and_true, true_and, ne_eq, not_true, false_and, or_false, exists_eq_left]
      constructor
      · rintro (rfl | ⟨other, there, same, rfl⟩)
        · rfl
        · rw [apart other there same]
      · rintro rfl
        exact Or.inl rfl
    · simp [own, and_assoc]
  nonempty := noEmptySet_addSession inverse.nonempty

theorem unregister_inverse (inverse : Inverse people t) (apart : Apart people t (.remove r)) :
    Inverse people ⟨t.hub.unregister (people.session r), Function.update t.registered r false⟩ where
  sessions := by
    intro uid other
    rw [registered_remove apart]
    simp only [Hub.unregister, People.session, Function.update_apply]
    split
    next same => simp [same]
    next different => simpa [different] using inverse.sessions uid other
  index := by
    intro x uid
    simp only [← and_assoc, registered_remove apart]
    rw [indexed_unregister, inverse.index]
    simp only [People.session]
    by_cases own : uid = people.uid r
    · subst own
      simp only [and_true, ne_eq, not_true, false_and, exists_false, iff_false, not_and, not_not]
      rintro ⟨other, there, same, rfl⟩
      rw [apart other there same]
    · simp [own, and_assoc]
  nonempty := noEmptySet_unregister inverse.nonempty

/-- Nobody is registered under the id: `RemoveSession` does nothing. -/
theorem absent_inverse (inverse : Inverse people t)
    (absent : t.hub.registered (people.session r) = false) :
    Inverse people ⟨t.hub, Function.update t.registered r false⟩ := by
  have same : Function.update t.registered r false = t.registered := by
    rw [Function.update_eq_self_iff, eq_comm, Bool.eq_false_iff]
    intro there
    have entry := (inverse.sessions _ r).mpr ⟨there, rfl⟩
    simp only [Hub.registered, People.session, Option.isSome_eq_false_iff,
      Option.isNone_iff_eq_none] at absent
    simp [absent] at entry
  rw [same]
  exact inverse

theorem remove_inverse (inverse : Inverse people t) (apart : Apart people t (.remove r)) :
    Inverse people
      ⟨t.hub.removeSession (people.session r), Function.update t.registered r false⟩ := by
  unfold Hub.removeSession
  split
  · rw [Hub.unsubscribeSessionFromAllChannels_eq]
    refine unregister_inverse (t := ⟨t.hub.unsubscribeEach _ _, t.registered⟩) ?_ apart
    exact ⟨by simpa using inverse.sessions, by simpa [Indexed] using inverse.index,
      by simpa using inverse.nonempty⟩
  next absent => exact absent_inverse inverse (by simpa using absent)

theorem step_inverse {a : Act} {next : Trace} (inverse : Inverse people t)
    (apart : Apart people t a) (stepped : step people t a = some next) :
    Inverse people next := by
  cases a with
  | add r => cases stepped; exact add_inverse inverse apart
  | remove r => cases stepped; exact remove_inverse inverse apart

/-- A session that is reached has the entry of some id. -/
theorem Exact.entry (exact : Exact people t) (there : t.registered r = true) :
    ∃ uid, (t.hub.sessions uid).map (·.session) = some r := by
  obtain ⟨uid, -, entry⟩ := mem_disconnectSessions.mp
    ((exact.disconnected _ r).mpr ⟨there, rfl⟩)
  exact ⟨uid, entry⟩

/-- After the call the id of the session has no entry of another one. -/
theorem not_entry_of_step {a : Act} {next : Trace} {uid : String} {other : SessionRef}
    (stepped : step people t a = some next) (about : a = .add r ∨ a = .remove r)
    (different : other ≠ r) (same : people.uid other = people.uid r)
    (inverse : Inverse people t) (there : t.registered other = true) :
    (next.hub.sessions uid).map (·.session) ≠ some other := by
  have before : ∀ uid, uid ≠ people.uid r → (t.hub.sessions uid).map (·.session) ≠ some other :=
    fun uid elsewhere entry =>
      elsewhere (((inverse.sessions uid other).mp entry).2.symm.trans same)
  rcases about with rfl | rfl
  · cases stepped
    simp only [Hub.addSession, People.session, Function.update_apply]
    split
    · simpa using different.symm
    next elsewhere => exact before uid elsewhere
  · cases stepped
    obtain ⟨info, entry, -⟩ := Option.map_eq_some_iff.mp
      ((inverse.sessions (people.uid r) other).mpr ⟨there, same⟩)
    have known : t.hub.registered (people.session r) = true := by
      simp [Hub.registered, People.session, entry]
    rw [Hub.removeSession, if_pos known, Hub.unsubscribeSessionFromAllChannels_eq]
    simp only [Hub.unregister, People.session, Function.update_apply]
    split
    · simp
    next elsewhere => simpa using before uid elsewhere

/-- A session that shares its id is out of reach after the call. -/
theorem apart_of_exact {a : Act} {next : Trace} (inverse : Inverse people t)
    (stepped : step people t a = some next) (exact : Exact people next) : Apart people t a := by
  have reached : ∀ r, (a = .add r ∨ a = .remove r) → ∀ other, t.registered other = true →
      people.uid other = people.uid r → other = r := by
    intro r about other there same
    by_contra different
    have still : next.registered other = true := by
      rcases about with rfl | rfl
      · cases stepped
        exact (Function.update_of_ne different _ _).trans there
      · cases stepped
        exact (Function.update_of_ne different _ _).trans there
    obtain ⟨uid, entry⟩ := exact.entry still
    exact not_entry_of_step stepped about different same inverse there entry
  cases a with
  | add r => exact reached r (Or.inl rfl)
  | remove r => exact reached r (Or.inr rfl)

/-- The index is exact all along a run if and only if no session is added or removed while another
session with its id is registered. -/
theorem exact_iff_apart (people : People) (gatesNum : Nat) (schedule : List Act) :
    Run.Always (step people) (Exact people) { hub := { gatesNum } } schedule ↔
      Run.Meets (step people) (Apart people) { hub := { gatesNum } } schedule := by
  have moves : ∀ t a, ∃ next, step people t a = some next := by
    intro t a
    cases a <;> exact ⟨_, rfl⟩
  obtain ⟨final, ran⟩ := Run.exec_total moves { hub := { gatesNum } } schedule
  exact Run.always_iff_meets (fun _ _ _ inverse apart stepped => step_inverse inverse apart stepped)
    (fun _ _ _ inverse stepped exact => apart_of_exact inverse stepped exact)
    (fun _ inverse => inverse.exact) (inverse_start gatesNum) ran

/-- Two sessions with one id and different identifiers. -/
def twins : People := ⟨fun _ => "id", fun r => if r = 1 then "alice" else "mallory"⟩

/-- Two sessions of one user with one id. -/
def tabs : People := ⟨fun _ => "id", fun _ => "alice"⟩

/-- The second session takes the id over, and a remote disconnect of the first user closes it.
When the first one leaves, the second is no longer found at all. Two sessions of one user fare no
better: the first is not reached, and with it the second one is lost. -/
theorem colliding_ids_mislead :
    (∃ t, Run.exec (step twins) { hub := { gatesNum := 1 } } [.add 1, .add 2] = some t ∧
      t.hub.disconnectSessions "alice" = [2] ∧ ¬ Exact twins t) ∧
    (∃ t, Run.exec (step twins) { hub := { gatesNum := 1 } } [.add 1, .add 2, .remove 1] = some t ∧
      t.hub.disconnectSessions "mallory" = [] ∧ ¬ Exact twins t) ∧
    (∃ t, Run.exec (step tabs) { hub := { gatesNum := 1 } } [.add 1, .add 2] = some t ∧
      t.hub.disconnectSessions "alice" = [2] ∧ ¬ Exact tabs t) ∧
    ∃ t, Run.exec (step tabs) { hub := { gatesNum := 1 } } [.add 1, .add 2, .remove 1] = some t ∧
      t.hub.disconnectSessions "alice" = [] ∧ ¬ Exact tabs t := by
  refine ⟨⟨_, rfl, by decide, fun exact => ?_⟩, ⟨_, rfl, by decide, fun exact => ?_⟩,
    ⟨_, rfl, by decide, fun exact => ?_⟩, ⟨_, rfl, by decide, fun exact => ?_⟩⟩
  · have told := (exact.disconnected "alice" 2).mp (by decide)
    exact absurd told.2 (by decide)
  · exact absurd ((exact.disconnected "mallory" 2).mpr (by decide)) (by decide)
  · exact absurd ((exact.disconnected "alice" 1).mpr (by decide)) (by decide)
  · exact absurd ((exact.disconnected "alice" 2).mpr (by decide)) (by decide)

end AnyCable.Guarantees.IdentifierIndex
