import AnyCable.Lib.Run
import AnyCable.Source.HubEdits
import Mathlib.Tactic.Tauto

/-!
# A removed session leaves the gates

`RemoveSession` takes a session out of the gates by walking the list of stream-identifier
pairs kept for it (`hub/hub.go:210-251`). The list may hold a pair several times and is edited
in place, by `UnsubscribeSessionFromChannel` even while it is walked; the gates know no
multiplicity. The list always covers the gates, which makes the removal complete.

The calls are made one at a time. Session ids are distinct, and a session is added once,
before its subscriptions.
-/

set_option autoImplicit false

namespace AnyCable.Guarantees.GateCleanup
open AnyCable.Lib AnyCable.Source

inductive Act where
  | addSession (r : SessionRef)
  | subscribeSession (r : SessionRef) (stream identifier : String)
  | unsubscribeSession (r : SessionRef) (stream identifier : String)
  | unsubscribeSessionFromChannel (r : SessionRef) (identifier : String)
  | removeSession (r : SessionRef)
  deriving DecidableEq, Repr

structure State where
  hub : Hub
  /-- The sessions added so far. -/
  added : List SessionRef := []

def step (people : People) (x : State) : Act → Option State
  | .addSession r =>
    some { hub := x.hub.addSession (people.session r), added := r :: x.added }
  | .subscribeSession r stream identifier =>
    some { x with hub := x.hub.subscribeSession (people.session r) stream identifier }
  | .unsubscribeSession r stream identifier =>
    some { x with hub := x.hub.unsubscribeSession (people.session r) stream identifier }
  | .unsubscribeSessionFromChannel r identifier =>
    some { x with hub := x.hub.unsubscribeSessionFromChannel (people.session r) identifier }
  | .removeSession r => some { x with hub := x.hub.removeSession (people.session r) }

/-- A session is added once, before its subscriptions. -/
def Orderly (x : State) : Act → Prop
  | .addSession r => r ∉ x.added
  | .subscribeSession r _ _ => r ∈ x.added
  | _ => True

instance (x : State) : (a : Act) → Decidable (Orderly x a)
  | .addSession r => inferInstanceAs (Decidable (r ∉ x.added))
  | .subscribeSession r _ _ => inferInstanceAs (Decidable (r ∈ x.added))
  | .unsubscribeSession .. | .unsubscribeSessionFromChannel .. | .removeSession _ =>
    isTrue trivial

/-- The property of one state. -/
structure Clean (people : People) (h : Hub) : Prop where
  listed : ∀ k r st id, (h.gates k).Has r st id →
    ∃ info, h.sessions (people.uid r) = some info ∧ (st, id) ∈ info.streams
  full : h.NoEmptyMaps
  removed : ∀ r k st id, ¬ ((h.removeSession (people.session r)).gates k).Has r st id
  kept : ∀ r k other st id, other ≠ r →
    (((h.removeSession (people.session r)).gates k).Has other st id ↔
      (h.gates k).Has other st id)

structure Inv (people : People) (x : State) : Prop where
  complete : ∀ r, x.hub.Complete (people.session r)
  fresh : ∀ r, r ∉ x.added → ∀ k st id, ¬ (x.hub.gates k).Has r st id
  full : x.hub.NoEmptyMaps

variable {people : People} {x y : State}

theorem inv_start (gatesNum : Nat) : Inv people { hub := { gatesNum } } where
  complete := fun _ => Hub.complete_of_absent fun _ _ _ => Gate.not_has_empty _ _ _
  fresh := fun _ _ _ _ _ => Gate.not_has_empty _ _ _
  full := fun _ => Gate.noEmptyMap_empty

/-- An edit on behalf of `q` that keeps the list of `q` complete. -/
theorem Inv.edit {q : SessionRef} {h : Hub} {added : List SessionRef}
    (distinct : Function.Injective people.uid) (inv : Inv people x)
    (edits : Hub.Edits (people.session q) x.hub h)
    (own : h.Complete (people.session q))
    (more : ∀ r ∈ x.added, r ∈ added)
    (absent : q ∉ added → ∀ k st id, ¬ (h.gates k).Has q st id) :
    Inv people ⟨h, added⟩ where
  complete := by
    intro r
    by_cases same : r = q
    · subst same
      exact own
    · have list : h.pairsOf (people.session r) = x.hub.pairsOf (people.session r) := by
        unfold Hub.pairsOf
        rw [edits.lists (people.session r).uid fun equal => same (distinct equal)]
      intro k st id has
      rw [edits.gatesNum, list]
      exact inv.complete r k st id ((edits.others k r st id same).mp has)
  fresh := by
    intro r missing k st id has
    by_cases same : r = q
    · subst same
      exact absent missing k st id has
    · exact inv.fresh r (fun before => missing (more r before)) k st id
        ((edits.others k r st id same).mp has)
  full := edits.full inv.full

theorem add_inv {r : SessionRef} (distinct : Function.Injective people.uid)
    (inv : Inv people x) (new : r ∉ x.added) :
    Inv people ⟨x.hub.addSession (people.session r), r :: x.added⟩ := by
  exact inv.edit distinct Hub.edits_addSession (Hub.complete_of_absent (inv.fresh r new))
    (fun q before => by simp [before]) (by simp)

theorem subscribe_inv {r : SessionRef} (distinct : Function.Injective people.uid)
    (inv : Inv people x) (known : r ∈ x.added) (stream identifier : String) :
    Inv people ⟨x.hub.subscribeSession (people.session r) stream identifier, x.added⟩ := by
  exact inv.edit distinct (Hub.edits_subscribeSession stream identifier)
    ((inv.complete r).subscribeSession stream identifier)
    (fun _ before => before) (fun missing => absurd known missing)

/-- The three calls that only take entries away. -/
theorem shrink_inv {r : SessionRef} {h : Hub} (distinct : Function.Injective people.uid)
    (inv : Inv people x) (edits : Hub.Edits (people.session r) x.hub h)
    (own : h.Complete (people.session r))
    (fewer : ∀ k st id, (h.gates k).Has r st id → (x.hub.gates k).Has r st id) :
    Inv people ⟨h, x.added⟩ :=
  inv.edit distinct edits own (fun _ before => before)
    fun missing k st id has => inv.fresh r missing k st id (fewer k st id has)

theorem unsubscribe_inv {r : SessionRef} (distinct : Function.Injective people.uid)
    (inv : Inv people x) (stream identifier : String) :
    Inv people ⟨x.hub.unsubscribeSession (people.session r) stream identifier, x.added⟩ := by
  refine shrink_inv distinct inv (Hub.edits_unsubscribeSession stream identifier)
    ((inv.complete r).unsubscribeSession stream identifier) fun k st id has => ?_
  rw [Hub.gates_unsubscribeSession] at has
  exact (Hub.has_gateUnsubscribe.mp has).1

theorem unsubscribeFromChannel_inv {r : SessionRef} (distinct : Function.Injective people.uid)
    (inv : Inv people x) (identifier : String) :
    Inv people
      ⟨x.hub.unsubscribeSessionFromChannel (people.session r) identifier, x.added⟩ := by
  exact shrink_inv distinct inv (Hub.edits_unsubscribeSessionFromChannel identifier)
    ((inv.complete r).unsubscribeSessionFromChannel identifier)
    fun k st id has => (Hub.has_unsubscribeSessionFromChannel.mp has).1

theorem remove_inv {r : SessionRef} (distinct : Function.Injective people.uid)
    (inv : Inv people x) :
    Inv people ⟨x.hub.removeSession (people.session r), x.added⟩ := by
  have gone := Hub.removeSession_clears (inv.complete r)
  exact shrink_inv distinct inv Hub.edits_removeSession
    (Hub.complete_of_absent gone) (fun k st id has => absurd has (gone k st id))

theorem step_inv {a : Act} (distinct : Function.Injective people.uid) (inv : Inv people x)
    (orderly : Orderly x a) (stepped : step people x a = some y) : Inv people y := by
  cases a with
  | addSession r => cases stepped; exact add_inv distinct inv orderly
  | subscribeSession r stream identifier =>
    cases stepped
    exact subscribe_inv distinct inv orderly stream identifier
  | unsubscribeSession r stream identifier =>
    cases stepped
    exact unsubscribe_inv distinct inv stream identifier
  | unsubscribeSessionFromChannel r identifier =>
    cases stepped
    exact unsubscribeFromChannel_inv distinct inv identifier
  | removeSession r => cases stepped; exact remove_inv distinct inv

theorem Inv.clean (inv : Inv people x) : Clean people x.hub where
  listed := by
    intro k r st id has
    have member := (inv.complete r k st id has).2
    unfold Hub.pairsOf at member
    cases entry : x.hub.sessions (people.session r).uid with
    | none => simp [entry] at member
    | some info => exact ⟨info, entry, by simpa [entry] using member⟩
  full := inv.full
  removed := fun r k st id => Hub.removeSession_clears (inv.complete r) k st id
  kept := fun r k other st id different => Hub.edits_removeSession.others k other st id different

/-- After any calls, the lists cover the gates, no gate keeps an empty map, and removing a
session takes exactly its entries out of the gates. -/
theorem lists_cover_gates (people : People) (distinct : Function.Injective people.uid)
    (gatesNum : Nat) (schedule : List Act) (x : State)
    (orderly : Run.Meets (step people) Orderly { hub := { gatesNum } } schedule)
    (ran : Run.exec (step people) { hub := { gatesNum } } schedule = some x) :
    Clean people x.hub := by
  have inv := Run.invariant_of_meets
    (fun _ _ _ inv ok stepped => step_inv distinct inv ok stepped) (inv_start gatesNum)
    orderly ran
  exact inv.clean

/-- Sessions with the ids "", "a", "aa" and so on. -/
def crowd : People := ⟨fun r => String.ofList (List.replicate r 'a'), fun _ => "user"⟩

theorem crowd_distinct : Function.Injective crowd.uid := by
  intro a b same
  simpa [crowd] using congrArg String.length same

/-- A pair is subscribed twice and stopped once, and the session leaves. -/
def twice : List Act :=
  [.addSession 1, .addSession 2, .subscribeSession 1 "chat" "channel",
   .subscribeSession 1 "chat" "channel", .subscribeSession 1 "news" "channel",
   .subscribeSession 2 "chat" "channel", .unsubscribeSessionFromChannel 1 "channel",
   .removeSession 1]

theorem twice_clean :
    ∃ x, Run.exec (step crowd) { hub := { gatesNum := 1 } } twice = some x ∧
      (x.hub.gates 0).Has 2 "chat" "channel" ∧ Clean crowd x.hub :=
  ⟨_, rfl, by decide +kernel,
    lists_cover_gates crowd crowd_distinct 1 twice _ (by decide +kernel) rfl⟩

end AnyCable.Guarantees.GateCleanup
