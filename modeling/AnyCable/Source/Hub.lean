import AnyCable.Source.Gate
import AnyCable.Lib.Slice
import Mathlib.Logic.Function.Basic

/-!
# The hub

Source: `hub/hub.go`. The hub shards the subscriptions over gates and lists, per session
id, the stream-identifier pairs of that session. `SubscribeSession`, `UnsubscribeSession`
and `RemoveSession` take the gate locks and the hub lock one after the other; each locked
section is a definition of its own and the whole method is their composition.

`RemoveStream` moves elements inside the backing array of the list, and
`UnsubscribeSessionFromChannel` calls it while ranging over that array.
-/

set_option autoImplicit false

namespace AnyCable.Source
open AnyCable.Lib

/-- What the hub asks of a session: its identity, `GetID` and `GetIdentifiers`. -/
structure HubSession where
  ref : SessionRef
  uid : String
  identifiers : String
  deriving DecidableEq, Repr

/-- The sessions of a run: what `GetID` and `GetIdentifiers` return for each of them. -/
structure People where
  uid : SessionRef → String
  identifiers : SessionRef → String

def People.session (people : People) (r : SessionRef) : HubSession :=
  ⟨r, people.uid r, people.identifiers r⟩

structure HubSessionInfo where
  session : SessionRef
  /-- Stream-identifier pairs. -/
  streams : List (String × String) := []
  deriving DecidableEq, Repr

def HubSessionInfo.addStream (info : HubSessionInfo) (stream identifier : String) :
    HubSessionInfo :=
  { info with streams := info.streams ++ [(stream, identifier)] }

/-- The first occurrence goes. -/
def HubSessionInfo.removeStream (info : HubSessionInfo) (stream identifier : String) :
    HubSessionInfo :=
  { info with streams := ((Slice.ofList info.streams).removeFirst (stream, identifier)).items }

/-- A queued (un)registration. -/
inductive HubRegistration where
  | add (session : SessionRef)
  | remove (session : SessionRef)
  deriving DecidableEq, Repr

/-- `fnv.New64a` over the bytes of a string. -/
def fnv64a (s : String) : UInt64 :=
  s.toUTF8.data.foldl (fun hash byte => (hash ^^^ byte.toUInt64) * 1099511628211)
    14695981039346656037

/-- The gate of a stream. -/
def index (stream : String) (size : Nat) : Nat :=
  if size = 1 then 0 else (fnv64a stream).toNat % size

structure Hub where
  gatesNum : Nat
  gates : Nat → Gate := fun _ => {}
  sessions : String → Option HubSessionInfo := fun _ => none
  identifiers : String → Option (GoMap String Bool) := fun _ => none
  /-- Messages waiting in the `broadcast` channel, oldest first. -/
  broadcast : List StreamMessage := []
  /-- Requests waiting in the `register` channel, oldest first. -/
  register : List HubRegistration := []

namespace Hub

/-- Capacity of the `broadcast` channel. -/
def broadcastCap : Nat := 256

/-- Capacity of the `register` channel. -/
def registerCap : Nat := 2048

def setGate (h : Hub) (k : Nat) (g : Gate) : Hub :=
  { h with gates := Function.update h.gates k g }

/-- The gate that serves a stream. -/
def gateOf (h : Hub) (stream : String) : Gate := h.gates (index stream h.gatesNum)

def addSession (h : Hub) (s : HubSession) : Hub :=
  let ids := (h.identifiers s.identifiers).getD ∅
  { h with
    sessions := Function.update h.sessions s.uid (some { session := s.ref })
    identifiers := Function.update h.identifiers s.identifiers (some (ids.insert s.uid true)) }

/-- The first, read-locked section of `RemoveSession`. -/
def registered (h : Hub) (s : HubSession) : Bool := (h.sessions s.uid).isSome

def gateSubscribe (h : Hub) (s : HubSession) (stream identifier : String) : Hub :=
  h.setGate (index stream h.gatesNum) ((h.gateOf stream).subscribe s.ref stream identifier)

def gateUnsubscribe (h : Hub) (s : HubSession) (stream identifier : String) : Hub :=
  h.setGate (index stream h.gatesNum) ((h.gateOf stream).unsubscribe s.ref stream identifier)

/-- The loop of `unsubscribeSessionFromAllChannels`. -/
def unsubscribeEach (h : Hub) (s : HubSession) (pairs : List (String × String)) : Hub :=
  pairs.foldl (fun h p => h.gateUnsubscribe s p.1 p.2) h

def unsubscribeSessionFromAllChannels (h : Hub) (s : HubSession) : Hub :=
  match h.sessions s.uid with
  | none => h
  | some info => h.unsubscribeEach s info.streams

/-- The last section of `RemoveSession`. Deleting from a missing map does nothing. -/
def unregister (h : Hub) (s : HubSession) : Hub :=
  let ids := ((h.identifiers s.identifiers).getD ∅).erase s.uid
  { h with
    sessions := Function.update h.sessions s.uid none
    identifiers := Function.update h.identifiers s.identifiers
      (if GoMap.isEmpty ids then none else some ids) }

def removeSession (h : Hub) (s : HubSession) : Hub :=
  if h.registered s then (h.unsubscribeSessionFromAllChannels s).unregister s else h

/-- One turn of the loop in `UnsubscribeSessionFromChannel`: the element now at place `i`
of the backing array. -/
def channelTurn (s : HubSession) (target : String) (acc : Hub × Slice (String × String))
    (i : Nat) : Hub × Slice (String × String) :=
  match acc.2.array[i]? with
  | none => acc
  | some (stream, identifier) =>
    if target = identifier then
      (acc.1.gateUnsubscribe s stream identifier, acc.2.removeFirst (stream, identifier))
    else acc

def unsubscribeSessionFromChannel (h : Hub) (s : HubSession) (target : String) : Hub :=
  match h.sessions s.uid with
  | none => h
  | some info =>
    let (h, left) := (List.range info.streams.length).foldl (channelTurn s target)
      (h, Slice.ofList info.streams)
    { h with sessions := Function.update h.sessions s.uid (some { info with streams := left.items }) }

/-- The locked section of `SubscribeSession`: an unknown session gets an entry. -/
def addStream (h : Hub) (s : HubSession) (stream identifier : String) : Hub :=
  let info := (h.sessions s.uid).getD { session := s.ref }
  { h with sessions := Function.update h.sessions s.uid (some (info.addStream stream identifier)) }

def subscribeSession (h : Hub) (s : HubSession) (stream identifier : String) : Hub :=
  (h.gateSubscribe s stream identifier).addStream s stream identifier

/-- The locked section of `UnsubscribeSession`. -/
def removeStream (h : Hub) (s : HubSession) (stream identifier : String) : Hub :=
  match h.sessions s.uid with
  | none => h
  | some info =>
    { h with sessions := Function.update h.sessions s.uid (some (info.removeStream stream identifier)) }

def unsubscribeSession (h : Hub) (s : HubSession) (stream identifier : String) : Hub :=
  (h.gateUnsubscribe s stream identifier).removeStream s stream identifier

/-- The sessions that `disconnectSessions` sends `DisconnectWithMessage` to. -/
def disconnectSessions (h : Hub) (identifier : String) : List SessionRef :=
  match h.identifiers identifier with
  | none => []
  | some ids => ids.keys.filterMap fun uid => (h.sessions uid).map (·.session)

/-- `walk` is the order in which Go ranges over the set of ids. -/
def findByIdentifier (h : Hub) (walk : GoMap String Bool → List String) (identifier : String) :
    Option SessionRef :=
  match h.identifiers identifier with
  | none => none
  | some ids => (walk ids).findSome? fun uid => (h.sessions uid).map (·.session)

/-- Number of streams. -/
def streamsSize (h : Hub) : Nat := ((List.range h.gatesNum).map fun k => (h.gates k).size).sum

/-- The `Send` calls for a message that `broadcastToStream` passes to its gate. -/
def broadcastToStream (h : Hub) (uid : SessionRef → String) (msg : StreamMessage) :
    List (SessionRef × String) :=
  let gate := h.gateOf msg.stream
  if gate.hasStream msg.stream then gate.targets uid msg else []

/-- Every subscription of the session is in the gate of its stream and among the pairs. -/
def Covers (h : Hub) (s : HubSession) (pairs : List (String × String)) : Prop :=
  ∀ k st id, (h.gates k).Has s.ref st id → k = index st h.gatesNum ∧ (st, id) ∈ pairs

/-- The pairs listed for the session; none if it is not registered. -/
def pairsOf (h : Hub) (s : HubSession) : List (String × String) :=
  ((h.sessions s.uid).map (·.streams)).getD []

section Lemmas

variable {h : Hub} {s : HubSession} {pairs : List (String × String)}

theorem has_gateSubscribe {k : Nat} {r : SessionRef} {stream st identifier id : String} :
    ((h.gateSubscribe s stream identifier).gates k).Has r st id ↔
      (k = index stream h.gatesNum ∧ r = s.ref ∧ st = stream ∧ id = identifier) ∨
        (h.gates k).Has r st id := by
  simp only [gateSubscribe, setGate, Function.update_apply]
  split
  next same =>
    subst same
    simp only [Gate.has_subscribe, gateOf, true_and]
  next other => simp [other]

theorem has_gateUnsubscribe {k : Nat} {r : SessionRef} {stream st identifier id : String} :
    ((h.gateUnsubscribe s stream identifier).gates k).Has r st id ↔
      (h.gates k).Has r st id ∧
        ¬ (k = index stream h.gatesNum ∧ r = s.ref ∧ st = stream ∧ id = identifier) := by
  simp only [gateUnsubscribe, setGate, Function.update_apply]
  split
  next same =>
    subst same
    simp only [Gate.has_unsubscribe, gateOf, true_and]
  next other => simp [other]

theorem covers_gateSubscribe (covers : h.Covers s pairs) (stream identifier : String) :
    (h.gateSubscribe s stream identifier).Covers s (pairs ++ [(stream, identifier)]) := by
  intro k st id has
  rcases has_gateSubscribe.mp has with ⟨place, -, rfl, rfl⟩ | before
  · exact ⟨place, by simp⟩
  · obtain ⟨place, member⟩ := covers k st id before
    exact ⟨place, List.mem_append_left _ member⟩

theorem covers_gateUnsubscribe (covers : h.Covers s pairs) (stream identifier : String) :
    (h.gateUnsubscribe s stream identifier).Covers s (pairs.erase (stream, identifier)) := by
  intro k st id has
  obtain ⟨before, other⟩ := has_gateUnsubscribe.mp has
  obtain ⟨place, member⟩ := covers k st id before
  refine ⟨place, (List.mem_erase_of_ne ?_).mpr member⟩
  rintro same
  cases same
  exact other ⟨place, rfl, rfl, rfl⟩

theorem Covers.mono (covers : h.Covers s pairs) {more : List (String × String)}
    (subset : ∀ p ∈ pairs, p ∈ more) : h.Covers s more :=
  fun k st id has => ⟨(covers k st id has).1, subset _ (covers k st id has).2⟩

@[simp] theorem unsubscribeEach_frame :
    (h.unsubscribeEach s pairs).sessions = h.sessions ∧
    (h.unsubscribeEach s pairs).register = h.register ∧
    (h.unsubscribeEach s pairs).gatesNum = h.gatesNum ∧
    (h.unsubscribeEach s pairs).identifiers = h.identifiers := by
  unfold unsubscribeEach
  induction pairs generalizing h with
  | nil => exact ⟨rfl, rfl, rfl, rfl⟩
  | cons p pairs ih => exact ih

theorem covers_unsubscribeEach {listed : List (String × String)} (covers : h.Covers s listed) :
    (h.unsubscribeEach s pairs).Covers s (pairs.foldl List.erase listed) := by
  unfold unsubscribeEach
  induction pairs generalizing h listed with
  | nil => exact covers
  | cons p pairs ih => exact ih (covers_gateUnsubscribe covers p.1 p.2)

theorem eraseEach_subset {listed : List (String × String)} :
    ∀ p ∈ pairs.foldl List.erase listed, p ∈ listed := by
  induction pairs generalizing listed with
  | nil => exact fun _ member => member
  | cons q pairs ih => exact fun p member => List.mem_of_mem_erase (ih p member)

theorem eraseEach_self {rest : List (String × String)} :
    pairs.foldl List.erase (pairs ++ rest) = rest := by
  induction pairs with
  | nil => rfl
  | cons p pairs ih => simpa using ih

/-- The loop takes some pairs out of the gates, and the same ones out of the list. -/
theorem channelTurns_removed (s : HubSession) (target : String) (turns : List Nat)
    (acc : Hub × Slice (String × String)) :
    ∃ removed, (turns.foldl (channelTurn s target) acc).1 = acc.1.unsubscribeEach s removed ∧
      (turns.foldl (channelTurn s target) acc).2.items = removed.foldl List.erase acc.2.items := by
  induction turns generalizing acc with
  | nil => exact ⟨[], rfl, rfl⟩
  | cons i turns ih =>
    obtain ⟨removed, hub, items⟩ := ih (channelTurn s target acc i)
    have turn : channelTurn s target acc i = acc ∨ ∃ p : String × String,
        channelTurn s target acc i = (acc.1.gateUnsubscribe s p.1 p.2, acc.2.removeFirst p) := by
      unfold channelTurn
      split
      · exact Or.inl rfl
      next stream identifier found =>
        split
        · exact Or.inr ⟨(stream, identifier), rfl⟩
        · exact Or.inl rfl
    rcases turn with same | ⟨p, moved⟩
    · rw [same] at hub items
      exact ⟨removed, by simpa [same] using hub, by simpa [same] using items⟩
    · rw [moved] at hub items
      refine ⟨p :: removed, by simpa [moved, unsubscribeEach] using hub, ?_⟩
      simpa [moved, Slice.items_removeFirst] using items

theorem has_unsubscribeEach {k : Nat} {r : SessionRef} {st id : String} :
    ((h.unsubscribeEach s pairs).gates k).Has r st id ↔
      (h.gates k).Has r st id ∧
        ¬ (k = index st h.gatesNum ∧ r = s.ref ∧ (st, id) ∈ pairs) := by
  unfold unsubscribeEach
  induction pairs generalizing h with
  | nil => simp
  | cons p pairs ih =>
    have gatesNum : (h.gateUnsubscribe s p.1 p.2).gatesNum = h.gatesNum := rfl
    rw [List.foldl_cons, ih, has_gateUnsubscribe, gatesNum, List.mem_cons, Prod.ext_iff, and_assoc,
      ← not_or]
    refine and_congr_right fun _ => not_congr ?_
    constructor
    · rintro (⟨place, own, rfl, rfl⟩ | ⟨place, own, later⟩)
      · exact ⟨place, own, Or.inl ⟨rfl, rfl⟩⟩
      · exact ⟨place, own, Or.inr later⟩
    · rintro ⟨place, own, ⟨rfl, rfl⟩ | later⟩
      · exact Or.inl ⟨place, own, rfl, rfl⟩
      · exact Or.inr ⟨place, own, later⟩

theorem channelTurn_eq (s : HubSession) (target : String) :
    channelTurn s target = Slice.removeTurn (fun p => target = p.2)
      (fun h p => h.gateUnsubscribe s p.1 p.2) := by
  funext acc i
  unfold channelTurn Slice.removeTurn
  cases acc.2.array[i]? with
  | none => rfl
  | some p => simp

/-- `UnsubscribeSessionFromChannel` takes those pairs of the channel out of the gates that its
loop comes across. -/
theorem has_unsubscribeSessionFromChannel {target : String} {k : Nat} {r : SessionRef}
    {st id : String} :
    ((h.unsubscribeSessionFromChannel s target).gates k).Has r st id ↔
      (h.gates k).Has r st id ∧ ¬ (k = index st h.gatesNum ∧ r = s.ref ∧
        (st, id) ∈ Slice.reached (fun p => target = p.2) (h.pairsOf s)) := by
  unfold unsubscribeSessionFromChannel pairsOf
  cases h.sessions s.uid with
  | none => simp [Slice.reached]
  | some info =>
    obtain ⟨visited, gates, members⟩ := Slice.removeLoop_reached (fun p => decide (target = p.2))
      (fun h p => h.gateUnsubscribe s p.1 p.2) info.streams h
    have loop : ((h.unsubscribeEach s visited).gates k).Has r st id ↔ _ := has_unsubscribeEach
    rw [unsubscribeEach, ← gates, members] at loop
    dsimp only
    rw [channelTurn_eq]
    exact loop

/-- The list loses every pair as often as the loop comes across it. -/
theorem pairsOf_unsubscribeSessionFromChannel (target : String) :
    (h.unsubscribeSessionFromChannel s target).pairsOf s =
      (h.pairsOf s).diff (Slice.visits (fun p => target = p.2) 0 (h.pairsOf s)) := by
  unfold unsubscribeSessionFromChannel
  cases found : h.sessions s.uid with
  | none => simp [pairsOf, found, Slice.visits]
  | some info =>
    have loop := (Slice.removeLoop_visits (fun p => decide (target = p.2))
      (fun h p => h.gateUnsubscribe s p.1 p.2) info.streams h).2
    dsimp only
    rw [channelTurn_eq]
    simp [pairsOf, found, loop, List.diff_eq_foldl]

/-- What `UnsubscribeSessionFromChannel` does to the gates and to the list. -/
theorem unsubscribeSessionFromChannel_effect (h : Hub) (s : HubSession) (target : String) :
    ∃ removed,
      (h.unsubscribeSessionFromChannel s target).gates = (h.unsubscribeEach s removed).gates ∧
      (h.unsubscribeSessionFromChannel s target).gatesNum = h.gatesNum ∧
      (h.unsubscribeSessionFromChannel s target).register = h.register ∧
      (h.unsubscribeSessionFromChannel s target).pairsOf s =
        removed.foldl List.erase (h.pairsOf s) ∧
      ((h.unsubscribeSessionFromChannel s target).sessions s.uid).isSome =
        (h.sessions s.uid).isSome := by
  unfold unsubscribeSessionFromChannel
  cases found : h.sessions s.uid with
  | none => exact ⟨[], rfl, rfl, rfl, rfl, by simp [found]⟩
  | some info =>
    obtain ⟨removed, hub, items⟩ := channelTurns_removed s target
      (List.range info.streams.length) (h, Slice.ofList info.streams)
    simp only [Slice.items_ofList] at items
    refine ⟨removed, ?_, ?_, ?_, ?_, ?_⟩
    · simp [hub]
    · simp [hub]
    · simp [hub]
    · simp [pairsOf, found, items]
    · simp

theorem unsubscribeSessionFromAllChannels_eq :
    h.unsubscribeSessionFromAllChannels s = h.unsubscribeEach s (h.pairsOf s) := by
  unfold unsubscribeSessionFromAllChannels pairsOf
  cases h.sessions s.uid <;> rfl

theorem covers_congr {other : Hub} (gates : other.gates = h.gates)
    (gatesNum : other.gatesNum = h.gatesNum) (covers : h.Covers s pairs) :
    other.Covers s pairs := by
  unfold Covers
  rw [gates, gatesNum]
  exact covers

theorem pairsOf_addStream (stream identifier : String) :
    (h.addStream s stream identifier).pairsOf s = h.pairsOf s ++ [(stream, identifier)] := by
  unfold pairsOf addStream
  cases h.sessions s.uid <;> simp [HubSessionInfo.addStream]

theorem removeStream_frame (stream identifier : String) :
    (h.removeStream s stream identifier).gates = h.gates ∧
    (h.removeStream s stream identifier).gatesNum = h.gatesNum ∧
    (h.removeStream s stream identifier).register = h.register ∧
    ((h.removeStream s stream identifier).sessions s.uid).isSome = (h.sessions s.uid).isSome := by
  unfold removeStream
  cases found : h.sessions s.uid <;> simp [found]

theorem pairsOf_removeStream (stream identifier : String) :
    (h.removeStream s stream identifier).pairsOf s =
      (h.pairsOf s).erase (stream, identifier) := by
  unfold pairsOf removeStream
  cases found : h.sessions s.uid with
  | none => simp [found]
  | some info =>
    simp [HubSessionInfo.removeStream, Slice.items_removeFirst, Slice.items_ofList]

end Lemmas

end Hub

end AnyCable.Source
