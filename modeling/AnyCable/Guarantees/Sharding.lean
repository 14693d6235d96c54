import AnyCable.Lib.Run
import AnyCable.Source.HubLoops

/-!
# Any number of gates serves like one

The hub spreads its streams over gates by a hash of the stream name (`hub/hub.go:365-382`) and
every operation goes to the gate of its stream (`hub/hub.go:238-307`). The gates together hold
the map that a single gate would hold (`AnyCable.Lib.Splits`); a hub with `n` gates and a hub
with one gate therefore take the same operations and make the same `Send` calls in the same
order (`gates_transparent`).

The operations are processed one at a time. `broadcast` carries the order in which Go walks the
subscribers, so that a run of one hub is compared with the run of the other that walks alike.
-/

set_option autoImplicit false

namespace AnyCable.Guarantees.Sharding
open AnyCable.Lib AnyCable.Source
open AnyCable.Source.HubLoops (Send)

inductive Act where
  | addSession (r : SessionRef)
  | subscribeSession (r : SessionRef) (stream identifier : String)
  | unsubscribeSession (r : SessionRef) (stream identifier : String)
  | unsubscribeSessionFromChannel (r : SessionRef) (identifier : String)
  | removeSession (r : SessionRef)
  | broadcast (msg : StreamMessage) (order : List (SessionRef × String))

structure State where
  hub : Hub
  sent : List (Send StreamMessage) := []

def State.start (gatesNum : Nat) : State := { hub := { gatesNum } }

def step (people : People) (x : State) : Act → Option State
  | .addSession r => some { x with hub := x.hub.addSession (people.session r) }
  | .subscribeSession r stream identifier =>
    some { x with hub := x.hub.subscribeSession (people.session r) stream identifier }
  | .unsubscribeSession r stream identifier =>
    some { x with hub := x.hub.unsubscribeSession (people.session r) stream identifier }
  | .unsubscribeSessionFromChannel r identifier =>
    some { x with hub := x.hub.unsubscribeSessionFromChannel (people.session r) identifier }
  | .removeSession r => some { x with hub := x.hub.removeSession (people.session r) }
  | .broadcast msg order =>
    if order.Perm (x.hub.broadcastToStream people.uid msg) then
      some { x with sent := x.sent ++ order.map fun p => ⟨p.1, p.2, msg⟩ }
    else none

/-- The hub with `n` gates holds what the hub with one gate holds. -/
structure Mirrors (n : Nat) (h one : Hub) : Prop where
  gatesNum : h.gatesNum = n
  single : one.gatesNum = 1
  sessions : h.sessions = one.sessions
  splits : Splits (index · n) (fun k => (h.gates k).streams) (one.gates 0).streams

theorem index_lt {n : Nat} (positive : 1 ≤ n) (stream : String) : index stream n < n := by
  unfold index
  split
  · omega
  · exact Nat.mod_lt _ (by omega)

theorem index_one (stream : String) : index stream 1 = 0 := rfl

variable {n : Nat} {h one : Hub} {s : HubSession}

theorem mirrors_start (n : Nat) : Mirrors n { gatesNum := n } { gatesNum := 1 } where
  gatesNum := rfl
  single := rfl
  sessions := rfl
  splits := Splits.empty

/-- An operation on the gate of a stream. -/
theorem Mirrors.setGate (mirrors : Mirrors n h one) {stream : String} (op : Gate → Gate)
    (changes : ∃ f, ChangesOnly stream f fun streams => (op ⟨streams⟩).streams) :
    Mirrors n (h.setGate (index stream h.gatesNum) (op (h.gateOf stream)))
      (one.setGate (index stream one.gatesNum) (op (one.gateOf stream))) where
  gatesNum := mirrors.gatesNum
  single := mirrors.single
  sessions := mirrors.sessions
  splits := by
    obtain ⟨f, changes⟩ := changes
    have after := mirrors.splits.change changes
    have shards : (fun k => ((h.setGate (index stream h.gatesNum) (op (h.gateOf stream))).gates
        k).streams) = Function.update (fun k => (h.gates k).streams) (index stream n)
          (op ⟨(h.gates (index stream n)).streams⟩).streams := by
      funext k
      simp only [Hub.setGate, Hub.gateOf, mirrors.gatesNum, Function.update_apply]
      split <;> rfl
    have whole : ((one.setGate (index stream one.gatesNum) (op (one.gateOf stream))).gates
        0).streams = (op ⟨(one.gates 0).streams⟩).streams := by
      simp only [Hub.setGate, Hub.gateOf, mirrors.single, index_one, Function.update_self]
    rw [shards, whole]
    exact after

theorem Mirrors.gateSubscribe (mirrors : Mirrors n h one) (stream identifier : String) :
    Mirrors n (h.gateSubscribe s stream identifier) (one.gateSubscribe s stream identifier) :=
  mirrors.setGate (·.subscribe s.ref stream identifier)
    (Gate.subscribe_changesOnly s.ref stream identifier)

theorem Mirrors.gateUnsubscribe (mirrors : Mirrors n h one) (stream identifier : String) :
    Mirrors n (h.gateUnsubscribe s stream identifier) (one.gateUnsubscribe s stream identifier) :=
  mirrors.setGate (·.unsubscribe s.ref stream identifier)
    (Gate.unsubscribe_changesOnly s.ref stream identifier)

theorem Mirrors.unsubscribeEach (mirrors : Mirrors n h one) (pairs : List (String × String)) :
    Mirrors n (h.unsubscribeEach s pairs) (one.unsubscribeEach s pairs) := by
  unfold Hub.unsubscribeEach
  induction pairs generalizing h one with
  | nil => exact mirrors
  | cons p pairs ih => exact ih (mirrors.gateUnsubscribe p.1 p.2)

/-- The session maps are changed alike. -/
theorem Mirrors.withSessions (mirrors : Mirrors n h one)
    (sessions : String → Option HubSessionInfo) :
    Mirrors n { h with sessions } { one with sessions } where
  gatesNum := mirrors.gatesNum
  single := mirrors.single
  sessions := rfl
  splits := mirrors.splits

theorem Mirrors.addSession (mirrors : Mirrors n h one) :
    Mirrors n (h.addSession s) (one.addSession s) where
  gatesNum := mirrors.gatesNum
  single := mirrors.single
  sessions := by simp [Hub.addSession, mirrors.sessions]
  splits := mirrors.splits

theorem Mirrors.unregister (mirrors : Mirrors n h one) :
    Mirrors n (h.unregister s) (one.unregister s) where
  gatesNum := mirrors.gatesNum
  single := mirrors.single
  sessions := by simp [Hub.unregister, mirrors.sessions]
  splits := mirrors.splits

theorem Mirrors.subscribeSession (mirrors : Mirrors n h one) (stream identifier : String) :
    Mirrors n (h.subscribeSession s stream identifier)
      (one.subscribeSession s stream identifier) := by
  have gated := mirrors.gateSubscribe (s := s) stream identifier
  unfold Hub.subscribeSession Hub.addStream
  rw [gated.sessions]
  exact gated.withSessions _

theorem Mirrors.unsubscribeSession (mirrors : Mirrors n h one) (stream identifier : String) :
    Mirrors n (h.unsubscribeSession s stream identifier)
      (one.unsubscribeSession s stream identifier) := by
  have gated := mirrors.gateUnsubscribe (s := s) stream identifier
  unfold Hub.unsubscribeSession Hub.removeStream
  rw [gated.sessions]
  split
  · exact gated
  · exact gated.withSessions _

/-- Both hubs walk the same list and meet the same pairs. -/
theorem Mirrors.channelTurns (target : String) (turns : List Nat)
    (left : Slice (String × String)) (mirrors : Mirrors n h one) :
    Mirrors n (turns.foldl (Hub.channelTurn s target) (h, left)).1
      (turns.foldl (Hub.channelTurn s target) (one, left)).1 ∧
    (turns.foldl (Hub.channelTurn s target) (h, left)).2 =
      (turns.foldl (Hub.channelTurn s target) (one, left)).2 := by
  induction turns generalizing h one left with
  | nil => exact ⟨mirrors, rfl⟩
  | cons i turns ih =>
    simp only [List.foldl_cons, Hub.channelTurn]
    split
    · exact ih left mirrors
    next stream identifier found =>
      split
      · exact ih _ (mirrors.gateUnsubscribe stream identifier)
      · exact ih left mirrors

theorem Mirrors.unsubscribeSessionFromChannel (mirrors : Mirrors n h one) (target : String) :
    Mirrors n (h.unsubscribeSessionFromChannel s target)
      (one.unsubscribeSessionFromChannel s target) := by
  unfold Hub.unsubscribeSessionFromChannel
  rw [mirrors.sessions]
  split
  · exact mirrors
  next info found =>
    obtain ⟨walked, same⟩ := mirrors.channelTurns (s := s) target
      (List.range info.streams.length) (Slice.ofList info.streams)
    dsimp only
    rw [same, walked.sessions]
    exact walked.withSessions _

theorem Mirrors.removeSession (mirrors : Mirrors n h one) :
    Mirrors n (h.removeSession s) (one.removeSession s) := by
  have registered : h.registered s = one.registered s := by
    unfold Hub.registered
    rw [mirrors.sessions]
  have pairs : h.pairsOf s = one.pairsOf s := by
    unfold Hub.pairsOf
    rw [mirrors.sessions]
  unfold Hub.removeSession
  rw [registered]
  split
  · rw [Hub.unsubscribeSessionFromAllChannels_eq, Hub.unsubscribeSessionFromAllChannels_eq, pairs]
    exact (mirrors.unsubscribeEach _).unregister
  · exact mirrors

theorem Mirrors.broadcastToStream (mirrors : Mirrors n h one) (uid : SessionRef → String)
    (msg : StreamMessage) : h.broadcastToStream uid msg = one.broadcastToStream uid msg := by
  have entry : (h.gateOf msg.stream).streams.lookup msg.stream =
      (one.gateOf msg.stream).streams.lookup msg.stream := by
    unfold Hub.gateOf
    rw [mirrors.gatesNum, mirrors.single, index_one]
    exact mirrors.splits.lookup msg.stream
  have check : (h.gateOf msg.stream).hasStream msg.stream =
      (one.gateOf msg.stream).hasStream msg.stream := by
    unfold Gate.hasStream
    rw [entry]
  have targets : (h.gateOf msg.stream).targets uid msg =
      (one.gateOf msg.stream).targets uid msg := by
    unfold Gate.targets
    rw [entry]
  unfold Hub.broadcastToStream
  dsimp only
  rw [check, targets]

theorem Mirrors.streamsSize (mirrors : Mirrors n h one) (positive : 1 ≤ n) :
    h.streamsSize = (one.gates 0).size := by
  unfold Hub.streamsSize
  rw [mirrors.gatesNum]
  exact mirrors.splits.sum_sizes (index_lt positive)

/-- The two runs side by side. -/
structure Alike (n : Nat) (x y : State) : Prop where
  hubs : Mirrors n x.hub y.hub
  sent : x.sent = y.sent

theorem step_alike {people : People} {x y : State} (a : Act) (alike : Alike n x y) :
    Option.Rel (Alike n) (step people x a) (step people y a) := by
  cases a with
  | addSession r => exact .some ⟨alike.hubs.addSession, alike.sent⟩
  | subscribeSession r stream identifier =>
    exact .some ⟨alike.hubs.subscribeSession stream identifier, alike.sent⟩
  | unsubscribeSession r stream identifier =>
    exact .some ⟨alike.hubs.unsubscribeSession stream identifier, alike.sent⟩
  | unsubscribeSessionFromChannel r identifier =>
    exact .some ⟨alike.hubs.unsubscribeSessionFromChannel identifier, alike.sent⟩
  | removeSession r => exact .some ⟨alike.hubs.removeSession, alike.sent⟩
  | broadcast msg order =>
    simp only [step, alike.hubs.broadcastToStream]
    split
    · exact .some ⟨alike.hubs, by rw [alike.sent]⟩
    · exact .none

/-- What can be seen of a state: the `Send` calls so far, in order, and `StreamsSize`. -/
def observe (x : State) : List (Send StreamMessage) × Nat := (x.sent, x.hub.streamsSize)

/-- A hub with `n` gates takes the same operations as a hub with one gate, with the same `Send`
calls in the same order and the same `StreamsSize`, which is the number of streams of the
single gate. No stream is sent to a gate that does not exist. -/
theorem gates_transparent (people : People) (n : Nat) (positive : 1 ≤ n)
    (schedule : List Act) :
    (Run.exec (step people) (.start n) schedule).map observe =
        (Run.exec (step people) (.start 1) schedule).map
          (fun x => (x.sent, (x.hub.gates 0).size)) ∧
      ∀ stream, index stream n < n := by
  refine ⟨?_, index_lt positive⟩
  have related : Option.Rel (Alike n) (Run.exec (step people) (.start n) schedule)
      (Run.exec (step people) (.start 1) schedule) :=
    Run.exec_rel (fun _ _ a alike => step_alike a alike) ⟨mirrors_start n, rfl⟩
  generalize Run.exec (step people) (.start n) schedule = many at related ⊢
  generalize Run.exec (step people) (.start 1) schedule = single at related ⊢
  cases related with
  | none => rfl
  | some alike => simp [observe, alike.sent, alike.hubs.streamsSize positive]

/-- Two sessions on two streams; one of them stops a stream between the messages. -/
def conversation : List Act :=
  [.subscribeSession 1 "chat" "channel", .subscribeSession 2 "news" "channel",
   .subscribeSession 2 "chat" "channel",
   .broadcast { stream := "chat", data := "a" } [(2, "channel"), (1, "channel")],
   .unsubscribeSession 2 "chat" "channel",
   .broadcast { stream := "chat", data := "b" } [(1, "channel")]]

theorem conversation_alike :
    (Run.exec (step ⟨fun r => if r = 1 then "one" else "two", fun _ => "user"⟩) (.start 4)
        conversation).map observe =
      some ([⟨2, "channel", { stream := "chat", data := "a" }⟩,
        ⟨1, "channel", { stream := "chat", data := "a" }⟩,
        ⟨1, "channel", { stream := "chat", data := "b" }⟩], 2) := by
  rw [(gates_transparent _ 4 (by decide) conversation).1]
  decide

end AnyCable.Guarantees.Sharding
