import AnyCable.Lib.Run
import AnyCable.Source.HubLoops

/-!
# The hub at work

The parties of `hub/hub.go` and `hub/gate.go`, with every locked section and channel operation as
a step of its own:

* publishers: `BroadcastMessage` sends into `broadcast` (`hub/hub.go:145-153`);
* the hub loop and the loop of each gate (`Source/HubLoops.lean`);
* callers of `SubscribeSession` and `UnsubscribeSession` (`hub/hub.go:273-303`): the gate section
  and the hub section, and for `Gate.Unsubscribe` the check and the deletion.

Messages carry the number under which they were enqueued. The hub's own `broadcast` field is not
used.
-/

set_option autoImplicit false

namespace AnyCable.Source.Fanout
open AnyCable.Lib HubLoops

structure Packet where
  seq : Nat
  msg : StreamMessage
  deriving DecidableEq

/-- A call of a session and a stream under an identifier, named by its next section. -/
inductive Call where
  | idle
  | addStream (s : HubSession) (stream identifier : String)
  | delete (s : HubSession) (stream identifier : String)
  | removeStream (s : HubSession) (stream identifier : String)
  deriving DecidableEq

structure State extends Queues Packet where
  hub : Hub
  enqueued : Nat := 0
  calls : Nat → Call := fun _ => .idle

/-- Any subscriptions, and nothing under way. -/
def State.start (h : Hub) : State := { hub := h }

inductive Act where
  | enqueue (msg : StreamMessage)
  | loop (move : Move)
  /-- A goroutine calls `SubscribeSession`: the section of the gate. -/
  | subscribe (c : Nat) (s : HubSession) (stream identifier : String)
  /-- A goroutine calls `UnsubscribeSession`: the check of the gate. -/
  | unsubscribe (c : Nat) (s : HubSession) (stream identifier : String)
  /-- The next section of a call. -/
  | proceed (c : Nat)

def State.setCall (x : State) (c : Nat) (call : Call) : State :=
  { x with calls := Function.update x.calls c call }

def State.setHub (x : State) (hub : Hub) : State := { x with hub := hub }

def step (uid : SessionRef → String) (x : State) : Act → Option State
  | .enqueue msg => do
    let queues ← x.toQueues.enqueue ⟨x.enqueued, msg⟩
    return { x with toQueues := queues, enqueued := x.enqueued + 1 }
  | .loop m => do
    let queues ← x.toQueues.move Packet.msg uid x.hub m
    return { x with toQueues := queues }
  | .subscribe c s stream identifier =>
    if x.calls c = .idle then
      some ((x.setHub (x.hub.gateSubscribe s stream identifier)).setCall c
        (.addStream s stream identifier))
    else none
  | .unsubscribe c s stream identifier =>
    if x.calls c = .idle then
      let found := (x.hub.gateOf stream).listed s.ref stream identifier
      some (x.setCall c (if found then .delete s stream identifier
        else .removeStream s stream identifier))
    else none
  | .proceed c =>
    match x.calls c with
    | .idle => none
    | .addStream s stream identifier =>
      some ((x.setHub (x.hub.addStream s stream identifier)).setCall c .idle)
    | .delete s stream identifier =>
      some ((x.setHub (gateDelete x.hub s stream identifier)).setCall c
        (.removeStream s stream identifier))
    | .removeStream s stream identifier =>
      some ((x.setHub (x.hub.removeStream s stream identifier)).setCall c .idle)

/-- The sections of the calls, with the hub they leave. -/
inductive Called (x : State) : Act → Hub → Prop
  | subscribe {c : Nat} {s : HubSession} {stream identifier : String} :
      Called x (.subscribe c s stream identifier) (x.hub.gateSubscribe s stream identifier)
  | check {c : Nat} {s : HubSession} {stream identifier : String} :
      Called x (.unsubscribe c s stream identifier) x.hub
  | addStream {c : Nat} {s : HubSession} {stream identifier : String}
      (next : x.calls c = .addStream s stream identifier) :
      Called x (.proceed c) (x.hub.addStream s stream identifier)
  | delete {c : Nat} {s : HubSession} {stream identifier : String}
      (next : x.calls c = .delete s stream identifier) :
      Called x (.proceed c) (gateDelete x.hub s stream identifier)
  | removeStream {c : Nat} {s : HubSession} {stream identifier : String}
      (next : x.calls c = .removeStream s stream identifier) :
      Called x (.proceed c) (x.hub.removeStream s stream identifier)

/-- What each step does, with its guard. -/
inductive Took (uid : SessionRef → String) (x : State) : Act → State → Prop
  | enqueue {msg : StreamMessage} :
      Took uid x (.enqueue msg)
        { x with enqueued := x.enqueued + 1, broadcast := x.broadcast ++ [⟨x.enqueued, msg⟩] }
  | loop {m : Move} {queues : Queues Packet}
      (moved : Moved Packet.msg uid x.hub x.toQueues queues) :
      Took uid x (.loop m) { x with toQueues := queues }
  | call {a : Act} {hub : Hub} {calls : Nat → Call} (called : Called x a hub) :
      Took uid x a { x with hub := hub, calls := calls }

section Steps

variable {uid : SessionRef → String} {x y : State} {a : Act} {hub : Hub}

theorem step_took (stepped : step uid x a = some y) : Took uid x a y := by
  cases a with
  | enqueue msg =>
    simp only [step, Option.bind_eq_bind, Option.bind_eq_some_iff, pure, Option.some.injEq]
      at stepped
    obtain ⟨queues, queued, rfl⟩ := stepped
    rw [← enqueue_eq_some queued]
    exact .enqueue
  | loop m =>
    simp only [step, Option.bind_eq_bind, Option.bind_eq_some_iff, pure, Option.some.injEq]
      at stepped
    obtain ⟨queues, moved, rfl⟩ := stepped
    exact .loop (moved_of_move moved)
  | subscribe c s stream identifier =>
    simp only [step] at stepped
    split at stepped
    · cases stepped; exact .call .subscribe
    · cases stepped
  | unsubscribe c s stream identifier =>
    simp only [step] at stepped
    split at stepped
    · cases stepped; exact .call .check
    · cases stepped
  | proceed c =>
    simp only [step] at stepped
    split at stepped
    · cases stepped
    next next => cases stepped; exact .call (.addStream next)
    next next => cases stepped; exact .call (.delete next)
    next next => cases stepped; exact .call (.removeStream next)

theorem Called.gatesNum (called : Called x a hub) : hub.gatesNum = x.hub.gatesNum := by
  cases called with
  | removeStream => exact (Hub.removeStream_frame _ _).2.1
  | subscribe | check | addStream | delete => rfl

/-- Only the first section of `SubscribeSession` adds to a gate. -/
theorem Called.gains (called : Called x a hub) {k : Nat} {r : SessionRef} {st id : String}
    (has : (hub.gates k).Has r st id) (hadNot : ¬ (x.hub.gates k).Has r st id) :
    ∃ c s, a = .subscribe c s st id ∧ r = s.ref := by
  cases called with
  | @subscribe c s stream identifier =>
    rcases Hub.has_gateSubscribe.mp has with ⟨-, rfl, rfl, rfl⟩ | before
    · exact ⟨c, s, rfl, rfl⟩
    · exact absurd before hadNot
  | delete => exact absurd (has_gateDelete.mp has).1 hadNot
  | removeStream =>
    rw [(Hub.removeStream_frame _ _).1] at has
    exact absurd has hadNot
  | check | addStream => exact absurd has hadNot

/-- A call of `SubscribeSession` with no other step in between. -/
theorem undisturbed_subscribeSession {c : Nat} (free : x.calls c = .idle) (s : HubSession)
    (stream identifier : String) :
    ∃ y, Run.exec (step uid) x [.subscribe c s stream identifier, .proceed c] = some y ∧
      y.calls c = .idle ∧ y.hub = x.hub.subscribeSession s stream identifier := by
  simp [Run.exec, step, free, State.setCall, State.setHub, Hub.subscribeSession]

/-- A call of `UnsubscribeSession` with no other step in between. -/
theorem undisturbed_unsubscribeSession {c : Nat} (free : x.calls c = .idle) (s : HubSession)
    (stream identifier : String) :
    ∃ sections y, Run.exec (step uid) x
        (.unsubscribe c s stream identifier :: List.replicate sections (.proceed c)) = some y ∧
      y.calls c = .idle ∧ y.hub = x.hub.unsubscribeSession s stream identifier := by
  cases found : (x.hub.gateOf stream).listed s.ref stream identifier with
  | true =>
    have gone :
        gateDelete x.hub s stream identifier = x.hub.gateUnsubscribe s stream identifier := by
      simp [gateDelete, Hub.gateUnsubscribe, Gate.unsubscribe, found]
    refine ⟨2, ?_⟩
    simp [Run.exec, step, free, found, State.setCall, State.setHub, Hub.unsubscribeSession, gone]
  | false =>
    have same : x.hub.gateUnsubscribe s stream identifier = x.hub := by
      simp only [Hub.gateUnsubscribe, Gate.unsubscribe, found]
      simp [Hub.setGate, Hub.gateOf]
    refine ⟨1, ?_⟩
    simp [Run.exec, step, free, found, State.setCall, State.setHub, Hub.unsubscribeSession, same]

/-- A gate loop that makes its `Send` calls one after the other. -/
theorem exec_gateSends {k : Nat} {sends : List (Send Packet)} (due : x.loops k = sends) :
    ∃ schedule y, Run.exec (step uid) x schedule = some y ∧ y.hub = x.hub ∧
      y.sent = x.sent ++ sends := by
  induction sends generalizing x with
  | nil => exact ⟨[], x, rfl, rfl, by simp⟩
  | cons send rest ih =>
    obtain ⟨schedule, y, ran, hub, sent⟩ := @ih
      { x with loops := Function.update x.loops k rest, sent := x.sent ++ [send] } (by simp)
    refine ⟨.loop (.gateSend k) :: schedule, y, ?_, hub, by rw [sent, List.append_assoc]; rfl⟩
    simp only [Run.exec, step, Queues.move, due, Option.bind_eq_bind, Option.bind_some, pure]
    exact ran

/-- A message that is alone on its way is sent to the targets of `broadcastToStream`. -/
theorem undisturbed_broadcast (msg : StreamMessage) (empty : x.broadcast = [])
    (free : x.hubLoop = .idle) (gate : x.senders (index msg.stream x.hub.gatesNum) = [])
    (loop : x.loops (index msg.stream x.hub.gatesNum) = []) :
    ∃ schedule y, Run.exec (step uid) x schedule = some y ∧ y.hub = x.hub ∧
      y.sent = x.sent ++
        (x.hub.broadcastToStream uid msg).map fun t => ⟨t.1, t.2, ⟨x.enqueued, msg⟩⟩ := by
  cases found : (x.hub.gateOf msg.stream).hasStream msg.stream with
  | false =>
    refine ⟨[.enqueue msg, .loop .hubTake, .loop .hubCheck], ?_⟩
    simp [Run.exec, step, Queues.enqueue, Queues.move, empty, free, found, Hub.broadcastCap,
      Hub.broadcastToStream]
  | true =>
    generalize place : index msg.stream x.hub.gatesNum = k at gate loop
    have own : x.hub.gateOf msg.stream = x.hub.gates k := by rw [Hub.gateOf, place]
    obtain ⟨opening, z, taken, hub, sent, due⟩ : ∃ opening z,
        Run.exec (step uid) x opening = some z ∧ z.hub = x.hub ∧ z.sent = x.sent ∧
          z.loops k = ((x.hub.gates k).targets uid msg).map fun t =>
            ⟨t.1, t.2, ⟨x.enqueued, msg⟩⟩ := by
      refine ⟨[.enqueue msg, .loop .hubTake, .loop .hubCheck, .loop .hubPush,
        .loop (.gateTake k ((x.hub.gates k).targets uid msg))], ?_⟩
      simp [Run.exec, step, Queues.enqueue, Queues.move, empty, free, found, place, gate, loop,
        Hub.broadcastCap, senderCap]
    obtain ⟨closing, y, ran, same, sends⟩ := @exec_gateSends uid z k _ due
    refine ⟨opening ++ closing, y, ?_, same.trans hub, ?_⟩
    · rw [Run.exec_append, taken]
      exact ran
    · rw [sends, sent, Hub.broadcastToStream, found, if_pos rfl, own]

end Steps

end AnyCable.Source.Fanout
