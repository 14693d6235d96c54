import AnyCable.Source.HistoryLog
import AnyCable.Source.HubLoops

/-!
# From `HandleBroadcast` to `Session.Send` on one node

The memory broker over a Broadcaster that enqueues into the hub of the same node
(`pubsub/subscriber.go:53-55`, `node/node.go:778-783`). The parties and their steps:

* a publisher: look up the record, append and stamp (`broker/memory.go:294-306`), enqueue
  into `hub.broadcast`; a transient message is enqueued as it came;
* the hub loop and the loop of each gate (`Source/HubLoops.lean`);
* any session: subscribe to or unsubscribe from a gate.

A full channel blocks its sender. `appended` records what happened, oldest first. The hub's own
`broadcast` field is not used.
-/

set_option autoImplicit false

namespace AnyCable.Source.Delivery
open HubLoops

/-- A `HandleBroadcast` call before its append, or before its hand-over. -/
inductive Publish where
  | looked (msg : StreamMessage) (record : Nat)
  | stamped (msg : StreamMessage)
  deriving DecidableEq

structure Pipeline extends Queues StreamMessage where
  broker : History
  hub : Hub
  /-- The calls in flight, in the order of their last step. -/
  publishers : List Publish := []
  appended : List StreamMessage := []

/-- A fresh broker over a hub with an empty queue. -/
def Pipeline.start (config : Config) (epoch : String) (gatesNum : Nat) (gates : Nat → Gate) :
    Pipeline :=
  { broker := History.new config epoch, hub := { gatesNum, gates } }

inductive Act where
  | publish (msg : StreamMessage)
  | append (i : Nat) (now : Instant)
  | enqueue (i : Nat)
  | loop (move : Move)
  | subscribe (session : HubSession) (stream identifier : String)
  /-- The write section of `Gate.Unsubscribe`; the check before it changes nothing. -/
  | unsubscribe (session : HubSession) (stream identifier : String)

def step (uid : SessionRef → String) (s : Pipeline) : Act → Option Pipeline
  | .publish msg =>
    if msg.isTransient then some { s with publishers := s.publishers ++ [.stamped msg] }
    else
      let (broker, r) := s.broker.lookup msg.stream
      some { s with broker, publishers := s.publishers ++ [.looked msg r] }
  | .append i now =>
    match s.publishers[i]? with
    | some (.looked msg r) => do
      let (broker, offset) ← s.broker.appendTo msg.stream r msg.data now
      let msg := broker.stamp msg offset
      return { s with broker, publishers := s.publishers.eraseIdx i ++ [.stamped msg],
                      appended := s.appended ++ [msg] }
    | _ => none
  | .enqueue i =>
    match s.publishers[i]? with
    | some (.stamped msg) => do
      let queues ← s.toQueues.enqueue msg
      return { s with toQueues := queues, publishers := s.publishers.eraseIdx i }
    | _ => none
  | .loop m => do
    let queues ← s.toQueues.move id uid s.hub m
    return { s with toQueues := queues }
  | .subscribe session stream identifier =>
    some { s with hub := s.hub.gateSubscribe session stream identifier }
  | .unsubscribe session stream identifier =>
    some { s with hub := gateDelete s.hub session stream identifier }

/-- What each step does, with its guard. -/
inductive Took (uid : SessionRef → String) (s : Pipeline) : Act → Pipeline → Prop
  | publishTransient {msg : StreamMessage} (transient : msg.isTransient = true) :
      Took uid s (.publish msg) { s with publishers := s.publishers ++ [.stamped msg] }
  | publish {msg : StreamMessage} (lasting : msg.isTransient = false) :
      Took uid s (.publish msg)
        { s with broker := (s.broker.lookup msg.stream).1,
                 publishers := s.publishers ++ [.looked msg (s.broker.lookup msg.stream).2] }
  | append {i : Nat} {now : Instant} {msg : StreamMessage} {r offset : Nat} {broker : History}
      (found : s.publishers[i]? = some (.looked msg r))
      (ran : s.broker.appendTo msg.stream r msg.data now = some (broker, offset)) :
      Took uid s (.append i now)
        { s with broker := broker,
                 publishers := s.publishers.eraseIdx i ++ [.stamped (broker.stamp msg offset)],
                 appended := s.appended ++ [broker.stamp msg offset] }
  | enqueue {i : Nat} {msg : StreamMessage} (found : s.publishers[i]? = some (.stamped msg)) :
      Took uid s (.enqueue i)
        { s with broadcast := s.broadcast ++ [msg], publishers := s.publishers.eraseIdx i }
  | loop {m : Move} {queues : Queues StreamMessage} (moved : Moved id uid s.hub s.toQueues queues) :
      Took uid s (.loop m) { s with toQueues := queues }
  | subscribe (session : HubSession) (stream identifier : String) :
      Took uid s (.subscribe session stream identifier)
        { s with hub := s.hub.gateSubscribe session stream identifier }
  | unsubscribe (session : HubSession) (stream identifier : String) :
      Took uid s (.unsubscribe session stream identifier)
        { s with hub := gateDelete s.hub session stream identifier }

theorem step_took {uid : SessionRef → String} {s t : Pipeline} {a : Act}
    (stepped : step uid s a = some t) : Took uid s a t := by
  cases a with
  | publish msg =>
    simp only [step] at stepped
    split at stepped
    next transient => cases stepped; exact .publishTransient transient
    next lasting => cases stepped; exact .publish (by simpa using lasting)
  | append i now =>
    simp only [step] at stepped
    split at stepped
    next msg r found =>
      simp only [Option.bind_eq_bind, Option.bind_eq_some_iff, pure, Option.some.injEq] at stepped
      obtain ⟨⟨broker, offset⟩, ran, rfl⟩ := stepped
      exact .append found ran
    · cases stepped
  | enqueue i =>
    simp only [step] at stepped
    split at stepped
    next msg found =>
      simp only [Option.bind_eq_bind, Option.bind_eq_some_iff, pure, Option.some.injEq] at stepped
      obtain ⟨queues, queued, rfl⟩ := stepped
      rw [← enqueue_eq_some queued]
      exact .enqueue found
    · cases stepped
  | loop m =>
    simp only [step, Option.bind_eq_bind, Option.bind_eq_some_iff, pure, Option.some.injEq]
      at stepped
    obtain ⟨queues, moved, rfl⟩ := stepped
    exact .loop (moved_of_move moved)
  | subscribe session stream identifier =>
    cases stepped
    exact .subscribe session stream identifier
  | unsubscribe session stream identifier =>
    cases stepped
    exact .unsubscribe session stream identifier

end AnyCable.Source.Delivery
