import AnyCable.Guarantees.CutOff

/-!
# Delivery across a cluster without a broker

Any number of nodes run the `LegacyBroker` (`broker/broker.go:153-210`) over one multi-node
Subscriber (`pubsub/redis.go:143-189`). The Subscriber is taken to hand every published message
to exactly the nodes that are subscribed to its stream at that moment, that is, to those whose
last call for the stream was `Subscribe`; there `HandlePubSub` puts it into the hub's queue.

`docs/pubsub.md` promises that a message published to any one node is re-transmitted to the
others. `LegacyBroker.HandleBroadcast` publishes it only if its own node tracks the stream, so
a node without a local subscriber drops the message (`dropped_by_idle_node`). With
subscriptions that are not cut off (`CutOff.StopsOwn`), a message reaches all nodes with a
subscribed session exactly when the node that accepts it tracks the stream or there is no such
session (`reaches_iff_tracked`).
-/

set_option autoImplicit false

namespace AnyCable.Guarantees.ClusterDelivery
open AnyCable.Lib AnyCable.Source AnyCable.Source.System

variable {ι : Type}

/-- The Subscriber delivers the stream to the node. -/
def subscribed (x : System) (stream : String) : Bool :=
  x.node.broker.interest.broadcaster.lastCall stream = some (.subscribe stream)

/-- A published message arrives at a node. -/
def receive (msg : StreamMessage) (x : System) : System :=
  if subscribed x msg.stream then { x with node := x.node.broadcast msg } else x

/-- The Subscriber delivers a published message. -/
def publish (c : ι → System) (msg : StreamMessage) : ι → System := fun j => receive msg (c j)

/-- Every node runs the legacy broker. -/
def start (setup : ι → Setup) : ι → System := fun i => { setup i with memory := none }.start

/-- One node takes a step and what it broadcast is published. -/
def step [DecidableEq ι] (c : ι → System) (act : ι × Act) : Option (ι → System) := do
  let x ← (c act.1).step act.2
  let published := x.node.broker.interest.broadcaster.broadcastSince
    (c act.1).node.broker.interest.broadcaster
  return published.foldl publish (Function.update c act.1 x)

/-- `HandleBroadcast` on node `i` puts the message into the hub of every node that has a
session subscribed to the stream. -/
def Reaches [DecidableEq ι] (c : ι → System) (i : ι) (msg : StreamMessage) (now : Instant) :
    Prop :=
  ∃ c', step c (i, .handleBroadcast msg now) = some c' ∧
    ∀ j h, (c j).Holds h msg.stream →
      (c' j).node.hub.broadcast = (c j).node.hub.broadcast ++ [msg]

/-- The condition on a step of the cluster: the node does not cut off its own sessions. -/
def StopsOwn (c : ι → System) (act : ι × Act) : Prop := CutOff.StopsOwn (c act.1) act.2

instance (c : ι → System) (act : ι × Act) : Decidable (StopsOwn c act) :=
  inferInstanceAs (Decidable (CutOff.StopsOwn (c act.1) act.2))

structure Inv (x : System) : Prop where
  backed : CutOff.Inv x
  legacy : x.node.broker.memory = none

variable {x : System} {c d : ι → System}

theorem subscribed_iff (stream : String) :
    subscribed x stream = true ↔ x.node.broker.tracker.has stream = true := by
  rw [subscribed, decide_eq_true_eq]
  exact x.node.broker.agrees stream

theorem receive_inv (inv : Inv x) (msg : StreamMessage) : Inv (receive msg x) := by
  unfold receive
  split
  · exact ⟨inv.backed, inv.legacy⟩
  · exact inv

theorem publish_inv (inv : ∀ j, Inv (c j)) (msgs : List StreamMessage) :
    ∀ j, Inv (msgs.foldl publish c j) := by
  induction msgs generalizing c with
  | nil => exact inv
  | cons msg msgs ih => exact ih fun j => receive_inv (inv j) msg

variable [DecidableEq ι]

theorem step_inv {act : ι × Act} (inv : ∀ j, Inv (c j)) (own : StopsOwn c act)
    (stepped : step c act = some d) : ∀ j, Inv (d j) := by
  obtain ⟨x, moved, stepped⟩ := Option.bind_eq_some_iff.mp stepped
  cases stepped
  refine publish_inv (fun j => ?_) _
  rw [Function.update_apply]
  split
  · have kind := step_kind moved
    rw [(inv act.1).legacy] at kind
    exact ⟨CutOff.step_inv (inv act.1).backed own moved, by simpa using kind⟩
  · exact inv j

/-- A node that does not track the stream drops the message. -/
theorem step_untracked {i : ι} {msg : StreamMessage} (now : Instant)
    (legacy : (c i).node.broker.memory = none)
    (untracked : (c i).node.broker.tracker.has msg.stream = false) :
    step c (i, .handleBroadcast msg now) = some c := by
  have dropped : (c i).step (.handleBroadcast msg now) = some (c i) := by
    simp [System.step, System.handleBroadcast, Broker.handleBroadcast, legacy, untracked]
  simp [step, dropped, Broadcaster.broadcastSince_self]

/-- A node that tracks the stream publishes the message. -/
theorem step_tracked {i : ι} {msg : StreamMessage} (now : Instant)
    (legacy : (c i).node.broker.memory = none)
    (tracked : (c i).node.broker.tracker.has msg.stream = true) :
    ∃ x, step c (i, .handleBroadcast msg now) = some (publish (Function.update c i x) msg) ∧
      x.node.hub = (c i).node.hub ∧ x.node.broker.tracker = (c i).node.broker.tracker := by
  refine ⟨{ c i with node := { (c i).node with broker := (c i).node.broker.broadcast msg } },
    ?_, rfl, rfl⟩
  have told : (c i).step (.handleBroadcast msg now) = some
      { c i with node := { (c i).node with broker := (c i).node.broker.broadcast msg } } := by
    simp [System.step, System.handleBroadcast, Broker.handleBroadcast, legacy, tracked]
  simp only [step, told, Option.bind_eq_bind, Option.bind_some]
  rw [show ((c i).node.broker.broadcast msg).interest.broadcaster.broadcastSince
    (c i).node.broker.interest.broadcaster = [msg] from Broadcaster.broadcastSince_record _ msg]
  rfl

theorem receive_hub (msg : StreamMessage) (tracked : x.node.broker.tracker.has msg.stream = true) :
    (receive msg x).node.hub.broadcast = x.node.hub.broadcast ++ [msg] := by
  simp [receive, (subscribed_iff msg.stream).mpr tracked, Node.broadcast]

/-- In every run of the cluster in which no node cuts off its own sessions, a message reaches
every node with a subscribed session if and only if the node that accepts it tracks the stream
or no session is subscribed to it. -/
theorem reaches_iff_tracked (setup : ι → Setup) (schedule : List (ι × Act)) (c : ι → System)
    (own : Run.Meets step StopsOwn (start setup) schedule)
    (ran : Run.exec step (start setup) schedule = some c) (i : ι) (msg : StreamMessage)
    (now : Instant) :
    Reaches c i msg now ↔
      (c i).node.broker.tracker.has msg.stream = true ∨ ∀ j h, ¬ (c j).Holds h msg.stream := by
  have inv : ∀ j, Inv (c j) := Run.invariant_of_meets
    (fun _ _ _ inv ok stepped => step_inv inv ok stepped)
    (fun j => ⟨CutOff.inv_start _, rfl⟩) own ran
  cases tracked : (c i).node.broker.tracker.has msg.stream with
  | false =>
    have dropped := step_untracked now (inv i).legacy tracked
    constructor
    · rintro ⟨d, stepped, reached⟩
      rw [dropped] at stepped
      cases stepped
      refine Or.inr fun j h holds => ?_
      have grown := reached j h holds
      simp at grown
    · rintro (wrong | nobody)
      · cases wrong
      · exact ⟨c, dropped, fun j h holds => absurd holds (nobody j h)⟩
  | true =>
    refine iff_of_true ?_ (Or.inl rfl)
    obtain ⟨x, stepped, hub, tracker⟩ := step_tracked now (inv i).legacy tracked
    refine ⟨_, stepped, fun j h holds => ?_⟩
    have interested := (inv j).backed.tracked h msg.stream holds
    unfold publish
    rw [Function.update_apply]
    split
    next same =>
      subst same
      rw [receive_hub msg (tracker ▸ interested), hub]
    · exact receive_hub msg interested

def chat : StreamMessage := { stream := "chat", data := "hello" }

/-- Only the second node has a session with the stream. -/
def remoteSession : List (Bool × Act) :=
  [(true, CutOff.connect 1 "first"), (true, CutOff.subscribe 1 (some ["chat"]))]

/-- Both nodes have one. -/
def bothSessions : List (Bool × Act) :=
  remoteSession ++
    [(false, CutOff.connect 1 "second"), (false, CutOff.subscribe 1 (some ["chat"]))]

theorem dropped_by_idle_node :
    ¬ ∀ (setup : Bool → Setup) (schedule : List (Bool × Act)) (c : Bool → System),
      Run.exec step (start setup) schedule = some c →
      ∀ (i : Bool) (msg : StreamMessage) (now : Instant), Reaches c i msg now := by
  intro always
  obtain ⟨c, ran, holder, silent⟩ : ∃ c,
      Run.exec step (start fun _ => CutOff.setup) remoteSession = some c ∧
      (1, "channel") ∈ (c true).holders "chat" ∧
      ∀ d ∈ step c (false, .handleBroadcast chat 0),
        (d true).node.hub.broadcast = (c true).node.hub.broadcast :=
    ⟨_, rfl, by decide, by rintro d stepped; cases stepped; rfl⟩
  obtain ⟨d, stepped, reached⟩ := always _ remoteSession c ran false chat 0
  have grown := reached true _ (mem_holders.mp holder)
  rw [silent d stepped] at grown
  simp at grown

theorem bothSessions_reached :
    ∃ c, Run.exec step (start fun _ => CutOff.setup) bothSessions = some c ∧
      (1, "channel") ∈ (c true).holders "chat" ∧ Reaches c false chat 0 :=
  ⟨_, rfl, by decide, (reaches_iff_tracked (fun _ => CutOff.setup) bothSessions _ (by decide) rfl
    false chat 0).mpr (Or.inl rfl)⟩

end AnyCable.Guarantees.ClusterDelivery
