import AnyCable.Lib.Pending
import AnyCable.Source.Hub

/-!
# The loops of the hub and of its gates

Source: `hub/hub.go:108-135`, `hub/gate.go:46-67,122-165`. The way of a message from the channel
`broadcast` to the `Send` calls:

* the hub loop takes a message, looks for its stream in the gate and pushes it into the gate's
  `sender`;
* the loop of each gate takes a message with the snapshot of its stream and makes one `Send` call
  for each target; Go walks the snapshot in an arbitrary order.

A full channel blocks its sender. `sent` records the `Send` calls, oldest first. What passes through
the channels is a packet, of which the loops look at the message only.

Messages only move on or are dropped, and never overtake each other on their way to a subscription
(`route_moved`). As long as the subscription is there, a message on its way to it comes further or
is sent (`Underway.moved`).
-/

set_option autoImplicit false

namespace AnyCable.Source.HubLoops
open AnyCable.Lib

/-- A `Send` call of `performBroadcast`. -/
structure Send (P : Type) where
  session : SessionRef
  identifier : String
  packet : P
  deriving DecidableEq

inductive HubLoop (P : Type) where
  | idle
  | checking (p : P)
  | pushing (p : P)
  deriving DecidableEq

def HubLoop.held {P : Type} : HubLoop P → List P
  | .idle => []
  | .checking p | .pushing p => [p]

structure Queues (P : Type) where
  broadcast : List P := []
  hubLoop : HubLoop P := .idle
  senders : Nat → List P := fun _ => []
  /-- The `Send` calls each gate loop still has to make for its current message. -/
  loops : Nat → List (Send P) := fun _ => []
  sent : List (Send P) := []

/-- Capacity of a gate's `sender` channel. -/
def senderCap : Nat := 256

/-- A step of a loop. -/
inductive Move where
  | hubTake
  | hubCheck
  | hubPush
  | gateTake (k : Nat) (order : List (SessionRef × String))
  | gateSend (k : Nat)

/-- The write section of `Gate.Unsubscribe`. -/
def gateDelete (h : Hub) (s : HubSession) (stream identifier : String) : Hub :=
  h.setGate (index stream h.gatesNum) ((h.gateOf stream).delete s.ref stream identifier)

theorem has_gateDelete {h : Hub} {s : HubSession} {stream identifier : String} {k : Nat}
    {r : SessionRef} {st id : String} :
    ((gateDelete h s stream identifier).gates k).Has r st id ↔
      (h.gates k).Has r st id ∧
        ¬ (k = index stream h.gatesNum ∧ r = s.ref ∧ st = stream ∧ id = identifier) := by
  simp only [gateDelete, Hub.setGate, Function.update_apply]
  split
  next same =>
    subst same
    simp only [Gate.has_delete, Hub.gateOf, true_and]
  next other => simp [other]

section Moves

variable {P : Type} (msg : P → StreamMessage) (uid : SessionRef → String) (h : Hub)

/-- The send into `broadcast`. -/
def Queues.enqueue (q : Queues P) (p : P) : Option (Queues P) :=
  if q.broadcast.length < Hub.broadcastCap then some { q with broadcast := q.broadcast ++ [p] }
  else none

def Queues.move (q : Queues P) : Move → Option (Queues P)
  | .hubTake =>
    match q.hubLoop, q.broadcast with
    | .idle, p :: rest => some { q with broadcast := rest, hubLoop := .checking p }
    | _, _ => none
  | .hubCheck =>
    match q.hubLoop with
    | .checking p =>
      let found := (h.gateOf (msg p).stream).hasStream (msg p).stream
      some { q with hubLoop := if found then .pushing p else .idle }
    | _ => none
  | .hubPush =>
    match q.hubLoop with
    | .pushing p =>
      let k := index (msg p).stream h.gatesNum
      if (q.senders k).length < senderCap then
        some { q with hubLoop := .idle
                      senders := Function.update q.senders k (q.senders k ++ [p]) }
      else none
    | _ => none
  | .gateTake k order =>
    match q.loops k, q.senders k with
    | [], p :: rest =>
      if order.Perm ((h.gates k).targets uid (msg p)) then
        some { q with senders := Function.update q.senders k rest
                      loops := Function.update q.loops k (order.map fun t => ⟨t.1, t.2, p⟩) }
      else none
    | _, _ => none
  | .gateSend k =>
    match q.loops k with
    | send :: rest =>
      some { q with loops := Function.update q.loops k rest, sent := q.sent ++ [send] }
    | [] => none

/-- What each step does, with its guard. -/
inductive Moved (q : Queues P) : Queues P → Prop
  | hubTake {p : P} {rest : List P} (free : q.hubLoop = .idle) (queued : q.broadcast = p :: rest) :
      Moved q { q with broadcast := rest, hubLoop := .checking p }
  | hubCheck {p : P} (held : q.hubLoop = .checking p) :
      Moved q { q with
        hubLoop := if (h.gateOf (msg p).stream).hasStream (msg p).stream then .pushing p
                   else .idle }
  | hubPush {p : P} (held : q.hubLoop = .pushing p) :
      Moved q { q with
        hubLoop := .idle
        senders := Function.update q.senders (index (msg p).stream h.gatesNum)
          (q.senders (index (msg p).stream h.gatesNum) ++ [p]) }
  | gateTake {k : Nat} {order : List (SessionRef × String)} {p : P} {rest : List P}
      (free : q.loops k = []) (queued : q.senders k = p :: rest)
      (snapshot : order.Perm ((h.gates k).targets uid (msg p))) :
      Moved q { q with
        senders := Function.update q.senders k rest
        loops := Function.update q.loops k (order.map fun t => ⟨t.1, t.2, p⟩) }
  | gateSend {k : Nat} {send : Send P} {rest : List (Send P)} (due : q.loops k = send :: rest) :
      Moved q { q with loops := Function.update q.loops k rest, sent := q.sent ++ [send] }

variable {msg uid h} {q r : Queues P}

theorem moved_of_move {m : Move} (stepped : q.move msg uid h m = some r) : Moved msg uid h q r := by
  cases m with
  | hubTake =>
    simp only [Queues.move] at stepped
    split at stepped
    next free queued => cases stepped; exact .hubTake free queued
    · cases stepped
  | hubCheck =>
    simp only [Queues.move] at stepped
    split at stepped
    next p held => cases stepped; exact .hubCheck held
    · cases stepped
  | hubPush =>
    simp only [Queues.move] at stepped
    split at stepped
    next p held =>
      split at stepped
      · cases stepped; exact .hubPush held
      · cases stepped
    · cases stepped
  | gateTake k order =>
    simp only [Queues.move] at stepped
    split at stepped
    next free queued =>
      split at stepped
      next snapshot => cases stepped; exact .gateTake free queued snapshot
      · cases stepped
    · cases stepped
  | gateSend k =>
    simp only [Queues.move] at stepped
    split at stepped
    next due => cases stepped; exact .gateSend due
    · cases stepped

theorem enqueue_eq_some {p : P} (queued : q.enqueue p = some r) :
    { q with broadcast := q.broadcast ++ [p] } = r := by
  simp only [Queues.enqueue] at queued
  split at queued
  · exact Option.some.inj queued
  · cases queued

/-! ### Where packets are -/

/-- The queues of a gate hold messages of its streams only. -/
structure Placed (msg : P → StreamMessage) (gatesNum : Nat) (q : Queues P) : Prop where
  senders : ∀ k, ∀ p ∈ q.senders k, index (msg p).stream gatesNum = k
  loops : ∀ k, ∀ send ∈ q.loops k, index (msg send.packet).stream gatesNum = k

theorem placed_empty {gatesNum : Nat} : Placed msg gatesNum {} where
  senders := by simp
  loops := by simp

theorem Placed.moved (placed : Placed msg h.gatesNum q) (moved : Moved msg uid h q r) :
    Placed msg h.gatesNum r := by
  cases moved with
  | hubTake | hubCheck => exact ⟨placed.senders, placed.loops⟩
  | @hubPush p held =>
    refine ⟨forall_mem_update placed.senders fun other member => ?_, placed.loops⟩
    rcases List.mem_append.mp member with old | new
    · exact placed.senders _ other old
    · rw [List.mem_singleton.mp new]
  | @gateTake k order p rest free queued snapshot =>
    refine ⟨forall_mem_update placed.senders fun other member => ?_,
      forall_mem_update placed.loops fun send member => ?_⟩
    · exact placed.senders k other (by rw [queued]; exact List.mem_cons_of_mem _ member)
    · obtain ⟨t, -, rfl⟩ := List.mem_map.mp member
      exact placed.senders k p (by rw [queued]; exact List.mem_cons_self)
  | @gateSend k first rest due =>
    refine ⟨placed.senders, forall_mem_update placed.loops fun send member => ?_⟩
    exact placed.loops k send (by rw [due]; exact List.mem_cons_of_mem _ member)

/-- Every `Send` that was made or is about to be made. -/
structure AllSends (Q : Send P → Prop) (q : Queues P) : Prop where
  sent : ∀ send ∈ q.sent, Q send
  due : ∀ k, ∀ send ∈ q.loops k, Q send

/-- A gate loop adds the `Send` calls of its snapshot, and they stay. -/
theorem AllSends.moved {Q : Send P → Prop} (all : AllSends Q q) (moved : Moved msg uid h q r)
    (new : ∀ k p, p ∈ q.senders k → ∀ t ∈ (h.gates k).targets uid (msg p), Q ⟨t.1, t.2, p⟩) :
    AllSends Q r := by
  cases moved with
  | @gateTake k order p rest free queued snapshot =>
    refine ⟨all.sent, forall_mem_update all.due fun send member => ?_⟩
    obtain ⟨t, target, rfl⟩ := List.mem_map.mp member
    exact new k p (by rw [queued]; exact List.mem_cons_self) t (snapshot.mem_iff.mp target)
  | @gateSend k first rest due =>
    refine ⟨fun send member => ?_, forall_mem_update all.due fun send member => ?_⟩
    · rcases List.mem_append.mp member with old | new
      · exact all.sent send old
      · exact all.due k send (by rw [due, List.mem_singleton.mp new]; exact List.mem_cons_self)
    · exact all.due k send (by rw [due]; exact List.mem_cons_of_mem _ member)
  | hubTake | hubCheck | hubPush => exact ⟨all.sent, all.due⟩

/-- What is sent stays so. -/
theorem Moved.sent {send : Send P} (moved : Moved msg uid h q r) (sent : send ∈ q.sent) :
    send ∈ r.sent := by
  cases moved with
  | gateSend => exact List.mem_append_left _ sent
  | hubTake | hubCheck | hubPush | gateTake => exact sent

/-! ### The way to a subscription -/

structure Subscription where
  session : SessionRef
  stream : String
  identifier : String

/-- The `Send` of a packet for the subscription. -/
def Subscription.send (sub : Subscription) (p : P) : Send P := ⟨sub.session, sub.identifier, p⟩

section Route

variable (sub : Subscription) (keep : P → Bool)

/-- A `Send` to the subscription of a packet that counts. -/
def Subscription.owns (send : Send P) : Bool :=
  send.session == sub.session && send.identifier == sub.identifier && keep send.packet

theorem owns_iff {sub : Subscription} {keep : P → Bool} {send : Send P} :
    sub.owns keep send = true ↔ send = sub.send send.packet ∧ keep send.packet = true := by
  cases send
  simp [Subscription.owns, Subscription.send]

/-- What the subscription has been sent, oldest first. -/
def received (q : Queues P) : List P := (q.sent.filter (sub.owns keep)).map Send.packet

/-- What is on its way to the subscription, in the order it will arrive. -/
def coming (gatesNum : Nat) (q : Queues P) : List P :=
  ((q.loops (index sub.stream gatesNum)).filter (sub.owns keep)).map Send.packet ++
    (q.senders (index sub.stream gatesNum) ++ q.hubLoop.held ++ q.broadcast).filter keep

def route (gatesNum : Nat) (q : Queues P) : List P :=
  received sub keep q ++ coming sub keep gatesNum q

theorem route_empty (gatesNum : Nat) : route sub keep gatesNum {} = [] := rfl

theorem keep_of_mem_route {sub : Subscription} {keep : P → Bool} {gatesNum : Nat} {p : P}
    (member : p ∈ route sub keep gatesNum q) : keep p = true := by
  simp only [route, received, coming, List.mem_append, List.mem_map, List.mem_filter,
    Subscription.owns, Bool.and_eq_true] at member
  rcases member with ⟨send, ⟨-, -, own⟩, rfl⟩ | ⟨send, ⟨-, -, own⟩, rfl⟩ | ⟨-, own⟩ <;> exact own

theorem route_enqueue (gatesNum : Nat) (p : P) :
    route sub keep gatesNum { q with broadcast := q.broadcast ++ [p] } =
      route sub keep gatesNum q ++ [p].filter keep := by
  simp [route, received, coming]

/-- The snapshot serves the subscription at most once. -/
theorem snapshot_sublist (p : P) {order : List (SessionRef × String)} (nodup : order.Nodup) :
    (((order.map fun t => (⟨t.1, t.2, p⟩ : Send P)).filter (sub.owns keep)).map
      Send.packet).Sublist ([p].filter keep) := by
  cases own : keep p with
  | false => simp [Subscription.owns, own, List.filter_map, Function.comp_def]
  | true =>
    have served : (fun t : SessionRef × String => sub.owns keep ⟨t.1, t.2, p⟩) =
        (· == (sub.session, sub.identifier)) := by
      funext t
      simp only [Subscription.owns, own, Bool.and_true]
      rfl
    have once := List.nodup_iff_count_le_one.mp nodup (sub.session, sub.identifier)
    simp only [List.filter_map, Function.comp_def, served, List.filter_beq, List.map_replicate,
      List.filter_cons, own, if_true, List.filter_nil]
    exact (List.replicate_sublist_replicate p).mpr once

/-- Packets only move on or are dropped, and never overtake. -/
theorem route_moved (only : ∀ p, keep p = true → (msg p).stream = sub.stream)
    (placed : Placed msg h.gatesNum q) (moved : Moved msg uid h q r) :
    (route sub keep h.gatesNum r).Sublist (route sub keep h.gatesNum q) := by
  cases moved with
  | hubTake free queued =>
    simp only [route, received, coming, free, queued, HubLoop.held, List.append_nil,
      List.append_assoc, List.singleton_append]
    exact List.Sublist.refl _
  | hubCheck current =>
    simp only [route, received, coming, current]
    split
    · exact List.Sublist.refl _
    · refine List.Sublist.append_left (List.Sublist.append_left (List.Sublist.filter _ ?_) _) _
      simp [HubLoop.held]
  | @hubPush p current =>
    simp only [route, received, coming, current, HubLoop.held, List.append_nil]
    by_cases same : index sub.stream h.gatesNum = index (msg p).stream h.gatesNum
    · simp [same]
    · have other : keep p = false := by
        by_contra own
        exact same (by rw [only p (by simpa using own)])
      simp [same, other]
  | @gateTake k order p rest free queued snapshot =>
    simp only [route, received, coming]
    refine List.Sublist.append_left ?_ _
    by_cases same : index sub.stream h.gatesNum = k
    · have once := snapshot_sublist sub keep p
        (snapshot.nodup_iff.mpr (Gate.targets_nodup _ uid (msg p)))
      have front : (p :: (rest ++ q.hubLoop.held ++ q.broadcast)).filter keep =
          [p].filter keep ++ (rest ++ q.hubLoop.held ++ q.broadcast).filter keep :=
        List.filter_append [p] _
      subst same
      simp only [Function.update_self, free, queued, List.filter_nil, List.map_nil,
        List.nil_append, List.cons_append, front]
      exact List.Sublist.append_right once _
    · simp [same]
  | @gateSend k send rest due =>
    simp only [route, received, coming]
    by_cases same : index sub.stream h.gatesNum = k
    · subst same
      simp only [Function.update_self, due, List.filter_append, List.filter_cons]
      cases own : sub.owns keep send <;> simp
    · have other : sub.owns keep send = false := by
        by_contra own
        rw [Bool.not_eq_false, owns_iff] at own
        exact same (by rw [← only _ own.2]; exact placed.loops k send (by rw [due]; simp))
      simp [same, other]

end Route

/-- Between the hand-over and the `Send` to the session: the hub or the gate of its stream still
holds the packet. -/
inductive Underway (msg : P → StreamMessage) (gatesNum : Nat) (q : Queues P) (session : SessionRef)
    (identifier : String) (p : P) : Prop
  | queued (held : p ∈ q.broadcast)
  | hub (held : p ∈ q.hubLoop.held)
  | gated (held : p ∈ q.senders (index (msg p).stream gatesNum))
  | due (held : ⟨session, identifier, p⟩ ∈ q.loops (index (msg p).stream gatesNum))

theorem underway_iff {gatesNum : Nat} {session : SessionRef} {identifier : String} {p : P} :
    p ∈ q.broadcast ∨ p ∈ q.hubLoop.held ∨ p ∈ q.senders (index (msg p).stream gatesNum) ∨
      ⟨session, identifier, p⟩ ∈ q.loops (index (msg p).stream gatesNum) ↔
    Underway msg gatesNum q session identifier p := by
  constructor
  · rintro (held | held | held | held)
    exacts [.queued held, .hub held, .gated held, .due held]
  · rintro (held | held | held | held) <;> simp [held]

instance [DecidableEq P] (gatesNum : Nat) (session : SessionRef) (identifier : String) (p : P) :
    Decidable (Underway msg gatesNum q session identifier p) :=
  decidable_of_iff _ underway_iff

theorem Underway.enqueue {gatesNum : Nat} {session : SessionRef} {identifier : String} {p : P}
    (underway : Underway msg gatesNum q session identifier p) (other : P) :
    Underway msg gatesNum { q with broadcast := q.broadcast ++ [other] } session identifier p := by
  cases underway with
  | queued held => exact .queued (List.mem_append_left _ held)
  | hub held => exact .hub held
  | gated held => exact .gated held
  | due held => exact .due held

theorem Underway.mem_coming {sub : Subscription} {keep : P → Bool} {gatesNum : Nat} {p : P}
    (underway : Underway msg gatesNum q sub.session sub.identifier p)
    (stream : (msg p).stream = sub.stream) (own : keep p = true) :
    p ∈ coming sub keep gatesNum q := by
  have queue : p ∈ q.senders (index sub.stream gatesNum) ++ q.hubLoop.held ++ q.broadcast →
      p ∈ coming sub keep gatesNum q := fun queued =>
    List.mem_append_right _ (List.mem_filter.mpr ⟨queued, own⟩)
  cases underway with
  | queued held => exact queue (by simp [held])
  | hub held => exact queue (by simp [held])
  | gated held => exact queue (by simp [← stream, held])
  | due held =>
    refine List.mem_append_left _ (List.mem_map.mpr
      ⟨sub.send p, List.mem_filter.mpr ⟨?_, owns_iff.mpr ⟨rfl, own⟩⟩, rfl⟩)
    rw [← stream]
    exact held

/-- A step moves a packet on its way to a subscriber one stage further or sends it. -/
theorem Underway.moved {session : SessionRef} {identifier : String} {p : P}
    (underway : Underway msg h.gatesNum q session identifier p)
    (has : (h.gateOf (msg p).stream).Has session (msg p).stream identifier)
    (kept : (msg p).excludes (uid session) = false) (moved : Moved msg uid h q r) :
    ⟨session, identifier, p⟩ ∈ r.sent ∨ Underway msg h.gatesNum r session identifier p := by
  cases underway with
  | queued held =>
    cases moved with
    | hubTake free queue =>
      rw [queue] at held
      rcases List.mem_cons.mp held with rfl | behind
      · exact Or.inr (.hub (by simp [HubLoop.held]))
      · exact Or.inr (.queued behind)
    | hubCheck | hubPush | gateTake | gateSend => exact Or.inr (.queued held)
  | hub held =>
    cases moved with
    | hubTake free => simp [free, HubLoop.held] at held
    | @hubCheck other current =>
      rw [current, HubLoop.held, List.mem_singleton] at held
      subst held
      exact Or.inr (.hub (by simp [Gate.hasStream_of_has has, HubLoop.held]))
    | @hubPush other current =>
      rw [current, HubLoop.held, List.mem_singleton] at held
      subst held
      exact Or.inr (.gated (by simp))
    | gateTake | gateSend => exact Or.inr (.hub held)
  | gated held =>
    cases moved with
    | hubPush current =>
      refine Or.inr (.gated ?_)
      simp only [Function.update_apply]
      split
      next same => exact List.mem_append_left _ (same ▸ held)
      · exact held
    | @gateTake k order other rest free queue snapshot =>
      by_cases same : index (msg p).stream h.gatesNum = k
      · subst same
        rw [queue] at held
        rcases List.mem_cons.mp held with rfl | behind
        · have target : (session, identifier) ∈ order :=
            snapshot.mem_iff.mpr (Gate.mem_targets.mpr ⟨has, kept⟩)
          refine Or.inr (.due ?_)
          simpa using target
        · exact Or.inr (.gated (by simpa using behind))
      · exact Or.inr (.gated (by simpa [same] using held))
    | hubTake | hubCheck | gateSend => exact Or.inr (.gated held)
  | due held =>
    cases moved with
    | @gateTake k order other rest free queue snapshot =>
      by_cases same : index (msg p).stream h.gatesNum = k
      · rw [same, free] at held
        cases held
      · exact Or.inr (.due (by simpa [same] using held))
    | @gateSend k send rest turn =>
      by_cases same : index (msg p).stream h.gatesNum = k
      · rw [same, turn] at held
        rcases List.mem_cons.mp held with rfl | behind
        · exact Or.inl (by simp)
        · exact Or.inr (.due (by simpa [same] using behind))
      · exact Or.inr (.due (by simpa [same] using held))
    | hubTake | hubCheck | hubPush => exact Or.inr (.due held)

end Moves

end AnyCable.Source.HubLoops
