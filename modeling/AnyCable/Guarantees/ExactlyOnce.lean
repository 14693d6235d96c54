import AnyCable.Source.Fanout

/-!
# The hub sends every message once, in order, and to subscribers only

Messages pass two channels and a check before a gate takes its snapshot of the subscribers
(`hub/hub.go:112-135`, `hub/gate.go:51-165`), while sessions subscribe and unsubscribe. The route
to a subscription lists what it has received and what is on its way to it; a step takes messages
out of it or puts the newest at its end, and never changes its order (`route_step`).

`FanOut` has the three parts: a message that was enqueued and performed while the session was
subscribed is sent exactly once, or never if its socket is excluded; the messages of a stream
arrive in the order they were enqueued; and what is enqueued after `UnsubscribeSession` is not
sent. They hold for every schedule and any number of gates (`fanOut_holds`).
-/

set_option autoImplicit false

namespace AnyCable.Guarantees.ExactlyOnce
open AnyCable.Lib AnyCable.Source AnyCable.Source.Fanout
open AnyCable.Source.HubLoops (Subscription Send Placed placed_empty AllSends Underway owns_iff)

def Subscribed (sub : Subscription) (x : State) : Prop :=
  (x.hub.gateOf sub.stream).Has sub.session sub.stream sub.identifier

instance (sub : Subscription) (x : State) : Decidable (Subscribed sub x) :=
  inferInstanceAs (Decidable ((x.hub.gateOf sub.stream).Has ..))

/-- A message of the subscription's stream. -/
def ofStream (sub : Subscription) (p : Packet) : Bool := p.msg.stream == sub.stream

/-- What the subscription has been sent, oldest first. -/
def received (sub : Subscription) (x : State) : List Packet :=
  HubLoops.received sub (ofStream sub) x.toQueues

/-- The message is through: nobody holds it and no `Send` of it is left. -/
structure Performed (p : Packet) (x : State) : Prop where
  broadcast : p ∉ x.broadcast
  hubLoop : p ∉ x.hubLoop.held
  senders : ∀ k, p ∉ x.senders k
  loops : ∀ k, ∀ send ∈ x.loops k, send.packet ≠ p

/-- The section in which an `UnsubscribeSession` call leaves the gate: the check that finds nothing,
or the deletion. The call returns after it. -/
def Unsubscribes (sub : Subscription) (x : State) : Act → Prop
  | .unsubscribe _ s stream identifier =>
    s.ref = sub.session ∧ stream = sub.stream ∧ identifier = sub.identifier ∧ ¬ Subscribed sub x
  | .proceed c => ∃ s, s.ref = sub.session ∧ x.calls c = .delete s sub.stream sub.identifier
  | _ => False

def Resubscribes (sub : Subscription) : Act → Prop
  | .subscribe _ s stream identifier =>
    s.ref = sub.session ∧ stream = sub.stream ∧ identifier = sub.identifier
  | _ => False

/-- The property of all runs from a state. -/
structure FanOut (uid : SessionRef → String) (start : State) (sub : Subscription) : Prop where
  once : ∀ (early meanwhile later : List Act) (msg : StreamMessage) (y z x : State),
    msg.stream = sub.stream → Run.exec (step uid) start early = some y →
    Run.exec (step uid) y (.enqueue msg :: meanwhile) = some z →
    Run.Always (step uid) (Subscribed sub) y (.enqueue msg :: meanwhile) →
    Performed ⟨y.enqueued, msg⟩ z → Run.exec (step uid) z later = some x →
    x.sent.count (sub.send ⟨y.enqueued, msg⟩) = if msg.excludes (uid sub.session) then 0 else 1
  ordered : ∀ (schedule : List Act) (x : State), Run.exec (step uid) start schedule = some x →
    (received sub x).Pairwise (·.seq < ·.seq)
  silent : ∀ (early later : List Act) (a : Act) (y z x : State),
    Run.exec (step uid) start early = some y → Unsubscribes sub y a → step uid y a = some z →
    Run.exec (step uid) z later = some x → (∀ b ∈ later, ¬ Resubscribes sub b) →
    ∀ p, p.msg.stream = sub.stream → z.enqueued ≤ p.seq → sub.send p ∉ x.sent

/-- What the subscription has received and what is on its way to it. -/
def route (sub : Subscription) (x : State) : List Packet :=
  HubLoops.route sub (ofStream sub) x.hub.gatesNum x.toQueues

structure Inv (uid : SessionRef → String) (sub : Subscription) (x : State) : Prop where
  placed : Placed Packet.msg x.hub.gatesNum x.toQueues
  order : (route sub x).Pairwise (·.seq < ·.seq)
  below : ∀ p ∈ route sub x, p.seq < x.enqueued
  allowed : AllSends (fun send => send.packet.msg.excludes (uid send.session) = false) x.toQueues

variable {uid : SessionRef → String} {sub : Subscription} {x y : State} {a : Act}

theorem ofStream_iff {p : Packet} : ofStream sub p = true ↔ p.msg.stream = sub.stream := by
  simp [ofStream]

theorem owns_send {p : Packet} (own : p.msg.stream = sub.stream) :
    sub.owns (ofStream sub) (sub.send p) = true :=
  owns_iff.mpr ⟨rfl, ofStream_iff.mpr own⟩

theorem inv_start (uid : SessionRef → String) (sub : Subscription) (h : Hub) :
    Inv uid sub (State.start h) where
  placed := placed_empty
  order := by simp [route, State.start, HubLoops.route_empty]
  below := by simp [route, State.start, HubLoops.route_empty]
  allowed := ⟨by simp [State.start], by simp [State.start]⟩

theorem placed_step (placed : Placed Packet.msg x.hub.gatesNum x.toQueues)
    (took : Took uid x a y) : Placed Packet.msg y.hub.gatesNum y.toQueues := by
  cases took with
  | enqueue => exact ⟨placed.senders, placed.loops⟩
  | loop moved => exact placed.moved moved
  | call called => simpa only [called.gatesNum] using placed

/-- Messages only move on or are dropped, and never overtake. -/
theorem route_step (inv : Inv uid sub x) (took : Took uid x a y) :
    ((route sub y).Sublist (route sub x) ∧ y.enqueued = x.enqueued) ∨
      ∃ msg, (route sub y).Sublist (route sub x ++ [⟨x.enqueued, msg⟩]) ∧
        y.enqueued = x.enqueued + 1 := by
  cases took with
  | @enqueue msg =>
    refine Or.inr ⟨msg, ?_, rfl⟩
    rw [route, HubLoops.route_enqueue]
    exact List.filter_sublist.append_left _
  | loop moved =>
    exact Or.inl ⟨HubLoops.route_moved sub _ (fun _ own => ofStream_iff.mp own) inv.placed moved,
      rfl⟩
  | call called =>
    refine Or.inl ⟨?_, rfl⟩
    simp only [route, called.gatesNum]
    exact List.Sublist.refl _

theorem allSends_step {Q : Send Packet → Prop} (all : AllSends Q x.toQueues) (took : Took uid x a y)
    (new : ∀ k p, p ∈ x.senders k → ∀ t ∈ (x.hub.gates k).targets uid p.msg, Q ⟨t.1, t.2, p⟩) :
    AllSends Q y.toQueues := by
  cases took with
  | loop moved => exact all.moved moved new
  | enqueue | call => exact ⟨all.sent, all.due⟩

theorem step_inv (inv : Inv uid sub x) (stepped : step uid x a = some y) : Inv uid sub y := by
  have took := step_took stepped
  have placed := placed_step inv.placed took
  have allowed := allSends_step inv.allowed took
    fun k p _ t target => (Gate.mem_targets.mp target).2
  rcases route_step inv took with ⟨shorter, same⟩ | ⟨msg, longer, more⟩
  · exact ⟨placed, inv.order.sublist shorter,
      fun p member => same ▸ inv.below p (shorter.subset member), allowed⟩
  · have newest : ∀ p ∈ route sub x ++ [⟨x.enqueued, msg⟩], p.seq < x.enqueued + 1 := by
      intro p member
      rcases List.mem_append.mp member with old | new
      · exact Nat.lt_succ_of_lt (inv.below p old)
      · rw [List.mem_singleton.mp new]
        exact Nat.lt_succ_self _
    refine ⟨placed, List.Pairwise.sublist longer ?_,
      fun p member => more ▸ newest p (longer.subset member), allowed⟩
    rw [List.pairwise_append]
    refine ⟨inv.order, List.pairwise_singleton _ _, fun p old q new => ?_⟩
    rw [List.mem_singleton.mp new]
    exact inv.below p old

theorem run_inv {schedule : List Act} (inv : Inv uid sub x)
    (ran : Run.exec (step uid) x schedule = some y) : Inv uid sub y :=
  Run.invariant (fun _ _ _ inv stepped => step_inv inv stepped) inv ran

section Once

/-- Sent to the subscription, or still on its way. -/
def OnWay (sub : Subscription) (p : Packet) (x : State) : Prop :=
  sub.send p ∈ x.sent ∨
    Underway Packet.msg x.hub.gatesNum x.toQueues sub.session sub.identifier p

/-- What is sent stays so. -/
theorem sent_step {send : Send Packet} (sent : send ∈ x.sent) (took : Took uid x a y) :
    send ∈ y.sent := by
  cases took with
  | loop moved => exact moved.sent sent
  | enqueue | call => exact sent

theorem onWay_step {p : Packet} (own : p.msg.stream = sub.stream)
    (kept : p.msg.excludes (uid sub.session) = false) (onWay : OnWay sub p x)
    (subscribed : Subscribed sub x) (took : Took uid x a y) : OnWay sub p y := by
  rcases onWay with sent | underway
  · exact Or.inl (sent_step sent took)
  · cases took with
    | enqueue => exact Or.inr (underway.enqueue _)
    | loop moved => exact underway.moved (own ▸ subscribed) kept moved
    | call called => exact Or.inr (by simpa only [called.gatesNum] using underway)

theorem sent_of_performed {p : Packet} (onWay : OnWay sub p x) (performed : Performed p x) :
    sub.send p ∈ x.sent := by
  rcases onWay with sent | held | held | held | held
  · exact sent
  · exact absurd held performed.broadcast
  · exact absurd held performed.hubLoop
  · exact absurd held (performed.senders _)
  · exact absurd rfl (performed.loops _ _ held)

/-- A strictly increasing list has no message twice. -/
theorem count_le_one {p : Packet} (inv : Inv uid sub x) (own : p.msg.stream = sub.stream) :
    x.sent.count (sub.send p) ≤ 1 := by
  have order : (received sub x).Pairwise (·.seq < ·.seq) :=
    inv.order.sublist (List.sublist_append_left _ _)
  have nodup : (received sub x).Nodup := order.imp fun less same => by
    rw [same] at less
    exact Nat.lt_irrefl _ less
  calc x.sent.count (sub.send p)
      = (x.sent.filter (sub.owns (ofStream sub))).count (sub.send p) :=
        (List.count_filter (owns_send own)).symm
    _ ≤ (received sub x).count (sub.send p).packet := List.count_le_count_map
    _ ≤ 1 := List.nodup_iff_count_le_one.mp nodup p

theorem sent_once {early meanwhile later : List Act} {msg : StreamMessage} {start y z x : State}
    (inv : Inv uid sub start) (own : msg.stream = sub.stream)
    (before : Run.exec (step uid) start early = some y)
    (during : Run.exec (step uid) y (.enqueue msg :: meanwhile) = some z)
    (subscribed : Run.Always (step uid) (Subscribed sub) y (.enqueue msg :: meanwhile))
    (performed : Performed ⟨y.enqueued, msg⟩ z) (after : Run.exec (step uid) z later = some x) :
    x.sent.count (sub.send ⟨y.enqueued, msg⟩) =
      if msg.excludes (uid sub.session) then 0 else 1 := by
  have last := run_inv (run_inv (run_inv inv before) during) after
  cases kept : msg.excludes (uid sub.session) with
  | true =>
    rw [if_pos rfl, List.count_eq_zero]
    intro member
    have allowed := last.allowed.sent _ member
    exact absurd (kept.symm.trans allowed) (by simp)
  | false =>
    rw [if_neg Bool.false_ne_true]
    obtain ⟨first, enqueued, during⟩ := Run.exec_cons_some during
    have onWay : OnWay sub ⟨y.enqueued, msg⟩ first := by
      cases step_took enqueued with
      | enqueue => exact Or.inr (.queued (by simp))
      | call called => cases called
    have arrived : OnWay sub ⟨y.enqueued, msg⟩ z :=
      Run.invariant_of_always (P := Subscribed sub)
        (fun _ _ _ onWay subscribed stepped =>
          onWay_step own kept onWay subscribed (step_took stepped))
        onWay (subscribed.2 first enqueued) during
    have sent : sub.send ⟨y.enqueued, msg⟩ ∈ x.sent :=
      Run.invariant (fun _ _ _ sent stepped => sent_step sent (step_took stepped))
        (sent_of_performed arrived performed) after
    exact Nat.le_antisymm (count_le_one last own) (List.count_pos_iff.mpr sent)

end Once

section Silent

/-- The session is not subscribed, and every `Send` for it is of an older message. -/
structure Silent (sub : Subscription) (limit : Nat) (x : State) : Prop where
  absent : ¬ Subscribed sub x
  old : AllSends (fun send => sub.owns (ofStream sub) send = true → send.packet.seq < limit)
    x.toQueues

theorem silent_step {limit : Nat} (inv : Inv uid sub x) (silent : Silent sub limit x)
    (quiet : ¬ Resubscribes sub a) (took : Took uid x a y) : Silent sub limit y := by
  refine ⟨?_, allSends_step silent.old took fun k p waiting t target own => ?_⟩
  · cases took with
    | call called =>
      intro subscribed
      rw [Subscribed, Hub.gateOf, called.gatesNum] at subscribed
      obtain ⟨c, s, rfl, same⟩ := called.gains subscribed silent.absent
      exact quiet ⟨same.symm, rfl, rfl⟩
    | enqueue | loop => exact silent.absent
  · -- a snapshot has no place for a session that is not subscribed
    obtain ⟨same, stream⟩ := owns_iff.mp own
    have has := (Gate.mem_targets.mp target).1
    simp only [Subscription.send, Send.mk.injEq] at same
    refine absurd ?_ silent.absent
    rw [Subscribed, Hub.gateOf, ← ofStream_iff.mp stream, inv.placed.senders k p waiting, ← same.1,
      ← same.2.1]
    exact has

/-- A gate section that ends an `UnsubscribeSession` call leaves the session unsubscribed. -/
theorem absent_of_unsubscribes (ends : Unsubscribes sub x a) (stepped : step uid x a = some y) :
    ¬ Subscribed sub y := by
  cases step_took stepped with
  | call called =>
    cases called with
    | check => exact ends.2.2.2
    | delete next =>
      obtain ⟨s, own, deletes⟩ := ends
      cases deletes.symm.trans next
      rintro has
      exact (HubLoops.has_gateDelete.mp has).2 ⟨rfl, own.symm, rfl, rfl⟩
    | addStream next =>
      obtain ⟨s, -, deletes⟩ := ends
      cases deletes.symm.trans next
    | removeStream next =>
      obtain ⟨s, -, deletes⟩ := ends
      cases deletes.symm.trans next
    | subscribe => exact ends.elim
  | enqueue | loop => exact ends.elim

/-- What the subscription was sent, or is about to be sent, is on its route. -/
theorem mem_route (inv : Inv uid sub x) :
    AllSends (fun send => sub.owns (ofStream sub) send = true → send.packet ∈ route sub x)
      x.toQueues where
  sent send member own :=
    List.mem_append_left _ (List.mem_map_of_mem (List.mem_filter.mpr ⟨member, own⟩))
  due k send member own := by
    have place : index sub.stream x.hub.gatesNum = k := by
      rw [← ofStream_iff.mp (owns_iff.mp own).2]
      exact inv.placed.loops k send member
    refine List.mem_append_right _ (List.mem_append_left _ (List.mem_map_of_mem ?_))
    rw [place]
    exact List.mem_filter.mpr ⟨member, own⟩

theorem silent_after {early later : List Act} {start y z x : State} (inv : Inv uid sub start)
    (before : Run.exec (step uid) start early = some y) (ends : Unsubscribes sub y a)
    (stepped : step uid y a = some z) (after : Run.exec (step uid) z later = some x)
    (quiet : ∀ b ∈ later, ¬ Resubscribes sub b) (p : Packet) (own : p.msg.stream = sub.stream)
    (late : z.enqueued ≤ p.seq) : sub.send p ∉ x.sent := by
  have inv := step_inv (run_inv inv before) stepped
  have silent : Silent sub z.enqueued z :=
    ⟨absent_of_unsubscribes ends stepped,
      fun send member own => inv.below _ ((mem_route inv).sent send member own),
      fun k send member own => inv.below _ ((mem_route inv).due k send member own)⟩
  have keeps : ∀ s b next, Inv uid sub s ∧ Silent sub z.enqueued s → ¬ Resubscribes sub b →
      step uid s b = some next → Inv uid sub next ∧ Silent sub z.enqueued next := by
    rintro s b next ⟨inv, silent⟩ quiet stepped
    exact ⟨step_inv inv stepped, silent_step inv silent quiet (step_took stepped)⟩
  have last := Run.invariant_of_meets keeps ⟨inv, silent⟩
    (Run.meets_of_forall (fun b member _ => quiet b member) z) after
  intro sent
  exact absurd (last.2.old.sent _ sent (owns_send own)) (Nat.not_lt.mpr late)

end Silent

/-- For every hub, whatever its number of gates and its subscriptions, and every schedule. -/
theorem fanOut_holds (uid : SessionRef → String) (h : Hub) (sub : Subscription) :
    FanOut uid (State.start h) sub where
  once _ _ _ _ _ _ _ own before during subscribed performed after :=
    sent_once (inv_start uid sub h) own before during subscribed performed after
  ordered _ _ ran :=
    (run_inv (inv_start uid sub h) ran).order.sublist (List.sublist_append_left _ _)
  silent _ _ _ _ _ _ before ends stepped after quiet p own late :=
    silent_after (inv_start uid sub h) before ends stepped after quiet p own late

def alice : HubSession := ⟨1, "alice", "user"⟩

def inRoom : Subscription := ⟨1, "chat", "room"⟩

def hello : StreamMessage := { stream := "chat", data := "hello" }

def join : List Act := [.subscribe 0 alice "chat" "room", .proceed 0]

/-- The way of one message through the only gate. -/
def delivery : List Act :=
  [.loop .hubTake, .loop .hubCheck, .loop .hubPush, .loop (.gateTake 0 [(1, "room")]),
   .loop (.gateSend 0)]

/-- Two messages while the session is subscribed, the second one before the first is taken. -/
theorem hello_once :
    ∃ y z, Run.exec (step fun _ => "alice") (State.start { gatesNum := 1 }) join = some y ∧
      Run.exec (step fun _ => "alice") y ([.enqueue hello, .enqueue hello] ++ delivery) = some z ∧
      z.broadcast.length = 1 ∧ z.sent.count (inRoom.send ⟨0, hello⟩) = 1 := by
  refine ⟨_, _, rfl, rfl, rfl, ?_⟩
  refine (fanOut_holds (fun _ => "alice") { gatesNum := 1 } inRoom).once join
    (.enqueue hello :: delivery) [] hello _ _ _ rfl rfl rfl (by decide +kernel) ?_ rfl
  refine ⟨by decide +kernel, by decide +kernel, fun k => ?_, fun k send due => ?_⟩
  · cases k <;> exact List.not_mem_nil
  · cases k <;> cases due

end AnyCable.Guarantees.ExactlyOnce
