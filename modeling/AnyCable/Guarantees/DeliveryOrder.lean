import AnyCable.Lib.Run
import AnyCable.Source.InFlight

/-!
# Offset order of live delivery

Any number of `HandleBroadcast` calls run concurrently (`broker/memory.go:294-306`, called
by `broadcast/http.go:194-230`). Each assigns an offset under the record's lock and hands
the message to the hub after the lock is released, so two calls can enqueue in the opposite
order of their offsets and a subscriber receives them so (`overtaken_delivery`).

Behind the hand-over nothing overtakes: queue, hub loop, gate and `Send` calls keep the
order (`Inv.order`). If calls hand their messages over in the order of their offsets, a
session that is subscribed throughout receives strictly increasing offsets and has seen
nothing above a message that is still to come (`in_order_unless_overtaken`).
-/

set_option autoImplicit false

namespace AnyCable.Guarantees.DeliveryOrder
open AnyCable.Lib AnyCable.Source AnyCable.Source.History AnyCable.Source.Delivery
open AnyCable.Source.HubLoops (Subscription Placed placed_empty owns_iff route coming)

/-- A non-transient message of the stream. -/
def ofStream (stream : String) (m : StreamMessage) : Bool :=
  m.stream == stream && !m.isTransient

/-- What the subscription has been sent, oldest first. -/
def received (sub : Subscription) (s : Pipeline) : List StreamMessage :=
  HubLoops.received sub (ofStream sub.stream) s.toQueues

/-- Not sent to the subscription yet. A message that excludes its socket counts until the
gate has passed the session over. -/
def Unsent (uid : SessionRef → String) (sub : Subscription) (s : Pipeline) (m : StreamMessage) :
    Prop :=
  ⟨sub.session, sub.identifier, m⟩ ∉ s.sent ∧
    (m.excludes (uid sub.session) = true → InFlight s sub.session sub.identifier m)

/-- The property of one state. -/
structure InOrder (uid : SessionRef → String) (sub : Subscription) (s : Pipeline) : Prop where
  increasing : (received sub s).Pairwise (·.offset < ·.offset)
  unsent : ∀ m ∈ s.appended, m.stream = sub.stream → Unsent uid sub s m →
    ∀ seen ∈ received sub s, seen.offset < m.offset

/-- The stamped message a call has still to hand over. -/
def waiting : Publish → Option StreamMessage
  | .looked .. => none
  | .stamped m => if m.isTransient then none else some m

/-- The condition on a step: a call hands its message over only when no other call holds a
smaller offset of the stream, and an append finds the counter below its last value. -/
def InTurn (s : Pipeline) : Act → Prop
  | .enqueue i => ∀ p ∈ s.publishers[i]?, ∀ m ∈ waiting p, ∀ q ∈ s.publishers,
      ∀ other ∈ waiting q, other.stream = m.stream → m.offset ≤ other.offset
  | .append i _ => ∀ p ∈ s.publishers[i]?, match p with
      | .looked msg r => (s.broker.records msg.stream r).offset + 1 < uint64Size
      | .stamped _ => True
  | _ => True

/-- The subscription is never taken back. -/
def Stays (sub : Subscription) : Act → Prop := Keeps sub.session sub.stream sub.identifier

/-- The stamped messages of the stream that are not handed over, in append order. -/
def held (sub : Subscription) (s : Pipeline) : List StreamMessage :=
  (s.publishers.filterMap waiting).filter (ofStream sub.stream)

/-- Everything the subscription has received and is going to receive. -/
def trail (sub : Subscription) (s : Pipeline) : List StreamMessage :=
  route sub (ofStream sub.stream) s.hub.gatesNum s.toQueues ++ held sub s

structure Inv (uid : SessionRef → String) (sub : Subscription) (s : Pipeline) : Prop where
  recorded : Recorded s sub.stream
  lastingCalls : ∀ msg r, .looked msg r ∈ s.publishers → msg.isTransient = false
  lasting : ∀ m ∈ s.appended, m.isTransient = false
  placed : Placed id s.hub.gatesNum s.toQueues
  subscribed : (s.hub.gateOf sub.stream).Has sub.session sub.stream sub.identifier
  delivered : ∀ m ∈ s.appended, m.stream = sub.stream → m.excludes (uid sub.session) = false →
    Delivered s sub.session sub.identifier m
  known : ∀ m ∈ trail sub s, m ∈ s.appended
  order : (trail sub s).Pairwise (·.offset < ·.offset)

variable {uid : SessionRef → String} {sub : Subscription} {s t : Pipeline} {a : Act}

theorem ofStream_iff {stream : String} {m : StreamMessage} :
    ofStream stream m = true ↔ m.stream = stream ∧ m.isTransient = false := by
  simp [ofStream]

theorem trail_ofStream {m : StreamMessage} (member : m ∈ trail sub s) :
    ofStream sub.stream m = true := by
  rcases List.mem_append.mp member with onRoute | held
  · exact HubLoops.keep_of_mem_route onRoute
  · exact (List.mem_filter.mp held).2

theorem placed_step (placed : Placed id s.hub.gatesNum s.toQueues) (took : Took uid s a t) :
    Placed id t.hub.gatesNum t.toQueues := by
  cases took with
  | loop moved => exact placed.moved moved
  | _ => exact ⟨placed.senders, placed.loops⟩

theorem waiting_iff {p : Publish} {m : StreamMessage} :
    waiting p = some m ↔ p = .stamped m ∧ m.isTransient = false := by
  cases p with
  | looked => simp [waiting]
  | stamped other =>
    simp only [waiting, Publish.stamped.injEq]
    split
    next transient =>
      simp only [reduceCtorEq, false_iff, not_and]
      rintro rfl
      simp [transient]
    next lasting =>
      simp only [Option.some.injEq, iff_self_and]
      rintro rfl
      simpa using lasting

/-- A call that leaves without a message of the stream. -/
theorem held_eraseIdx {i : Nat} {p : Publish} (found : s.publishers[i]? = some p)
    (skipped : ∀ m ∈ waiting p, ofStream sub.stream m = false) :
    ((s.publishers.eraseIdx i).filterMap waiting).filter (ofStream sub.stream) = held sub s := by
  obtain ⟨split, erased⟩ := eraseIdx_split found
  rw [erased, held]
  conv_rhs => rw [split]
  simp only [List.filterMap_append, List.filterMap_cons, List.filter_append]
  cases own : waiting p with
  | none => rfl
  | some m => simp [skipped m own]

/-- The call that hands over first in turn holds the first waiting message. -/
theorem held_enqueue {i : Nat} {m : StreamMessage} (found : s.publishers[i]? = some (.stamped m))
    (turn : InTurn s (.enqueue i)) (own : ofStream sub.stream m = true)
    (order : (held sub s).Pairwise (·.offset < ·.offset)) :
    held sub s = m :: ((s.publishers.eraseIdx i).filterMap waiting).filter (ofStream sub.stream) := by
  obtain ⟨split, erased⟩ := eraseIdx_split found
  generalize s.publishers.take i = before at split erased
  generalize s.publishers.drop (i + 1) = after at split erased
  obtain ⟨stream, lasting⟩ := ofStream_iff.mp own
  have stamped : waiting (.stamped m) = some m := waiting_iff.mpr ⟨rfl, lasting⟩
  have shape : held sub s = (before.filterMap waiting).filter (ofStream sub.stream) ++
      m :: (after.filterMap waiting).filter (ofStream sub.stream) := by
    simp [held, split, stamped, own]
  have none : (before.filterMap waiting).filter (ofStream sub.stream) = [] := by
    refine List.eq_nil_iff_forall_not_mem.mpr fun other member => ?_
    rw [shape] at order
    have smaller := (List.pairwise_append.mp order).2.2 other member m (by simp)
    obtain ⟨listed, ownOther⟩ := List.mem_filter.mp member
    obtain ⟨q, member, is⟩ := List.mem_filterMap.mp listed
    have larger := turn _ found m stamped q (by rw [split]; simp [member]) other is
      ((ofStream_iff.mp ownOther).1.trans stream.symm)
    omega
  rw [shape, erased, List.filterMap_append, List.filter_append, none]
  rfl

theorem trail_step (inv : Inv uid sub s) (turn : InTurn s a) (took : Took uid s a t) :
    (trail sub t).Sublist (trail sub s) ∨
      ∃ m, trail sub t = trail sub s ++ [m] ∧ t.appended = s.appended ++ [m] := by
  cases took with
  | publishTransient transient =>
    left
    simp only [trail, held, List.filterMap_append, List.filter_append]
    simp [waiting, transient]
  | publish =>
    left
    simp only [trail, held, List.filterMap_append, List.filter_append]
    simp [waiting]
  | @append i now msg r offset broker found ran =>
    have kept : ((s.publishers.eraseIdx i).filterMap waiting).filter (ofStream sub.stream) =
        held sub s := held_eraseIdx found (by simp [waiting])
    have lasting : (broker.stamp msg offset).isTransient = false :=
      inv.lastingCalls msg r (List.mem_of_getElem? found)
    have stamped : waiting (.stamped (broker.stamp msg offset)) = some (broker.stamp msg offset) :=
      waiting_iff.mpr ⟨rfl, lasting⟩
    cases own : ofStream sub.stream (broker.stamp msg offset) with
    | true =>
      refine Or.inr ⟨broker.stamp msg offset, ?_, rfl⟩
      simp only [trail, held, List.filterMap_append, List.filter_append, kept]
      simp [stamped, own]
    | false =>
      left
      simp only [trail, held, List.filterMap_append, List.filter_append, kept]
      simp [stamped, own]
  | @enqueue i m found =>
    left
    cases own : ofStream sub.stream m with
    | true =>
      have order := (List.pairwise_append.mp inv.order).2.1
      have shape := held_enqueue found turn own order
      simp only [trail, shape, HubLoops.route_enqueue]
      simp [held, own]
    | false =>
      have kept : ((s.publishers.eraseIdx i).filterMap waiting).filter (ofStream sub.stream) =
          held sub s := by
        refine held_eraseIdx found fun other is => ?_
        obtain ⟨same, -⟩ := waiting_iff.mp is
        cases same
        exact own
      simp only [trail, held, kept, HubLoops.route_enqueue]
      simp [own]
  | loop moved =>
    -- behind the hand-over nothing overtakes
    have path := HubLoops.route_moved sub (ofStream sub.stream)
      (fun m own => (ofStream_iff.mp own).1) inv.placed moved
    exact Or.inl (path.append_right _)
  | subscribe | unsubscribe => exact Or.inl (List.Sublist.refl _)

/-- Transient messages are never appended. -/
theorem lasting_step (inv : Inv uid sub s) (took : Took uid s a t) :
    (∀ msg r, .looked msg r ∈ t.publishers → msg.isTransient = false) ∧
    ∀ m ∈ t.appended, m.isTransient = false := by
  cases took with
  | publishTransient =>
    refine ⟨fun msg r member => ?_, inv.lasting⟩
    rcases List.mem_append.mp member with old | new
    · exact inv.lastingCalls msg r old
    · cases List.mem_singleton.mp new
  | publish lasting =>
    refine ⟨fun msg r member => ?_, inv.lasting⟩
    rcases List.mem_append.mp member with old | new
    · exact inv.lastingCalls msg r old
    · cases List.mem_singleton.mp new
      exact lasting
  | @append i now sent record offset broker found ran =>
    refine ⟨fun msg r member => ?_, fun m member => ?_⟩
    · rcases List.mem_append.mp member with old | new
      · exact inv.lastingCalls msg r (List.mem_of_mem_eraseIdx old)
      · cases List.mem_singleton.mp new
    · rcases List.mem_append.mp member with old | new
      · exact inv.lasting m old
      · rw [List.mem_singleton.mp new]
        exact inv.lastingCalls sent record (List.mem_of_getElem? found)
  | enqueue =>
    exact ⟨fun msg r member => inv.lastingCalls msg r (List.mem_of_mem_eraseIdx member),
      inv.lasting⟩
  | _ => exact ⟨inv.lastingCalls, inv.lasting⟩

theorem InTurn.room (turn : InTurn s a) (name : String) : Room s name a := by
  cases a with
  | append i now =>
    intro msg r found same
    subst same
    exact turn _ found
  | _ => trivial

theorem step_inv (inv : Inv uid sub s) (turn : InTurn s a) (stays : Stays sub a)
    (stepped : step uid s a = some t) : Inv uid sub t := by
  have took := step_took stepped
  have recorded := inv.recorded.step (turn.room sub.stream) took
  obtain ⟨lastingCalls, lasting⟩ := lasting_step inv took
  have known : ∀ m ∈ trail sub s, m ∈ t.appended :=
    fun m member => (appended_mono took).subset (inv.known m member)
  refine ⟨recorded, lastingCalls, lasting, placed_step inv.placed took,
    subscribed_step inv.subscribed stays took, ?_, ?_, ?_⟩
  · intro m member stream kept
    rcases appended_step took member with old | stamped
    · exact (inv.delivered m old stream kept).step (stream ▸ inv.subscribed) kept took
    · exact Or.inr (.stamped stamped)
  · rcases trail_step inv turn took with moved | ⟨m, longer, appended⟩
    · exact fun m member => known m (moved.subset member)
    · rw [longer]
      intro x member
      rcases List.mem_append.mp member with old | new
      · exact known x old
      · rw [appended]
        exact List.mem_append_right _ new
  · rcases trail_step inv turn took with moved | ⟨m, longer, appended⟩
    · exact inv.order.sublist moved
    · rw [longer]
      refine List.pairwise_append.mpr ⟨inv.order, List.pairwise_singleton _ _, ?_⟩
      intro x old y new
      rw [List.mem_singleton.mp new]
      -- the new message has the largest offset of everything logged for the stream
      have stream : ∀ z ∈ trail sub t, z.stream = sub.stream :=
        fun z member => (ofStream_iff.mp (trail_ofStream member)).1
      have logged := recorded.logged.increasing
      rw [appended, List.filter_append] at logged
      refine (List.pairwise_append.mp logged).2.2 x ?_ m ?_
      · exact List.mem_filter.mpr ⟨inv.known x old, by simp [stream x (by simp [longer, old])]⟩
      · exact List.mem_filter.mpr ⟨by simp, by simp [stream m (by simp [longer])]⟩

theorem inv_start (config : Config) (epoch : String) (gatesNum : Nat) (gates : Nat → Gate)
    (has : (gates (index sub.stream gatesNum)).Has sub.session sub.stream sub.identifier) :
    Inv uid sub (Pipeline.start config epoch gatesNum gates) where
  recorded := recorded_start config epoch gatesNum gates
  lastingCalls := by simp [Pipeline.start]
  lasting := by simp [Pipeline.start]
  placed := placed_empty
  subscribed := has
  delivered := by simp [Pipeline.start]
  known := by simp [Pipeline.start, trail, held, HubLoops.route_empty]
  order := by simp [Pipeline.start, trail, held, HubLoops.route_empty]

/-- A message on its way is behind everything the subscription has received. -/
theorem Inv.inFlight_mem (inv : Inv uid sub s) {m : StreamMessage} (member : m ∈ s.appended)
    (stream : m.stream = sub.stream) (inFlight : InFlight s sub.session sub.identifier m) :
    m ∈ coming sub (ofStream sub.stream) s.hub.gatesNum s.toQueues ++ held sub s := by
  have lasting := inv.lasting m member
  have own : ofStream sub.stream m = true := ofStream_iff.mpr ⟨stream, lasting⟩
  refine List.mem_append.mpr ?_
  cases inFlight with
  | stamped place =>
    refine Or.inr (List.mem_filter.mpr ⟨List.mem_filterMap.mpr ⟨_, place, ?_⟩, own⟩)
    exact waiting_iff.mpr ⟨rfl, lasting⟩
  | underway place => exact Or.inl (place.mem_coming stream own)

theorem Inv.inOrder (inv : Inv uid sub s) : InOrder uid sub s := by
  have order := inv.order
  rw [trail, route, List.append_assoc] at order
  obtain ⟨increasing, -, ahead⟩ := List.pairwise_append.mp order
  refine ⟨increasing, fun m member stream unsent seen before => ?_⟩
  have inFlight : InFlight s sub.session sub.identifier m := by
    cases kept : m.excludes (uid sub.session) with
    | true => exact unsent.2 kept
    | false => exact (inv.delivered m member stream kept).resolve_left unsent.1
  exact ahead seen before m (inv.inFlight_mem member stream inFlight)

/-- In every interleaving in which the calls hand their messages over in the order of
their offsets and no offset counter overflows, a session that is subscribed throughout is
served in offset order. -/
theorem in_order_unless_overtaken (uid : SessionRef → String) (sub : Subscription)
    (config : Config) (epoch : String) (gatesNum : Nat) (gates : Nat → Gate)
    (has : (gates (index sub.stream gatesNum)).Has sub.session sub.stream sub.identifier)
    (schedule : List Act) (s : Pipeline) (stays : ∀ a ∈ schedule, Stays sub a)
    (turns : Run.Meets (step uid) InTurn (Pipeline.start config epoch gatesNum gates) schedule)
    (ran : Run.exec (step uid) (Pipeline.start config epoch gatesNum gates) schedule = some s) :
    InOrder uid sub s :=
  (Run.invariant_of_meets (fun _ _ _ inv met stepped => step_inv inv met.1 met.2 stepped)
    (inv_start config epoch gatesNum gates has) (turns.and_forall stays) ran).inOrder

instance (s : Pipeline) : (a : Act) → Decidable (InTurn s a)
  | .enqueue i => inferInstanceAs (Decidable (∀ p ∈ s.publishers[i]?, ∀ m ∈ waiting p,
      ∀ q ∈ s.publishers, ∀ other ∈ waiting q, other.stream = m.stream → m.offset ≤ other.offset))
  | .append i _ =>
    have : DecidablePred fun p : Publish => match p with
        | .looked msg r => (s.broker.records msg.stream r).offset + 1 < uint64Size
        | .stamped _ => True
      | .looked msg r => inferInstanceAs
          (Decidable ((s.broker.records msg.stream r).offset + 1 < uint64Size))
      | .stamped _ => isTrue trivial
    inferInstanceAs (Decidable (∀ p ∈ s.publishers[i]?, match p with
      | .looked msg r => (s.broker.records msg.stream r).offset + 1 < uint64Size
      | .stamped _ => True))
  | .publish _ | .loop _ | .subscribe .. | .unsubscribe .. => isTrue trivial

instance (sub : Subscription) (a : Act) : Decidable (Stays sub a) :=
  inferInstanceAs (Decidable (Keeps ..))

/-- A session subscribed to "chat" before anything is published. -/
def listener : Subscription := ⟨1, "chat", "channel"⟩

def listening : Nat → Gate := fun _ => ({} : Gate).subscribe 1 "chat" "channel"

/-- Two concurrent calls append "a" and then "b"; "b" is handed over first. -/
def overtaking : List Act :=
  [.publish ⟨"chat", "a", none, 0, ""⟩, .publish ⟨"chat", "b", none, 0, ""⟩,
   .append 0 0, .append 0 0, .enqueue 1, .enqueue 0,
   .loop .hubTake, .loop .hubCheck, .loop .hubPush,
   .loop (.gateTake 0 [(1, "channel")]), .loop (.gateSend 0),
   .loop .hubTake, .loop .hubCheck, .loop .hubPush,
   .loop (.gateTake 0 [(1, "channel")]), .loop (.gateSend 0)]

theorem overtaken_delivery :
    ¬ ∀ (uid : SessionRef → String) (sub : Subscription) (config : Config) (epoch : String)
      (gatesNum : Nat) (gates : Nat → Gate) (schedule : List Act) (s : Pipeline),
      (gates (index sub.stream gatesNum)).Has sub.session sub.stream sub.identifier →
      (∀ a ∈ schedule, Stays sub a) →
      Run.exec (step uid) (Pipeline.start config epoch gatesNum gates) schedule = some s →
      InOrder uid sub s := by
  intro always
  have inOrder := always (fun _ => "sid") listener {} "vRXl" 1 listening overtaking _ (by decide)
    (by decide) rfl
  exact absurd inOrder.increasing (by decide)

/-- The same two calls, handed over in turn. -/
def inTurn : List Act :=
  [.publish ⟨"chat", "a", none, 0, ""⟩, .publish ⟨"chat", "b", none, 0, ""⟩,
   .append 0 0, .append 0 0, .enqueue 0,
   .loop .hubTake, .loop .hubCheck, .enqueue 0, .loop .hubPush,
   .loop (.gateTake 0 [(1, "channel")]), .loop (.gateSend 0),
   .loop .hubTake, .loop .hubCheck, .loop .hubPush,
   .loop (.gateTake 0 [(1, "channel")]), .loop (.gateSend 0)]

theorem inTurn_in_order :
    ∃ s, Run.exec (step fun _ => "sid") (Pipeline.start {} "vRXl" 1 listening) inTurn = some s ∧
      (received listener s).map (·.offset) = [1, 2] ∧ InOrder (fun _ => "sid") listener s :=
  ⟨_, rfl, rfl, in_order_unless_overtaken (fun _ => "sid") listener {} "vRXl" 1 listening
    (by decide) inTurn _ (by decide) (by decide) rfl⟩

end AnyCable.Guarantees.DeliveryOrder
