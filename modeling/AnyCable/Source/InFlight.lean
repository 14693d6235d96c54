import AnyCable.Lib.Pending
import AnyCable.Source.Delivery

/-!
# Messages on their way to a session

Facts about single steps of the delivery path that hold in every interleaving: an appended
message stays on its way until it is sent, as long as the session is subscribed
(`Delivered.step`), and the record of a stream logs what was appended (`Recorded.step`).
-/

set_option autoImplicit false

namespace AnyCable.Source.Delivery
open History HubLoops AnyCable.Lib

/-- The message has left its append and is not yet through with this subscriber: a
publisher, the hub or the gate of its stream still holds it. -/
inductive InFlight (s : Pipeline) (session : SessionRef) (identifier : String)
    (m : StreamMessage) : Prop
  | stamped (held : .stamped m ∈ s.publishers)
  | underway (held : Underway id s.hub.gatesNum s.toQueues session identifier m)

theorem inFlight_iff {s : Pipeline} {session : SessionRef} {identifier : String}
    {m : StreamMessage} :
    .stamped m ∈ s.publishers ∨ Underway id s.hub.gatesNum s.toQueues session identifier m ↔
      InFlight s session identifier m := by
  constructor
  · rintro (held | held)
    exacts [.stamped held, .underway held]
  · rintro (held | held) <;> simp [held]

instance (s : Pipeline) (session : SessionRef) (identifier : String) (m : StreamMessage) :
    Decidable (InFlight s session identifier m) :=
  decidable_of_iff _ inFlight_iff

/-- Sent, or still on its way. -/
def Delivered (s : Pipeline) (session : SessionRef) (identifier : String) (m : StreamMessage) :
    Prop :=
  ⟨session, identifier, m⟩ ∈ s.sent ∨ InFlight s session identifier m

section Subscribed

variable {uid : SessionRef → String} {s t : Pipeline} {a : Act} {session : SessionRef}
  {identifier : String} {m : StreamMessage}

/-- The label does not end the subscription. -/
def Keeps (session : SessionRef) (stream identifier : String) : Act → Prop
  | .unsubscribe other st id => ¬ (session = other.ref ∧ stream = st ∧ identifier = id)
  | _ => True

instance (session : SessionRef) (stream identifier : String) :
    (a : Act) → Decidable (Keeps session stream identifier a)
  | .unsubscribe other st id => inferInstanceAs
      (Decidable (¬ (session = other.ref ∧ stream = st ∧ identifier = id)))
  | .publish _ | .append .. | .enqueue _ | .loop _ | .subscribe .. => isTrue trivial

theorem gateOf_setGate (h : Hub) (stream st : String) (g : Gate) :
    (h.setGate (index stream h.gatesNum) g).gateOf st =
      if index st h.gatesNum = index stream h.gatesNum then g else h.gateOf st := by
  simp only [Hub.gateOf, Hub.setGate, Function.update_apply]

/-- A subscription lasts until it is taken back. -/
theorem subscribed_step {stream : String}
    (has : (s.hub.gateOf stream).Has session stream identifier)
    (keeps : Keeps session stream identifier a) (took : Took uid s a t) :
    (t.hub.gateOf stream).Has session stream identifier := by
  cases took with
  | subscribe other st id =>
    simp only [Hub.gateSubscribe, gateOf_setGate]
    split
    next same =>
      refine Gate.has_subscribe.mpr (Or.inr ?_)
      rwa [Hub.gateOf, ← same]
    · exact has
  | unsubscribe other st id =>
    simp only [gateDelete, gateOf_setGate]
    split
    next same =>
      refine Gate.has_delete.mpr ⟨?_, keeps⟩
      rwa [Hub.gateOf, ← same]
    · exact has
  | _ => exact has

/-- A step moves a message on its way to a subscriber one stage further or sends it. -/
theorem InFlight.step (inFlight : InFlight s session identifier m)
    (has : (s.hub.gateOf m.stream).Has session m.stream identifier)
    (kept : m.excludes (uid session) = false) (took : Took uid s a t) :
    Delivered t session identifier m := by
  cases inFlight with
  | stamped held =>
    cases took with
    | publishTransient | publish => exact Or.inr (.stamped (List.mem_append_left _ held))
    | append found =>
      rcases mem_eraseIdx_or_eq found held with same | other
      · cases same
      · exact Or.inr (.stamped (List.mem_append_left _ other))
    | enqueue found =>
      rcases mem_eraseIdx_or_eq found held with same | other
      · cases same
        exact Or.inr (.underway (.queued (by simp)))
      · exact Or.inr (.stamped other)
    | loop | subscribe | unsubscribe => exact Or.inr (.stamped held)
  | underway held =>
    cases took with
    | enqueue found => exact Or.inr (.underway (held.enqueue _))
    | loop moved => exact (held.moved has kept moved).imp_right .underway
    | _ => exact Or.inr (.underway held)

theorem Delivered.step (delivered : Delivered s session identifier m)
    (has : (s.hub.gateOf m.stream).Has session m.stream identifier)
    (kept : m.excludes (uid session) = false) (took : Took uid s a t) :
    Delivered t session identifier m := by
  rcases delivered with sent | inFlight
  · left
    cases took with
    | loop moved => exact moved.sent sent
    | _ => exact sent
  · exact inFlight.step has kept took

end Subscribed

section Records

variable {uid : SessionRef → String} {s t : Pipeline} {a : Act} {name : String}

/-- The record of a stream against what was appended to it. No record is ever dropped,
since no step expires one. -/
structure Recorded (s : Pipeline) (name : String) : Prop where
  logged : Logged s.broker s.appended name
  mapped : NotDropped s.broker name
  looked : ∀ msg r, .looked msg r ∈ s.publishers → msg.stream = name →
    s.broker.streams name = some r
  counter : ∀ r, s.broker.streams name = some r →
    (s.broker.records name r).offset = (logOf s.appended name).length

/-- An append to the stream finds the counter below its last value. -/
def Room (s : Pipeline) (name : String) : Act → Prop
  | .append i _ => ∀ msg r, s.publishers[i]? = some (.looked msg r) → msg.stream = name →
      (s.broker.records name r).offset + 1 < uint64Size
  | _ => True

theorem recorded_start (config : Config) (epoch : String) (gatesNum : Nat) (gates : Nat → Gate) :
    Recorded (Pipeline.start config epoch gatesNum gates) name where
  logged := Or.inl ⟨rfl, rfl, rfl⟩
  mapped := fun _ => rfl
  looked := by simp [Pipeline.start]
  counter := by simp [Pipeline.start, History.new]

/-- A lookup by another `HandleBroadcast` call. -/
theorem Recorded.publish {msg : StreamMessage} (recorded : Recorded s name) :
    Recorded { s with broker := (s.broker.lookup msg.stream).1,
                      publishers := s.publishers ++
                        [.looked msg (s.broker.lookup msg.stream).2] } name := by
  by_cases same : name = msg.stream
  · subst same
    obtain ⟨zero, logged, mapped, which⟩ := recorded.logged.lookup recorded.mapped
    refine ⟨logged, fun none => by simp [mapped] at none, ?_, ?_⟩
    · intro other r member stream
      rcases List.mem_append.mp member with old | new
      · have was := recorded.looked other r old stream
        rcases which with ⟨-, now⟩ | ⟨-, missing, -⟩
        · rw [now] at was
          exact mapped.trans was
        · rw [missing] at was; cases was
      · cases List.mem_singleton.mp new
        exact mapped.trans (congrArg some zero.symm)
    · intro r found
      obtain rfl : r = 0 := Option.some.inj (found.symm.trans mapped)
      rcases which with ⟨kept, was⟩ | ⟨new, -, empty⟩
      · simp only [kept]
        exact recorded.counter 0 was
      · simp [new, empty, newRecord]
  · obtain ⟨streams, created, records⟩ := s.broker.lookup_frame same
    refine ⟨recorded.logged.lookup_other same, ?_, ?_, ?_⟩
    · simpa only [NotDropped, streams, created] using recorded.mapped
    · intro other r member stream
      simp only [streams]
      rcases List.mem_append.mp member with old | new
      · exact recorded.looked other r old stream
      · cases List.mem_singleton.mp new
        exact absurd stream.symm same
    · simpa only [streams, records] using recorded.counter

/-- The append gives the next offset to the message. -/
theorem Recorded.append {i : Nat} {now : Instant} {msg : StreamMessage} {r offset : Nat}
    {broker : History} (recorded : Recorded s name)
    (room : msg.stream = name → (s.broker.records name r).offset + 1 < uint64Size)
    (found : s.publishers[i]? = some (.looked msg r))
    (ran : s.broker.appendTo msg.stream r msg.data now = some (broker, offset)) :
    Recorded { s with broker := broker,
                      publishers := s.publishers.eraseIdx i ++
                        [.stamped (broker.stamp msg offset)],
                      appended := s.appended ++ [broker.stamp msg offset] } name := by
  obtain ⟨offsetEq, ms, appended, rfl⟩ := appendTo_eq_some ran
  have looked : ∀ other r', .looked other r' ∈ s.publishers.eraseIdx i ++
      [.stamped (stamp (s.broker.setRecord msg.stream r ms) msg offset)] → other.stream = name →
      s.broker.streams name = some r' := by
    intro other r' member stream
    rcases List.mem_append.mp member with old | new
    · exact recorded.looked other r' (List.mem_of_mem_eraseIdx old) stream
    · cases List.mem_singleton.mp new
  by_cases same : msg.stream = name
  · subst same
    have mapped := recorded.looked msg r (List.mem_of_getElem? found) rfl
    obtain rfl : r = 0 := by
      rcases recorded.logged with ⟨-, none, -⟩ | ⟨-, only, -⟩
      · rw [none] at mapped; cases mapped
      · exact only r mapped
    rw [Nat.mod_eq_of_lt (room rfl)] at offsetEq
    refine ⟨?_, recorded.mapped, looked, ?_⟩
    · exact recorded.logged.append (m := stamp _ msg offset) mapped
        (by simp only [stamp]; omega) (fun _ => offsetEq) appended
    · intro r' mapped'
      obtain rfl : r' = 0 := Option.some.inj (mapped'.symm.trans mapped)
      have counter : ms.offset = offset := (Memstream.appendEntry_spec appended).2.1
      have before := recorded.counter 0 mapped
      have log := congrArg List.length (logOf_append_same s.appended
        (stamp (s.broker.setRecord msg.stream 0 ms) msg offset))
      simp only [stamp, List.length_append, List.length_singleton] at log
      simp only [setRecord_same, stamp]
      omega
  · have other : name ≠ msg.stream := Ne.symm same
    refine ⟨(recorded.logged.setRecord_other other r ms).issue_other other, recorded.mapped,
      looked, ?_⟩
    intro r' mapped'
    have log := logOf_append_other s.appended
      (stamp (s.broker.setRecord msg.stream r ms) msg offset) other
    simp only [log]
    rw [setRecord_other s.broker ms (Or.inl other)]
    exact recorded.counter r' mapped'

theorem Recorded.step (recorded : Recorded s name) (room : Room s name a)
    (took : Took uid s a t) : Recorded t name := by
  cases took with
  | publishTransient =>
    refine ⟨recorded.logged, recorded.mapped, ?_, recorded.counter⟩
    intro msg r member
    rcases List.mem_append.mp member with old | new
    · exact recorded.looked msg r old
    · cases List.mem_singleton.mp new
  | publish => exact recorded.publish
  | append found ran => exact recorded.append (fun same => room _ _ found same) found ran
  | enqueue =>
    exact ⟨recorded.logged, recorded.mapped,
      fun msg r member => recorded.looked msg r (List.mem_of_mem_eraseIdx member),
      recorded.counter⟩
  | _ => exact ⟨recorded.logged, recorded.mapped, recorded.looked, recorded.counter⟩

/-- A message that was not there before has just been stamped. -/
theorem appended_step {m : StreamMessage} (took : Took uid s a t) (member : m ∈ t.appended) :
    m ∈ s.appended ∨ .stamped m ∈ t.publishers := by
  cases took with
  | append =>
    rcases List.mem_append.mp member with old | new
    · exact Or.inl old
    · rw [List.mem_singleton.mp new]
      exact Or.inr (by simp)
  | _ => exact Or.inl member

/-- A mapped stream stays mapped to its record. -/
theorem mapped_step {r : Nat} (mapped : s.broker.streams name = some r)
    (took : Took uid s a t) : t.broker.streams name = some r := by
  cases took with
  | @publish msg =>
    rcases lookup_cases s.broker msg.stream with ⟨r', -, eq⟩ | ⟨missing, eq⟩
    · simpa only [eq] using mapped
    · have other : name ≠ msg.stream := by
        rintro rfl
        rw [missing] at mapped
        cases mapped
      simpa [eq, other] using mapped
  | append found ran =>
    obtain ⟨-, ms, -, rfl⟩ := appendTo_eq_some ran
    exact mapped
  | _ => exact mapped

theorem appended_mono (took : Took uid s a t) : s.appended <+: t.appended := by
  cases took with
  | append => exact List.prefix_append _ _
  | _ => exact List.prefix_rfl

theorem log_length_mono (took : Took uid s a t) :
    (logOf s.appended name).length ≤ (logOf t.appended name).length :=
  (((appended_mono took).filter _).map _).length_le

/-- The counter counts the appends, so it has room while these are few. -/
theorem Recorded.room (recorded : Recorded s name) (took : Took uid s a t)
    (few : (logOf t.appended name).length < uint64Size) : Room s name a := by
  cases took with
  | @append i now msg r offset broker found ran =>
    intro msg' r' found' same
    cases found.symm.trans found'
    subst same
    have mapped := recorded.looked msg r (List.mem_of_getElem? found) rfl
    have counter := recorded.counter r mapped
    have grown := congrArg List.length (logOf_append_same s.appended (broker.stamp msg offset))
    simp only [stamp, List.length_append, List.length_singleton] at grown few
    omega
  | _ => trivial

end Records

end AnyCable.Source.Delivery
