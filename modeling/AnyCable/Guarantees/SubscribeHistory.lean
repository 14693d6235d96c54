import AnyCable.Lib.Run
import AnyCable.Source.InFlight

/-!
# Subscribing with a history position

One session executes `Node.Subscribe` with a position `(epoch, offset)` for a stream
(`node/node.go:437-491,587-660`): `hub.SubscribeSession` puts it into the gate and then into
the hub's list, and `HistoryFrom` finds the record and then reads it. In between, any steps
of the delivery path are taken.

The session is in the gate before the history is read, and a message is appended before it
is enqueued. So a message above the position is read, or its delivery starts after the
session has joined. Two kinds of messages still fall through: those that name the session's
own socket as excluded, which is what the exclusion is for, and those whose offset came
round again after 2^64 appends (`history_gap`). All others arrive
(`no_gap_unless_excluded`).
-/

set_option autoImplicit false

namespace AnyCable.Guarantees.SubscribeHistory
open AnyCable.Lib AnyCable.Source AnyCable.Source.History AnyCable.Source.Delivery
open AnyCable.Source.HubLoops (Queues HubLoop)

structure Command where
  session : HubSession
  stream : String
  identifier : String
  epoch : String
  offset : Nat

/-- How far the command has come. -/
inductive Phase where
  | started
  | inGate
  | registered
  | found (record : Nat)
  | returned (history : List StreamMessage)
  | failed (err : String)
  deriving DecidableEq

structure State where
  pipe : Pipeline
  phase : Phase

def State.start (config : Config) (epoch : String) (gatesNum : Nat) (gates : Nat → Gate) : State :=
  ⟨Pipeline.start config epoch gatesNum gates, .started⟩

inductive Label where
  | pipeline (a : Act)
  | client

/-- The next step of the command. -/
def clientStep (cmd : Command) (s : State) : Option State :=
  match s.phase with
  | .started => some ⟨{ s.pipe with hub := s.pipe.hub.gateSubscribe cmd.session cmd.stream
                                      cmd.identifier }, .inGate⟩
  | .inGate => some ⟨{ s.pipe with hub := s.pipe.hub.addStream cmd.session cmd.stream
                                      cmd.identifier }, .registered⟩
  | .registered =>
    match s.pipe.broker.historyGet cmd.stream cmd.epoch with
    | .ok r => some ⟨s.pipe, .found r⟩
    | .error err => some ⟨s.pipe, .failed err⟩
  | .found r =>
    match s.pipe.broker.historyRead cmd.stream cmd.epoch r cmd.offset with
    | none => none
    | some (.ok history) => some ⟨s.pipe, .returned history⟩
    | some (.error err) => some ⟨s.pipe, .failed err⟩
  | .returned _ => none
  | .failed _ => none

def step (uid : SessionRef → String) (cmd : Command) (s : State) : Label → Option State
  | .pipeline a => (Delivery.step uid s.pipe a).map fun pipe => ⟨pipe, s.phase⟩
  | .client => clientStep cmd s

/-- The session stays subscribed: once it is in the gate, no step takes it out. -/
def Stays (cmd : Command) (s : State) : Label → Prop
  | .pipeline a => s.phase = .started ∨ Keeps cmd.session.ref cmd.stream cmd.identifier a
  | .client => True

instance (cmd : Command) (s : State) : (l : Label) → Decidable (Stays cmd s l)
  | .pipeline a => inferInstanceAs (Decidable
      (s.phase = .started ∨ Keeps cmd.session.ref cmd.stream cmd.identifier a))
  | .client => isTrue trivial

/-- The message was returned by `HistoryFrom` or passed to `Session.Send`. -/
def Received (cmd : Command) (s : State) (history : List StreamMessage) (m : StreamMessage) :
    Prop :=
  (∃ found ∈ history, found.offset = m.offset ∧ found.data = m.data) ∨
    ⟨cmd.session.ref, cmd.identifier, m⟩ ∈ s.pipe.sent

/-- The property of one state: once its broadcast has been performed, an appended message
above the position has been received. -/
def NoGap (cmd : Command) (s : State) : Prop :=
  ∀ history, s.phase = .returned history → ∀ m ∈ s.pipe.appended, m.stream = cmd.stream →
    cmd.offset < m.offset → ¬ InFlight s.pipe cmd.session.ref cmd.identifier m →
    Received cmd s history m

/-- The same for the messages that do not exclude the session's socket. -/
def NoGapUnlessExcluded (uid : SessionRef → String) (cmd : Command) (s : State) : Prop :=
  ∀ history, s.phase = .returned history → ∀ m ∈ s.pipe.appended, m.stream = cmd.stream →
    cmd.offset < m.offset → ¬ InFlight s.pipe cmd.session.ref cmd.identifier m →
    m.excludes (uid cmd.session.ref) = false → Received cmd s history m

/-- Fewer messages were appended to the stream than there are offsets. -/
def FewAppended (cmd : Command) (s : State) : Prop :=
  (logOf s.pipe.appended cmd.stream).length < uint64Size

instance (cmd : Command) (s : State) : Decidable (FewAppended cmd s) :=
  inferInstanceAs (Decidable (_ < _))

structure Inv (uid : SessionRef → String) (cmd : Command) (s : State) : Prop where
  recorded : Recorded s.pipe cmd.stream
  subscribed : s.phase ≠ .started →
    (s.pipe.hub.gateOf cmd.stream).Has cmd.session.ref cmd.stream cmd.identifier
  found : ∀ r, s.phase = .found r → s.pipe.broker.streams cmd.stream = some r
  covered : ∀ history, s.phase = .returned history → ∀ m ∈ s.pipe.appended,
    m.stream = cmd.stream → cmd.offset < m.offset → m.excludes (uid cmd.session.ref) = false →
    (∃ found ∈ history, found.offset = m.offset ∧ found.data = m.data) ∨
      Delivered s.pipe cmd.session.ref cmd.identifier m

variable {uid : SessionRef → String} {cmd : Command}

theorem inv_start (config : Config) (epoch : String) (gatesNum : Nat) (gates : Nat → Gate) :
    Inv uid cmd (State.start config epoch gatesNum gates) where
  recorded := recorded_start config epoch gatesNum gates
  subscribed := fun begun => absurd rfl begun
  found := by simp [State.start]
  covered := by simp [State.start]

theorem pipeline_inv {s : State} {pipe : Pipeline} {a : Act} (inv : Inv uid cmd s)
    (stays : Stays cmd s (.pipeline a)) (took : Took uid s.pipe a pipe)
    (few : (logOf pipe.appended cmd.stream).length < uint64Size) :
    Inv uid cmd ⟨pipe, s.phase⟩ where
  recorded := inv.recorded.step (inv.recorded.room took few) took
  subscribed := by
    intro begun
    exact subscribed_step (inv.subscribed begun) (stays.resolve_left begun) took
  found := fun r phase => mapped_step (inv.found r phase) took
  covered := by
    intro history phase m member stream above kept
    rcases appended_step took member with old | stamped
    · refine (inv.covered history phase m old stream above kept).imp_right fun delivered => ?_
      have has := inv.subscribed (by simp [show s.phase = _ from phase])
      exact delivered.step (stream ▸ has) kept took
    · exact Or.inr (Or.inr (.stamped stamped))

/-- The hub is not part of what the broker recorded. -/
theorem recorded_hub {s : Pipeline} {name : String} (recorded : Recorded s name) (hub : Hub) :
    Recorded { s with hub := hub } name :=
  ⟨recorded.logged, recorded.mapped, recorded.looked, recorded.counter⟩

theorem client_inv {s next : State} (inv : Inv uid cmd s)
    (stepped : clientStep cmd s = some next) : Inv uid cmd next := by
  unfold clientStep at stepped
  split at stepped
  next =>
    cases stepped
    refine ⟨recorded_hub inv.recorded _, fun _ => ?_, by simp, by simp⟩
    simp only [Hub.gateSubscribe, gateOf_setGate, if_true]
    exact Gate.has_subscribe.mpr (Or.inl ⟨rfl, rfl, rfl⟩)
  next phase =>
    cases stepped
    exact ⟨recorded_hub inv.recorded _, fun _ => inv.subscribed (by simp [phase]), by simp,
      by simp⟩
  next phase =>
    have has := inv.subscribed (by simp [phase])
    split at stepped
    next r got =>
      cases stepped
      refine ⟨inv.recorded, fun _ => has, fun r' same => ?_, by simp⟩
      cases same
      exact (historyGet_ok got).2
    next =>
      cases stepped
      exact ⟨inv.recorded, fun _ => has, by simp, by simp⟩
  next r phase =>
    have has := inv.subscribed (by simp [phase])
    split at stepped
    · cases stepped
    next history read =>
      cases stepped
      refine ⟨inv.recorded, fun _ => has, by simp, fun h same m member stream above _ => ?_⟩
      cases same
      -- everything appended so far is in the record that is read here
      exact Or.inl (inv.recorded.logged.read_complete (inv.found r phase) read member stream above)
    next =>
      cases stepped
      exact ⟨inv.recorded, fun _ => has, by simp, by simp⟩
  · cases stepped
  · cases stepped

/-- One step; the bound on the appends is read off the state after it. -/
theorem step_inv {s next : State} {l : Label} (inv : FewAppended cmd s → Inv uid cmd s)
    (stays : Stays cmd s l) (stepped : step uid cmd s l = some next) :
    FewAppended cmd next → Inv uid cmd next := by
  intro few
  cases l with
  | pipeline a =>
    simp only [step, Option.map_eq_some_iff] at stepped
    obtain ⟨pipe, ran, rfl⟩ := stepped
    have took := step_took ran
    exact pipeline_inv (inv (Nat.lt_of_le_of_lt (log_length_mono took) few)) stays took few
  | client =>
    have same : next.pipe.appended = s.pipe.appended := by
      simp only [step, clientStep] at stepped
      split at stepped
      · cases stepped; rfl
      · cases stepped; rfl
      · split at stepped <;> cases stepped <;> rfl
      · split at stepped <;> cases stepped <;> rfl
      · cases stepped
      · cases stepped
    exact client_inv (inv (by simpa only [FewAppended, same] using few)) stepped

/-- In every interleaving in which the session stays subscribed, a successful history
request leaves no gap among the messages that do not exclude the session's socket, as long
as the stream has had fewer than 2^64 of them. -/
theorem no_gap_unless_excluded (uid : SessionRef → String) (cmd : Command) (config : Config)
    (epoch : String) (gatesNum : Nat) (gates : Nat → Gate) (schedule : List Label) (s : State)
    (stays : Run.Meets (step uid cmd) (Stays cmd) (State.start config epoch gatesNum gates) schedule)
    (ran : Run.exec (step uid cmd) (State.start config epoch gatesNum gates) schedule = some s)
    (few : FewAppended cmd s) : NoGapUnlessExcluded uid cmd s := by
  have keeps : ∀ s l next, (FewAppended cmd s → Inv uid cmd s) → Stays cmd s l →
      step uid cmd s l = some next → FewAppended cmd next → Inv uid cmd next :=
    fun _ _ _ inv ok stepped => step_inv inv ok stepped
  have inv := Run.invariant_of_meets keeps
    (fun _ => inv_start config epoch gatesNum gates) stays ran few
  intro history phase m member stream above performed kept
  rcases inv.covered history phase m member stream above kept with read | sent | inFlight
  · exact Or.inl read
  · exact Or.inr sent
  · exact absurd inFlight performed

/-- A client of the stream "chat" that has seen offset 1. -/
def resuming : Command := ⟨⟨1, "sid", "user"⟩, "chat", "channel", "vRXl", 1⟩

/-- The client joins while the second of three broadcasts is between its append and its
hand-over, and reads the history before the third is appended. -/
def joining : List Label :=
  [.pipeline (.publish ⟨"chat", "a", none, 0, ""⟩), .pipeline (.append 0 0),
   .pipeline (.enqueue 0), .pipeline (.loop .hubTake), .pipeline (.loop .hubCheck),
   .pipeline (.publish ⟨"chat", "b", none, 0, ""⟩), .pipeline (.append 0 0), .client,
   .pipeline (.enqueue 0), .client, .client, .pipeline (.loop .hubTake), .client,
   .pipeline (.publish ⟨"chat", "c", none, 0, ""⟩), .pipeline (.append 0 0),
   .pipeline (.enqueue 0), .pipeline (.loop .hubCheck), .pipeline (.loop .hubPush),
   .pipeline (.loop (.gateTake 0 [(1, "channel")])), .pipeline (.loop (.gateSend 0)),
   .pipeline (.loop .hubTake), .pipeline (.loop .hubCheck), .pipeline (.loop .hubPush),
   .pipeline (.loop (.gateTake 0 [(1, "channel")])), .pipeline (.loop (.gateSend 0))]

theorem joining_no_gap :
    ∃ s, Run.exec (step (fun _ => "sid") resuming) (State.start {} "vRXl" 1 fun _ => {})
        joining = some s ∧
      s.phase = .returned [⟨"chat", "b", none, 2, "vRXl"⟩] ∧
      s.pipe.sent.map (·.packet.offset) = [2, 3] ∧
      NoGapUnlessExcluded (fun _ => "sid") resuming s :=
  ⟨_, rfl, rfl, rfl, no_gap_unless_excluded (fun _ => "sid") resuming {} "vRXl" 1 (fun _ => {})
    joining _ (by decide) rfl (by decide)⟩

/-- Two broadcasts; the client joins in between and is named as excluded by the second. -/
def excludedSocket : List Label :=
  [.pipeline (.publish ⟨"chat", "a", none, 0, ""⟩), .pipeline (.append 0 0),
   .pipeline (.enqueue 0), .pipeline (.loop .hubTake), .pipeline (.loop .hubCheck),
   .client, .client, .client, .client,
   .pipeline (.publish ⟨"chat", "b", some { excludeSocket := "sid" }, 0, ""⟩),
   .pipeline (.append 0 0), .pipeline (.enqueue 0), .pipeline (.loop .hubTake),
   .pipeline (.loop .hubCheck), .pipeline (.loop .hubPush), .pipeline (.loop (.gateTake 0 []))]

theorem excludedSocket_end :
    ∃ s, Run.exec (step (fun _ => "sid") resuming) (State.start {} "vRXl" 1 fun _ => {})
        excludedSocket = some s ∧ s.phase = .returned [] ∧ FewAppended resuming s ∧
      ∃ m ∈ s.pipe.appended, m.stream = "chat" ∧ m.offset = 2 ∧
        ¬ InFlight s.pipe 1 "channel" m ∧ s.pipe.sent = [] := by
  refine ⟨_, rfl, ?_⟩
  decide

/-- One broadcast that nobody listens to. -/
def round : List Label :=
  [.pipeline (.publish ⟨"chat", "m", none, 0, ""⟩), .pipeline (.append 0 0),
   .pipeline (.enqueue 0), .pipeline (.loop .hubTake), .pipeline (.loop .hubCheck)]

def flood : Nat → List Label
  | 0 => round ++ round
  | n + 1 => flood n ++ round

/-- After `n` rounds with a history limit of 1: the record holds the last message, and the
second one was appended long ago. -/
structure Flooded (n : Nat) (s : State) : Prop where
  phase : s.phase = .started
  publishers : s.pipe.publishers = []
  hub : s.pipe.hub = { gatesNum := 1 }
  queues : s.pipe.toQueues = {}
  second : ⟨"chat", "m", none, 2, "vRXl"⟩ ∈ s.pipe.appended
  epoch : s.pipe.broker.epoch = "vRXl"
  mapped : s.pipe.broker.streams "chat" = some 0
  record : ∃ deadline, s.pipe.broker.records "chat" 0 =
    { offset := n % uint64Size, deadline, low := n % uint64Size,
      data := [⟨0, n % uint64Size, "m"⟩], ttl := 300, limit := 1 }

theorem flooded_round {n : Nat} {s : State} (flooded : Flooded n s) :
    ∃ t, Run.exec (step (fun _ => "sid") resuming) s round = some t ∧ Flooded (n + 1) t := by
  obtain ⟨pipe, phase⟩ := s
  obtain ⟨queues, broker, hub, publishers, appended⟩ := pipe
  obtain ⟨rfl, rfl, rfl, rfl, second, epoch, mapped, deadline, record⟩ := flooded
  simp only at second epoch mapped record
  have wraps : (n % uint64Size + 1) % uint64Size = (n + 1) % uint64Size := Nat.mod_add_mod ..
  let ms : Memstream :=
    { offset := (n + 1) % uint64Size, deadline := unix (0 + Memstream.keepAlive 300),
      low := (n + 1) % uint64Size, data := [⟨0, (n + 1) % uint64Size, "m"⟩], ttl := 300, limit := 1 }
  have looked : broker.lookup "chat" = (broker, 0) := by simp [History.lookup, mapped]
  have ran : broker.appendTo "chat" 0 "m" 0 =
      some (broker.setRecord "chat" 0 ms, (n + 1) % uint64Size) := by
    simp [History.appendTo, record, Memstream.add, Memstream.appendEntry, Memstream.trim, wraps,
      show unix 0 = 0 from rfl, ms]
  refine ⟨⟨{ broker := broker.setRecord "chat" 0 ms, hub := { gatesNum := 1 },
             appended := appended ++ [⟨"chat", "m", none, (n + 1) % uint64Size, broker.epoch⟩] },
           .started⟩, ?_, ?_⟩
  · simp [round, Run.exec, step, Delivery.step, looked, ran, StreamMessage.isTransient,
      Queues.enqueue, Queues.move, Hub.broadcastCap, Hub.gateOf, Gate.hasStream, stamp]
  · exact ⟨rfl, rfl, rfl, rfl, List.mem_append_left _ second, epoch, mapped,
      _, setRecord_same ..⟩

theorem flood_end (n : Nat) :
    ∃ s, Run.exec (step (fun _ => "sid") resuming)
        (State.start { historyLimit := 1 } "vRXl" 1 fun _ => {}) (flood n) = some s ∧
      Flooded (n + 2) s := by
  induction n with
  | zero =>
    refine ⟨_, rfl, ?_⟩
    exact ⟨rfl, rfl, rfl, rfl, by decide, rfl, rfl, _, rfl⟩
  | succ n ih =>
    obtain ⟨s, ran, flooded⟩ := ih
    obtain ⟨t, more, next⟩ := flooded_round flooded
    exact ⟨t, by rw [flood, Run.exec_append, ran]; exact more, next⟩

theorem flood_stays (n : Nat) : ∀ l ∈ flood n, ∀ s, Stays resuming s l := by
  have one : ∀ l ∈ round, ∀ s, Stays resuming s l := by
    intro l member s
    simp only [round, List.mem_cons, List.not_mem_nil, or_false] at member
    rcases member with rfl | rfl | rfl | rfl | rfl <;> exact Or.inr trivial
  induction n with
  | zero => exact fun l member => (List.mem_append.mp member).elim (one l) (one l)
  | succ n ih => exact fun l member => (List.mem_append.mp member).elim (ih l) (one l)

/-- When the counter has come round to 1, a client at position 1 is told that it has seen
everything. -/
theorem flooded_read {s : State} (flooded : Flooded (uint64Size + 1) s) :
    ∃ t, Run.exec (step (fun _ => "sid") resuming) s [.client, .client, .client, .client] =
        some t ∧ t.phase = .returned [] ∧ t.pipe.sent = [] ∧
      ⟨"chat", "m", none, 2, "vRXl"⟩ ∈ t.pipe.appended ∧
      ¬ InFlight t.pipe 1 "channel" ⟨"chat", "m", none, 2, "vRXl"⟩ := by
  obtain ⟨pipe, phase⟩ := s
  obtain ⟨queues, broker, hub, publishers, appended⟩ := pipe
  obtain ⟨rfl, rfl, rfl, rfl, second, epoch, mapped, deadline, record⟩ := flooded
  simp only at second epoch mapped record
  have got : broker.historyGet "chat" "vRXl" = .ok 0 := by
    simp [History.historyGet, History.get, epoch, mapped]
  have one : (uint64Size + 1) % uint64Size = 1 := by decide
  have read : broker.historyRead "chat" "vRXl" 0 1 = some (.ok []) := by
    simp [History.historyRead, record, one, Memstream.filterByOffset, Except.map]
  refine ⟨_, by simp [Run.exec, step, clientStep, resuming, got, read]; rfl, rfl, rfl, second, ?_⟩
  rintro (held | held | held | held | held)
  all_goals simp [HubLoop.held] at held

/-- The property fails for a message that excludes the session's socket, and it fails once
the offsets of the stream have come round. -/
theorem history_gap :
    (¬ ∀ (uid : SessionRef → String) (cmd : Command) (config : Config) (epoch : String)
      (gatesNum : Nat) (gates : Nat → Gate) (schedule : List Label) (s : State),
      Run.Meets (step uid cmd) (Stays cmd) (State.start config epoch gatesNum gates) schedule →
      Run.exec (step uid cmd) (State.start config epoch gatesNum gates) schedule = some s →
      FewAppended cmd s → NoGap cmd s) ∧
    (¬ ∀ (uid : SessionRef → String) (cmd : Command) (config : Config) (epoch : String)
      (gatesNum : Nat) (gates : Nat → Gate) (schedule : List Label) (s : State),
      Run.Meets (step uid cmd) (Stays cmd) (State.start config epoch gatesNum gates) schedule →
      Run.exec (step uid cmd) (State.start config epoch gatesNum gates) schedule = some s →
      NoGapUnlessExcluded uid cmd s) := by
  constructor
  · intro always
    obtain ⟨s, ran, phase, few, m, member, stream, offset, performed, sent⟩ := excludedSocket_end
    have noGap := always _ resuming _ _ _ _ excludedSocket s (by decide) ran few
    rcases noGap [] phase m member stream (by rw [offset]; decide) performed with
      ⟨found, none, -⟩ | passed
    · cases none
    · rw [sent] at passed; cases passed
  · intro always
    obtain ⟨n, rounds⟩ : ∃ n, n + 2 = uint64Size + 1 := ⟨uint64Size - 1, by decide⟩
    obtain ⟨s, flooded, enough⟩ := flood_end n
    rw [rounds] at enough
    obtain ⟨t, ran, phase, sent, member, performed⟩ := flooded_read enough
    have stays : Run.Meets (step (fun _ => "sid") resuming) (Stays resuming)
        (State.start { historyLimit := 1 } "vRXl" 1 fun _ => {})
        (flood n ++ [.client, .client, .client, .client]) := by
      refine Run.meets_of_forall (fun l member s => ?_) _
      rcases List.mem_append.mp member with early | client
      · exact flood_stays n l early s
      · obtain rfl : l = .client := by simpa using client
        trivial
    have noGap := always _ resuming _ _ _ _ _ t stays (by rw [Run.exec_append, flooded]; exact ran)
    rcases noGap [] phase _ member rfl (by decide) performed rfl with ⟨found, none, -⟩ | passed
    · cases none
    · rw [sent] at passed; cases passed

end AnyCable.Guarantees.SubscribeHistory
