import AnyCable.Lib.Run
import AnyCable.Source.HubEdits
import AnyCable.Source.SessionCache
import AnyCable.Source.SystemSteps

/-!
# The session's streams and the gates

The streams of a session are kept three times: in its `SubscriptionState`, in the hub's list for
the session, and in the gates. `handleCommandReply` (`node/node.go:884-935`) updates all three,
in another order on each branch. `Agree` says that the gates hold for the session what its
`SubscriptionState` holds; the commands of one session run one after the other, with any answers.

Two branches break it. A reply may start streams for a channel that is not there: a rejected
`Subscribe`, or an `Unsubscribe` that has removed the channel already; `AddChannelStream` does
nothing then while the gate is subscribed. And `UnsubscribeSessionFromChannel`
(`hub/hub.go:253-271`) removes pairs from the list it ranges over and so misses some of them.
`streams_kept` has a run of each; `agree_iff_sound` says that there is nothing else.
-/

set_option autoImplicit false

namespace AnyCable.Guarantees.Registries
open AnyCable.Lib AnyCable.Source AnyCable.Source.System

structure State where
  node : Node
  session : Session

inductive Act where
  | subscribe (msg : Message) (answer : Answer CommandResult) (now : Instant)
  | unsubscribe (msg : Message) (answer : Answer CommandResult) (now : Instant)
  | perform (msg : Message) (answer : Answer CommandResult) (now : Instant)

def step (x : State) : Act → Option State
  | .subscribe msg answer now =>
    (x.node.subscribe x.session msg answer now).map fun r => ⟨r.1, r.2.1⟩
  | .unsubscribe msg answer now =>
    (x.node.unsubscribe x.session msg answer now).map fun r => ⟨r.1, r.2.1⟩
  | .perform msg answer now =>
    (x.node.perform x.session msg answer now).map fun r => ⟨r.1, r.2.1⟩

/-- The property of one state: as long as the session is connected, the gates hold its streams,
and so a broadcast is sent for an identifier only if the channel has the stream. -/
structure Agree (x : State) : Prop where
  same : x.session.connected = true → ∀ id st,
    (x.node.hub.gateOf st).Has x.session.ref st id ↔ x.session.subscriptions.Holds id st
  served : x.session.connected = true → ∀ (uid : SessionRef → String) (msg : StreamMessage) id,
    (x.session.ref, id) ∈ (x.node.hub.gateOf msg.stream).targets uid msg →
      x.session.subscriptions.Holds id msg.stream

/-- A reply that a command goes through: its channel, whether the channel is there while streams
are started, and the reply as it is handled. -/
structure Handling where
  id : String
  present : Bool
  reply : CommandResult

def handles (s : Session) : Act → Option Handling
  | .subscribe msg answer _ =>
    if s.subscriptions.hasChannel msg.identifier = false ∧ Node.refusal answer = none then
      answer.res.map fun reply => ⟨msg.identifier, confirmed answer reply, reply⟩
    else none
  | .unsubscribe msg answer _ =>
    if s.subscriptions.hasChannel msg.identifier = true ∧ Node.refusal answer = none then
      answer.res.map fun reply =>
        if answer.err.isNone then ⟨msg.identifier, false, { reply with stopAllStreams := true }⟩
        else ⟨msg.identifier, true, reply⟩
    else none
  | .perform msg answer _ =>
    match msg.data with
    | .text _ =>
      if s.subscriptions.hasChannel msg.identifier = true ∧ Node.refusal answer = none then
        answer.res.map fun reply => ⟨msg.identifier, true, reply⟩
      else none
    | _ => none

/-- No stream is started for a missing channel, and the loop that stops all streams of a channel
comes across every one of them that is not started again. -/
def SoundReply (h : Hub) (s : Session) (c : Handling) : Prop :=
  (c.present = false → c.reply.streams.getD [] = []) ∧
    (c.reply.stopAllStreams = true → ∀ st ∈ s.subscriptions.streamsFor c.id,
      (st, c.id) ∈ Slice.reached (fun p => c.id = p.2) (h.pairsOf s.toHub) ∨
        st ∈ c.reply.streams.getD [])

instance (h : Hub) (s : Session) (c : Handling) : Decidable (SoundReply h s c) :=
  inferInstanceAs (Decidable (_ ∧ _))

/-- The condition on a step of a connected session. -/
def Sound (x : State) (a : Act) : Prop :=
  ∀ c ∈ handles x.session a, x.session.connected = true → c.reply.disconnect = false →
    SoundReply x.node.hub x.session c

instance (x : State) (a : Act) : Decidable (Sound x a) :=
  inferInstanceAs (Decidable (∀ c ∈ handles x.session a, _ → _ → _))

section Reply

variable {h : Hub} {s : HubSession} {id : String} {reply : CommandResult}

/-- The streams that the first part of a reply takes out of the gates. -/
def Stops (h : Hub) (s : HubSession) (id : String) (reply : CommandResult) (st : String) : Prop :=
  if reply.stopAllStreams then (st, id) ∈ Slice.reached (fun p => id = p.2) (h.pairsOf s)
  else st ∈ reply.stoppedStreams.getD []

theorem stopHub_spec (h : Hub) (s : HubSession) (id : String) (reply : CommandResult) :
    (stopHub h s id reply).gatesNum = h.gatesNum ∧
    (h.Complete s → (stopHub h s id reply).Complete s) ∧
    ∀ k r st id', ((stopHub h s id reply).gates k).Has r st id' ↔
      (h.gates k).Has r st id' ∧
        ¬ (k = index st h.gatesNum ∧ r = s.ref ∧ id' = id ∧ Stops h s id reply st) := by
  unfold stopHub Stops
  split
  · refine ⟨(Hub.edits_unsubscribeSessionFromChannel id).gatesNum,
      fun complete => complete.unsubscribeSessionFromChannel id, fun k r st id' => ?_⟩
    rw [Hub.has_unsubscribeSessionFromChannel]
    refine and_congr_right fun _ => not_congr (and_congr_right fun _ => and_congr_right fun _ => ?_)
    constructor
    · intro member
      have own := Slice.hit_of_mem_reached member
      simp only [decide_eq_true_eq] at own
      subst own
      exact ⟨rfl, member⟩
    · rintro ⟨rfl, member⟩
      exact member
  · obtain ⟨gatesNum, complete, has⟩ := Hub.unsubscribeSessions_spec (s := s)
      (f := fun st => (st, id)) (reply.stoppedStreams.getD []) h
    refine ⟨gatesNum, complete, fun k r st id' => (has k r st id').trans ?_⟩
    simp [and_comm, eq_comm]

theorem replyHub_spec (h : Hub) (s : HubSession) (id : String) (reply : CommandResult) :
    (replyHub h s id reply).gatesNum = h.gatesNum ∧
    (h.Complete s → (replyHub h s id reply).Complete s) ∧
    ∀ st id', ((replyHub h s id reply).gateOf st).Has s.ref st id' ↔
      (id' = id ∧ st ∈ reply.streams.getD []) ∨
        ((h.gateOf st).Has s.ref st id' ∧ ¬ (id' = id ∧ Stops h s id reply st)) := by
  obtain ⟨gatesNum, complete, has⟩ := stopHub_spec h s id reply
  obtain ⟨gatesNum', complete', has'⟩ := Hub.subscribeEach_spec (s := s)
    (f := fun st => (st, id)) (reply.streams.getD []) (stopHub h s id reply)
  have number : (replyHub h s id reply).gatesNum = h.gatesNum := gatesNum'.trans gatesNum
  refine ⟨number, fun before => complete' (complete before), fun st id' => ?_⟩
  unfold Hub.gateOf
  rw [number]
  refine (has' _ _ _ _).trans ?_
  rw [has, gatesNum]
  simp [and_comm, eq_comm]

theorem holds_replySubscriptions {subs : SubscriptionState} {id' st : String} :
    (replySubscriptions subs id reply).Holds id' st ↔
      (id' = id ∧ st ∈ reply.streams.getD [] ∧ subs.hasChannel id = true) ∨
        (subs.Holds id' st ∧ ¬ (id' = id ∧
          (reply.stopAllStreams = true ∨ st ∈ reply.stoppedStreams.getD []))) := by
  have channel : (stopSubscriptions subs id reply).hasChannel id = subs.hasChannel id := by
    unfold stopSubscriptions
    split
    · exact SubscriptionState.hasChannel_removeChannelStreams
    · exact SubscriptionState.hasChannel_removeEach _
  have stopped : (stopSubscriptions subs id reply).Holds id' st ↔ subs.Holds id' st ∧
      ¬ (id' = id ∧ (reply.stopAllStreams = true ∨ st ∈ reply.stoppedStreams.getD [])) := by
    unfold stopSubscriptions
    split
    next all =>
      rw [SubscriptionState.holds_removeChannelStreams]
      simp [all, and_comm]
    next listed =>
      rw [SubscriptionState.holds_removeEach]
      simp [listed]
  rw [replySubscriptions, SubscriptionState.holds_addEach, channel, stopped]

/-- Where gates and session agree before a reply, they agree after it if and only if the reply
is sound. `opened` are the channels that the reply is handled with: those of the session, with a
new empty one, or without the one that all streams are stopped for. -/
theorem reply_agree_iff {before : Session} {opened : SubscriptionState}
    (agree : ∀ id st, (h.gateOf st).Has before.ref st id ↔ before.subscriptions.Holds id st)
    (others : ∀ id', id' ≠ id → ∀ st, opened.Holds id' st ↔ before.subscriptions.Holds id' st)
    (own : (∀ st, opened.Holds id st ↔ before.subscriptions.Holds id st) ∨
      (opened.hasChannel id = false ∧ reply.stopAllStreams = true)) :
    (∀ id' st, ((replyHub h before.toHub id reply).gateOf st).Has before.ref st id' ↔
        (replySubscriptions opened id reply).Holds id' st) ↔
      SoundReply h before ⟨id, opened.hasChannel id, reply⟩ := by
  have has := (replyHub_spec h before.toHub id reply).2.2
  have held : ∀ st, opened.Holds id st → opened.hasChannel id = true :=
    fun st holds => SubscriptionState.hasChannel_of_holds holds
  constructor
  · intro agrees
    have own' : ∀ st, _ := fun st => ((has st id).symm.trans (agrees id st)).trans
      holds_replySubscriptions
    refine ⟨fun missing => ?_, fun all st member => ?_⟩
    · -- a stream that is started is in the gate, and the channel is not there to have it
      have gone : ¬ opened.hasChannel id = true := by
        rw [show opened.hasChannel id = false from missing]
        exact Bool.false_ne_true
      rw [List.eq_nil_iff_forall_not_mem]
      intro st member
      rcases (own' st).mp (Or.inl ⟨rfl, member⟩) with ⟨-, -, present⟩ | ⟨holds, -⟩
      · exact gone present
      · exact gone (held st holds)
    · by_contra missed
      rw [not_or] at missed
      have kept : ¬ Stops h before.toHub id reply st := by
        unfold Stops
        rw [if_pos all]
        exact missed.1
      rcases (own' st).mp (Or.inr ⟨(agree id st).mpr member, fun gone => kept gone.2⟩) with
        ⟨-, again, -⟩ | ⟨-, stays⟩
      · exact missed.2 again
      · exact stays ⟨rfl, Or.inl all⟩
  · rintro ⟨absent, reaches⟩ id' st
    rw [holds_replySubscriptions]
    refine (has st id').trans ?_
    by_cases same : id' = id
    · subst same
      constructor
      · rintro (⟨-, started⟩ | ⟨there, stays⟩)
        · refine Or.inl ⟨rfl, started, ?_⟩
          by_contra missing
          rw [absent (by simpa using missing)] at started
          cases started
        · have member := (agree id' st).mp there
          by_cases all : reply.stopAllStreams = true
          · rcases reaches all st member with hit | started
            · refine absurd ⟨rfl, ?_⟩ stays
              unfold Stops
              rw [if_pos all]
              exact hit
            · refine Or.inl ⟨rfl, started, ?_⟩
              by_contra missing
              rw [absent (by simpa using missing)] at started
              cases started
          · rcases own with same | ⟨-, all'⟩
            · refine Or.inr ⟨(same st).mpr member, ?_⟩
              rintro ⟨-, all' | listed⟩
              · exact all all'
              · refine stays ⟨rfl, ?_⟩
                unfold Stops
                rw [if_neg all]
                exact listed
            · exact absurd all' all
      · rintro (⟨-, started, -⟩ | ⟨holds, stays⟩)
        · exact Or.inl ⟨rfl, started⟩
        · rcases own with same | ⟨missing, -⟩
          · refine Or.inr ⟨(agree id' st).mpr ((same st).mp holds), ?_⟩
            rintro ⟨-, stops⟩
            unfold Stops at stops
            split at stops
            next all => exact stays ⟨rfl, Or.inl all⟩
            next listed => exact stays ⟨rfl, Or.inr stops⟩
          · rw [held st holds] at missing
            cases missing
    · simp only [same, false_and, false_or, not_false_eq_true, and_true]
      exact (agree id' st).trans (others id' same st).symm

end Reply

/-- What the gates and lists of a hub say. -/
structure SameRegistry (h h' : Hub) : Prop where
  gates : h'.gates = h.gates
  gatesNum : h'.gatesNum = h.gatesNum
  sessions : h'.sessions = h.sessions

section Commands

variable {n n' : Node} {s s' : Session} {x y : State}

theorem SameRegistry.refl {h : Hub} : SameRegistry h h := ⟨rfl, rfl, rfl⟩

theorem SameRegistry.trans {h h' h'' : Hub} (first : SameRegistry h h')
    (second : SameRegistry h' h'') : SameRegistry h h'' :=
  ⟨second.gates.trans first.gates, second.gatesNum.trans first.gatesNum,
    second.sessions.trans first.sessions⟩

theorem SameRegistry.complete {h h' : Hub} {s : HubSession} (same : SameRegistry h h')
    (complete : h.Complete s) : h'.Complete s := by
  unfold Hub.Complete Hub.pairsOf
  rw [same.sessions]
  exact Hub.covers_congr same.gates same.gatesNum complete

theorem SameRegistry.gateOf {h h' : Hub} (same : SameRegistry h h') (st : String) :
    h'.gateOf st = h.gateOf st := by
  unfold Hub.gateOf
  rw [same.gates, same.gatesNum]

theorem handlePresenceReply_registry (id : String) (event : Node.PresenceCommand)
    (presence : Option PresenceEvent) :
    SameRegistry n.hub (n.handlePresenceReply s id event presence).1.hub := by
  unfold Node.handlePresenceReply
  dsimp only
  split
  · exact .refl
  · unfold Node.announce
    split
    · exact .refl
    · split <;> exact ⟨rfl, rfl, rfl⟩
    · split <;> exact ⟨rfl, rfl, rfl⟩

theorem afterSubscribe_registry {msg : Message} {accepted : Bool}
    (success : n.afterSubscribe s msg accepted = some (n', s')) :
    SameRegistry n.hub n'.hub ∧ ∃ sent, s' = { s with sent := sent } := by
  obtain ⟨sent, node⟩ := Node.afterSubscribe_cases success
  refine ⟨?_, sent⟩
  rcases node with rfl | ⟨committed, stored, rfl | rfl⟩
  · exact .refl
  · rw [← Node.commit_hub stored]
    exact .refl
  · rw [← Node.commit_hub stored]
    exact handlePresenceReply_registry _ _ _

/-- What a command that goes through a reply leaves behind. -/
structure Handled (x y : State) (id : String) (opened : SubscriptionState) (reply : CommandResult) :
    Prop where
  session : y.session.toHub = x.session.toHub
  connected : y.session.connected = (x.session.connected && !reply.disconnect)
  hub : reply.disconnect = false →
    SameRegistry (replyHub x.node.hub x.session.toHub id reply) y.node.hub
  subscriptions : y.session.subscriptions = replySubscriptions opened id reply

theorem handleCommandReply_handled {opened : Session} {msg : Message} {reply : CommandResult}
    {now : Instant} {dirty : Bool}
    (success : n.handleCommandReply opened msg reply now = some (n', s', dirty))
    (free : opened.smu = false) (own : opened.toHub = s.toHub)
    (connected : opened.connected = s.connected) :
    Handled ⟨n, s⟩ ⟨n', s'⟩ msg.identifier opened.subscriptions reply := by
  obtain ⟨broker, sent, -, -, after, session, handled, rfl, result⟩ :=
    Node.handleCommandReply_cases free success
  have known : (⟨opened.ref, opened.uid, (replyEnv opened.env msg.identifier reply).identifiers⟩ :
      HubSession) = s.toHub := by
    rw [replyEnv_identifiers]
    exact own
  rw [own] at handled
  cases ends : reply.disconnect with
  | true =>
    rw [ends, if_pos rfl] at result
    obtain ⟨rfl, rfl⟩ := Prod.ext_iff.mp result
    refine ⟨known, ?_, by simp [ends], rfl⟩
    simp [ends, Node.sessionDisconnect, Node.disconnectFromNode]
  | false =>
    rw [ends, if_neg Bool.false_ne_true] at result
    cases result
    refine ⟨known, by simp [ends, connected], fun _ => ?_, rfl⟩
    rw [handled]
    exact .refl

theorem Handled.after {z : State} {id : String} {opened : SubscriptionState}
    {reply : CommandResult} (handled : Handled x y id opened reply)
    (same : SameRegistry y.node.hub z.node.hub) (session : z.session.toHub = y.session.toHub)
    (connected : z.session.connected = y.session.connected)
    (subscriptions : z.session.subscriptions = y.session.subscriptions) :
    Handled x z id opened reply :=
  ⟨session.trans handled.session, connected.trans handled.connected,
    fun stays => (handled.hub stays).trans same, subscriptions.trans handled.subscriptions⟩

/-- The same registries, streams and connection: a command that was ignored. -/
structure Ignored (x y : State) : Prop where
  node : y.node = x.node
  session : y.session.toHub = x.session.toHub
  connected : y.session.connected = x.session.connected
  subscriptions : y.session.subscriptions = x.session.subscriptions

/-- The channels that a reply is handled with, next to those of the session before. -/
structure Opens (before : SubscriptionState) (c : Handling) (opened : SubscriptionState) :
    Prop where
  present : opened.hasChannel c.id = c.present
  others : ∀ id, id ≠ c.id → ∀ st, opened.Holds id st ↔ before.Holds id st
  own : (∀ st, opened.Holds c.id st ↔ before.Holds c.id st) ∨
    (opened.hasChannel c.id = false ∧ c.reply.stopAllStreams = true)

theorem opens_refl {before : SubscriptionState} {c : Handling}
    (present : before.hasChannel c.id = c.present) : Opens before c before :=
  ⟨present, fun _ _ _ => Iff.rfl, Or.inl fun _ => Iff.rfl⟩

/-- A step is ignored, or it goes through one reply. -/
def Outcome (x y : State) (a : Act) : Prop :=
  (handles x.session a = none ∧ Ignored x y) ∨
    ∃ c opened, handles x.session a = some c ∧ Opens x.session.subscriptions c opened ∧
      Handled x y c.id opened c.reply

theorem subscribe_outcome {msg : Message} {answer : Answer CommandResult} {now : Instant}
    {result : Except String CommandResult}
    (success : n.subscribe s msg answer now = some (n', s', result)) :
    Outcome ⟨n, s⟩ ⟨n', s'⟩ (.subscribe msg answer now) := by
  obtain ⟨free, ⟨ignored, rfl, held, rfl⟩ | ⟨reply, missing, accepted, answered, handled, replied,
    dirty, turn, finished⟩⟩ := Node.subscribe_cases success
  · refine Or.inl ⟨?_, rfl, rfl, rfl, rfl⟩
    simp only [handles, ite_eq_right_iff]
    rintro ⟨missing, accepted⟩
    simp [missing, accepted] at ignored
  · have asked : handles s (.subscribe msg answer now) =
        some ⟨msg.identifier, confirmed answer reply, reply⟩ := by
      simp [handles, missing, accepted, answered]
    obtain ⟨registry, sent, rfl⟩ := afterSubscribe_registry finished
    obtain ⟨flag, marked⟩ := handled.markDisconnectable_eq replied reply.disconnectInterest
    rw [marked]
    cases outcome : confirmed answer reply with
    | true =>
      rw [outcome, if_pos rfl] at turn
      have nothing : ∀ st, ¬ s.subscriptions.Holds msg.identifier st := by
        intro st holds
        rw [SubscriptionState.hasChannel_of_holds holds] at missing
        cases missing
      refine Or.inr ⟨_, s.subscriptions.addChannel msg.identifier, outcome ▸ asked,
        ⟨SubscriptionState.hasChannel_addChannel, fun id other st => ?_, Or.inl fun st => ?_⟩,
        (handleCommandReply_handled (s := s) turn free rfl rfl).after registry (by rfl) (by rfl)
          (by rfl)⟩
      · have different : id ≠ msg.identifier := other
        simp [SubscriptionState.holds_addChannel, different]
      · simp [SubscriptionState.holds_addChannel, nothing st]
    | false =>
      rw [outcome, if_neg Bool.false_ne_true] at turn
      exact Or.inr ⟨_, s.subscriptions, outcome ▸ asked, opens_refl missing,
        (handleCommandReply_handled turn free rfl rfl).after registry (by rfl) (by rfl) (by rfl)⟩

theorem unsubscribe_outcome {msg : Message} {answer : Answer CommandResult} {now : Instant}
    {result : Except String CommandResult}
    (success : n.unsubscribe s msg answer now = some (n', s', result)) :
    Outcome ⟨n, s⟩ ⟨n', s'⟩ (.unsubscribe msg answer now) := by
  obtain ⟨free, ⟨ignored, rfl, held, rfl⟩ | ⟨reply, channel, accepted, answered, handled, dirty,
    committed, turn, stored, rfl⟩⟩ := Node.unsubscribe_cases success
  · refine Or.inl ⟨?_, rfl, rfl, rfl, rfl⟩
    simp only [handles, ite_eq_right_iff]
    rintro ⟨channel, accepted⟩
    simp [channel, accepted] at ignored
  · have registry : ∀ stream,
        SameRegistry handled.hub (committed.removePresence stream s'.uid).hub := by
      intro stream
      rw [← Node.commit_hub stored]
      unfold Node.removePresence
      split <;> exact .refl
    cases clean : answer.err.isNone with
    | true =>
      simp only [clean, if_true] at turn
      have gone :
          (s.subscriptions.removeChannel msg.identifier).hasChannel msg.identifier = false :=
        SubscriptionState.hasChannel_removeChannel
      refine Or.inr ⟨⟨msg.identifier, false, { reply with stopAllStreams := true }⟩,
        s.subscriptions.removeChannel msg.identifier, ?_, ⟨gone, fun id other st => ?_,
        Or.inr ⟨gone, rfl⟩⟩,
        (handleCommandReply_handled (s := s) turn free rfl rfl).after (registry _) (by rfl) (by rfl)
          (by rfl)⟩
      · simp [handles, channel, accepted, answered, clean]
      · have different : id ≠ msg.identifier := other
        simp [SubscriptionState.holds_removeChannel, different]
    | false =>
      simp only [clean, Bool.false_eq_true, if_false] at turn
      refine Or.inr ⟨⟨msg.identifier, true, reply⟩, s.subscriptions, ?_, opens_refl channel,
        (handleCommandReply_handled turn free rfl rfl).after (registry _) (by rfl) (by rfl) (by rfl)⟩
      simp [handles, channel, accepted, answered, clean]

theorem perform_outcome {msg : Message} {answer : Answer CommandResult} {now : Instant}
    {result : Except String (Option CommandResult)}
    (success : n.perform s msg answer now = some (n', s', result)) :
    Outcome ⟨n, s⟩ ⟨n', s'⟩ (.perform msg answer now) := by
  obtain ⟨free, ⟨ignored, rfl, rfl⟩ | ⟨reply, channel, ⟨text, data⟩, accepted, answered, handled,
    dirty, turn, stored⟩⟩ := Node.perform_cases success
  · refine Or.inl ⟨?_, rfl, rfl, rfl, rfl⟩
    unfold handles
    dsimp only
    split
    next text data =>
      rw [data] at ignored
      split
      next both => simpa [both.1, both.2] using ignored
      · rfl
    · rfl
  · have registry : SameRegistry handled.hub n'.hub := by
      unfold Node.commitDirty at stored
      split at stored
      · rw [Node.commit_hub stored]
        exact .refl
      · cases stored
        exact .refl
    refine Or.inr ⟨⟨msg.identifier, true, reply⟩, s.subscriptions, ?_, opens_refl channel,
      (handleCommandReply_handled turn free rfl rfl).after registry (by rfl) (by rfl) (by rfl)⟩
    simp [handles, data, channel, accepted, answered]

theorem step_outcome {a : Act} (stepped : step x a = some y) : Outcome x y a := by
  cases a with
  | subscribe msg answer now =>
    obtain ⟨⟨n', s', result⟩, success, rfl⟩ := Option.map_eq_some_iff.mp stepped
    exact subscribe_outcome success
  | unsubscribe msg answer now =>
    obtain ⟨⟨n', s', result⟩, success, rfl⟩ := Option.map_eq_some_iff.mp stepped
    exact unsubscribe_outcome success
  | perform msg answer now =>
    obtain ⟨⟨n', s', result⟩, success, rfl⟩ := Option.map_eq_some_iff.mp stepped
    exact perform_outcome success

/-- What one command leaves of the agreement. -/
structure Inv (x : State) : Prop where
  complete : x.session.connected = true → x.node.hub.Complete x.session.toHub
  same : x.session.connected = true → ∀ id st,
    (x.node.hub.gateOf st).Has x.session.ref st id ↔ x.session.subscriptions.Holds id st

theorem agree_of_inv (inv : Inv x) : Agree x where
  same := inv.same
  served := fun connected _ msg id target =>
    (inv.same connected id msg.stream).mp (Gate.mem_targets.mp target).1

theorem step_same_iff {a : Act} (inv : Inv x) (stepped : step x a = some y) :
    (y.session.connected = true → ∀ id st,
      (y.node.hub.gateOf st).Has y.session.ref st id ↔ y.session.subscriptions.Holds id st) ↔
    Sound x a := by
  rcases step_outcome stepped with ⟨skipped, ignored⟩ | ⟨c, opened, asked, opens, handled⟩
  · have ref : y.session.ref = x.session.ref := congrArg HubSession.ref ignored.session
    simp only [Sound, skipped, ignored.node, ignored.connected, ignored.subscriptions, ref]
    exact ⟨fun _ c handled => absurd handled (Option.not_mem_none c), fun _ => inv.same⟩
  · have ref : y.session.ref = x.session.ref := congrArg HubSession.ref handled.session
    have sound : Sound x a ↔ (x.session.connected = true → c.reply.disconnect = false →
        SoundReply x.node.hub x.session c) := by
      simp [Sound, asked]
    simp only [sound, handled.connected, Bool.and_eq_true, Bool.not_eq_true', and_imp,
      handled.subscriptions, ref]
    refine forall_congr' fun connected => forall_congr' fun stays => ?_
    simp only [(handled.hub stays).gateOf]
    have iff := reply_agree_iff (inv.same connected) opens.others opens.own
    rwa [opens.present] at iff

theorem step_complete {a : Act} (inv : Inv x) (stepped : step x a = some y)
    (connected : y.session.connected = true) : y.node.hub.Complete y.session.toHub := by
  rcases step_outcome stepped with ⟨skipped, ignored⟩ | ⟨c, opened, asked, opens, handled⟩
  · rw [ignored.connected] at connected
    rw [ignored.node, ignored.session]
    exact inv.complete connected
  · rw [handled.connected, Bool.and_eq_true, Bool.not_eq_true'] at connected
    rw [handled.session]
    exact (handled.hub connected.2).complete
      ((replyHub_spec _ _ _ _).2.1 (inv.complete connected.1))

end Commands

section Start

variable {n n' : Node} {s s' : Session}

theorem inv_of_disconnected (gone : s.connected = false) : Inv ⟨n, s⟩ := by
  constructor <;> simp [gone]

theorem restored_inv {entry : CacheEntry} {filled : Session} {sent : List Outgoing}
    (absent : ∀ k st id, ¬ (n.hub.gates k).Has s.ref st id)
    (read : s.restoreFromCache entry = some filled)
    (stored : (filled.subscriptions.pairs.foldl (Node.resubscribe { filled with connected := true })
      { n with hub := n.hub.addSession filled.toHub }).commit
        { filled with connected := true, sent := sent } = some n') :
    Inv ⟨n', { filled with connected := true, sent := sent }⟩ := by
  have ref := (Session.restoreFromCache_frame read).1
  rw [← ref] at absent
  obtain ⟨gatesNum, complete, has⟩ := Node.resubscribeEach_spec
    { n with hub := n.hub.addSession filled.toHub } { filled with connected := true }
  refine ⟨fun _ => ?_, fun _ id st => ?_⟩
  · rw [Node.commit_hub stored]
    exact complete (Hub.complete_of_absent absent)
  · rw [Node.commit_hub stored]
    unfold Hub.gateOf
    rw [gatesNum]
    refine (has _ _ _ _).trans ?_
    simp [Hub.addSession, absent]

theorem not_holds_new (ref : SessionRef) (client : Client) {id st : String} :
    ¬ (newSession ref client).subscriptions.Holds id st := by
  simp [SubscriptionState.holds_iff, newSession]

/-- A new session that has come through `Authenticate`, on either path. -/
theorem authenticate_inv {ref : SessionRef} {client : Client} {answer : Answer ConnectResult}
    {disconnectOnFailure : Bool} {now : Instant} {result : Except String ConnectResult}
    (absent : ∀ k st id, ¬ (n.hub.gates k).Has ref st id)
    (success : n.authenticate (newSession ref client) answer disconnectOnFailure now =
      some (n', s', result)) : Inv ⟨n', s'⟩ := by
  rcases Node.authenticate_cases success with
    success | ⟨entry, filled, sent, -, read, rfl, stored⟩
  · simp only [Node.authenticateAnswer] at success
    split at success
    · cases success
      exact inv_of_disconnected rfl
    · simp only [Option.bind_eq_bind, Option.bind_eq_some_iff] at success
      obtain ⟨reply, answered, ⟨called, replied, dirty⟩, call, committed, stored, success⟩ := success
      obtain ⟨flag, marked⟩ := called.markDisconnectable_eq replied reply.disconnectInterest
      rw [marked] at stored success
      by_cases status : reply.status = .success
      · simp only [status, if_true] at call
        obtain ⟨broker, sent, -, rfl, rfl, -⟩ := Node.handleCallReply_eq (by rfl) call
        simp only [status, ne_eq, not_true, false_and, if_false] at success
        cases success
        have hub := Node.commit_hub stored
        refine ⟨fun _ => ?_, fun _ id st => ?_⟩
        · rw [hub]
          exact Hub.complete_of_absent absent
        · rw [hub]
          exact iff_of_false (absent _ st id) (not_holds_new ref client)
      · simp only [status, if_false] at call
        obtain ⟨broker, sent, -, rfl, rfl, -⟩ := Node.handleCallReply_eq (by rfl) call
        cases success
        split <;> exact inv_of_disconnected rfl
  · exact restored_inv absent read stored

end Start

/-- From the moment on that a new session is authenticated, whatever the controller answers: the
registries agree after every command if and only if every reply is sound. -/
theorem agree_iff_sound (n n' : Node) (ref : SessionRef) (client : Client)
    (answer : Answer ConnectResult) (disconnectOnFailure : Bool) (now : Instant) (s : Session)
    (result : Except String ConnectResult)
    (absent : ∀ k st id, ¬ (n.hub.gates k).Has ref st id)
    (opened : n.authenticate (newSession ref client) answer disconnectOnFailure now =
      some (n', s, result))
    (schedule : List Act) (final : State) (ran : Run.exec step ⟨n', s⟩ schedule = some final) :
    Run.Always step Agree ⟨n', s⟩ schedule ↔ Run.Meets step Sound ⟨n', s⟩ schedule :=
  Run.always_iff_meets
    (fun _ _ _ inv sound stepped =>
      ⟨step_complete inv stepped, (step_same_iff inv stepped).mpr sound⟩)
    (fun _ _ _ inv stepped agree => (step_same_iff inv stepped).mp agree.same)
    (fun _ => agree_of_inv) (authenticate_inv absent opened) ran

/-- A node with one gate. -/
def empty : Node :=
  { codec := .blank, hub := { gatesNum := 1 }, broker := { memory := none } }

def accepted : Answer ConnectResult := { res := some { status := .success, identifier := "user" } }

/-- The state after a successful `Authenticate`. -/
def welcomed : State :=
  ((empty.authenticate (newSession 1 ⟨"sid", "", false⟩) accepted true 0).map
    fun r => ⟨r.1, r.2.1⟩).getD ⟨empty, newSession 1 ⟨"sid", "", false⟩⟩

def confirm (id : String) (streams : List String) : Act :=
  .subscribe { identifier := id } { res := some { status := .success, streams := streams } } 0

def leave (id : String) : Act :=
  .unsubscribe { identifier := id } { res := some { status := .success } } 0

/-- Streams come and go, one at a time. -/
def orderly : List Act :=
  [confirm "room" ["chat", "news"],
   .perform { identifier := "room", data := .text "" }
     { res := some { status := .failure, streams := some ["talk"],
                     stoppedStreams := some ["chat", "news"] } } 0,
   confirm "other" ["chat"], leave "room"]

theorem orderly_agree :
    (∃ final, Run.exec step welcomed orderly = some final) ∧
      Run.Always step Agree welcomed orderly := by
  obtain ⟨final, ran⟩ := Option.isSome_iff_exists.mp
    (show (Run.exec step welcomed orderly).isSome by decide +kernel)
  exact ⟨⟨final, ran⟩, (agree_iff_sound empty welcomed.node 1 ⟨"sid", "", false⟩ accepted true 0
    welcomed.session _ (fun _ st id => Gate.not_has_empty 1 st id) rfl orderly final ran).mpr
    (by decide +kernel)⟩

/-- A rejected `Subscribe` whose reply has streams. -/
def rejected : Act :=
  .subscribe { identifier := "vip" } { res := some { status := .failure, streams := ["chat"] } } 0

/-- The rejected session is in the gate of "chat", and the session that has left the channel "room"
with three streams is still in the gate of the second. -/
theorem streams_kept :
    (∃ x, Run.exec step welcomed [rejected] = some x ∧ x.session.connected = true ∧
      x.session.subscriptions.hasChannel "vip" = false ∧
      (x.node.hub.gateOf "chat").Has 1 "chat" "vip" ∧ ¬ Agree x) ∧
    ∃ x, Run.exec step welcomed [confirm "room" ["a", "b", "c"], leave "room"] = some x ∧
      x.session.connected = true ∧ x.session.subscriptions.hasChannel "room" = false ∧
      (x.node.hub.gateOf "b").Has 1 "b" "room" ∧ ¬ Agree x := by
  refine ⟨⟨_, rfl, by decide +kernel, by decide +kernel, by decide +kernel, fun agree => ?_⟩,
    _, rfl, by decide +kernel, by decide +kernel, by decide +kernel, fun agree => ?_⟩
  · exact absurd ((agree.same (by decide +kernel) "vip" "chat").mp (by decide +kernel))
      (by decide +kernel)
  · exact absurd ((agree.same (by decide +kernel) "room" "b").mp (by decide +kernel))
      (by decide +kernel)

end AnyCable.Guarantees.Registries
