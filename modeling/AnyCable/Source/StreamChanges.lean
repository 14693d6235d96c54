import AnyCable.Source.ReplyEffects

/-!
# How a call changes the streams of a session

`handleCommandReply` (`node/node.go:884-935`) stops streams and then starts streams; each stop
and start goes to the broker's tracker, to the hub and to the session. `commandChange` reads
off a command and the controller's answer which streams these are, and `handleCommand_turn`
shows that a completed command does exactly that.

Two members of the family differ from the rest. `Unsubscribe` removes the channel before the
reply is handled, so the streams leave the session and nothing is given back to the tracker.
A `Subscribe` that was not confirmed has no channel, so the streams started for it are
tracked but not held.
-/

set_option autoImplicit false

namespace AnyCable.Source
open AnyCable.Lib

structure StreamChange where
  /-- The channel exists while streams are started. -/
  present : Bool := false
  /-- Streams that the channel no longer holds. -/
  dropped : List String := []
  /-- Streams given back to the tracker. -/
  released : List String := []
  /-- Streams added to the tracker, and to the channel if it exists. -/
  acquired : List String := []
  /-- The session is disconnected. -/
  ends : Bool := false
  deriving DecidableEq, Repr

/-- What `handleCommandReply` does to the channel. -/
def replyChange (st : SubscriptionState) (id : String) (reply : CommandResult) : StreamChange :=
  let stopped := if reply.stopAllStreams then st.streamsFor id else reply.stoppedStreams.getD []
  { present := st.hasChannel id, dropped := stopped, released := stopped
    acquired := reply.streams.getD [], ends := reply.disconnect }

/-- The streams of a session and the tracker before and after a call about the channel. -/
structure Turn (id : String) (c : StreamChange) (n : Node) (s : Session) (n' : Node)
    (s' : Session) : Prop where
  ref : s'.ref = s.ref
  resumable : s'.resumable = s.resumable
  writes : n.broker.Writes s.Commits n'.broker
  tracker : n'.broker.tracker = (n.broker.tracker.removeEach c.released).addEach c.acquired
  holds : ∀ id' st, s'.subscriptions.Holds id' st ↔
    (id' = id ∧ st ∈ c.acquired ∧ c.present = true) ∨
      (s.subscriptions.Holds id' st ∧ ¬ (id' = id ∧ st ∈ c.dropped))
  closed : s'.closed = (s.closed || c.ends)
  connected : s'.connected = true → s.connected = true

variable {id : String} {c : StreamChange} {n n' n'' : Node} {s s' s'' : Session}

theorem Turn.of_quiet (quiet : Quiet n s n' s') : Turn id {} n s n' s' where
  ref := quiet.session.ref
  resumable := quiet.session.resumable
  writes := quiet.broker.writes
  tracker := quiet.broker.tracker
  holds := by simp [quiet.session.subscriptions]
  closed := by simp [quiet.session.closed]
  connected := fun connected => quiet.session.connected ▸ connected

theorem Turn.commits (turn : Turn id c n s n' s') : s'.Commits = s.Commits := by
  funext writer
  simp [Session.Commits, turn.ref, turn.resumable]

theorem Turn.then_quiet (turn : Turn id c n s n' s') (quiet : Quiet n' s' n'' s'') :
    Turn id c n s n'' s'' where
  ref := quiet.session.ref.trans turn.ref
  resumable := quiet.session.resumable.trans turn.resumable
  writes := turn.writes.trans (turn.commits ▸ quiet.broker.writes)
  tracker := quiet.broker.tracker.trans turn.tracker
  holds := by
    rw [quiet.session.subscriptions]
    exact turn.holds
  closed := quiet.session.closed.trans turn.closed
  connected := fun connected => turn.connected (quiet.session.connected ▸ connected)

/-- `Session.Disconnect`: the streams stay as they are, in the session and in the tracker. -/
theorem Node.sessionDisconnect_turn (reason : String) (code : Nat) (now : Instant) :
    Turn id { ends := true } n s (n.sessionDisconnect s reason code now).1
      (n.sessionDisconnect s reason code now).2 where
  ref := rfl
  resumable := rfl
  writes := (Node.sessionDisconnect_still reason code now).writes
  tracker := (Node.sessionDisconnect_still reason code now).tracker
  holds := by simp [Node.sessionDisconnect, Node.disconnectFromNode, Session.send, Session.close]
  closed := by simp [Node.sessionDisconnect, Node.disconnectFromNode, Session.close]
  connected := by simp [Node.sessionDisconnect, Node.disconnectFromNode]

/-- The session is left alone or closed. -/
theorem Node.sessionDisconnectNow_turn (now : Instant) :
    Turn id { ends := s.connected } n s (n.sessionDisconnectNow s now).1
      (n.sessionDisconnectNow s now).2 := by
  have same : n.broker.Same s.Commits (n.sessionDisconnectNow s now).1.broker :=
    (Node.sessionDisconnectNow_still now).same
  unfold Node.sessionDisconnectNow at same ⊢
  split
  next connected =>
    simp only [connected, if_true] at same
    exact ⟨rfl, rfl, same.writes, same.tracker,
      by simp [Node.disconnectFromNode, Session.close],
      by simp [connected, Session.close],
      by simp [connected]⟩
  next away =>
    simp only [Bool.not_eq_true] at away
    rw [away]
    exact Turn.of_quiet .refl

theorem Broker.unsubscribeEach_tracker (b : Broker) (streams : List String) :
    (streams.foldl Broker.unsubscribe b).tracker = b.tracker.removeEach streams := by
  induction streams generalizing b with
  | nil => rfl
  | cons stream streams ih => exact ih (b.unsubscribe stream)

theorem Broker.subscribeEach_tracker (b : Broker) (streams : List String) :
    (streams.foldl Broker.subscribe b).tracker = b.tracker.addEach streams := by
  induction streams generalizing b with
  | nil => rfl
  | cons stream streams ih => exact ih (b.subscribe stream)

/-- Streams are stopped, then streams are started. -/
theorem Turn.then_start
    (stops : Turn id { c with acquired := [], ends := false } n s n' s')
    (starts : Turn id { present := c.present, acquired := c.acquired } n' s' n'' s'') :
    Turn id { c with ends := false } n s n'' s'' where
  ref := starts.ref.trans stops.ref
  resumable := starts.resumable.trans stops.resumable
  writes := stops.writes.trans (stops.commits ▸ starts.writes)
  tracker := by
    rw [starts.tracker, stops.tracker]
    rfl
  holds := by
    intro id' st
    rw [starts.holds, stops.holds]
    simp
  closed := by simpa [stops.closed] using starts.closed
  connected := fun connected => stops.connected (starts.connected connected)

theorem Turn.then_end {e : Bool} (turn : Turn id { c with ends := false } n s n' s')
    (last : Turn id { ends := e } n' s' n'' s'') : Turn id { c with ends := e } n s n'' s'' where
  ref := last.ref.trans turn.ref
  resumable := last.resumable.trans turn.resumable
  writes := turn.writes.trans (turn.commits ▸ last.writes)
  tracker := by
    rw [last.tracker, turn.tracker]
    rfl
  holds := by
    intro id' st
    rw [last.holds, turn.holds]
    simp
  closed := by simpa [turn.closed] using last.closed
  connected := fun connected => turn.connected (last.connected connected)

/-- The first part of `handleCommandReply`: nothing is started yet. -/
theorem Node.stopStreams_turn (n : Node) (s : Session) (id : String) (reply : CommandResult) :
    Turn id { replyChange s.subscriptions id reply with acquired := [], ends := false } n s
        (n.stopStreams s id reply).1 (n.stopStreams s id reply).2.1 ∧
      (n.stopStreams s id reply).2.1.subscriptions.hasChannel id = s.subscriptions.hasChannel id := by
  unfold Node.stopStreams replyChange
  split
  next all =>
    have tracker :=
      Broker.unsubscribeEach_tracker n.broker (s.subscriptions.removeChannelStreams id).2
    have memory :=
      Broker.unsubscribeEach_memory n.broker (s.subscriptions.removeChannelStreams id).2
    refine ⟨⟨rfl, rfl, .of_memory memory, ?_, ?_, by simp [Node.stopAllStreams],
      fun connected => connected⟩, SubscriptionState.hasChannel_removeChannelStreams⟩
    · rw [SubscriptionState.removeChannelStreams_returns] at tracker
      simpa [all, Node.stopAllStreams, StreamsTracker.addEach,
        SubscriptionState.removeChannelStreams_returns] using tracker
    · intro id' st
      simp only [Node.stopAllStreams, SubscriptionState.holds_removeChannelStreams,
        List.not_mem_nil, false_and, and_false, false_or]
      constructor
      · rintro ⟨other, holds⟩
        exact ⟨holds, fun same => other same.1⟩
      · rintro ⟨holds, kept⟩
        refine ⟨?_, holds⟩
        rintro rfl
        exact kept ⟨rfl, holds⟩
  next listed =>
    have tracker := Broker.unsubscribeEach_tracker n.broker (reply.stoppedStreams.getD [])
    have memory := Broker.unsubscribeEach_memory n.broker (reply.stoppedStreams.getD [])
    rw [Node.stopEach_eq]
    refine ⟨⟨rfl, rfl, .of_memory memory, ?_, ?_, by simp, fun connected => connected⟩,
      SubscriptionState.hasChannel_removeEach _⟩
    · simpa [StreamsTracker.addEach] using tracker
    · intro id' st
      simp [SubscriptionState.holds_removeEach]

theorem Node.startStreams_turn (n : Node) (s : Session) (id : String) (streams : List String) :
    Turn id { present := s.subscriptions.hasChannel id, acquired := streams } n s
      (streams.foldl (Node.startStream id) (n, s)).1
      (streams.foldl (Node.startStream id) (n, s)).2 := by
  rw [Node.startEach_eq]
  refine ⟨rfl, rfl, .of_memory (Broker.subscribeEach_memory _ _), ?_, ?_, by simp,
    fun connected => connected⟩
  · exact Broker.subscribeEach_tracker _ _
  · intro id' st
    simp [SubscriptionState.holds_addEach]

theorem Node.handleCommandReply_turn {msg : Message} {reply : CommandResult} {now : Instant}
    {dirty : Bool} (success : n.handleCommandReply s msg reply now = some (n', s', dirty)) :
    Turn msg.identifier (replyChange s.subscriptions msg.identifier reply) n s n' s' := by
  obtain ⟨stops, present⟩ := Node.stopStreams_turn n s msg.identifier reply
  simp only [Node.handleCommandReply, Option.bind_eq_bind, Option.bind_eq_some_iff] at success
  obtain ⟨merged, updated, ⟨called, replied, connectionDirty⟩, call, success⟩ := success
  have starts := Node.startStreams_turn (n.stopStreams s msg.identifier reply).1
    (n.stopStreams s msg.identifier reply).2.1 msg.identifier (reply.streams.getD [])
  rw [present] at starts
  have streams := stops.then_start (c := replyChange s.subscriptions msg.identifier reply) starts
  have handled := streams.then_quiet ((Quiet.of_like (Session.mergeState_like updated)).trans
    (Node.handleCallReply_quiet call))
  cases success
  refine Turn.then_end (c := replyChange s.subscriptions msg.identifier reply) handled ?_
  cases reply.disconnect with
  | true => exact Node.sessionDisconnect_turn _ _ _
  | false => exact Turn.of_quiet .refl

/-- What `Subscribe` does to the channel, which is new and there only if it is confirmed. -/
def subscribeChange (s : Session) (msg : Message) (answer : Answer CommandResult) : StreamChange :=
  match s.subscriptions.hasChannel msg.identifier, Node.refusal answer, answer.res with
  | false, none, some res =>
    { replyChange s.subscriptions msg.identifier res with
      present := answer.err.isNone && res.status = .success }
  | _, _, _ => {}

/-- What `Unsubscribe` does to the channel. Once it is removed there is nothing left to stop. -/
def unsubscribeChange (s : Session) (msg : Message) (answer : Answer CommandResult) :
    StreamChange :=
  match s.subscriptions.hasChannel msg.identifier, Node.refusal answer, answer.res with
  | true, none, some res =>
    if answer.err.isNone then
      { dropped := s.subscriptions.streamsFor msg.identifier
        acquired := res.streams.getD [], ends := res.disconnect }
    else replyChange s.subscriptions msg.identifier res
  | _, _, _ => {}

def performChange (s : Session) (msg : Message) (answer : Answer CommandResult) : StreamChange :=
  match s.subscriptions.hasChannel msg.identifier, msg.data, Node.refusal answer, answer.res with
  | true, .text _, none, some res => replyChange s.subscriptions msg.identifier res
  | _, _, _, _ => {}

/-- What a command does to its channel. -/
def commandChange (s : Session) (msg : Message) (answer : Answer CommandResult) : StreamChange :=
  match msg.command with
  | "subscribe" => subscribeChange s msg answer
  | "unsubscribe" => unsubscribeChange s msg answer
  | "message" => performChange s msg answer
  | _ => {}

/-- The channel lets go of every stream that it gives back. -/
theorem commandChange_released (s : Session) (msg : Message) (answer : Answer CommandResult) :
    ∀ st ∈ (commandChange s msg answer).released, st ∈ (commandChange s msg answer).dropped := by
  unfold commandChange
  split
  · unfold subscribeChange
    split
    · exact fun st member => member
    · simp
  · unfold unsubscribeChange
    split
    · split
      · simp
      · exact fun st member => member
    · simp
  · unfold performChange
    split
    · exact fun st member => member
    · simp
  · simp

/-- The channel is removed and then the reply is handled with `StopAllStreams`. -/
theorem Turn.after_removeChannel {env : SessionEnv} {reply : CommandResult}
    (turn : Turn id (replyChange (s.subscriptions.removeChannel id) id
        { reply with stopAllStreams := true }) n
      { s with env := env, subscriptions := s.subscriptions.removeChannel id } n' s') :
    Turn id { dropped := s.subscriptions.streamsFor id, acquired := reply.streams.getD []
              ends := reply.disconnect } n s n' s' where
  ref := turn.ref
  resumable := turn.resumable
  writes := turn.writes
  tracker := by
    simpa [replyChange, SubscriptionState.streamsFor_removeChannel] using turn.tracker
  holds := by
    intro id' st
    rw [turn.holds]
    simp only [replyChange, SubscriptionState.hasChannel_removeChannel, if_true,
      SubscriptionState.streamsFor_removeChannel, SubscriptionState.holds_removeChannel,
      List.not_mem_nil, and_false, Bool.false_eq_true, false_or, not_false_eq_true, and_true]
    constructor
    · rintro ⟨other, holds⟩
      exact ⟨holds, fun same => other same.1⟩
    · rintro ⟨holds, kept⟩
      refine ⟨?_, holds⟩
      rintro rfl
      exact kept ⟨rfl, holds⟩
  closed := turn.closed
  connected := turn.connected

/-- A new channel is added and then the reply is handled. -/
theorem Turn.after_addChannel {reply : CommandResult}
    (missing : s.subscriptions.hasChannel id = false)
    (turn : Turn id (replyChange (s.subscriptions.addChannel id) id reply) n
      { s with subscriptions := s.subscriptions.addChannel id } n' s') :
    Turn id { replyChange s.subscriptions id reply with present := true } n s n' s' := by
  have change : replyChange (s.subscriptions.addChannel id) id reply =
      { replyChange s.subscriptions id reply with present := true } := by
    simp [replyChange, SubscriptionState.streamsFor_missing missing,
      SubscriptionState.streamsFor_addChannel, SubscriptionState.hasChannel_addChannel]
  rw [change] at turn
  refine ⟨turn.ref, turn.resumable, turn.writes, turn.tracker, ?_, turn.closed, turn.connected⟩
  intro id' st
  have same : (s.subscriptions.addChannel id).Holds id' st ↔ s.subscriptions.Holds id' st := by
    rw [SubscriptionState.holds_addChannel, and_iff_right_iff_imp]
    rintro holds rfl
    rw [SubscriptionState.hasChannel_of_holds holds] at missing
    cases missing
  rw [turn.holds, same]

theorem Node.perform_turn {msg : Message} {answer : Answer CommandResult} {now : Instant}
    {res : Except String (Option CommandResult)}
    (success : n.perform s msg answer now = some (n', s', res)) :
    Turn msg.identifier (performChange s msg answer) n s n' s' := by
  obtain ⟨-, ⟨ignored, rfl, rfl⟩ | ⟨reply, channel, ⟨text, data⟩, accepted, answered, handled,
    dirty, turn, stored⟩⟩ := Node.perform_cases success
  · have nothing : performChange s' msg answer = {} := by
      unfold performChange
      split
      next text _ channel data accepted answered =>
        simp [channel, data, accepted, answered] at ignored
      · rfl
    rw [nothing]
    exact .of_quiet .refl
  · have change : performChange s msg answer =
        replyChange s.subscriptions msg.identifier reply := by
      simp only [performChange, channel, data, accepted, answered]
    rw [change]
    exact (Node.handleCommandReply_turn turn).then_quiet (Node.commitDirty_quiet stored)

theorem Node.unsubscribe_turn {msg : Message} {answer : Answer CommandResult} {now : Instant}
    {res : Except String CommandResult}
    (success : n.unsubscribe s msg answer now = some (n', s', res)) :
    Turn msg.identifier (unsubscribeChange s msg answer) n s n' s' := by
  obtain ⟨-, ⟨ignored, rfl, held, rfl⟩ | ⟨reply, channel, accepted, answered, handled, dirty,
    committed, turn, stored, rfl⟩⟩ := Node.unsubscribe_cases success
  · have nothing : unsubscribeChange s msg answer = {} := by
      unfold unsubscribeChange
      split
      next channel accepted answered => simp [channel, accepted] at ignored
      · rfl
    rw [nothing]
    exact .of_quiet (.of_like ⟨rfl, rfl, rfl, rfl, rfl⟩)
  · refine Turn.then_quiet ?_ ((Node.commit_quiet stored).trans
      (.of_same (Node.removePresence_still _ _).same))
    have turn := Node.handleCommandReply_turn turn
    simp only [unsubscribeChange, channel, accepted, answered]
    cases clean : answer.err.isNone with
    | true =>
      simp only [clean, if_true] at turn ⊢
      exact turn.after_removeChannel
    | false =>
      simp only [clean, Bool.false_eq_true, if_false] at turn ⊢
      exact turn

theorem Node.subscribe_turn {msg : Message} {answer : Answer CommandResult} {now : Instant}
    {res : Except String CommandResult}
    (success : n.subscribe s msg answer now = some (n', s', res)) :
    Turn msg.identifier (subscribeChange s msg answer) n s n' s' := by
  obtain ⟨-, ⟨ignored, rfl, held, rfl⟩ | ⟨reply, missing, accepted, answered, handled, replied,
    dirty, turn, finished⟩⟩ := Node.subscribe_cases success
  · have nothing : subscribeChange s msg answer = {} := by
      unfold subscribeChange
      split
      next missing accepted answered => simp [missing, accepted] at ignored
      · rfl
    rw [nothing]
    exact .of_quiet (.of_like ⟨rfl, rfl, rfl, rfl, rfl⟩)
  · refine Turn.then_quiet ?_ ((Quiet.of_like (Node.markDisconnectable_like _ _ _)).trans
      (Node.afterSubscribe_quiet finished))
    have turn := Node.handleCommandReply_turn turn
    have change : subscribeChange s msg answer =
        { replyChange s.subscriptions msg.identifier reply with
          present := confirmed answer reply } := by
      simp only [subscribeChange, missing, accepted, answered]
      rfl
    rw [change]
    cases outcome : confirmed answer reply with
    | true =>
      simp only [outcome, if_true] at turn
      exact turn.after_addChannel missing
    | false =>
      simp only [outcome, Bool.false_eq_true, if_false] at turn
      have absent : { replyChange s.subscriptions msg.identifier reply with present := false } =
          replyChange s.subscriptions msg.identifier reply := by
        simp [replyChange, missing]
      rw [absent]
      exact turn

/-- A completed command changes the streams of its channel as `commandChange` says. -/
theorem Node.handleCommand_turn {msg : Message} {answer : Answer CommandResult} {now : Instant}
    {res : Except String Unit}
    (success : n.handleCommand s msg answer now = some (n', s', res)) :
    Turn msg.identifier (commandChange s msg answer) n s n' s' := by
  unfold Node.handleCommand at success
  split at success
  next command =>
    cases success
    simp only [commandChange, command]
    exact .of_quiet .refl
  next command =>
    obtain ⟨⟨after, session, result⟩, done, same⟩ := Option.map_eq_some_iff.mp success
    cases same
    simp only [commandChange, command]
    exact Node.subscribe_turn done
  next command =>
    obtain ⟨⟨after, session, result⟩, done, same⟩ := Option.map_eq_some_iff.mp success
    cases same
    simp only [commandChange, command]
    exact Node.unsubscribe_turn done
  next command =>
    obtain ⟨⟨after, session, result⟩, done, same⟩ := Option.map_eq_some_iff.mp success
    cases same
    simp only [commandChange, command]
    exact Node.perform_turn done
  next command =>
    obtain ⟨⟨session, result⟩, done, same⟩ := Option.map_eq_some_iff.mp success
    cases same
    simp only [commandChange, command]
    exact .of_quiet (.of_like (Node.history_like done))
  next command =>
    obtain ⟨⟨session, result⟩, done, same⟩ := Option.map_eq_some_iff.mp success
    cases same
    simp only [commandChange, command]
    exact .of_quiet (.of_like (Node.presence_like done))
  next command =>
    simp only [commandChange, command]
    exact .of_quiet (Node.presenceCommand_quiet success)
  next command =>
    simp only [commandChange, command]
    exact .of_quiet (Node.presenceCommand_quiet success)
  next command =>
    obtain ⟨after, done, same⟩ := Option.map_eq_some_iff.mp success
    cases same
    simp only [commandChange, command]
    exact .of_quiet (Node.whisper_quiet done)
  next pong subscribe unsubscribe message _ _ _ _ _ =>
    cases success
    simp only [commandChange]
    exact .of_quiet .refl

end AnyCable.Source
