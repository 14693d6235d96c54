import AnyCable.Source.NodeEffects

/-!
# What a command does once the controller has answered

`handleCommandReply` (`node/node.go:884-935`) changes the session's streams and states and the
hub, and disconnects the session at the end if the reply says so. `replySubscriptions`,
`replyHub`, `replyEnv` and `replyDirty` are these changes without the rest of the call, and
`handleCommandReply_cases` shows that nothing else happens. The three commands
(`node/node.go:437-584`) either ignore the answer or go through it once.
-/

set_option autoImplicit false

namespace AnyCable.Source
open AnyCable.Lib

/-- The session's streams after the first part of a reply. -/
def stopSubscriptions (st : SubscriptionState) (id : String) (reply : CommandResult) :
    SubscriptionState :=
  if reply.stopAllStreams then (st.removeChannelStreams id).1
  else (reply.stoppedStreams.getD []).foldl (fun st stream => st.removeChannelStream id stream) st

def replySubscriptions (st : SubscriptionState) (id : String) (reply : CommandResult) :
    SubscriptionState :=
  (reply.streams.getD []).foldl (fun st stream => st.addChannelStream id stream)
    (stopSubscriptions st id reply)

/-- The hub after the first part of a reply. -/
def stopHub (h : Hub) (s : HubSession) (id : String) (reply : CommandResult) : Hub :=
  if reply.stopAllStreams then h.unsubscribeSessionFromChannel s id
  else (reply.stoppedStreams.getD []).foldl (fun h stream => h.unsubscribeSession s stream id) h

def replyHub (h : Hub) (s : HubSession) (id : String) (reply : CommandResult) : Hub :=
  (reply.streams.getD []).foldl (fun h stream => h.subscribeSession s stream id)
    (stopHub h s id reply)

/-- The first part reports a change. -/
def stopDirty (st : SubscriptionState) (id : String) (reply : CommandResult) : Bool :=
  if reply.stopAllStreams then !(st.streamsFor id).isEmpty else reply.stoppedStreams.isSome

/-- Merge a state unless it is `nil`. -/
def mergeReply (merge : SessionEnv → GoMap String String → SessionEnv) (env : SessionEnv) :
    Option (GoMap String String) → SessionEnv
  | none => env
  | some state => merge env state

def replyEnv (env : SessionEnv) (id : String) (reply : CommandResult) : SessionEnv :=
  mergeReply SessionEnv.mergeConnectionState
    (mergeReply (fun env state => env.mergeChannelState id state) env reply.iState) reply.cState

/-- The flag that `handleCommandReply` returns. -/
def replyDirty (st : SubscriptionState) (id : String) (reply : CommandResult) : Bool :=
  stopDirty st id reply || reply.streams.isSome || reply.iState.isSome || reply.cState.isSome

/-- A `Subscribe` is confirmed. -/
def confirmed (answer : Answer CommandResult) (reply : CommandResult) : Bool :=
  answer.err.isNone && reply.status = .success

variable {n n' : Node} {s s' : Session}

theorem replyEnv_identifiers (env : SessionEnv) (id : String) (reply : CommandResult) :
    (replyEnv env id reply).identifiers = env.identifiers := by
  unfold replyEnv mergeReply
  cases reply.iState <;> cases reply.cState <;> rfl

theorem Session.mergeState_eq {merge : SessionEnv → GoMap String String → SessionEnv}
    (free : s.smu = false) (state : Option (GoMap String String)) :
    s.mergeState merge state = some { s with env := mergeReply merge s.env state } := by
  cases state with
  | none => rfl
  | some state =>
    cases s
    cases free
    rfl

theorem Node.handleCallReply_eq {reply : CallResult} {now : Instant} {dirty : Bool}
    (free : s.smu = false) (success : n.handleCallReply s reply now = some (n', s', dirty)) :
    ∃ broker sent, n.broker.Still broker ∧ n' = { n with broker := broker } ∧
      s' = { s with env := mergeReply SessionEnv.mergeConnectionState s.env reply.cState
                    sent := sent } ∧ dirty = reply.cState.isSome := by
  simp only [Node.handleCallReply, Option.bind_eq_bind, Option.bind_eq_some_iff] at success
  obtain ⟨merged, updated, broker, told, success⟩ := success
  rw [Session.mergeState_eq free] at updated
  cases updated
  obtain ⟨sent, written⟩ := Session.sendEach_eq Outgoing.transmission reply.transmissions
    { s with env := mergeReply SessionEnv.mergeConnectionState s.env reply.cState }
  rw [written] at success
  cases success
  exact ⟨broker, sent, Broker.handleBroadcasts_still _ told, rfl, rfl, rfl⟩

theorem Broker.unsubscribeEach_memory (b : Broker) (streams : List String) :
    (streams.foldl Broker.unsubscribe b).memory = b.memory := by
  induction streams generalizing b with
  | nil => rfl
  | cons stream streams ih => exact ih (b.unsubscribe stream)

theorem Broker.subscribeEach_memory (b : Broker) (streams : List String) :
    (streams.foldl Broker.subscribe b).memory = b.memory := by
  induction streams generalizing b with
  | nil => rfl
  | cons stream streams ih => exact ih (b.subscribe stream)

theorem Node.stopEach_eq (n : Node) (s : Session) (id : String) (streams : List String) :
    streams.foldl (Node.stopStream id) (n, s) =
      ({ n with broker := streams.foldl Broker.unsubscribe n.broker
                hub := streams.foldl (fun h st => h.unsubscribeSession s.toHub st id) n.hub },
       { s with subscriptions :=
          streams.foldl (fun st stream => st.removeChannelStream id stream) s.subscriptions }) := by
  induction streams generalizing n s with
  | nil => rfl
  | cons stream streams ih => exact ih _ _

theorem Node.startEach_eq (n : Node) (s : Session) (id : String) (streams : List String) :
    streams.foldl (Node.startStream id) (n, s) =
      ({ n with broker := streams.foldl Broker.subscribe n.broker
                hub := streams.foldl (fun h st => h.subscribeSession s.toHub st id) n.hub },
       { s with subscriptions :=
          streams.foldl (fun st stream => st.addChannelStream id stream) s.subscriptions }) := by
  induction streams generalizing n s with
  | nil => rfl
  | cons stream streams ih => exact ih _ _

theorem Node.stopStreams_eq (n : Node) (s : Session) (id : String) (reply : CommandResult) :
    ∃ broker, n.broker.Keeps broker ∧ n.stopStreams s id reply =
      ({ n with broker := broker, hub := stopHub n.hub s.toHub id reply },
       { s with subscriptions := stopSubscriptions s.subscriptions id reply },
       stopDirty s.subscriptions id reply) := by
  unfold Node.stopStreams stopHub stopSubscriptions stopDirty
  split
  · refine ⟨(s.subscriptions.streamsFor id).foldl Broker.unsubscribe n.broker,
      .of_memory (Broker.unsubscribeEach_memory _ _), ?_⟩
    simp only [Node.stopAllStreams, SubscriptionState.removeChannelStreams_returns]
  · refine ⟨(reply.stoppedStreams.getD []).foldl Broker.unsubscribe n.broker,
      .of_memory (Broker.unsubscribeEach_memory _ _), ?_⟩
    rw [Node.stopEach_eq]

/-- Streams are stopped and started, states are merged, the rest of the node is left alone, and
a reply with `disconnect` ends the session. -/
theorem Node.handleCommandReply_cases {msg : Message} {reply : CommandResult} {now : Instant}
    {dirty : Bool} (free : s.smu = false)
    (success : n.handleCommandReply s msg reply now = some (n', s', dirty)) :
    ∃ broker sent, n.broker.Keeps broker ∧
      dirty = replyDirty s.subscriptions msg.identifier reply ∧
      ∃ (after : Node) (session : Session),
        after = { n with broker := broker
                         hub := replyHub n.hub s.toHub msg.identifier reply } ∧
        session = { s with
          env := replyEnv s.env msg.identifier reply
          subscriptions := replySubscriptions s.subscriptions msg.identifier reply
          sent := sent } ∧
        (n', s') = if reply.disconnect then
            after.sessionDisconnect session "Command Failed" closeAbnormalClosure now
          else (after, session) := by
  obtain ⟨broker, keeps, stop⟩ := Node.stopStreams_eq n s msg.identifier reply
  simp only [Node.handleCommandReply, Option.bind_eq_bind, stop, Node.startEach_eq,
    Option.bind_eq_some_iff] at success
  obtain ⟨merged, updated, ⟨called, replied, connectionDirty⟩, call, success⟩ := success
  rw [Session.mergeState_eq (by exact free)] at updated
  cases updated
  obtain ⟨last, sent, still, rfl, rfl, rfl⟩ := Node.handleCallReply_eq (by exact free) call
  refine ⟨last, sent, ?_, ?_, _, _, rfl, rfl, ?_⟩
  · exact (keeps.trans (.of_memory (Broker.subscribeEach_memory _ _))).trans still.toKeeps
  · cases success
    rfl
  · cases success
    cases reply.disconnect <;> rfl

/-- A `Subscribe` ends where it is, or goes through the answer. -/
theorem Node.subscribe_cases {msg : Message} {answer : Answer CommandResult} {now : Instant}
    {res : Except String CommandResult}
    (success : n.subscribe s msg answer now = some (n', s', res)) :
    s.smu = false ∧
      (((s.subscriptions.hasChannel msg.identifier = true ∨ (Node.refusal answer).isSome = true) ∧
          n' = n ∧ ∃ held, s' = { s with smu := held }) ∨
        ∃ reply, s.subscriptions.hasChannel msg.identifier = false ∧
          Node.refusal answer = none ∧ answer.res = some reply ∧
          ∃ handled replied dirty, n.handleCommandReply
              (if confirmed answer reply then
                { s with subscriptions := s.subscriptions.addChannel msg.identifier }
              else s) msg reply now = some (handled, replied, dirty) ∧
            handled.afterSubscribe (handled.markDisconnectable replied reply.disconnectInterest)
              msg (confirmed answer reply) = some (n', s')) := by
  simp only [Node.subscribe, Option.bind_eq_bind, Option.bind_eq_some_iff] at success
  obtain ⟨locked, taken, success⟩ := success
  obtain ⟨free, rfl⟩ := Session.free_of_lock taken
  refine ⟨free, ?_⟩
  split at success
  next channel =>
    cases success
    exact Or.inl ⟨Or.inl channel, rfl, false, rfl⟩
  next missing =>
    split at success
    next err refused =>
      cases success
      exact Or.inl ⟨Or.inr (by simp [refused]), rfl, true, rfl⟩
    next accepted =>
      obtain ⟨reply, answered, success⟩ := Option.bind_eq_some_iff.mp success
      obtain ⟨⟨handled, replied, dirty⟩, turn, success⟩ := Option.bind_eq_some_iff.mp success
      obtain ⟨⟨after, settled⟩, finished, success⟩ := Option.bind_eq_some_iff.mp success
      cases success
      refine Or.inr ⟨reply, by simpa using missing, accepted, answered, handled, replied, dirty, ?_,
        finished⟩
      rw [← turn]
      unfold confirmed
      cases answer.err.isNone && decide (reply.status = .success) with
      | true =>
        have opened := Session.unlock_lock
          (s := { s with subscriptions := s.subscriptions.addChannel msg.identifier }) free
        simpa using congrArg (fun s => n.handleCommandReply s msg reply now) opened.symm
      | false =>
        have same := Session.unlock_lock free
        simpa using congrArg (fun s => n.handleCommandReply s msg reply now) same.symm

/-- An `Unsubscribe` ends where it is, or removes the channel if the controller reports no error,
goes through the answer and stores the session. -/
theorem Node.unsubscribe_cases {msg : Message} {answer : Answer CommandResult} {now : Instant}
    {res : Except String CommandResult}
    (success : n.unsubscribe s msg answer now = some (n', s', res)) :
    s.smu = false ∧
      (((s.subscriptions.hasChannel msg.identifier = false ∨ (Node.refusal answer).isSome = true) ∧
          n' = n ∧ ∃ held, s' = { s with smu := held }) ∨
        ∃ reply, s.subscriptions.hasChannel msg.identifier = true ∧
          Node.refusal answer = none ∧ answer.res = some reply ∧
          ∃ handled dirty committed, n.handleCommandReply
              (if answer.err.isNone then
                { s with env := s.env.removeChannelState msg.identifier
                         subscriptions := s.subscriptions.removeChannel msg.identifier }
              else s) msg
              (if answer.err.isNone then { reply with stopAllStreams := true } else reply) now =
              some (handled, s', dirty) ∧
            handled.commit s' = some committed ∧ n' = committed.removePresence
              (if answer.err.isNone then
                s.env.getChannelStateField msg.identifier presenceStreamState
              else "") s'.uid) := by
  simp only [Node.unsubscribe, Option.bind_eq_bind, Option.bind_eq_some_iff] at success
  obtain ⟨locked, taken, success⟩ := success
  obtain ⟨free, rfl⟩ := Session.free_of_lock taken
  refine ⟨free, ?_⟩
  split at success
  next missing =>
    cases success
    exact Or.inl ⟨Or.inl missing, rfl, false, rfl⟩
  next channel =>
    split at success
    next err refused =>
      cases success
      exact Or.inl ⟨Or.inr (by simp [refused]), rfl, true, rfl⟩
    next accepted =>
      obtain ⟨reply, answered, success⟩ := Option.bind_eq_some_iff.mp success
      obtain ⟨⟨handled, replied, dirty⟩, turn, success⟩ := Option.bind_eq_some_iff.mp success
      obtain ⟨committed, stored, success⟩ := Option.bind_eq_some_iff.mp success
      cases success
      refine Or.inr ⟨reply, by simpa using channel, accepted, answered, handled, dirty, committed,
        ?_, stored, rfl⟩
      rw [← turn]
      cases answer.err.isNone with
      | true =>
        have closed := Session.unlock_lock
          (s := { s with env := s.env.removeChannelState msg.identifier
                         subscriptions := s.subscriptions.removeChannel msg.identifier }) free
        simpa using congrArg (fun s => n.handleCommandReply s msg
          { reply with stopAllStreams := true } now) closed.symm
      | false =>
        have same := Session.unlock_lock free
        simpa using congrArg (fun s => n.handleCommandReply s msg reply now) same.symm

/-- A `Perform` ends where it is, or goes through the answer and stores a session that is
reported to have changed. -/
theorem Node.perform_cases {msg : Message} {answer : Answer CommandResult} {now : Instant}
    {res : Except String (Option CommandResult)}
    (success : n.perform s msg answer now = some (n', s', res)) :
    s.smu = false ∧
      (((s.subscriptions.hasChannel msg.identifier = false ∨ (∀ text, msg.data ≠ .text text) ∨
          (Node.refusal answer).isSome = true ∨ answer.res = none) ∧ n' = n ∧ s' = s) ∨
        ∃ reply, s.subscriptions.hasChannel msg.identifier = true ∧ (∃ text, msg.data = .text text) ∧
          Node.refusal answer = none ∧ answer.res = some reply ∧
          ∃ handled dirty, n.handleCommandReply s msg reply now = some (handled, s', dirty) ∧
            handled.commitDirty s' dirty = some n') := by
  simp only [Node.perform, Option.bind_eq_bind, Option.bind_eq_some_iff] at success
  obtain ⟨locked, taken, success⟩ := success
  obtain ⟨free, rfl⟩ := Session.free_of_lock taken
  rw [Session.unlock_lock free] at success
  refine ⟨free, ?_⟩
  split at success
  next missing =>
    cases success
    exact Or.inl ⟨Or.inl missing, rfl, rfl⟩
  next channel =>
    split at success
    next text data =>
      split at success
      next err refused =>
        cases success
        exact Or.inl ⟨Or.inr (Or.inr (Or.inl (by simp [refused]))), rfl, rfl⟩
      next accepted empty =>
        cases success
        exact Or.inl ⟨Or.inr (Or.inr (Or.inr empty)), rfl, rfl⟩
      next reply accepted answered =>
        obtain ⟨⟨handled, replied, dirty⟩, turn, success⟩ := Option.bind_eq_some_iff.mp success
        obtain ⟨committed, stored, success⟩ := Option.bind_eq_some_iff.mp success
        cases success
        exact Or.inr ⟨reply, by simpa using channel, ⟨text, data⟩, accepted, answered, handled, dirty,
          turn, stored⟩
    next other =>
      cases success
      exact Or.inl ⟨Or.inr (Or.inl other), rfl, rfl⟩

end AnyCable.Source
