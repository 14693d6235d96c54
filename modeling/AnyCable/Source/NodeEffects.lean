import AnyCable.Source.Node

/-!
# What the calls of the node change

One lemma per function of `Source.Node`, for the parts of the state that the guarantees about
cached sessions and about streams look at: which streams the broker tracks, which sessions are
cached and by whom, and a session's subscriptions and whether it is connected or closed.

Most functions are `Quiet`: they touch none of it, except that a resumable session may store
itself. The rest follows the shape of `handleCommandReply`: streams are stopped, streams are
started, and the session may be disconnected (`Turn`).
-/

set_option autoImplicit false

namespace AnyCable.Source
open AnyCable.Lib

/-- The session is the same up to its environment, its lock and what was sent. -/
structure Session.Like (s s' : Session) : Prop where
  ref : s'.ref = s.ref
  resumable : s'.resumable = s.resumable
  subscriptions : s'.subscriptions = s.subscriptions
  closed : s'.closed = s.closed
  connected : s'.connected = s.connected

/-- The session stores itself in the cache when it commits. -/
def Session.Commits (s : Session) (writer : SessionRef) : Prop :=
  s.resumable = true ∧ writer = s.ref

/-- Every cached session was cached before or is one of the writers. -/
structure Broker.Writes (W : SessionRef → Prop) (b b' : Broker) : Prop where
  cached : ∀ sid entry, b'.restoreSession sid = some entry →
    b.restoreSession sid = some entry ∨ W entry.writer
  kind : b'.memory.isSome = b.memory.isSome

/-- The cached sessions are the same. -/
structure Broker.Keeps (b b' : Broker) : Prop where
  cached : b'.restoreSession = b.restoreSession
  kind : b'.memory.isSome = b.memory.isSome

/-- The tracked streams are the same, too. -/
structure Broker.Still (b b' : Broker) : Prop extends b.Keeps b' where
  tracker : b'.tracker = b.tracker

/-- The tracked streams are the same. -/
structure Broker.Same (W : SessionRef → Prop) (b b' : Broker) : Prop where
  tracker : b'.tracker = b.tracker
  writes : b.Writes W b'

/-- Neither tracker nor session changes in a way that matters here. -/
structure Quiet (n : Node) (s : Session) (n' : Node) (s' : Session) : Prop where
  session : s.Like s'
  broker : n.broker.Same s.Commits n'.broker

section Broker

variable {W : SessionRef → Prop} {b b' b'' : Broker}

theorem Broker.Writes.refl : b.Writes W b := ⟨fun _ _ found => Or.inl found, rfl⟩

theorem Broker.Keeps.refl : b.Keeps b := ⟨rfl, rfl⟩

theorem Broker.Keeps.trans (first : b.Keeps b') (second : b'.Keeps b'') : b.Keeps b'' :=
  ⟨second.cached.trans first.cached, second.kind.trans first.kind⟩

theorem Broker.Keeps.of_memory (same : b'.memory = b.memory) : b.Keeps b' :=
  ⟨by funext sid; simp [restoreSession, same], by rw [same]⟩

theorem Broker.Keeps.writes (keeps : b.Keeps b') : b.Writes W b' :=
  ⟨fun sid _ found => Or.inl (congrFun keeps.cached sid ▸ found), keeps.kind⟩

theorem Broker.Writes.of_memory (same : b'.memory = b.memory) : b.Writes W b' :=
  (Keeps.of_memory same).writes

theorem Broker.Writes.imp {W' : SessionRef → Prop} (writes : b.Writes W b')
    (more : ∀ writer, W writer → W' writer) : b.Writes W' b' :=
  ⟨fun sid entry found => (writes.cached sid entry found).imp_right (more entry.writer), writes.kind⟩

theorem Broker.Writes.trans (first : b.Writes W b') (second : b'.Writes W b'') :
    b.Writes W b'' := by
  refine ⟨fun sid entry found => ?_, second.kind.trans first.kind⟩
  rcases second.cached sid entry found with before | written
  · exact first.cached sid entry before
  · exact Or.inr written

theorem Broker.Still.refl : b.Still b := ⟨.refl, rfl⟩

theorem Broker.Still.trans (first : b.Still b') (second : b'.Still b'') : b.Still b'' :=
  ⟨first.toKeeps.trans second.toKeeps, second.tracker.trans first.tracker⟩

theorem Broker.Still.same (still : b.Still b') : b.Same W b' :=
  ⟨still.tracker, still.toKeeps.writes⟩

theorem Broker.Same.refl : b.Same W b := ⟨rfl, .refl⟩

theorem Broker.Same.trans (first : b.Same W b') (second : b'.Same W b'') : b.Same W b'' :=
  ⟨second.tracker.trans first.tracker, first.writes.trans second.writes⟩

theorem Broker.handleBroadcast_still {msg : StreamMessage} {now : Instant}
    (success : b.handleBroadcast msg now = some b') : b.Still b' := by
  unfold Broker.handleBroadcast at success
  split at success
  · cases success
    split <;> exact ⟨.of_memory rfl, rfl⟩
  next m memory =>
    simp only [Option.bind_eq_bind, Option.bind_eq_some_iff] at success
    obtain ⟨⟨history, stamped⟩, -, success⟩ := success
    cases success
    refine ⟨⟨?_, by simp [broadcast, memory]⟩, rfl⟩
    funext sid
    simp [restoreSession, broadcast, memory, Memory.restoreSession]

theorem Broker.commitSession_same {s : Session}
    (success : b.commitSession s.uid s = some b') : b.Same (· = s.ref) b' := by
  unfold Broker.commitSession at success
  split at success
  · cases success
    exact .refl
  next m memory =>
    simp only [Memory.commitSession, Session.toCacheEntry, Session.lock, Option.bind_eq_bind,
      Option.bind_eq_some_iff] at success
    obtain ⟨stored, ⟨cached, ⟨locked, free, entry⟩, update⟩, success⟩ := success
    cases success
    refine ⟨rfl, fun sid found => ?_, by simp [memory]⟩
    split at free
    · cases free
    · cases free
      cases entry
      cases update
      simp only [restoreSession, Option.bind_some, Memory.restoreSession, Function.update_apply,
        memory]
      split
      · intro same
        cases same
        exact Or.inr rfl
      · exact Or.inl

theorem Broker.finishSession_still (sid : String) (now : Instant) :
    b.Still (b.finishSession sid now) := by
  refine ⟨⟨?_, by simp [finishSession]⟩, rfl⟩
  funext sid
  simp only [restoreSession, finishSession, Option.bind_map]
  congr 1
  funext m
  simp only [Function.comp_apply, Memory.finishSession, Memory.restoreSession]
  split <;> rfl

theorem Broker.finishPresence_still (sid : String) (now : Instant) :
    b.Still (b.finishPresence sid now) := by
  refine ⟨⟨?_, by simp [finishPresence]⟩, rfl⟩
  funext sid
  simp only [restoreSession, finishPresence, Option.bind_map]
  rfl

/-- Only the presence of the memory broker is other. -/
theorem Broker.still_presence {m : Memory} (memory : b.memory = some m)
    (presence : PresenceState) :
    b.Still { b with memory := some { m with presence := presence } } := by
  refine ⟨⟨?_, by simp [memory]⟩, rfl⟩
  funext sid
  simp [restoreSession, memory, Memory.restoreSession]

theorem Broker.presenceAdd_still (stream sid pid : String) (info : Value) :
    b.Still (b.presenceAdd stream sid pid info).1 := by
  unfold Broker.presenceAdd
  split
  · exact .refl
  next m memory => exact still_presence memory _

theorem Broker.presenceRemove_still (stream sid : String) :
    b.Still (b.presenceRemove stream sid).1 := by
  unfold Broker.presenceRemove
  split
  · exact .refl
  next m memory => exact still_presence memory _

theorem Memory.expireCached_subset (m : Memory) (now : Instant) {sid : String}
    {entry : CacheEntry} (found : (m.expireCached now).sessions sid = some entry) :
    m.sessions sid = some entry := by
  unfold Memory.expireCached at found
  dsimp only at found
  generalize m.expireSessions.takeWhile _ = due at found
  generalize m.sessions = sessions at found ⊢
  induction due generalizing sessions with
  | nil => exact found
  | cons e due ih =>
    have kept := ih _ found
    simp only [Function.update_apply] at kept
    split at kept
    · cases kept
    · exact kept

theorem Broker.expire_same (toJSON : PresenceEvent → String) (now : Instant) :
    b.Same W (b.expire toJSON now) := by
  unfold Broker.expire
  split
  · exact .refl
  next m memory =>
    dsimp only
    -- the leaves are only broadcast
    have told : ∀ (leaves : List (String × PresenceEvent)) (b : Broker), b.Same W
        (leaves.foldl (fun b leave => b.broadcast (presenceMessage toJSON leave.1 leave.2)) b) := by
      intro leaves
      induction leaves with
      | nil => exact fun b => .refl
      | cons leave leaves ih =>
        intro b
        have one : b.Same W (b.broadcast (presenceMessage toJSON leave.1 leave.2)) :=
          ⟨rfl, .of_memory rfl⟩
        exact one.trans (ih _)
    have expired : b.Same W { b with memory := some (m.expire now).1 } := by
      refine ⟨rfl, fun sid entry found => Or.inl ?_, by simp [memory]⟩
      simp only [restoreSession, Option.bind_some, memory] at found ⊢
      exact Memory.expireCached_subset { m with history := m.history.expire now } now found
    exact expired.trans (told _ _)

end Broker

section Session

variable {s s' s'' : Session}

theorem Session.Like.refl : s.Like s := ⟨rfl, rfl, rfl, rfl, rfl⟩

theorem Session.Like.trans (first : s.Like s') (second : s'.Like s'') : s.Like s'' :=
  ⟨second.ref.trans first.ref, second.resumable.trans first.resumable,
    second.subscriptions.trans first.subscriptions, second.closed.trans first.closed,
    second.connected.trans first.connected⟩

theorem Session.Like.commits (like : s.Like s') : s'.Commits = s.Commits := by
  funext writer
  simp [Session.Commits, like.ref, like.resumable]

theorem Session.lock_like (success : s.lock = some s') : s.Like s' := by
  unfold Session.lock at success
  split at success
  · cases success
  · cases success
    exact ⟨rfl, rfl, rfl, rfl, rfl⟩

theorem Session.free_of_lock (taken : s.lock = some s') :
    s.smu = false ∧ s' = { s with smu := true } := by
  unfold Session.lock at taken
  split at taken
  · cases taken
  next free =>
    cases taken
    exact ⟨by simpa using free, rfl⟩

theorem Session.unlock_lock (free : s.smu = false) : ({ s with smu := true } : Session).unlock = s := by
  cases s
  cases free
  rfl

theorem Session.unlock_like : s.Like s.unlock := ⟨rfl, rfl, rfl, rfl, rfl⟩

theorem Session.send_like (msg : Outgoing) : s.Like (s.send msg) := ⟨rfl, rfl, rfl, rfl, rfl⟩

theorem Session.sendEach {α : Type} (f : α → Outgoing) (items : List α) (s : Session) :
    items.foldl (fun s item => s.send (f item)) s = { s with sent := s.sent ++ items.map f } := by
  induction items generalizing s with
  | nil => simp
  | cons item items ih =>
    rw [List.foldl_cons, ih]
    simp [Session.send]

theorem Session.sendEach_eq {α : Type} (f : α → Outgoing) (items : List α) (s : Session) :
    ∃ sent, items.foldl (fun s item => s.send (f item)) s = { s with sent := sent } :=
  ⟨_, Session.sendEach f items s⟩

theorem Session.sendEach_like {α : Type} (f : α → Outgoing) (items : List α) :
    s.Like (items.foldl (fun s item => s.send (f item)) s) := by
  obtain ⟨sent, written⟩ := Session.sendEach_eq f items s
  rw [written]
  exact ⟨rfl, rfl, rfl, rfl, rfl⟩

theorem Session.mergeState_like {merge : SessionEnv → GoMap String String → SessionEnv}
    {state : Option (GoMap String String)} (success : s.mergeState merge state = some s') :
    s.Like s' := by
  unfold Session.mergeState at success
  split at success
  · cases success
    exact .refl
  · simp only [Option.bind_eq_bind, Option.bind_eq_some_iff] at success
    obtain ⟨locked, taken, success⟩ := success
    cases success
    exact (Session.lock_like taken).trans ⟨rfl, rfl, rfl, rfl, rfl⟩

theorem Node.markDisconnectable_eq (n : Node) (s : Session) (interest : Int) :
    ∃ flag, n.markDisconnectable s interest = { s with disconnectInterest := flag } := by
  unfold Node.markDisconnectable
  split <;> exact ⟨_, rfl⟩

theorem Node.markDisconnectable_like (n : Node) (s : Session) (interest : Int) :
    s.Like (n.markDisconnectable s interest) := by
  obtain ⟨flag, marked⟩ := n.markDisconnectable_eq s interest
  rw [marked]
  exact ⟨rfl, rfl, rfl, rfl, rfl⟩

/-- A history request only sends. -/
theorem Node.history_eq {n : Node} {msg : Message} {res : Except String Unit}
    (success : n.history s msg = some (s', res)) : ∃ sent, s' = { s with sent := sent } := by
  simp only [Node.history, Node.historyWith, Option.bind_eq_bind,
    Option.bind_eq_some_iff] at success
  obtain ⟨locked, taken, success⟩ := success
  obtain ⟨free, rfl⟩ := Session.free_of_lock taken
  rw [Session.unlock_lock free] at success
  split at success
  · cases success
    exact ⟨s.sent, rfl⟩
  · split at success
    · cases success
      exact ⟨s.sent, rfl⟩
    · obtain ⟨backlog, -, success⟩ := Option.bind_eq_some_iff.mp success
      cases backlog with
      | error err =>
        cases success
        exact ⟨_, rfl⟩
      | ok backlog =>
        cases success
        obtain ⟨sent, written⟩ := Session.sendEach_eq
          (fun el => Outgoing.message el msg.identifier) backlog s
        rw [written]
        exact ⟨_, rfl⟩

theorem Node.history_like {n : Node} {msg : Message} {res : Except String Unit}
    (success : n.history s msg = some (s', res)) : s.Like s' := by
  obtain ⟨sent, rfl⟩ := Node.history_eq success
  exact ⟨rfl, rfl, rfl, rfl, rfl⟩

theorem Node.presence_like {n : Node} {msg : Message} {res : Except String Unit}
    (success : n.presence s msg = some (s', res)) : s.Like s' := by
  simp only [Node.presence, Option.bind_eq_bind, Option.bind_eq_some_iff] at success
  obtain ⟨locked, taken, success⟩ := success
  refine (Session.lock_like taken).trans (Session.unlock_like.trans ?_)
  split at success
  · cases success
    exact .refl
  · split at success
    · cases success
      exact .refl
    · split at success <;> cases success <;> exact Session.send_like _

end Session

section Quiet

variable {n n' n'' : Node} {s s' s'' : Session}

theorem Quiet.refl : Quiet n s n s := ⟨.refl, .refl⟩

theorem Quiet.trans (first : Quiet n s n' s') (second : Quiet n' s' n'' s'') :
    Quiet n s n'' s'' :=
  ⟨first.session.trans second.session,
    first.broker.trans (first.session.commits ▸ second.broker)⟩

theorem Quiet.of_like (like : s.Like s') : Quiet n s n s' := ⟨like, .refl⟩

theorem Quiet.of_same (same : n.broker.Same s.Commits n'.broker) : Quiet n s n' s := ⟨.refl, same⟩

theorem Node.commit_cases (success : n.commit s = some n') :
    n' = n ∨ ∃ broker, s.resumable = true ∧ n.broker.commitSession s.uid s = some broker ∧
      n' = { n with broker := broker } := by
  unfold Node.commit at success
  split at success
  next resumable =>
    simp only [Option.bind_eq_bind, Option.bind_eq_some_iff] at success
    obtain ⟨broker, stored, done⟩ := success
    cases done
    exact Or.inr ⟨broker, resumable, stored, rfl⟩
  · cases success
    exact Or.inl rfl

theorem Node.commit_quiet (success : n.commit s = some n') : Quiet n s n' s := by
  obtain rfl | ⟨broker, resumable, stored, rfl⟩ := Node.commit_cases success
  · exact .refl
  · have same := Broker.commitSession_same stored
    exact .of_same ⟨same.tracker, same.writes.imp fun _ writer => ⟨resumable, writer⟩⟩

theorem Node.commit_hub (success : n.commit s = some n') : n'.hub = n.hub := by
  obtain rfl | ⟨broker, -, -, rfl⟩ := Node.commit_cases success <;> rfl

theorem Broker.handleBroadcasts_still {now : Instant} (msgs : List StreamMessage)
    {b b' : Broker} (done : msgs.foldlM (fun b msg => b.handleBroadcast msg now) b = some b') :
    b.Still b' := by
  induction msgs generalizing b with
  | nil =>
    cases done
    exact .refl
  | cons msg msgs ih =>
    rw [List.foldlM_cons] at done
    obtain ⟨next, one, rest⟩ := Option.bind_eq_some_iff.mp done
    exact (Broker.handleBroadcast_still one).trans (ih rest)

theorem Node.handleCallReply_quiet {reply : CallResult} {now : Instant} {dirty : Bool}
    (success : n.handleCallReply s reply now = some (n', s', dirty)) : Quiet n s n' s' := by
  simp only [Node.handleCallReply, Option.bind_eq_bind, Option.bind_eq_some_iff] at success
  obtain ⟨merged, updated, broker, told, success⟩ := success
  cases success
  exact ⟨(Session.mergeState_like updated).trans (Session.sendEach_like _ _),
    (Broker.handleBroadcasts_still _ told).same⟩

theorem Node.announce_broker (stream : String) (res : Except String (Option PresenceEvent)) :
    (n.announce stream res).1.broker = n.broker := by
  unfold Node.announce
  split <;> rfl

theorem Node.handlePresenceReply_still (identifier : String) (event : Node.PresenceCommand)
    (presence : Option PresenceEvent) :
    n.broker.Still (n.handlePresenceReply s identifier event presence).1.broker := by
  unfold Node.handlePresenceReply
  dsimp only
  split
  · exact .refl
  · split
    · exact .refl
    · rw [Node.announce_broker]
      exact Broker.presenceAdd_still _ _ _ _
    · rw [Node.announce_broker]
      exact Broker.presenceRemove_still _ _

theorem Node.disconnect_still (now : Instant) : n.broker.Still (n.disconnect s now).broker := by
  have finished : n.broker.Still (Node.finish n.broker s now) := by
    unfold Node.finish
    split
    · exact (Broker.finishSession_still _ _).trans (Broker.finishPresence_still _ _)
    · exact Broker.finishPresence_still _ _
  unfold Node.disconnect
  dsimp only
  split <;> split <;> exact finished

theorem Node.disconnectFromNode_still (now : Instant) :
    n.broker.Still (n.disconnectFromNode s now).1.broker := by
  unfold Node.disconnectFromNode
  dsimp only
  split
  · exact Node.disconnect_still now
  · exact .refl

theorem Node.sessionDisconnect_still (reason : String) (code : Nat) (now : Instant) :
    n.broker.Still (n.sessionDisconnect s reason code now).1.broker :=
  Node.disconnectFromNode_still now

theorem Node.sessionDisconnectNow_still (now : Instant) :
    n.broker.Still (n.sessionDisconnectNow s now).1.broker := by
  unfold Node.sessionDisconnectNow
  split
  · exact Node.disconnectFromNode_still now
  · exact .refl

theorem Node.removePresence_still (stream sid : String) :
    n.broker.Still (n.removePresence stream sid).broker := by
  unfold Node.removePresence
  split
  · exact .refl
  · exact Broker.presenceRemove_still _ _

theorem Node.subscribeHistory_eq {msg : Message}
    (success : n.subscribeHistory s msg = some s') : ∃ sent, s' = { s with sent := sent } := by
  unfold Node.subscribeHistory at success
  split at success
  · obtain ⟨⟨session, res⟩, done, same⟩ := Option.map_eq_some_iff.mp success
    cases same
    exact Node.history_eq done
  · cases success
    exact ⟨s.sent, rfl⟩

/-- All that follows a confirmation: frames for the session, and for the node a commit and the
presence that was asked for. -/
theorem Node.afterSubscribe_cases {msg : Message} {confirmed : Bool}
    (success : n.afterSubscribe s msg confirmed = some (n', s')) :
    (∃ sent, s' = { s with sent := sent }) ∧
      (n' = n ∨ ∃ committed, n.commit s = some committed ∧
        (n' = committed ∨
          n' = (committed.handlePresenceReply s' msg.identifier .join msg.presence).1)) := by
  unfold Node.afterSubscribe at success
  split at success
  · simp only [Option.bind_eq_bind, Option.bind_eq_some_iff] at success
    obtain ⟨committed, stored, after, replied, success⟩ := success
    cases success
    refine ⟨Node.subscribeHistory_eq replied, Or.inr ⟨committed, stored, ?_⟩⟩
    split
    · exact Or.inr rfl
    · exact Or.inl rfl
  · cases success
    exact ⟨⟨s.sent, rfl⟩, Or.inl rfl⟩

theorem Node.afterSubscribe_quiet {msg : Message} {confirmed : Bool}
    (success : n.afterSubscribe s msg confirmed = some (n', s')) : Quiet n s n' s' := by
  obtain ⟨⟨sent, rfl⟩, node⟩ := Node.afterSubscribe_cases success
  have told : s.Like { s with sent := sent } := ⟨rfl, rfl, rfl, rfl, rfl⟩
  rcases node with rfl | ⟨committed, stored, rfl | rfl⟩
  · exact .of_like told
  · exact (Node.commit_quiet stored).trans (.of_like told)
  · exact (Node.commit_quiet stored).trans ((Quiet.of_like told).trans
      (.of_same (Node.handlePresenceReply_still _ _ _).same))

theorem Node.commitDirty_quiet {dirty : Bool} (success : n.commitDirty s dirty = some n') :
    Quiet n s n' s := by
  unfold Node.commitDirty at success
  split at success
  · exact Node.commit_quiet success
  · cases success
    exact .refl

/-- A whisper is a broadcast, if the channel has a stream for it. -/
theorem Node.whisper_cases {msg : Message} {now : Instant}
    (success : n.whisper s msg now = some n') :
    n' = n ∨ ∃ stream broker, n.broker.handleBroadcast
        { stream := stream, data := n.codec.value msg.data,
          metadata := some { excludeSocket := s.uid, transient := true } } now = some broker ∧
      n' = { n with broker := broker } := by
  unfold Node.whisper at success
  dsimp only at success
  split at success
  · cases success
    exact .inl rfl
  · obtain ⟨broker, told, success⟩ := Option.bind_eq_some_iff.mp success
    cases success
    exact .inr ⟨_, broker, told, rfl⟩

theorem Node.whisper_quiet {msg : Message} {now : Instant}
    (success : n.whisper s msg now = some n') : Quiet n s n' s := by
  rcases Node.whisper_cases success with rfl | ⟨stream, broker, told, rfl⟩
  · exact .refl
  · exact .of_same (Broker.handleBroadcast_still told).same

theorem Node.presenceCommand_quiet {msg : Message} {event : Node.PresenceCommand}
    {res : Except String Unit}
    (success : n.presenceCommand s msg event = some (n', s', res)) : Quiet n s n' s' := by
  simp only [Node.presenceCommand, Option.bind_eq_bind, Option.bind_eq_some_iff] at success
  obtain ⟨locked, taken, success⟩ := success
  refine (Quiet.of_like ((Session.lock_like taken).trans Session.unlock_like)).trans ?_
  split at success
  · cases success
    exact .refl
  · cases success
    exact .of_same (Node.handlePresenceReply_still _ _ _).same

end Quiet

end AnyCable.Source
