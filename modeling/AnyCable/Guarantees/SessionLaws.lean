import AnyCable.Guarantees.CacheFreshness
import AnyCable.Guarantees.LosslessRestore

/-!
# Laws of sessions

A law is a property of a session's environment and channels that survives the cache: what a session
that obeys it has stored is restored to one that obeys it again. Of all steps of a node only
commands can break a law (`Law.other`, `Law.command`), since everything else leaves environment and
channels of the sessions that exist as they are, and a new session is blank or restored.
-/

set_option autoImplicit false

namespace AnyCable.Guarantees.SessionLaws
open AnyCable.Lib AnyCable.Source AnyCable.Source.System
open CacheFreshness LosslessRestore

variable {n n' n'' : Node} {s s' : Session} {x y : System}

/-! ### What is cached -/

/-- Every cached session was cached before or is this one. -/
def Stores (n n' : Node) (s : Session) : Prop :=
  ∀ sid entry, n'.broker.restoreSession sid = some entry →
    n.broker.restoreSession sid = some entry ∨ entry.Describes s

theorem Stores.of_keeps (keeps : n.broker.Keeps n'.broker) : Stores n n' s := by
  intro sid entry found
  rw [keeps.cached] at found
  exact .inl found

theorem Stores.of_commit (success : n.commit s = some n') : Stores n n' s := by
  obtain rfl | ⟨broker, resumable, stored, rfl⟩ := Node.commit_cases success
  · exact fun sid entry found => .inl found
  · intro sid entry found
    unfold Broker.commitSession at stored
    split at stored
    · cases stored
      exact .inl found
    next m memory =>
      simp only [Memory.commitSession, Option.bind_eq_bind, Option.bind_eq_some_iff] at stored
      obtain ⟨memory', ⟨cached, written, update⟩, done⟩ := stored
      cases update
      cases done
      simp only [Broker.restoreSession, Option.bind_some, Memory.restoreSession,
        Function.update_apply] at found
      split at found
      · cases found
        exact .inr (Session.toCacheEntry_describes written)
      · left
        simpa [Broker.restoreSession, memory, Memory.restoreSession] using found

/-- What is stored, and nothing that the cache would have to know afterwards. -/
theorem Stores.then (first : Stores n n' s) (keeps : n'.broker.Keeps n''.broker)
    (alike : s.Alike s') : Stores n n'' s' := by
  intro sid entry found
  rw [keeps.cached] at found
  rcases first sid entry found with before | describes
  · exact .inl before
  · exact .inr (describes.alike_iff.mpr alike)

theorem Stores.after (next : Stores n' n'' s) (keeps : n.broker.Keeps n'.broker) :
    Stores n n'' s := by
  intro sid entry found
  rcases next sid entry found with before | describes
  · rw [keeps.cached] at before
    exact .inl before
  · exact .inr describes

/-! ### Commands -/

/-- The connection state of an answer goes elsewhere. -/
theorem replyEnv_channelStates (env : SessionEnv) (id : String) (reply : CommandResult) :
    (replyEnv env id reply).channelStates =
      (mergeReply (fun env state => env.mergeChannelState id state) env
        reply.iState).channelStates := by
  unfold replyEnv mergeReply
  cases reply.cState <;> rfl

/-- What follows the answer to a `Subscribe` changes neither environment nor channels. -/
theorem afterSubscribe_same {msg : Message} {interest : Int} {confirmed : Bool}
    (success : n.afterSubscribe (n.markDisconnectable s interest) msg confirmed =
      some (n', s')) :
    s'.env = s.env ∧ s'.subscriptions = s.subscriptions ∧ Stores n n' s' := by
  obtain ⟨⟨sent, rfl⟩, node⟩ := Node.afterSubscribe_cases success
  have stores : Stores n n' { n.markDisconnectable s interest with sent := sent } := by
    rcases node with rfl | ⟨committed, stored, rfl | rfl⟩
    · exact .of_keeps .refl
    · exact (Stores.of_commit stored).then .refl (alike_of_eq rfl rfl rfl)
    · exact (Stores.of_commit stored).then (Node.handlePresenceReply_still _ _ _).toKeeps
        (alike_of_eq rfl rfl rfl)
  refine ⟨?_, ?_, stores⟩
  · obtain ⟨flag, marked⟩ := n.markDisconnectable_eq s interest
    rw [marked]
  · obtain ⟨flag, marked⟩ := n.markDisconnectable_eq s interest
    rw [marked]

theorem subscribe_stores {msg : Message} {answer : Answer CommandResult} {now : Instant}
    {res : Except String CommandResult}
    (success : n.subscribe s msg answer now = some (n', s', res)) : Stores n n' s' := by
  obtain ⟨free, ⟨-, rfl, held, rfl⟩ | ⟨reply, -, -, -, handled, replied, dirty, turn, finished⟩⟩ :=
    Node.subscribe_cases success
  · exact .of_keeps .refl
  · obtain ⟨keeps, -⟩ := handleCommandReply_session (by split <;> exact free) turn
    exact (afterSubscribe_same finished).2.2.after keeps

theorem unsubscribe_stores {msg : Message} {answer : Answer CommandResult} {now : Instant}
    {res : Except String CommandResult}
    (success : n.unsubscribe s msg answer now = some (n', s', res)) : Stores n n' s' := by
  obtain ⟨free, ⟨-, rfl, held, rfl⟩ | ⟨reply, -, -, -, handled, dirty, committed, turn, stored,
    rfl⟩⟩ := Node.unsubscribe_cases success
  · exact .of_keeps .refl
  · obtain ⟨keeps, -⟩ := handleCommandReply_session (by split <;> exact free) turn
    exact ((Stores.of_commit stored).after keeps).then (Node.removePresence_still _ _).toKeeps
      (alike_of_eq rfl rfl rfl)

theorem perform_stores {msg : Message} {answer : Answer CommandResult} {now : Instant}
    {res : Except String (Option CommandResult)}
    (success : n.perform s msg answer now = some (n', s', res)) : Stores n n' s' := by
  obtain ⟨free, ⟨-, rfl, rfl⟩ | ⟨reply, -, -, -, -, handled, dirty, turn, stored⟩⟩ :=
    Node.perform_cases success
  · exact .of_keeps .refl
  · obtain ⟨keeps, -⟩ := handleCommandReply_session free turn
    unfold Node.commitDirty at stored
    split at stored
    · exact (Stores.of_commit stored).after keeps
    · cases stored
      exact .of_keeps keeps

theorem presence_same {msg : Message} {res : Except String Unit}
    (success : n.presence s msg = some (s', res)) :
    s'.env = s.env ∧ s'.subscriptions = s.subscriptions := by
  simp only [Node.presence, Option.bind_eq_bind, Option.bind_eq_some_iff] at success
  obtain ⟨locked, taken, success⟩ := success
  obtain ⟨-, rfl⟩ := Session.free_of_lock taken
  split at success
  · cases success
    exact ⟨rfl, rfl⟩
  · split at success
    · cases success
      exact ⟨rfl, rfl⟩
    · split at success <;> cases success <;> exact ⟨rfl, rfl⟩

theorem presenceCommand_same {msg : Message} {event : Node.PresenceCommand}
    {res : Except String Unit} (success : n.presenceCommand s msg event = some (n', s', res)) :
    n.broker.Keeps n'.broker ∧ s'.env = s.env ∧ s'.subscriptions = s.subscriptions := by
  simp only [Node.presenceCommand, Option.bind_eq_bind, Option.bind_eq_some_iff] at success
  obtain ⟨locked, taken, success⟩ := success
  obtain ⟨-, rfl⟩ := Session.free_of_lock taken
  split at success
  · cases success
    exact ⟨.refl, rfl, rfl⟩
  · cases success
    exact ⟨(Node.handlePresenceReply_still _ _ _).toKeeps, rfl, rfl⟩

theorem whisper_keeps {msg : Message} {now : Instant} (success : n.whisper s msg now = some n') :
    n.broker.Keeps n'.broker := by
  rcases Node.whisper_cases success with rfl | ⟨stream, broker, told, rfl⟩
  · exact .refl
  · exact (Broker.handleBroadcast_still told).toKeeps

/-- A command stores the session as it is afterwards, if at all. -/
theorem handleCommand_stores {msg : Message} {answer : Answer CommandResult} {now : Instant}
    {res : Except String Unit}
    (success : n.handleCommand s msg answer now = some (n', s', res)) : Stores n n' s' := by
  unfold Node.handleCommand at success
  split at success
  · cases success
    exact .of_keeps .refl
  · obtain ⟨⟨after, session, result⟩, done, same⟩ := Option.map_eq_some_iff.mp success
    cases same
    exact subscribe_stores done
  · obtain ⟨⟨after, session, result⟩, done, same⟩ := Option.map_eq_some_iff.mp success
    cases same
    exact unsubscribe_stores done
  · obtain ⟨⟨after, session, result⟩, done, same⟩ := Option.map_eq_some_iff.mp success
    cases same
    exact perform_stores done
  · obtain ⟨⟨session, result⟩, done, same⟩ := Option.map_eq_some_iff.mp success
    cases same
    exact .of_keeps .refl
  · obtain ⟨⟨session, result⟩, done, same⟩ := Option.map_eq_some_iff.mp success
    cases same
    exact .of_keeps .refl
  · exact .of_keeps (presenceCommand_same success).1
  · exact .of_keeps (presenceCommand_same success).1
  · obtain ⟨after, done, same⟩ := Option.map_eq_some_iff.mp success
    cases same
    exact .of_keeps (whisper_keeps done)
  · cases success
    exact .of_keeps .refl

/-- Three commands change environment or channels of a session. -/
theorem handleCommand_same {msg : Message} {answer : Answer CommandResult} {now : Instant}
    {res : Except String Unit} (subscribe : msg.command ≠ "subscribe")
    (unsubscribe : msg.command ≠ "unsubscribe") (message : msg.command ≠ "message")
    (success : n.handleCommand s msg answer now = some (n', s', res)) :
    s'.env = s.env ∧ s'.subscriptions = s.subscriptions := by
  unfold Node.handleCommand at success
  split at success
  · cases success
    exact ⟨rfl, rfl⟩
  next command => exact absurd command subscribe
  next command => exact absurd command unsubscribe
  next command => exact absurd command message
  · obtain ⟨⟨session, result⟩, done, same⟩ := Option.map_eq_some_iff.mp success
    cases same
    obtain ⟨sent, rfl⟩ := Node.history_eq done
    exact ⟨rfl, rfl⟩
  · obtain ⟨⟨session, result⟩, done, same⟩ := Option.map_eq_some_iff.mp success
    cases same
    exact presence_same done
  · exact (presenceCommand_same success).2
  · exact (presenceCommand_same success).2
  · obtain ⟨after, done, same⟩ := Option.map_eq_some_iff.mp success
    cases same
    exact ⟨rfl, rfl⟩
  · cases success
    exact ⟨rfl, rfl⟩

/-! ### Laws -/

/-- A law for sessions, and what it means for cached ones. -/
structure Law (C : Session → Prop) (E : CacheEntry → Prop) : Prop where
  same : ∀ s s', C s → s'.env = s.env → s'.subscriptions = s.subscriptions → C s'
  blank : ∀ s, s.env.channelStates = ∅ → s.subscriptions = {} → C s
  stored : ∀ entry s, entry.Describes s → C s → E entry
  restored : ∀ ref client entry s, E entry →
    (newSession ref client).restoreFromCache entry = some s → C s

/-- All sessions obey, in the table and in the cache. -/
structure Obeyed (C : Session → Prop) (E : CacheEntry → Prop) (x : System) : Prop where
  sessions : ∀ ref s, x.sessions.lookup ref = some s → C s
  cached : ∀ sid entry, x.node.broker.restoreSession sid = some entry → E entry

section Law

variable {C : Session → Prop} {E : CacheEntry → Prop} (law : Law C E)

include law

/-- The answer of a controller about a connection. -/
theorem Law.authenticateAnswer {answer : Answer ConnectResult} {disconnectOnFailure : Bool}
    {now : Instant} {res : Except String ConnectResult} (free : s.smu = false)
    (empty : s.env.channelStates = ∅) (none : s.subscriptions = {})
    (success : n.authenticateAnswer s answer disconnectOnFailure now = some (n', s', res)) :
    C s' ∧ Stores n n' s' := by
  rcases Node.authenticateAnswer_cases free success with
    ended | ⟨called, marked, committed, -, keeps, states, channels, stored, outcome⟩
  · cases ended
    exact ⟨law.blank _ empty none, .of_keeps (Node.sessionDisconnect_still _ _ _).toKeeps⟩
  · have unset : marked.env.channelStates = ∅ := states.trans empty
    have unsubscribed : marked.subscriptions = {} := channels.trans none
    have stores : Stores n committed marked := (Stores.of_commit stored).after keeps
    rcases outcome with same | ended
    · cases same
      exact ⟨law.blank _ unset unsubscribed, stores⟩
    · cases ended
      exact ⟨law.blank _ unset unsubscribed, stores.then
        (Node.sessionDisconnect_still _ _ _).toKeeps (alike_of_eq rfl rfl rfl)⟩

theorem Law.authenticate {ref : SessionRef} {client : Client} {answer : Answer ConnectResult}
    {disconnectOnFailure : Bool} {now : Instant} {res : Except String ConnectResult}
    (cached : ∀ sid entry, n.broker.restoreSession sid = some entry → E entry)
    (success : n.authenticate (newSession ref client) answer disconnectOnFailure now =
      some (n', s', res)) : C s' ∧ Stores n n' s' := by
  rcases Node.authenticate_cases success with
    answered | ⟨entry, read, sent, found, taken, rfl, stored⟩
  · exact law.authenticateAnswer rfl rfl rfl answered
  · have obeys := law.restored ref client entry read (cached _ entry found) taken
    refine ⟨law.same _ _ obeys rfl rfl, (Stores.of_commit stored).after ?_⟩
    rw [Node.resubscribeEach_broker]
    exact .of_memory (Broker.subscribeEach_memory _ _)

omit law in
theorem Law.start (setup : Setup) : Obeyed C E setup.start where
  sessions := by simp [Setup.start]
  cached := by
    intro sid entry found
    cases memory : setup.memory <;>
      simp [Setup.start, Broker.restoreSession, Memory.restoreSession, memory] at found

/-- A step that leaves environments, channels and the cache alone, but for what it drops from it. -/
theorem Law.keeps (obeyed : Obeyed C E x)
    (sessions : ∀ ref s', y.sessions.lookup ref = some s' → ∃ s, x.sessions.lookup ref = some s ∧
      s'.env = s.env ∧ s'.subscriptions = s.subscriptions)
    (cached : ∀ sid entry, y.node.broker.restoreSession sid = some entry →
      x.node.broker.restoreSession sid = some entry) : Obeyed C E y where
  sessions := by
    intro ref s' found
    obtain ⟨s, before, env, subscriptions⟩ := sessions ref s' found
    exact law.same _ _ (obeyed.sessions ref s before) env subscriptions
  cached := fun sid entry found => obeyed.cached sid entry (cached sid entry found)

/-- One session changes and may store itself. -/
theorem Law.put (obeyed : Obeyed C E x) (ref : SessionRef) (obeys : C s)
    (stores : Stores x.node n s) : Obeyed C E (x.put ref (n, s)) where
  sessions := by
    intro other s' found
    by_cases same : other = ref
    · subst same
      rw [put_lookup] at found
      cases found
      exact obeys
    · rw [put_lookup_ne x (n, s) same] at found
      exact obeyed.sessions other s' found
  cached := by
    intro sid entry found
    rcases stores sid entry found with before | describes
    · exact obeyed.cached sid entry before
    · exact law.stored entry s describes obeys

omit law in
theorem sendEach_same {sessions : GoMap SessionRef Session} {msg : StreamMessage}
    {targets : List (SessionRef × String)} {ref : SessionRef}
    (found : (sendEach sessions msg targets).lookup ref = some s') :
    ∃ s, sessions.lookup ref = some s ∧ s'.env = s.env ∧
      s'.subscriptions = s.subscriptions := by
  unfold sendEach at found
  induction targets generalizing sessions with
  | nil => exact ⟨s', found, rfl, rfl⟩
  | cons target targets ih =>
    rw [List.foldl_cons] at found
    obtain ⟨s, sent, env, subscriptions⟩ := ih found
    split at sent
    · exact ⟨s, sent, env, subscriptions⟩
    next session before =>
      rw [GoMap.lookup_insert_apply] at sent
      split at sent
      next same =>
        cases sent
        exact ⟨session, same ▸ before, env, subscriptions⟩
      · exact ⟨s, sent, env, subscriptions⟩

omit law in
theorem sessionDisconnectNow_same (now : Instant) :
    (n.sessionDisconnectNow s now).2.env = s.env ∧
      (n.sessionDisconnectNow s now).2.subscriptions = s.subscriptions := by
  unfold Node.sessionDisconnectNow
  split <;> exact ⟨rfl, rfl⟩

theorem Law.other {a : System.Act} (obeyed : Obeyed C E x) (stepped : x.step a = some y)
    (other : ∀ ref msg answer now, a ≠ .command ref msg answer now) : Obeyed C E y := by
  have unchanged : ∀ ref s, x.sessions.lookup ref = some s →
      ∃ before, x.sessions.lookup ref = some before ∧ s.env = before.env ∧
        s.subscriptions = before.subscriptions :=
    fun ref s found => ⟨s, found, rfl, rfl⟩
  cases a with
  | connect ref client answer now =>
    simp only [System.step] at stepped
    split at stepped
    · obtain ⟨⟨n, s, res⟩, opened, stepped⟩ := Option.bind_eq_some_iff.mp stepped
      cases stepped
      obtain ⟨obeys, stores⟩ := law.authenticate obeyed.cached opened
      exact law.keeps (law.put obeyed ref obeys stores)
        (fun other s' found => ⟨s', by simpa using found, rfl, rfl⟩)
        fun sid entry found => by simpa using found
    · cases stepped
  | command ref msg answer now => exact absurd rfl (other ref msg answer now)
  | disconnect ref reason code now =>
    obtain ⟨before, found, stepped⟩ := Option.bind_eq_some_iff.mp stepped
    cases stepped
    exact law.put obeyed ref (law.same _ _ (obeyed.sessions ref before found) rfl rfl)
      (.of_keeps (Node.sessionDisconnect_still _ _ _).toKeeps)
  | disconnectNow ref now =>
    obtain ⟨before, found, stepped⟩ := Option.bind_eq_some_iff.mp stepped
    cases stepped
    obtain ⟨env, subscriptions⟩ := sessionDisconnectNow_same (n := x.node) (s := before) now
    exact law.put obeyed ref (law.same _ _ (obeyed.sessions ref before found) env subscriptions)
      (.of_keeps (Node.sessionDisconnectNow_still _).toKeeps)
  | register =>
    simp only [System.step] at stepped
    split at stepped
    · cases stepped
    · obtain ⟨s, found, stepped⟩ := Option.bind_eq_some_iff.mp stepped
      cases stepped
      exact law.keeps obeyed unchanged fun sid entry found => found
    · obtain ⟨s, found, stepped⟩ := Option.bind_eq_some_iff.mp stepped
      cases stepped
      exact law.keeps obeyed unchanged fun sid entry found => found
  | deliver =>
    simp only [System.step] at stepped
    split at stepped
    · cases stepped
    · cases stepped
      exact law.keeps obeyed (fun ref s found => sendEach_same found) fun sid entry found => found
  | handleBroadcast msg now =>
    obtain ⟨broker, told, stepped⟩ := Option.bind_eq_some_iff.mp stepped
    cases stepped
    refine law.keeps obeyed unchanged fun sid entry found => ?_
    rw [← (Broker.handleBroadcast_still told).cached]
    exact found
  | handlePubSub msg =>
    cases stepped
    exact law.keeps obeyed unchanged fun sid entry found => found
  | expire now =>
    cases stepped
    refine law.keeps obeyed unchanged fun sid entry found => ?_
    have same : x.node.broker.Same (fun _ => False)
        (x.node.broker.expire x.node.codec.event now) := Broker.expire_same _ _
    exact (same.writes.cached sid entry found).resolve_right id
  | shutdown =>
    cases stepped
    exact law.keeps obeyed unchanged fun sid entry found => found

/-- A command leaves the law to the session that sent it. -/
theorem Law.command {ref : SessionRef} {msg : Message} {answer : Answer CommandResult}
    {now : Instant} (obeyed : Obeyed C E x)
    (stepped : x.step (.command ref msg answer now) = some y) :
    ∃ s n s' res, x.sessions.lookup ref = some s ∧ C s ∧
      x.node.handleCommand s msg answer now = some (n, s', res) ∧ y = x.put ref (n, s') ∧
      (C s' → Obeyed C E y) := by
  simp only [System.step] at stepped
  split at stepped
  · obtain ⟨s, found, stepped⟩ := Option.bind_eq_some_iff.mp stepped
    obtain ⟨⟨n, s', res⟩, handled, stepped⟩ := Option.bind_eq_some_iff.mp stepped
    cases stepped
    exact ⟨s, n, s', res, found, obeyed.sessions ref s found, handled, rfl,
      fun obeys => law.put obeyed ref obeys (handleCommand_stores handled)⟩
  · cases stepped

end Law

end AnyCable.Guarantees.SessionLaws
