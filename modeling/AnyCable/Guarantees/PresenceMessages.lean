import AnyCable.Guarantees.PresenceEvents
import AnyCable.Source.ReplyEffects
import AnyCable.Source.SystemSteps

/-!
# Presence messages of the node

The node tells the subscribers of a stream who joins and leaves: `handlePresenceReply`
(`node/node.go:961-1002`) broadcasts the event that the broker returns, and an expiry broadcasts its
leaves (`broker/memory.go:667-729`). `Unsubscribe` (`node/node.go:494-544`) also takes the session
out of the presence set, and drops the event: if the session is the last one of its presence id,
the id leaves without a message, and a later join is the second one in a row (`leave_not_told`).

That is the only way to miss a leave (`leaves_seen_iff`). Messages of the broadcast type presence
come from the node alone: neither the controller nor a publisher sends any.
-/

set_option autoImplicit false

namespace AnyCable.Guarantees.PresenceMessages
open AnyCable.Lib AnyCable.Source AnyCable.Guarantees.PresenceTables
open AnyCable.Guarantees.PresenceEvents (told notes Here Tells record_congr)

/-- A message of the broadcast type `common.PresenceType`. -/
def isPresence (msg : StreamMessage) : Bool :=
  match msg.metadata with
  | some m => m.broadcastType == "presence"
  | none => false

/-- The presence of the memory broker; other brokers have none. -/
def presenceOf (b : Broker) : PresenceState := (b.memory.map (·.presence)).getD {}

/-- The messages handed to the Broadcaster so far, oldest first. -/
def sentBy (b : Broker) : List StreamMessage :=
  (b.interest.broadcaster.calls.filterMap BroadcasterCall.message).reverse

/-- The presence messages of one step: those of `Node.Broadcast`, and those of the broker. -/
def fresh (n n' : Node) : List StreamMessage :=
  (n'.hub.broadcast.drop n.hub.broadcast.length ++
    (sentBy n'.broker).drop (sentBy n.broker).length).filter isPresence

section Broker

/-- Presence stays, and no presence message is sent. -/
structure Hushed (b b' : Broker) : Prop where
  sent : ∃ more, sentBy b' = sentBy b ++ more ∧ more.filter isPresence = []
  streams : (presenceOf b').streams = (presenceOf b).streams
  pids : ∀ sid st, pidOf (presenceOf b') sid st = pidOf (presenceOf b) sid st
  consistent : Consistent (presenceOf b) → Consistent (presenceOf b')

variable {b b' b'' : Broker}

theorem Hushed.trans (first : Hushed b b') (second : Hushed b' b'') : Hushed b b'' := by
  obtain ⟨more, sent, none⟩ := first.sent
  obtain ⟨more', sent', none'⟩ := second.sent
  refine ⟨⟨more ++ more', by rw [sent', sent, List.append_assoc], ?_⟩,
    second.streams.trans first.streams,
    fun sid st => (second.pids sid st).trans (first.pids sid st),
    fun consistent => second.consistent (first.consistent consistent)⟩
  rw [List.filter_append, none, none', List.append_nil]

/-- The same presence, and at most one message of another kind. -/
theorem hushed_of_presence (more : List StreamMessage) (presence : presenceOf b' = presenceOf b)
    (sent : sentBy b' = sentBy b ++ more) (plain : more.filter isPresence = []) : Hushed b b' :=
  ⟨⟨more, sent, plain⟩, by rw [presence], fun _ _ => by rw [presence], by rw [presence]; exact id⟩

theorem Hushed.refl : Hushed b b := hushed_of_presence [] rfl (List.append_nil _).symm rfl

theorem hushed_subscribe (stream : String) : Hushed b (b.subscribe stream) := by
  refine hushed_of_presence [] rfl ?_ rfl
  rw [List.append_nil]
  simp only [sentBy, Broker.subscribe, Interest.subscribe]
  split <;> rfl

theorem hushed_unsubscribe (stream : String) : Hushed b (b.unsubscribe stream) := by
  refine hushed_of_presence [] rfl ?_ rfl
  rw [List.append_nil]
  simp only [sentBy, Broker.unsubscribe, Interest.unsubscribe]
  split <;> rfl

theorem hushed_subscribeEach (streams : List String) :
    Hushed b (streams.foldl Broker.subscribe b) := by
  induction streams generalizing b with
  | nil => exact .refl
  | cons stream streams ih => exact (hushed_subscribe stream).trans ih

theorem hushed_unsubscribeEach (streams : List String) :
    Hushed b (streams.foldl Broker.unsubscribe b) := by
  induction streams generalizing b with
  | nil => exact .refl
  | cons stream streams ih => exact (hushed_unsubscribe stream).trans ih

theorem sentBy_broadcast (msg : StreamMessage) : sentBy (b.broadcast msg) = sentBy b ++ [msg] := by
  simp [sentBy, Broker.broadcast, Interest.broadcast, Broadcaster.record, BroadcasterCall.message]

theorem hushed_handleBroadcast {msg : StreamMessage} {now : Instant}
    (plain : isPresence msg = false) (success : b.handleBroadcast msg now = some b') :
    Hushed b b' := by
  unfold Broker.handleBroadcast at success
  split at success
  · cases success
    split
    · exact hushed_of_presence [msg] rfl (sentBy_broadcast msg) (by simp [plain])
    · exact .refl
  next m memory =>
    simp only [Option.bind_eq_bind, Option.bind_eq_some_iff] at success
    obtain ⟨⟨history, stamped⟩, handled, success⟩ := success
    cases success
    have same : isPresence stamped = isPresence msg := by
      unfold History.handleBroadcast at handled
      split at handled
      · cases handled
        rfl
      · simp only [Option.bind_eq_bind, Option.bind_eq_some_iff] at handled
        obtain ⟨⟨appended, offset⟩, -, handled⟩ := handled
        cases handled
        rfl
    refine hushed_of_presence [stamped] ?_ (sentBy_broadcast stamped) (by simp [same, plain])
    simp [presenceOf, Broker.broadcast, memory]

theorem hushed_handleBroadcasts {now : Instant} (msgs : List StreamMessage)
    (plain : ∀ msg ∈ msgs, isPresence msg = false)
    (done : msgs.foldlM (fun b msg => b.handleBroadcast msg now) b = some b') : Hushed b b' := by
  induction msgs generalizing b with
  | nil =>
    cases done
    exact .refl
  | cons msg msgs ih =>
    rw [List.foldlM_cons] at done
    obtain ⟨next, one, rest⟩ := Option.bind_eq_some_iff.mp done
    exact (hushed_handleBroadcast (plain msg (by simp)) one).trans
      (ih (fun other member => plain other (by simp [member])) rest)

theorem hushed_commitSession {sid : String} {s : Session}
    (success : b.commitSession sid s = some b') : Hushed b b' := by
  unfold Broker.commitSession at success
  split at success
  · cases success
    exact .refl
  next m memory =>
    simp only [Option.bind_eq_bind, Option.bind_eq_some_iff, Memory.commitSession] at success
    obtain ⟨stored, ⟨entry, -, update⟩, success⟩ := success
    cases update
    cases success
    refine hushed_of_presence [] ?_ (List.append_nil _).symm rfl
    simp [presenceOf, memory]

theorem hushed_finishSession (sid : String) (now : Instant) :
    Hushed b (b.finishSession sid now) := by
  refine hushed_of_presence [] ?_ (List.append_nil _).symm rfl
  unfold presenceOf Broker.finishSession
  cases b.memory with
  | none => rfl
  | some m =>
    simp only [Option.map_some, Option.getD_some, Memory.finishSession]
    split <;> rfl

theorem hushed_finishPresence (sid : String) (now : Instant) :
    Hushed b (b.finishPresence sid now) := by
  have same : presenceOf (b.finishPresence sid now) = presenceOf b ∨
      ∃ ttl, presenceOf (b.finishPresence sid now) =
        (presenceOf b).finishPresence sid ttl now := by
    unfold presenceOf Broker.finishPresence
    cases b.memory with
    | none => exact Or.inl rfl
    | some m => exact Or.inr ⟨_, rfl⟩
  rcases same with same | ⟨ttl, finished⟩
  · exact hushed_of_presence [] same (List.append_nil _).symm rfl
  · refine ⟨⟨[], (List.append_nil _).symm, rfl⟩, ?_, ?_, ?_⟩
    · rw [finished]
      exact finishPresence_streams _ sid ttl now
    · intro sid' st
      rw [finished]
      exact pidOf_finishPresence sid ttl now sid' st
    · rw [finished]
      exact fun consistent => finish_consistent consistent sid ttl now

end Broker

section Queue

variable (h : Hub) (s : HubSession)

theorem queue_unsubscribeEach (pairs : List (String × String)) :
    (h.unsubscribeEach s pairs).broadcast = h.broadcast := by
  unfold Hub.unsubscribeEach
  induction pairs generalizing h with
  | nil => rfl
  | cons p pairs ih => exact ih _

theorem queue_removeSession : (h.removeSession s).broadcast = h.broadcast := by
  unfold Hub.removeSession
  split
  · change (h.unsubscribeSessionFromAllChannels s).broadcast = h.broadcast
    unfold Hub.unsubscribeSessionFromAllChannels
    split
    · rfl
    · exact queue_unsubscribeEach h s _
  · rfl

theorem queue_unsubscribeSession (stream id : String) :
    (h.unsubscribeSession s stream id).broadcast = h.broadcast := by
  unfold Hub.unsubscribeSession Hub.removeStream
  split <;> rfl

theorem queue_channelTurns (target : String) (turns : List Nat)
    (acc : Hub × Slice (String × String)) :
    (turns.foldl (Hub.channelTurn s target) acc).1.broadcast = acc.1.broadcast := by
  induction turns generalizing acc with
  | nil => rfl
  | cons i turns ih =>
    rw [List.foldl_cons, ih]
    unfold Hub.channelTurn
    split
    · rfl
    · split <;> rfl

theorem queue_unsubscribeSessionFromChannel (target : String) :
    (h.unsubscribeSessionFromChannel s target).broadcast = h.broadcast := by
  unfold Hub.unsubscribeSessionFromChannel
  split
  · rfl
  · exact queue_channelTurns s target _ _

theorem queue_stopEach (id : String) (streams : List String) :
    (streams.foldl (fun h stream => h.unsubscribeSession s stream id) h).broadcast =
      h.broadcast := by
  induction streams generalizing h with
  | nil => rfl
  | cons stream streams ih => exact (ih _).trans (queue_unsubscribeSession h s stream id)

theorem queue_subscribeEach {α : Type} (f : α → String × String) (items : List α) :
    (items.foldl (fun h item => h.subscribeSession s (f item).1 (f item).2) h).broadcast =
      h.broadcast := by
  induction items generalizing h with
  | nil => rfl
  | cons item items ih => exact ih _

end Queue

section Node

/-- A call that has nothing to do with presence. -/
structure Mute (n n' : Node) : Prop where
  codec : n'.codec = n.codec
  queue : n'.hub.broadcast = n.hub.broadcast
  broker : Hushed n.broker n'.broker

variable {n n' n'' : Node} {s s' : Session}

theorem Mute.refl : Mute n n := ⟨rfl, rfl, .refl⟩

theorem Mute.trans (first : Mute n n') (second : Mute n' n'') : Mute n n'' :=
  ⟨second.codec.trans first.codec, second.queue.trans first.queue,
    first.broker.trans second.broker⟩

theorem mute_disconnect (now : Instant) : Mute n (n.disconnect s now) := by
  have finished : Hushed n.broker (Node.finish n.broker s now) := by
    unfold Node.finish
    split
    · exact (hushed_finishSession _ _).trans (hushed_finishPresence _ _)
    · exact hushed_finishPresence _ _
  unfold Node.disconnect
  dsimp only
  split
  · split <;> exact ⟨rfl, queue_removeSession _ _, finished⟩
  · split <;> exact ⟨rfl, rfl, finished⟩

theorem mute_disconnectFromNode (now : Instant) : Mute n (n.disconnectFromNode s now).1 := by
  unfold Node.disconnectFromNode
  dsimp only
  split
  · exact mute_disconnect now
  · exact .refl

theorem mute_sessionDisconnectNow (now : Instant) : Mute n (n.sessionDisconnectNow s now).1 := by
  unfold Node.sessionDisconnectNow
  split
  · exact mute_disconnectFromNode now
  · exact .refl

theorem mute_commit (success : n.commit s = some n') : Mute n n' := by
  obtain rfl | ⟨broker, -, stored, rfl⟩ := Node.commit_cases success
  · exact .refl
  · exact ⟨rfl, rfl, hushed_commitSession stored⟩

theorem codec_resubscribeEach (pairs : List (String × String)) (n : Node) :
    (pairs.foldl (Node.resubscribe s) n).codec = n.codec := by
  induction pairs generalizing n with
  | nil => rfl
  | cons p pairs ih => exact ih _

/-- The messages of a reply are of another kind. -/
def plainReply (broadcasts : List StreamMessage) : Bool :=
  broadcasts.all fun msg => !isPresence msg

theorem mute_handleCallReply {reply : CallResult} {now : Instant} {dirty : Bool}
    (plain : plainReply reply.broadcasts = true)
    (success : n.handleCallReply s reply now = some (n', s', dirty)) : Mute n n' := by
  simp only [Node.handleCallReply, Option.bind_eq_bind, Option.bind_eq_some_iff] at success
  obtain ⟨merged, -, broker, handled, success⟩ := success
  cases success
  refine ⟨rfl, rfl, hushed_handleBroadcasts _ (fun msg member => ?_) handled⟩
  simpa using List.all_eq_true.mp plain msg member

theorem mute_stopStreams (id : String) (reply : CommandResult) :
    Mute n (n.stopStreams s id reply).1 := by
  unfold Node.stopStreams
  split
  · exact ⟨rfl, queue_unsubscribeSessionFromChannel _ _ _, hushed_unsubscribeEach _⟩
  · rw [Node.stopEach_eq]
    exact ⟨rfl, queue_stopEach _ _ id _, hushed_unsubscribeEach _⟩

theorem mute_startStreams (id : String) (streams : List String) :
    Mute n (streams.foldl (Node.startStream id) (n, s)).1 := by
  rw [Node.startEach_eq]
  exact ⟨rfl, queue_subscribeEach _ _ (fun stream => (stream, id)) _, hushed_subscribeEach _⟩

theorem mute_handleCommandReply {msg : Message} {reply : CommandResult} {now : Instant}
    {dirty : Bool} (plain : plainReply reply.broadcasts = true)
    (success : n.handleCommandReply s msg reply now = some (n', s', dirty)) : Mute n n' := by
  simp only [Node.handleCommandReply, Option.bind_eq_bind, Option.bind_eq_some_iff] at success
  obtain ⟨merged, -, ⟨called, replied, changed⟩, call, success⟩ := success
  have before := ((mute_stopStreams msg.identifier reply).trans
    (mute_startStreams msg.identifier _)).trans (mute_handleCallReply plain call)
  cases success
  split
  · exact before.trans (mute_disconnectFromNode now)
  · exact before

/-- What a refused or ignored command returns, and a completed one before its presence. -/
theorem mute_perform {msg : Message} {answer : Answer CommandResult} {now : Instant}
    {res : Except String (Option CommandResult)}
    (plain : ∀ reply ∈ answer.res, plainReply reply.broadcasts = true)
    (success : n.perform s msg answer now = some (n', s', res)) : Mute n n' := by
  obtain ⟨-, ⟨-, rfl, -⟩ | ⟨reply, -, -, -, answered, handled, dirty, turn, stored⟩⟩ :=
    Node.perform_cases success
  · exact .refl
  · refine (mute_handleCommandReply (plain reply answered) turn).trans ?_
    unfold Node.commitDirty at stored
    split at stored
    · exact mute_commit stored
    · cases stored
      exact .refl

theorem mute_whisper {msg : Message} {now : Instant} (success : n.whisper s msg now = some n') :
    Mute n n' := by
  rcases Node.whisper_cases success with rfl | ⟨stream, broker, told, rfl⟩
  · exact .refl
  · exact ⟨rfl, rfl, hushed_handleBroadcast rfl told⟩

theorem mute_restore {restored : Bool}
    (success : n.restoreResumable s = some (n', s', restored)) : Mute n n' := by
  unfold Node.restoreResumable at success
  split at success
  · rcases Node.tryRestoreSession_cases success with
      ⟨-, -, rfl, -⟩ | ⟨entry, filled, sent, -, -, -, -, rfl, stored⟩
    · exact .refl
    · refine Mute.trans ⟨?_, ?_, ?_⟩ (mute_commit stored)
      · exact codec_resubscribeEach _ _
      · rw [Node.resubscribeEach_hub]
        exact queue_subscribeEach _ _ Prod.swap _
      · rw [Node.resubscribeEach_broker]
        exact hushed_subscribeEach _
  · cases success
    exact .refl

theorem mute_authenticate {answer : Answer ConnectResult} {now : Instant}
    {res : Except String ConnectResult}
    (plain : ∀ reply ∈ answer.res, plainReply reply.broadcasts = true)
    (success : n.authenticate s answer true now = some (n', s', res)) : Mute n n' := by
  simp only [Node.authenticate, Option.bind_eq_bind, Option.bind_eq_some_iff] at success
  obtain ⟨⟨opened, session, restored⟩, first, success⟩ := success
  refine (mute_restore first).trans ?_
  split at success
  · cases success
    exact .refl
  · unfold Node.authenticateAnswer at success
    split at success
    · cases success
      exact mute_disconnectFromNode now
    · simp only [Option.bind_eq_bind, Option.bind_eq_some_iff] at success
      obtain ⟨reply, answered, ⟨called, replied, dirty⟩, call, committed, stored, success⟩ :=
        success
      have registered : Mute opened (if reply.status = .success then
          opened.authenticated session reply.identifier else (opened, session)).1 := by
        split
        · exact ⟨rfl, rfl, .refl⟩
        · exact .refl
      have before := (registered.trans (mute_handleCallReply (plain reply answered) call)).trans
        (mute_commit stored)
      cases success
      split
      · exact before.trans (mute_disconnectFromNode now)
      · exact before

end Node

section Reports

/-- What the node broadcasts for an event. -/
def messageOf (n : Node) (e : String × PresenceEvent) : StreamMessage :=
  presenceMessage n.codec.event e.1 e.2

/-- The events are the truth about a change of the presence. -/
structure Explains (p q : PresenceState) (events : List (String × PresenceEvent)) : Prop where
  consistent : Consistent p → Consistent q
  tells : Consistent p → ∀ log, Tells p log → Tells q (log ++ notes events)
  leaves : ∀ e ∈ events, e.2.type = "leave" → e.2 = { type := "leave", id := e.2.id }

/-- A call that broadcasts exactly the events of what it does. -/
structure Reports (n n' : Node) (events : List (String × PresenceEvent)) : Prop where
  codec : n'.codec = n.codec
  messages : ∃ queued sent, n'.hub.broadcast = n.hub.broadcast ++ queued ∧
    sentBy n'.broker = sentBy n.broker ++ sent ∧
    (queued ++ sent).filter isPresence = events.map (messageOf n)
  explains : Explains (presenceOf n.broker) (presenceOf n'.broker) events

variable {n n' n'' : Node} {s s' : Session} {events : List (String × PresenceEvent)}
  {p q : PresenceState}

theorem Hushed.explains {b b' : Broker} (hushed : Hushed b b') :
    Explains (presenceOf b) (presenceOf b') [] where
  consistent := hushed.consistent
  tells _ log tells := by
    rw [notes, List.map_nil, List.append_nil]
    exact tells.congr_records (record_congr hushed.streams)
  leaves := by simp

theorem Mute.then_reports (mute : Mute n n') (reports : Reports n' n'' events) :
    Reports n n'' events := by
  obtain ⟨queued, sent, queue, broker, messages⟩ := reports.messages
  obtain ⟨more, before, none⟩ := mute.broker.sent
  have quiet := mute.broker.explains
  refine ⟨reports.codec.trans mute.codec, ⟨queued, more ++ sent, ?_, ?_, ?_⟩, ?_⟩
  · rw [queue, mute.queue]
  · rw [broker, before, List.append_assoc]
  · have same : messageOf n' = messageOf n := by
      funext e
      rw [messageOf, messageOf, mute.codec]
    rw [← same, ← messages]
    simp only [List.filter_append, none, List.nil_append]
  · refine ⟨fun consistent => reports.explains.consistent (quiet.consistent consistent), ?_,
      reports.explains.leaves⟩
    intro consistent log tells
    have middle := quiet.tells consistent log tells
    rw [notes, List.map_nil, List.append_nil] at middle
    exact reports.explains.tells (quiet.consistent consistent) log middle

theorem reports_refl : Reports n n [] :=
  ⟨rfl, ⟨[], [], (List.append_nil _).symm, (List.append_nil _).symm, rfl⟩,
    (Hushed.refl (b := n.broker)).explains⟩

theorem Mute.reports (mute : Mute n n') : Reports n n' [] := mute.then_reports reports_refl

theorem Reports.fresh (reports : Reports n n' events) : fresh n n' = events.map (messageOf n) := by
  obtain ⟨queued, sent, queue, broker, messages⟩ := reports.messages
  rw [PresenceMessages.fresh, queue, broker, List.drop_left, List.drop_left, messages]

/-- The event of a `drop` reports nothing but the id. -/
theorem told_leave {stream pid sid : String} {e : String × PresenceEvent}
    (member : e ∈ told stream (.ok (leaveOf p stream pid sid))) :
    e.2 = { type := "leave", id := e.2.id } := by
  unfold leaveOf at member
  cases dropped : p.drop stream pid sid with
  | none =>
    rw [dropped] at member
    cases member
  | some r =>
    rw [dropped, Option.bind_some] at member
    cases emptied : r.2 with
    | false =>
      rw [emptied, if_neg Bool.false_ne_true] at member
      cases member
    | true =>
      rw [emptied, if_pos rfl, told, List.mem_singleton] at member
      rw [member]

/-- The events of `PresenceAdd`. -/
theorem explains_presenceAdd (stream sid pid : String) (info : Value) :
    Explains p (p.presenceAdd stream sid pid info).1
      (told stream (p.presenceAdd stream sid pid info).2) where
  consistent consistent := add_consistent consistent stream sid pid info
  tells consistent _ tells := PresenceEvents.presenceAdd_tells consistent tells stream sid pid info
  leaves := by
    intro e member leave
    rcases presenceAdd_cases p stream sid pid info with ⟨oldPid, -, -, call⟩ | ⟨-, call⟩
    · rw [call] at member
      cases member
    · rw [call] at member
      cases missing : (record p stream pid).isNone with
      | false =>
        rw [missing, if_neg Bool.false_ne_true] at member
        cases member
      | true =>
        rw [missing, if_pos rfl, told, List.mem_singleton] at member
        subst member
        exact absurd (show "join" = "leave" from leave) (by decide)

/-- The events of `PresenceRemove`. -/
theorem explains_presenceRemove (consistent : Consistent p) (stream sid : String) :
    Explains p (p.presenceRemove stream sid).1
      (told stream (p.presenceRemove stream sid).2) where
  consistent _ := remove_consistent consistent stream sid
  tells _ _ tells := PresenceEvents.presenceRemove_tells consistent tells stream sid
  leaves := by
    intro e member leave
    rcases presenceRemove_cases consistent stream sid with ⟨err, call⟩ | ⟨q, pid, -, -, call⟩
    · rw [call] at member
      cases member
    · rw [call] at member
      exact told_leave member

theorem announce_eq (stream : String) (res : Except String (Option PresenceEvent)) :
    (n.announce stream res).1 = { n with hub := { n.hub with
      broadcast := n.hub.broadcast ++ (told stream res).map (messageOf n) } } := by
  unfold Node.announce told
  split
  · rfl
  · simp
  · simp

theorem filter_messageOf (n : Node) (events : List (String × PresenceEvent)) :
    (events.map (messageOf n)).filter isPresence = events.map (messageOf n) := by
  apply List.filter_eq_self.mpr
  intro msg member
  obtain ⟨e, -, rfl⟩ := List.mem_map.mp member
  rfl

/-- The broker's event is announced. -/
theorem reports_announce {b : Broker} {stream : String}
    {res : Except String (Option PresenceEvent)} (sent : sentBy b = sentBy n.broker)
    (explains : Explains (presenceOf n.broker) (presenceOf b) (told stream res)) :
    Reports n ({ n with broker := b }.announce stream res).1 (told stream res) := by
  rw [announce_eq]
  refine ⟨rfl, ⟨_, [], rfl, ?_, ?_⟩, explains⟩
  · rw [List.append_nil]
    exact sent
  · rw [List.append_nil]
    exact filter_messageOf n _

theorem reports_handlePresenceReply (consistent : Consistent (presenceOf n.broker))
    (identifier : String) (event : Node.PresenceCommand) (presence : Option PresenceEvent) :
    ∃ events, Reports n (n.handlePresenceReply s identifier event presence).1 events := by
  unfold Node.handlePresenceReply
  dsimp only
  split
  · exact ⟨[], reports_refl⟩
  · split
    · exact ⟨[], reports_refl⟩
    · refine ⟨_, reports_announce ?_ ?_⟩
      · unfold Broker.presenceAdd
        split <;> rfl
      · unfold Broker.presenceAdd
        cases memory : n.broker.memory with
        | none => exact Hushed.refl.explains
        | some m =>
          simp only [presenceOf, memory, Option.map_some, Option.getD_some]
          exact explains_presenceAdd _ _ _ _
    · refine ⟨_, reports_announce ?_ ?_⟩
      · unfold Broker.presenceRemove
        split <;> rfl
      · unfold Broker.presenceRemove
        cases memory : n.broker.memory with
        | none => exact Hushed.refl.explains
        | some m =>
          simp only [presenceOf, memory, Option.map_some, Option.getD_some] at consistent ⊢
          exact explains_presenceRemove consistent _ _

theorem reports_afterSubscribe {msg : Message} {confirmed : Bool}
    (consistent : Consistent (presenceOf n.broker))
    (success : n.afterSubscribe s msg confirmed = some (n', s')) :
    ∃ events, Reports n n' events := by
  obtain ⟨-, rfl | ⟨committed, stored, node⟩⟩ := Node.afterSubscribe_cases success
  · exact ⟨[], reports_refl⟩
  · have mute := mute_commit stored
    rcases node with rfl | rfl
    · exact ⟨[], mute.reports⟩
    · obtain ⟨events, reports⟩ := reports_handlePresenceReply (mute.broker.consistent consistent)
        msg.identifier .join msg.presence
      exact ⟨events, mute.then_reports reports⟩

theorem reports_subscribe {msg : Message} {answer : Answer CommandResult} {now : Instant}
    {res : Except String CommandResult} (consistent : Consistent (presenceOf n.broker))
    (plain : ∀ reply ∈ answer.res, plainReply reply.broadcasts = true)
    (success : n.subscribe s msg answer now = some (n', s', res)) :
    ∃ events, Reports n n' events := by
  obtain ⟨-, ⟨-, rfl, -⟩ | ⟨reply, -, -, answered, handled, replied, dirty, turn, after⟩⟩ :=
    Node.subscribe_cases success
  · exact ⟨[], reports_refl⟩
  · have mute := mute_handleCommandReply (plain reply answered) turn
    obtain ⟨events, reports⟩ := reports_afterSubscribe (mute.broker.consistent consistent) after
    exact ⟨events, mute.then_reports reports⟩

theorem reports_presenceCommand {msg : Message} {event : Node.PresenceCommand}
    {res : Except String Unit} (consistent : Consistent (presenceOf n.broker))
    (success : n.presenceCommand s msg event = some (n', s', res)) :
    ∃ events, Reports n n' events := by
  simp only [Node.presenceCommand, Option.bind_eq_bind, Option.bind_eq_some_iff] at success
  obtain ⟨locked, -, success⟩ := success
  split at success
  · cases success
    exact ⟨[], reports_refl⟩
  · cases success
    exact reports_handlePresenceReply consistent _ _ _

theorem sentBy_broadcastEach (toJSON : PresenceEvent → String)
    (leaves : List (String × PresenceEvent)) (b : Broker) :
    sentBy (leaves.foldl (fun b leave => b.broadcast (presenceMessage toJSON leave.1 leave.2)) b) =
        sentBy b ++ leaves.map (fun leave => presenceMessage toJSON leave.1 leave.2) ∧
      presenceOf (leaves.foldl
        (fun b leave => b.broadcast (presenceMessage toJSON leave.1 leave.2)) b) =
        presenceOf b := by
  induction leaves generalizing b with
  | nil => exact ⟨(List.append_nil _).symm, rfl⟩
  | cons leave leaves ih =>
    obtain ⟨sent, presence⟩ := ih (b.broadcast (presenceMessage toJSON leave.1 leave.2))
    refine ⟨?_, presence⟩
    rw [List.foldl_cons, sent, sentBy_broadcast, List.append_assoc]
    rfl

theorem expireTelling_leaves (p : PresenceState)
    (order : List (String × List (String × String))) :
    ∀ e ∈ (PresenceEvents.expireTelling p order).2, e.2 = { type := "leave", id := e.2.id } := by
  unfold PresenceEvents.expireTelling
  have none : ∀ e ∈ ([] : List (String × PresenceEvent)),
      e.2 = { type := "leave", id := e.2.id } := by simp
  generalize ([] : List (String × PresenceEvent)) = leaves at none ⊢
  induction order generalizing p leaves with
  | nil => exact none
  | cons item order ih =>
    rw [List.foldl_cons]
    apply ih
    generalize item.2 = items
    induction items generalizing p leaves with
    | nil => exact none
    | cons stream items more =>
      rw [List.foldl_cons, PresenceEvents.expireStream_eq]
      apply more
      intro e member
      rcases List.mem_append.mp member with old | new
      · exact none e old
      · exact told_leave new

theorem explains_expirePresence (p : PresenceState) (now : Instant) :
    Explains p (p.expirePresence now).1 (p.expirePresence now).2 where
  consistent consistent := by
    rw [(expirePresence_walk p now).2]
    exact walk_consistent consistent (expirePresence_walk p now).1
  tells consistent log tells := by
    rw [PresenceEvents.expirePresence_telling]
    exact (PresenceEvents.expireTelling_telling _
      (PresenceEvents.telling_start consistent tells)).tells
  leaves := by
    rw [PresenceEvents.expirePresence_telling]
    exact fun e member _ => expireTelling_leaves p _ e member

theorem reports_expire (now : Instant) :
    ∃ events, Reports n { n with broker := n.broker.expire n.codec.event now } events := by
  unfold Broker.expire
  cases memory : n.broker.memory with
  | none => exact ⟨[], reports_refl⟩
  | some m =>
    dsimp only
    obtain ⟨sent, presence⟩ := sentBy_broadcastEach n.codec.event (m.expire now).2
      { n.broker with memory := some (m.expire now).1 }
    refine ⟨(m.expire now).2, rfl, ⟨[], _, (List.append_nil _).symm, sent, ?_⟩, ?_⟩
    · exact filter_messageOf n _
    · rw [presence]
      have before : presenceOf n.broker = m.presence := by simp [presenceOf, memory]
      rw [before]
      exact explains_expirePresence m.presence now

end Reports

section Unsubscribe

variable {n n' : Node} {s s' : Session} {p q : PresenceState} {stream sid : String}

/-- The session is not the last one of its presence id on the stream. -/
def Accompanied (p : PresenceState) (stream sid : String) : Prop :=
  ∀ pid ∈ pidOf p sid stream, ∀ entry ∈ record p stream pid, entry.sessions ≠ [sid]

instance : Decidable (Accompanied p stream sid) :=
  inferInstanceAs (Decidable (∀ pid ∈ pidOf p sid stream, ∀ entry ∈ record p stream pid,
    entry.sessions ≠ [sid]))

/-- `Unsubscribe` drops an event only if there is one. -/
theorem Accompanied.told_nil (accompanied : Accompanied p stream sid)
    (consistent : Consistent p) : told stream (p.presenceRemove stream sid).2 = [] := by
  rcases presenceRemove_cases consistent stream sid with ⟨err, call⟩ | ⟨q, pid, streams, -, call⟩
  · rw [call]
    rfl
  · have kept := PresenceEvents.Consistent.kept_of_streams consistent streams
    rw [call, (dropped_eq kept stream pid sid).2, record_congr streams]
    cases found : record p stream pid with
    | none => rfl
    | some entry =>
      have used := consistent.entries stream pid entry found
      have more : entry.sessions.erase sid ≠ [] := by
        intro emptied
        rcases List.erase_eq_nil_iff.mp emptied with none | only
        · exact used none
        · have own := (consistent.mirror stream pid sid).mp ⟨entry, found, by simp [only]⟩
          exact accompanied pid own entry found only
      rw [Option.bind_some, leftOf, if_neg more]
      rfl

/-- The last session of a presence id ends its record. -/
theorem lost_of_not_accompanied (consistent : Consistent p)
    (alone : ¬Accompanied p stream sid) :
    ∃ pid, Here p (stream, pid) ∧ ¬Here (p.presenceRemove stream sid).1 (stream, pid) := by
  simp only [Accompanied, Option.mem_def, not_forall, not_not] at alone
  obtain ⟨pid, own, entry, found, only⟩ := alone
  obtain ⟨q, streams, -, call⟩ := presenceRemove_present consistent own
  have kept := PresenceEvents.Consistent.kept_of_streams consistent streams
  refine ⟨pid, by simp [Here, found], ?_⟩
  rw [call, Here, (dropped_eq kept stream pid sid).1, if_pos ⟨rfl, rfl⟩, record_congr streams,
    found]
  simp [leftOf, only]

theorem uid_disconnectFromNode (now : Instant) : (n.disconnectFromNode s now).2.uid = s.uid := by
  rfl

theorem uid_handleCommandReply {msg : Message} {reply : CommandResult} {now : Instant}
    {dirty : Bool} (free : s.smu = false)
    (success : n.handleCommandReply s msg reply now = some (n', s', dirty)) : s'.uid = s.uid := by
  obtain ⟨broker, sent, -, -, after, session, -, rfl, turn⟩ :=
    Node.handleCommandReply_cases free success
  have last : s' = (n', s').2 := rfl
  rw [last, turn]
  split
  · exact uid_disconnectFromNode now
  · rfl

/-- If the session unsubscribes, another one stays present under its id. -/
def Attends (n : Node) (s : Session) (msg : Message) (answer : Answer CommandResult) : Prop :=
  s.subscriptions.hasChannel msg.identifier = true → answer.err = none →
    s.env.getChannelStateField msg.identifier presenceStreamState ≠ "" →
      Accompanied (presenceOf n.broker)
        (s.env.getChannelStateField msg.identifier presenceStreamState) s.uid

instance (n : Node) (s : Session) (msg : Message) (answer : Answer CommandResult) :
    Decidable (Attends n s msg answer) :=
  inferInstanceAs (Decidable (_ → _ → _ → _))

theorem presenceOf_presenceRemove (b : Broker) (stream sid : String) :
    presenceOf (b.presenceRemove stream sid).1 = ((presenceOf b).presenceRemove stream sid).1 := by
  unfold Broker.presenceRemove
  cases memory : b.memory with
  | none =>
    simp only [presenceOf, memory, Option.map_none, Option.getD_none]
    rfl
  | some m => simp [presenceOf, memory]

theorem sentBy_presenceRemove (b : Broker) (stream sid : String) :
    sentBy (b.presenceRemove stream sid).1 = sentBy b := by
  unfold Broker.presenceRemove
  split <;> rfl

theorem reports_removePresence (consistent : Consistent (presenceOf n.broker))
    (accompanied : stream ≠ "" → Accompanied (presenceOf n.broker) stream sid) :
    Reports n (n.removePresence stream sid) [] := by
  unfold Node.removePresence
  split
  · exact reports_refl
  next named =>
    refine ⟨rfl, ⟨[], [], (List.append_nil _).symm, ?_, rfl⟩, ?_⟩
    · rw [List.append_nil]
      exact sentBy_presenceRemove _ stream sid
    · rw [presenceOf_presenceRemove, ← (accompanied named).told_nil consistent]
      exact explains_presenceRemove consistent stream sid

/-- What is left of an unsubscription that goes through: its streams are stopped and the session
is stored before the presence ends. -/
theorem unsubscribe_mute {msg : Message} {answer : Answer CommandResult} {now : Instant}
    {res : Except String CommandResult}
    (plain : ∀ reply ∈ answer.res, plainReply reply.broadcasts = true)
    (success : n.unsubscribe s msg answer now = some (n', s', res)) :
    (s.subscriptions.hasChannel msg.identifier = false ∨ (Node.refusal answer).isSome = true) ∧
        n' = n ∨
      s.subscriptions.hasChannel msg.identifier = true ∧
        ∃ committed, Mute n committed ∧ n' = committed.removePresence
          (if answer.err.isNone then
            s.env.getChannelStateField msg.identifier presenceStreamState else "") s.uid := by
  obtain ⟨free, ⟨ends, rfl, -⟩ | ⟨reply, channel, -, answered, handled, dirty, committed, turn,
    stored, rfl⟩⟩ := Node.unsubscribe_cases success
  · exact Or.inl ⟨ends, rfl⟩
  · have kept : (if answer.err.isNone then
        { reply with stopAllStreams := true } else reply).broadcasts = reply.broadcasts := by
      split <;> rfl
    have mute := mute_handleCommandReply (by rw [kept]; exact plain reply answered) turn
    have uid : s'.uid = s.uid := by
      rw [uid_handleCommandReply (by split <;> exact free) turn]
      split <;> rfl
    rw [uid]
    exact Or.inr ⟨channel, committed, mute.trans (mute_commit stored), rfl⟩

theorem accompanied_congr {b b' : Broker} (hushed : Hushed b b') :
    Accompanied (presenceOf b') stream sid ↔ Accompanied (presenceOf b) stream sid := by
  unfold Accompanied
  simp only [hushed.pids, record_congr hushed.streams]

theorem reports_unsubscribe {msg : Message} {answer : Answer CommandResult} {now : Instant}
    {res : Except String CommandResult} (consistent : Consistent (presenceOf n.broker))
    (attends : Attends n s msg answer)
    (plain : ∀ reply ∈ answer.res, plainReply reply.broadcasts = true)
    (success : n.unsubscribe s msg answer now = some (n', s', res)) : Reports n n' [] := by
  rcases unsubscribe_mute plain success with ⟨-, rfl⟩ | ⟨channel, committed, mute, rfl⟩
  · exact reports_refl
  · apply mute.then_reports
    apply reports_removePresence (mute.broker.consistent consistent)
    intro named
    by_cases fine : answer.err.isNone = true
    · rw [if_pos fine] at named ⊢
      exact (accompanied_congr mute.broker).mpr
        (attends channel (Option.isNone_iff_eq_none.mp fine) named)
    · rw [if_neg fine] at named
      exact absurd rfl named

end Unsubscribe

section Run

/-- The presence ids that a step removes. -/
def removed (p q : PresenceState) : List (String × String) :=
  (p.streams.toPairs.flatMap fun st => st.2.keys.map fun pid => (st.1, pid)).filter fun k =>
    (record q k.1 k.2).isNone

/-- Those without a leave message in the same step. -/
def unseen (n n' : Node) : List (String × String) :=
  (removed (presenceOf n.broker) (presenceOf n'.broker)).filter fun k =>
    decide (messageOf n (k.1, { type := "leave", id := k.2 }) ∉ fresh n n')

/-- A node, the presence messages so far, and the removed ids that no message told of. -/
structure State where
  system : System
  told : List StreamMessage := []
  missed : List (String × String) := []

/-- Controller and publishers send no presence messages. -/
def plainAct : System.Act → Bool
  | .connect _ _ answer _ => answer.res.all fun reply => plainReply reply.broadcasts
  | .command _ _ answer _ => answer.res.all fun reply => plainReply reply.broadcasts
  | .handleBroadcast msg _ | .handlePubSub msg => !isPresence msg
  | _ => true

def step (x : State) (a : System.Act) : Option State :=
  if plainAct a then
    (x.system.step a).map fun y =>
      { system := y, told := x.told ++ fresh x.system.node y.node
        missed := x.missed ++ unseen x.system.node y.node }
  else none

/-- The messages are those of events that alternate, and every removal was told. -/
def Seen (x : State) : Prop :=
  (∃ events, x.told = events.map (messageOf x.system.node) ∧
    ∀ stream pid, Alternates "join" "leave" (notesOf (stream, pid) (notes events))) ∧
  x.missed = []

/-- Nobody unsubscribes as the last session of a presence id. -/
def Attended (x : State) : System.Act → Prop
  | .command ref msg answer _ => msg.command = "unsubscribe" →
    ∀ s ∈ x.system.sessions.lookup ref, Attends x.system.node s msg answer
  | _ => True

instance (x : State) : (a : System.Act) → Decidable (Attended x a)
  | .command ref msg answer _ => inferInstanceAs (Decidable (msg.command = "unsubscribe" →
    ∀ s ∈ x.system.sessions.lookup ref, Attends x.system.node s msg answer))
  | .connect .. | .disconnect .. | .disconnectNow .. | .register | .deliver
  | .handleBroadcast .. | .handlePubSub .. | .expire .. | .shutdown => isTrue trivial

variable {n n' : Node} {s s' : Session} {p q : PresenceState} {x y : State} {a : System.Act}
  {events : List (String × PresenceEvent)}

theorem mem_removed {k : String × String} : k ∈ removed p q ↔ Here p k ∧ ¬Here q k := by
  obtain ⟨stream, pid⟩ := k
  rw [removed, List.mem_filter, Here, Here, Bool.not_eq_true, Option.isSome_eq_false_iff]
  refine and_congr_left fun _ => ?_
  simp only [List.mem_flatMap, List.mem_map, Prod.mk.injEq, Prod.exists]
  constructor
  · rintro ⟨st, records, member, id, listed, rfl, rfl⟩
    rw [record, GoMap.lookup_of_mem_toPairs member, Option.bind_some, AList.lookup_isSome]
    exact AList.mem_keys.mpr listed
  · intro here
    obtain ⟨entry, found⟩ := Option.isSome_iff_exists.mp here
    obtain ⟨records, outer, inner⟩ := Option.bind_eq_some_iff.mp found
    refine ⟨stream, records, GoMap.mem_toPairs_iff.mpr outer, pid, ?_, rfl, rfl⟩
    exact AList.mem_keys.mp (AList.lookup_isSome.mp (by rw [inner]; rfl))

/-- A step whose presence messages are the truth about it. -/
structure Accounts (n n' : Node) (events : List (String × PresenceEvent)) : Prop where
  codec : n'.codec = n.codec
  fresh : fresh n n' = events.map (messageOf n)
  explains : Explains (presenceOf n.broker) (presenceOf n'.broker) events

theorem Reports.accounts (reports : Reports n n' events) : Accounts n n' events :=
  ⟨reports.codec, reports.fresh, reports.explains⟩

theorem Mute.accounts (mute : Mute n n') : ∃ events, Accounts n n' events :=
  ⟨[], mute.reports.accounts⟩

theorem handleCommand_reports {msg : Message} {answer : Answer CommandResult} {now : Instant}
    {res : Except String Unit} (consistent : Consistent (presenceOf n.broker))
    (attends : msg.command = "unsubscribe" → Attends n s msg answer)
    (plain : ∀ reply ∈ answer.res, plainReply reply.broadcasts = true)
    (success : n.handleCommand s msg answer now = some (n', s', res)) :
    ∃ events, Reports n n' events := by
  unfold Node.handleCommand at success
  split at success
  · cases success
    exact ⟨[], reports_refl⟩
  · obtain ⟨r, called, success⟩ := Option.map_eq_some_iff.mp success
    cases success
    exact reports_subscribe consistent plain called
  next unsubscribes =>
    obtain ⟨r, called, success⟩ := Option.map_eq_some_iff.mp success
    cases success
    exact ⟨[], reports_unsubscribe consistent (attends unsubscribes) plain called⟩
  · obtain ⟨r, called, success⟩ := Option.map_eq_some_iff.mp success
    cases success
    exact ⟨[], (mute_perform plain called).reports⟩
  · obtain ⟨r, called, success⟩ := Option.map_eq_some_iff.mp success
    cases success
    exact ⟨[], reports_refl⟩
  · obtain ⟨r, called, success⟩ := Option.map_eq_some_iff.mp success
    cases success
    exact ⟨[], reports_refl⟩
  · exact reports_presenceCommand consistent success
  · exact reports_presenceCommand consistent success
  · obtain ⟨r, called, success⟩ := Option.map_eq_some_iff.mp success
    cases success
    exact ⟨[], (mute_whisper called).reports⟩
  · cases success
    exact ⟨[], reports_refl⟩

theorem all_plain {α : Type} {o : Option α} {P : α → Bool} (all : o.all P = true) :
    ∀ r ∈ o, P r = true := by
  intro r found
  rw [Option.mem_def.mp found] at all
  exact all

/-- Every step but an unsubscription of the last session. -/
theorem step_accounts {x y : System} (consistent : Consistent (presenceOf x.node.broker))
    (plain : plainAct a = true)
    (attended : ∀ ref msg answer now, a = .command ref msg answer now →
      msg.command = "unsubscribe" → ∀ s ∈ x.sessions.lookup ref, Attends x.node s msg answer)
    (stepped : x.step a = some y) : ∃ events, Accounts x.node y.node events := by
  cases a with
  | connect ref client answer now =>
    simp only [System.step] at stepped
    split at stepped
    · simp only [Option.bind_eq_bind, Option.bind_eq_some_iff] at stepped
      obtain ⟨⟨n, s, res⟩, opened, stepped⟩ := stepped
      cases stepped
      rw [System.serve_node]
      exact (mute_authenticate (all_plain plain) opened).accounts
    · cases stepped
  | command ref msg answer now =>
    simp only [System.step] at stepped
    split at stepped
    · obtain ⟨s, found, stepped⟩ := Option.bind_eq_some_iff.mp stepped
      obtain ⟨⟨n, after, res⟩, handled, stepped⟩ := Option.bind_eq_some_iff.mp stepped
      cases stepped
      obtain ⟨events, reports⟩ := handleCommand_reports consistent
        (fun unsubscribes => attended ref msg answer now rfl unsubscribes s found)
        (all_plain plain) handled
      exact ⟨events, reports.accounts⟩
    · cases stepped
  | disconnect ref reason code now =>
    simp only [System.step, Option.bind_eq_bind, Option.bind_eq_some_iff] at stepped
    obtain ⟨s, -, stepped⟩ := stepped
    cases stepped
    exact (mute_disconnectFromNode now).accounts
  | disconnectNow ref now =>
    simp only [System.step, Option.bind_eq_bind, Option.bind_eq_some_iff] at stepped
    obtain ⟨s, -, stepped⟩ := stepped
    cases stepped
    exact (mute_sessionDisconnectNow now).accounts
  | register =>
    simp only [System.step] at stepped
    split at stepped
    · cases stepped
    · obtain ⟨s, -, stepped⟩ := Option.bind_eq_some_iff.mp stepped
      cases stepped
      apply Mute.accounts
      exact ⟨rfl, rfl, .refl⟩
    · obtain ⟨s, -, stepped⟩ := Option.bind_eq_some_iff.mp stepped
      cases stepped
      apply Mute.accounts
      exact ⟨rfl, queue_removeSession _ _, .refl⟩
  | deliver =>
    simp only [System.step] at stepped
    split at stepped
    · cases stepped
    next msg rest queue =>
      cases stepped
      refine ⟨[], rfl, ?_, (Hushed.refl (b := x.node.broker)).explains⟩
      -- the queue only gets shorter
      simp [fresh, queue, List.drop_eq_nil_of_le]
  | handleBroadcast msg now =>
    obtain ⟨broker, handled, stepped⟩ := Option.bind_eq_some_iff.mp stepped
    cases stepped
    have quiet := hushed_handleBroadcast (by simpa [plainAct] using plain) handled
    apply Mute.accounts
    exact ⟨rfl, rfl, quiet⟩
  | handlePubSub msg =>
    cases stepped
    refine ⟨[], rfl, ?_, (Hushed.refl (b := x.node.broker)).explains⟩
    have other : isPresence msg = false := by simpa [plainAct] using plain
    simp [fresh, Node.broadcast, other]
  | expire now =>
    cases stepped
    obtain ⟨events, reports⟩ := reports_expire (n := x.node) now
    exact ⟨events, reports.accounts⟩
  | shutdown =>
    cases stepped
    apply Mute.accounts
    exact ⟨rfl, rfl, .refl⟩

/-- What every attended step keeps. -/
structure Inv (x : State) : Prop where
  consistent : Consistent (presenceOf x.system.node.broker)
  told : ∃ events, x.told = events.map (messageOf x.system.node) ∧
    Tells (presenceOf x.system.node.broker) (notes events)
  missed : x.missed = []

theorem inv_start (setup : Setup) : Inv { system := setup.start } := by
  have empty : presenceOf setup.start.node.broker = {} := by
    unfold presenceOf Setup.start
    cases setup.memory <;> rfl
  refine ⟨?_, ⟨[], rfl, ?_⟩, rfl⟩
  · rw [empty]
    exact consistent_start
  · rw [empty]
    exact PresenceEvents.inv_start.tells

theorem seen_of_inv (inv : Inv x) : Seen x := by
  obtain ⟨events, told, tells⟩ := inv.told
  exact ⟨⟨events, told, fun stream pid => tells.alternates (stream, pid)⟩, inv.missed⟩

/-- An id that is not present any more has left in between. -/
theorem leave_of_lost {log more : List ((String × String) × String)} {k : String × String}
    (before : Tells p log) (after : Tells q (log ++ more)) (here : Here p k)
    (lost : ¬Here q k) : (k, "leave") ∈ more := by
  have join := (before.last k).mpr here
  have other : (notesOf k (log ++ more)).getLast? ≠ some "join" := fun last =>
    lost ((after.last k).mp last)
  rw [notesOf_append] at other
  cases between : (notesOf k more).getLast? with
  | none =>
    rw [List.getLast?_eq_none_iff.mp between, List.append_nil] at other
    exact absurd join other
  | some note =>
    have member := List.mem_of_getLast? between
    rw [List.getLast?_append, between, Option.some_or] at other
    have kind := (after.alternates k).mem (show note ∈ notesOf k (log ++ more) by
      rw [notesOf_append]
      exact List.mem_append_right _ member)
    rcases kind with rfl | rfl
    · exact absurd rfl other
    · simp only [notesOf, List.mem_map, List.mem_filter, decide_eq_true_iff] at member
      obtain ⟨note, ⟨found, rfl⟩, leave⟩ := member
      rw [← leave]
      exact found

theorem unseen_eq_nil (accounts : Accounts n n' events)
    (consistent : Consistent (presenceOf n.broker))
    {log : List ((String × String) × String)} (tells : Tells (presenceOf n.broker) log) :
    unseen n n' = [] := by
  apply List.filter_eq_nil_iff.mpr
  intro k member
  obtain ⟨here, lost⟩ := mem_removed.mp member
  have left := leave_of_lost tells (accounts.explains.tells consistent log tells) here lost
  obtain ⟨e, told, same⟩ := List.mem_map.mp left
  obtain ⟨key, kind⟩ := Prod.mk.inj same
  have event : e = (k.1, { type := "leave", id := k.2 }) := by
    rw [← key]
    exact Prod.ext rfl (accounts.explains.leaves e told kind)
  rw [decide_eq_true_iff, not_not, accounts.fresh, ← event]
  exact List.mem_map_of_mem told

theorem step_some {x y : State} (stepped : step x a = some y) :
    plainAct a = true ∧ x.system.step a = some y.system ∧
      y.told = x.told ++ fresh x.system.node y.system.node ∧
      y.missed = x.missed ++ unseen x.system.node y.system.node := by
  unfold step at stepped
  split at stepped
  next plain =>
    obtain ⟨system, moved, same⟩ := Option.map_eq_some_iff.mp stepped
    cases same
    exact ⟨plain, moved, rfl, rfl⟩
  · cases stepped

theorem step_inv (inv : Inv x) (attended : Attended x a) (stepped : step x a = some y) :
    Inv y := by
  obtain ⟨plain, moved, told, missed⟩ := step_some stepped
  obtain ⟨more, accounts⟩ := step_accounts inv.consistent plain
    (fun ref msg answer now same => by subst same; exact attended) moved
  obtain ⟨events, messages, tells⟩ := inv.told
  have same : messageOf y.system.node = messageOf x.system.node := by
    funext e
    rw [messageOf, messageOf, accounts.codec]
  refine ⟨accounts.explains.consistent inv.consistent, ⟨events ++ more, ?_, ?_⟩, ?_⟩
  · rw [told, messages, accounts.fresh, same, List.map_append]
  · rw [notes, List.map_append]
    exact accounts.explains.tells inv.consistent _ tells
  · rw [missed, inv.missed, unseen_eq_nil accounts inv.consistent tells]
    rfl

/-- The presence of the last session ends, and no message is sent. -/
theorem unseen_of_unattended {msg : Message} {answer : Answer CommandResult} {now : Instant}
    {res : Except String CommandResult} (consistent : Consistent (presenceOf n.broker))
    (plain : ∀ reply ∈ answer.res, plainReply reply.broadcasts = true)
    (success : n.unsubscribe s msg answer now = some (n', s', res))
    (alone : ¬Attends n s msg answer) : unseen n n' ≠ [] := by
  simp only [Attends, not_forall] at alone
  obtain ⟨channel, accepted, named, alone⟩ := alone
  rcases unsubscribe_mute plain success with ⟨ends, -⟩ | ⟨-, committed, mute, rfl⟩
  · rcases ends with missing | refused
    · exact absurd (channel.symm.trans missing) (by decide)
    · simp [Node.refusal, accepted] at refused
  · rw [if_pos (Option.isNone_iff_eq_none.mpr accepted), Node.removePresence, if_neg named]
    have hushed := mute.broker
    obtain ⟨pid, here, lost⟩ := lost_of_not_accompanied (hushed.consistent consistent)
      fun accompanied => alone ((accompanied_congr hushed).mp accompanied)
    rw [Here, record_congr hushed.streams] at here
    rw [← presenceOf_presenceRemove] at lost
    obtain ⟨more, sent, none⟩ := hushed.sent
    apply List.ne_nil_of_mem
    refine List.mem_filter.mpr ⟨mem_removed.mpr ⟨here, lost⟩, ?_⟩
    simp [fresh, mute.queue, sentBy_presenceRemove, sent, none]

theorem attended_of_seen (inv : Inv x) (stepped : step x a = some y) (seen : Seen y) :
    Attended x a := by
  obtain ⟨plain, moved, -, missed⟩ := step_some stepped
  have none : unseen x.system.node y.system.node = [] := by
    have all := seen.2
    rw [missed, inv.missed] at all
    exact all
  cases a with
  | command ref msg answer now =>
    intro unsubscribes s found
    by_contra alone
    simp only [System.step, Option.bind_eq_bind, Option.mem_def.mp found, Option.bind_some] at moved
    split at moved
    · obtain ⟨⟨n, after, res⟩, handled, moved⟩ := Option.bind_eq_some_iff.mp moved
      simp only [Node.handleCommand, unsubscribes] at handled
      obtain ⟨r, called, handled⟩ := Option.map_eq_some_iff.mp handled
      cases handled
      have node : y.system.node = r.1 := by
        rw [← Option.some.inj moved]
        rfl
      rw [node] at none
      exact unseen_of_unattended inv.consistent (all_plain plain) called alone none
    · cases moved
  | _ => trivial

/-- A leave is seen unless the last session of a presence id unsubscribes. -/
theorem leaves_seen_iff (setup : Setup) (schedule : List System.Act) (x : State)
    (ran : Run.exec step { system := setup.start } schedule = some x) :
    Run.Always step Seen { system := setup.start } schedule ↔
      Run.Meets step Attended { system := setup.start } schedule :=
  Run.always_iff_meets (fun _ _ _ inv attended stepped => step_inv inv attended stepped)
    (fun _ _ _ inv stepped seen => attended_of_seen inv stepped seen)
    (fun _ inv => seen_of_inv inv) (inv_start setup) ran

/-- A message shows the type of its event. -/
def setup : Setup :=
  { codec := { Codec.blank with event := fun event => event.type }, gatesNum := 1
    memory := some ({}, "epoch") }

def connects (ref : SessionRef) (uid : String) : System.Act :=
  .connect ref { uid := uid } { res := some { status := .success } } 0

/-- The controller names the presence stream in the state of the channel. -/
def joins (ref : SessionRef) (pid : String) : System.Act :=
  .command ref { command := "subscribe", identifier := "channel", presence := some { id := pid } }
    { res := some { status := .success, streams := some ["room"]
                    iState := some (AList.insert presenceStreamState "room" ∅) } } 0

def unsubscribes (ref : SessionRef) : System.Act :=
  .command ref { command := "unsubscribe", identifier := "channel" }
    { res := some { status := .success } } 0

/-- Two tabs of one person; the first one unsubscribes, the second one breaks and expires. -/
def tabs : List System.Act :=
  [connects 1 "a", connects 2 "b", joins 1 "ann", joins 2 "ann", unsubscribes 1,
   .disconnectNow 2 0, .expire 1000000000000, joins 1 "ann",
   .command 1 { command := "leave", identifier := "channel" } {} 0, unsubscribes 1]

theorem tabs_seen :
    ∃ x, Run.exec step { system := setup.start } tabs = some x ∧
      x.told.map (·.data) = ["join", "leave", "join", "leave"] ∧
      Run.Always step Seen { system := setup.start } tabs :=
  ⟨_, rfl, by decide, (leaves_seen_iff setup tabs _ rfl).mpr (by decide)⟩

/-- A person unsubscribes and comes back. -/
theorem leave_not_told :
    ∃ x, Run.exec step { system := setup.start }
        [connects 1 "a", joins 1 "ann", unsubscribes 1, joins 1 "ann"] = some x ∧
      x.missed = [("room", "ann")] ∧ x.told.map (fun msg => (msg.stream, msg.data)) =
        [("room", "join"), ("room", "join")] ∧ ¬Seen x :=
  ⟨_, rfl, by decide, by decide, fun seen => absurd seen.2 (by decide)⟩

end Run

end AnyCable.Guarantees.PresenceMessages
