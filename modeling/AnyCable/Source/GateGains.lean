import AnyCable.Source.SystemSteps

/-!
# What comes into the gates

A call puts a stream into a gate only in one of two loops: over the streams that an answer of the
controller starts (`node/node.go:884-935`) and over the streams of a restored session
(`node/node.go:379-434`). Everything else takes streams out, or leaves the gates alone.
-/

set_option autoImplicit false

namespace AnyCable.Source
open AnyCable.Lib

namespace Hub

/-- What is in the gates of `h'` and not in those of `h` is among `more`, as a channel identifier
and a stream. -/
def Gains (h : Hub) (more : String → String → Prop) (h' : Hub) : Prop :=
  ∀ k r st id, (h'.gates k).Has r st id → (h.gates k).Has r st id ∨ more id st

variable {h h' h'' : Hub} {more : String → String → Prop} {s : HubSession}

theorem Gains.of_gates (same : h'.gates = h.gates) : h.Gains more h' := by
  intro k r st id has
  rw [same] at has
  exact .inl has

theorem Gains.trans (first : h.Gains more h') (second : h'.Gains more h'') : h.Gains more h'' := by
  intro k r st id has
  rcases second k r st id has with before | new
  · exact first k r st id before
  · exact .inr new

theorem gains_unsubscribeSessionFromChannel (target : String) :
    h.Gains more (h.unsubscribeSessionFromChannel s target) :=
  fun _ _ _ _ has => .inl (has_unsubscribeSessionFromChannel.mp has).1

theorem gains_unsubscribeEach (streams : List String) (id : String) :
    h.Gains more (streams.foldl (fun h stream => h.unsubscribeSession s stream id) h) :=
  fun k r st id' has => .inl
    (((unsubscribeSessions_spec (f := fun stream => (stream, id)) streams h).2.2 k r st id').mp
      has).1

theorem gains_removeSession : h.Gains more (h.removeSession s) := by
  unfold removeSession
  split
  · rw [unsubscribeSessionFromAllChannels_eq]
    exact fun k r st id has => .inl (has_unsubscribeEach.mp has).1
  · exact .of_gates rfl

/-- Streams are stopped, and then some are started. -/
theorem gains_replyHub (id : String) (reply : CommandResult) :
    h.Gains (fun id' st => id' = id ∧ st ∈ reply.streams.getD []) (replyHub h s id reply) := by
  have stops : h.Gains (fun id' st => id' = id ∧ st ∈ reply.streams.getD [])
      (stopHub h s id reply) := by
    unfold stopHub
    split
    · exact gains_unsubscribeSessionFromChannel id
    · exact gains_unsubscribeEach _ id
  refine stops.trans fun k r st id' has => ?_
  rcases ((subscribeEach_spec (f := fun stream => (stream, id)) (reply.streams.getD []) _).2.2
    k r st id').mp has with ⟨-, -, listed⟩ | before
  · obtain ⟨stream, member, same⟩ := List.mem_map.mp listed
    cases same
    exact .inr ⟨rfl, member⟩
  · exact .inl before

end Hub

variable {n n' : Node} {s s' : Session} {more : String → String → Prop}

theorem Node.disconnectFromNode_gains (now : Instant) :
    n.hub.Gains more (n.disconnectFromNode s now).1.hub := by
  unfold Node.disconnectFromNode
  dsimp only
  split
  · unfold Node.disconnect
    dsimp only
    split
    · split <;> exact Hub.gains_removeSession
    · split <;> exact .of_gates rfl
  · exact .of_gates rfl

theorem Node.sessionDisconnect_gains (reason : String) (code : Nat) (now : Instant) :
    n.hub.Gains more (n.sessionDisconnect s reason code now).1.hub :=
  Node.disconnectFromNode_gains now

theorem Node.sessionDisconnectNow_gains (now : Instant) :
    n.hub.Gains more (n.sessionDisconnectNow s now).1.hub := by
  unfold Node.sessionDisconnectNow
  split
  · exact Node.disconnectFromNode_gains now
  · exact .of_gates rfl

theorem Node.handlePresenceReply_gains (identifier : String) (event : Node.PresenceCommand)
    (presence : Option PresenceEvent) :
    n.hub.Gains more (n.handlePresenceReply s identifier event presence).1.hub := by
  have announces : ∀ (n : Node) stream res, (n.announce stream res).1.hub.gates = n.hub.gates := by
    intro n stream res
    unfold Node.announce
    split <;> rfl
  refine .of_gates ?_
  unfold Node.handlePresenceReply
  dsimp only
  split
  · rfl
  · split
    · rfl
    · exact announces _ _ _
    · exact announces _ _ _

theorem Node.handleCommandReply_gains {msg : Message} {reply : CommandResult} {now : Instant}
    {dirty : Bool} (free : s.smu = false)
    (success : n.handleCommandReply s msg reply now = some (n', s', dirty)) :
    n.hub.Gains (fun id st => id = msg.identifier ∧ st ∈ reply.streams.getD []) n'.hub := by
  obtain ⟨broker, sent, -, -, after, session, rfl, rfl, done⟩ :=
    Node.handleCommandReply_cases free success
  split at done
  · cases done
    exact (Hub.gains_replyHub msg.identifier reply).trans (Node.sessionDisconnect_gains _ _ _)
  · cases done
    exact Hub.gains_replyHub msg.identifier reply

theorem Node.subscribe_gains {msg : Message} {answer : Answer CommandResult} {now : Instant}
    {res : Except String CommandResult}
    (success : n.subscribe s msg answer now = some (n', s', res)) :
    n.hub.Gains (fun id st => id = msg.identifier ∧ st ∈ (subscribeChange s msg answer).acquired)
      n'.hub := by
  obtain ⟨free, ⟨-, rfl, -⟩ | ⟨reply, missing, accepted, answered, handled, replied, dirty, turn,
    finished⟩⟩ := Node.subscribe_cases success
  · exact .of_gates rfl
  · have acquired : (subscribeChange s msg answer).acquired = reply.streams.getD [] := by
      simp [subscribeChange, missing, accepted, answered, replyChange]
    rw [acquired]
    refine (Node.handleCommandReply_gains (by split <;> exact free) turn).trans ?_
    rcases (Node.afterSubscribe_cases finished).2 with rfl | ⟨committed, stored, rfl | rfl⟩
    · exact .of_gates rfl
    · exact .of_gates (by rw [Node.commit_hub stored])
    · rw [← Node.commit_hub stored]
      exact Node.handlePresenceReply_gains _ _ _

theorem Node.removePresence_hub (stream sid : String) :
    (n.removePresence stream sid).hub = n.hub := by
  unfold Node.removePresence
  split <;> rfl

theorem Node.unsubscribe_gains {msg : Message} {answer : Answer CommandResult} {now : Instant}
    {res : Except String CommandResult}
    (success : n.unsubscribe s msg answer now = some (n', s', res)) :
    n.hub.Gains (fun id st => id = msg.identifier ∧ st ∈ (unsubscribeChange s msg answer).acquired)
      n'.hub := by
  obtain ⟨free, ⟨-, rfl, -⟩ | ⟨reply, channel, accepted, answered, handled, dirty, committed, turn,
    stored, rfl⟩⟩ := Node.unsubscribe_cases success
  · exact .of_gates rfl
  · have acquired : (unsubscribeChange s msg answer).acquired = reply.streams.getD [] := by
      simp only [unsubscribeChange, channel, accepted, answered, replyChange]
      split <;> rfl
    rw [acquired]
    have streams : (if answer.err.isNone = true then { reply with stopAllStreams := true }
        else reply).streams = reply.streams := by
      split <;> rfl
    have gains := Node.handleCommandReply_gains (by split <;> exact free) turn
    rw [streams] at gains
    refine gains.trans (.of_gates ?_)
    rw [Node.removePresence_hub, Node.commit_hub stored]

theorem Node.perform_gains {msg : Message} {answer : Answer CommandResult} {now : Instant}
    {res : Except String (Option CommandResult)}
    (success : n.perform s msg answer now = some (n', s', res)) :
    n.hub.Gains (fun id st => id = msg.identifier ∧ st ∈ (performChange s msg answer).acquired)
      n'.hub := by
  obtain ⟨free, ⟨-, rfl, -⟩ | ⟨reply, channel, ⟨text, data⟩, accepted, answered, handled, dirty,
    turn, stored⟩⟩ := Node.perform_cases success
  · exact .of_gates rfl
  · have acquired : (performChange s msg answer).acquired = reply.streams.getD [] := by
      simp [performChange, channel, data, accepted, answered, replyChange]
    rw [acquired]
    refine (Node.handleCommandReply_gains free turn).trans (.of_gates ?_)
    unfold Node.commitDirty at stored
    split at stored
    · rw [Node.commit_hub stored]
    · cases stored
      rfl

theorem Node.presenceCommand_gains {msg : Message} {event : Node.PresenceCommand}
    {res : Except String Unit} (success : n.presenceCommand s msg event = some (n', s', res)) :
    n.hub.Gains more n'.hub := by
  simp only [Node.presenceCommand, Option.bind_eq_bind, Option.bind_eq_some_iff] at success
  obtain ⟨locked, taken, success⟩ := success
  split at success
  · cases success
    exact .of_gates rfl
  · cases success
    exact Node.handlePresenceReply_gains _ _ _

theorem Node.whisper_gates {msg : Message} {now : Instant}
    (success : n.whisper s msg now = some n') : n'.hub.gates = n.hub.gates := by
  rcases Node.whisper_cases success with rfl | ⟨stream, broker, told, rfl⟩ <;> rfl

/-- A command brings the streams into the gates that `commandChange` says. -/
theorem Node.handleCommand_gains {msg : Message} {answer : Answer CommandResult} {now : Instant}
    {res : Except String Unit}
    (success : n.handleCommand s msg answer now = some (n', s', res)) :
    n.hub.Gains (fun id st => id = msg.identifier ∧ st ∈ (commandChange s msg answer).acquired)
      n'.hub := by
  unfold Node.handleCommand at success
  split at success
  · cases success
    exact .of_gates rfl
  next command =>
    obtain ⟨⟨after, session, result⟩, done, same⟩ := Option.map_eq_some_iff.mp success
    cases same
    simp only [commandChange, command]
    exact Node.subscribe_gains done
  next command =>
    obtain ⟨⟨after, session, result⟩, done, same⟩ := Option.map_eq_some_iff.mp success
    cases same
    simp only [commandChange, command]
    exact Node.unsubscribe_gains done
  next command =>
    obtain ⟨⟨after, session, result⟩, done, same⟩ := Option.map_eq_some_iff.mp success
    cases same
    simp only [commandChange, command]
    exact Node.perform_gains done
  · obtain ⟨⟨session, result⟩, done, same⟩ := Option.map_eq_some_iff.mp success
    cases same
    exact .of_gates rfl
  · obtain ⟨⟨session, result⟩, done, same⟩ := Option.map_eq_some_iff.mp success
    cases same
    exact .of_gates rfl
  · exact Node.presenceCommand_gains success
  · exact Node.presenceCommand_gains success
  · obtain ⟨after, done, same⟩ := Option.map_eq_some_iff.mp success
    cases same
    exact .of_gates (Node.whisper_gates done)
  · cases success
    exact .of_gates rfl

theorem Node.authenticateAnswer_gains {answer : Answer ConnectResult} {disconnectOnFailure : Bool}
    {now : Instant} {res : Except String ConnectResult} (free : s.smu = false)
    (success : n.authenticateAnswer s answer disconnectOnFailure now = some (n', s', res)) :
    n.hub.Gains more n'.hub := by
  rcases Node.authenticateAnswer_cases free success with
    ended | ⟨called, marked, committed, gates, -, -, -, stored, outcome⟩
  · cases ended
    exact Node.sessionDisconnect_gains _ _ _
  · have stays : n.hub.Gains more committed.hub := by
      rw [Node.commit_hub stored]
      exact .of_gates gates
    rcases outcome with same | ended
    · cases same
      exact stays
    · cases ended
      exact stays.trans (Node.sessionDisconnect_gains _ _ _)

/-- A new session brings the streams that were restored, if any. -/
theorem Node.authenticate_gains {ref : SessionRef} {client : Client} {answer : Answer ConnectResult}
    {disconnectOnFailure : Bool} {now : Instant} {res : Except String ConnectResult}
    (success : n.authenticate (System.newSession ref client) answer disconnectOnFailure now =
      some (n', s', res)) :
    n.hub.Gains (fun id st => s'.subscriptions.Holds id st) n'.hub := by
  rcases Node.authenticate_cases success with
    answered | ⟨entry, read, sent, found, taken, rfl, stored⟩
  · exact Node.authenticateAnswer_gains rfl answered
  · intro k r st id has
    rw [Node.commit_hub stored] at has
    have spec := (Node.resubscribeEach_spec { n with hub := n.hub.addSession read.toHub }
      { read with connected := true }).2.2 k r st id
    rcases spec.mp has with ⟨-, -, holds⟩ | before
    · exact .inr holds
    · exact .inl before

end AnyCable.Source
