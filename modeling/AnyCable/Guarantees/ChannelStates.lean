import AnyCable.Guarantees.SessionLaws
import AnyCable.Source.RpcRequests

/-!
# Channel states and their subscriptions

Source: `node/node.go:379-584,831-852,884-959`, `protocol/protocol.go:21-44,107-146`,
`common/common.go:125-147`. An answer of the controller may set a state for the channel of the
command; later commands of the channel carry it back. `Unsubscribe` removes the state together with
the channel.

A state never outlives its subscription, in all sessions of a node and through all restores from the
cache, exactly if two kinds of answers bring none: those to a `Subscribe` that is not confirmed and
those to an `Unsubscribe` (`states_kept_iff_returned`). Both are merged like all others, the second
after the state was removed. What is left behind goes out with the next `Subscribe` to the channel,
and with the disconnect request, which does not list the channel (`state_left_behind`).
-/

set_option autoImplicit false

namespace AnyCable.Guarantees.ChannelStates
open AnyCable.Lib AnyCable.Source AnyCable.Source.System AnyCable.Source.RpcRequests
open CacheFreshness LosslessRestore SessionLaws

/-- Requests as a subscription should begin and a session should end: no state before there is a
subscription, and none without one. -/
structure Orderly (s : Session) : Prop where
  subscribe : ∀ origin id, s.subscriptions.hasChannel id = false →
    (subscribeRequest origin s id).env.istate = none
  disconnect : ∀ origin states, (disconnectRequest origin s).env.istate = some states →
    ∀ id ∈ states, id ∈ (disconnectRequest origin s).subscriptions

/-- The answer sets a state that nobody removes. -/
def Strays (s : Session) (msg : Message) (answer : Answer CommandResult) : Prop :=
  Node.refusal answer = none ∧ ∃ reply, answer.res = some reply ∧ reply.iState.isSome = true ∧
    (msg.command = "subscribe" ∧ s.subscriptions.hasChannel msg.identifier = false ∧
        confirmed answer reply = false ∨
      msg.command = "unsubscribe" ∧ s.subscriptions.hasChannel msg.identifier = true ∧
        answer.err = none)

/-- The condition on a step. -/
def Returned (x : System) : System.Act → Prop
  | .command ref msg answer _ => ∀ s, x.sessions.lookup ref = some s → ¬ Strays s msg answer
  | _ => True

/-! ### States and channels -/

/-- Every channel with a state is subscribed to. -/
def Covered (s : Session) : Prop :=
  ∀ id, (s.env.channelStates.lookup id).isSome = true → s.subscriptions.hasChannel id = true

def EntryCovered (entry : CacheEntry) : Prop :=
  ∀ id, (entry.channelsState.lookup id).isSome = true →
    (entry.subscriptions.lookup id).isSome = true

variable {n n' n'' : Node} {s s' : Session} {x y : System}

theorem orderly_iff_covered : Orderly s ↔ Covered s := by
  constructor
  · intro orderly id state
    cases channel : s.subscriptions.hasChannel id with
    | true => rfl
    | false =>
      have none := orderly.subscribe ⟨"", ∅⟩ id channel
      rw [subscribeRequest_istate] at none
      rw [none] at state
      cases state
  · intro covered
    constructor
    · intro origin id channel
      rw [subscribeRequest_istate]
      cases state : s.env.channelStates.lookup id with
      | none => rfl
      | some m =>
        have subscribed := covered id (by simp [state])
        rw [channel] at subscribed
        cases subscribed
    · intro origin states found id member
      cases found
      obtain ⟨text, found⟩ := GoMap.mem_iff_lookup.mp member
      rw [GoMap.lookup_mapValues] at found
      have subscribed := covered id (by
        obtain ⟨state, found, -⟩ := Option.map_eq_some_iff.mp found
        simp [found])
      simpa [SubscriptionState.hasChannel, AList.lookup_isSome, disconnectRequest,
        newDisconnectMessage, SubscriptionState.channelIds, AList.mem_keys] using subscribed

theorem rel_isSome {α β : Type} {R : α → β → Prop} {a : Option α} {b : Option β}
    (rel : Option.Rel R a b) : a.isSome = b.isSome := by
  cases rel <;> rfl

theorem entryCovered_of_describes {entry : CacheEntry} (describes : entry.Describes s)
    (covered : Covered s) : EntryCovered entry := by
  intro id state
  rw [rel_isSome (describes.channelsState id)] at state
  rw [rel_isSome (describes.subscriptions id)]
  exact covered id state

theorem Covered.same (covered : Covered s) (env : s'.env = s.env)
    (subscriptions : s'.subscriptions = s.subscriptions) : Covered s' := by
  intro id
  rw [env, subscriptions]
  exact covered id

/-! ### Answers -/

/-- A channel that gets other streams is still there. -/
theorem hasChannel_insert {st : SubscriptionState} {id : String} {streams : GoMap String Unit}
    (found : st.channels.lookup id = some streams) (other : GoMap String Unit) (k : String) :
    SubscriptionState.hasChannel ⟨st.channels.insert id other⟩ k = st.hasChannel k := by
  simp only [SubscriptionState.hasChannel, GoMap.lookup_insert_apply]
  split
  next same => rw [same, found]; rfl
  · rfl

theorem hasChannel_foldl {f : SubscriptionState → String → SubscriptionState}
    (one : ∀ st stream k, (f st stream).hasChannel k = st.hasChannel k) (st : SubscriptionState)
    (streams : List String) (k : String) :
    (streams.foldl f st).hasChannel k = st.hasChannel k := by
  induction streams generalizing st with
  | nil => rfl
  | cons stream streams ih => rw [List.foldl_cons, ih, one]

/-- Streams come and go, the channels stay. -/
theorem hasChannel_replySubscriptions (st : SubscriptionState) (id : String)
    (reply : CommandResult) (k : String) :
    (replySubscriptions st id reply).hasChannel k = st.hasChannel k := by
  have adds : ∀ (st : SubscriptionState) (stream k : String),
      (st.addChannelStream id stream).hasChannel k = st.hasChannel k := by
    intro st stream k
    unfold SubscriptionState.addChannelStream
    split
    · rfl
    next streams found => exact hasChannel_insert found _ k
  have removes : ∀ (st : SubscriptionState) (stream k : String),
      (st.removeChannelStream id stream).hasChannel k = st.hasChannel k := by
    intro st stream k
    unfold SubscriptionState.removeChannelStream
    split
    · rfl
    next streams found => exact hasChannel_insert found _ k
  rw [replySubscriptions, hasChannel_foldl adds, stopSubscriptions]
  split
  · unfold SubscriptionState.removeChannelStreams
    split
    · rfl
    next streams found => exact hasChannel_insert found _ k
  · exact hasChannel_foldl removes _ _ _

/-- An answer adds the state of its channel, at most. -/
theorem isSome_replyEnv (env : SessionEnv) (id : String) (reply : CommandResult) (k : String) :
    ((replyEnv env id reply).channelStates.lookup k).isSome = true ↔
      (env.channelStates.lookup k).isSome = true ∨ k = id ∧ reply.iState.isSome = true := by
  rw [replyEnv_channelStates]
  cases reply.iState with
  | none => simp [mergeReply]
  | some state =>
    simp only [mergeReply, SessionEnv.mergeChannelState, GoMap.lookup_insert_apply,
      Option.isSome_some, and_true]
    by_cases same : k = id <;> simp [same]

/-- An answer for a channel that the session has. -/
theorem covered_reply {st : SubscriptionState} {env : SessionEnv} {id : String}
    (covered : ∀ k, (env.channelStates.lookup k).isSome = true → st.hasChannel k = true)
    (channel : st.hasChannel id = true) (reply : CommandResult)
    (kept : s'.env = replyEnv env id reply)
    (subscriptions : s'.subscriptions = replySubscriptions st id reply) : Covered s' := by
  intro k state
  rw [subscriptions, hasChannel_replySubscriptions]
  rw [kept, isSome_replyEnv] at state
  rcases state with before | ⟨rfl, -⟩
  · exact covered k before
  · exact channel

/-- An answer for a channel that the session does not have. -/
theorem covered_reply_iff {st : SubscriptionState} {env : SessionEnv} {id : String}
    (covered : ∀ k, (env.channelStates.lookup k).isSome = true → st.hasChannel k = true)
    (missing : st.hasChannel id = false) (reply : CommandResult)
    (kept : s'.env = replyEnv env id reply)
    (subscriptions : s'.subscriptions = replySubscriptions st id reply) :
    Covered s' ↔ reply.iState.isSome = false := by
  constructor
  · intro after
    cases state : reply.iState.isSome with
    | false => rfl
    | true =>
      have own := after id (by rw [kept, isSome_replyEnv]; exact .inr ⟨rfl, state⟩)
      rw [subscriptions, hasChannel_replySubscriptions, missing] at own
      cases own
  · intro none k state
    rw [subscriptions, hasChannel_replySubscriptions]
    rw [kept, isSome_replyEnv, none] at state
    exact covered k (state.resolve_right (by simp))

/-! ### Commands -/

theorem subscribe_covered {msg : Message} {answer : Answer CommandResult} {now : Instant}
    {res : Except String CommandResult} (command : msg.command = "subscribe")
    (success : n.subscribe s msg answer now = some (n', s', res)) (covered : Covered s) :
    Covered s' ↔ ¬ Strays s msg answer := by
  obtain ⟨free, ⟨ignored, rfl, held, rfl⟩ | ⟨reply, missing, accepted, answered, handled, replied,
    dirty, turn, finished⟩⟩ := Node.subscribe_cases success
  · refine iff_of_true (covered.same rfl rfl) ?_
    rintro ⟨accepted, reply, -, -, ⟨-, missing, -⟩ | ⟨other, -⟩⟩
    · simp [missing, accepted] at ignored
    · rw [command] at other
      exact absurd other (by decide)
  · have strays : Strays s msg answer ↔
        reply.iState.isSome = true ∧ confirmed answer reply = false := by
      simp [Strays, accepted, answered, command, missing]
    obtain ⟨sameEnv, sameSubscriptions, -⟩ := afterSubscribe_same finished
    rw [strays]
    cases outcome : confirmed answer reply with
    | true =>
      simp only [outcome, if_true] at turn
      obtain ⟨-, -, -, -, -, env, subscriptions, -⟩ :=
        handleCommandReply_session (by exact free) turn
      refine iff_of_true ?_ (by simp)
      refine covered_reply ?_ ?_ reply (sameEnv.trans env) (sameSubscriptions.trans subscriptions)
      · intro k state
        have channel := covered k state
        simp only [SubscriptionState.hasChannel, SubscriptionState.addChannel,
          GoMap.lookup_insert_apply] at channel ⊢
        split
        · rfl
        · exact channel
      · simp [SubscriptionState.hasChannel, SubscriptionState.addChannel]
    | false =>
      simp only [outcome, Bool.false_eq_true, if_false] at turn
      obtain ⟨-, -, -, -, -, env, subscriptions, -⟩ := handleCommandReply_session free turn
      rw [covered_reply_iff covered missing reply (sameEnv.trans env)
        (sameSubscriptions.trans subscriptions)]
      simp

/-- The channel and its state are removed together. -/
theorem covered_remove (covered : Covered s) (id k : String)
    (state : ((s.env.removeChannelState id).channelStates.lookup k).isSome = true) :
    (s.subscriptions.removeChannel id).hasChannel k = true := by
  simp only [SessionEnv.removeChannelState, GoMap.lookup_erase_apply] at state
  simp only [SubscriptionState.hasChannel, SubscriptionState.removeChannel,
    GoMap.lookup_erase_apply]
  split at state
  · cases state
  next other =>
    rw [if_neg other]
    exact covered k state

theorem unsubscribe_covered {msg : Message} {answer : Answer CommandResult} {now : Instant}
    {res : Except String CommandResult} (command : msg.command = "unsubscribe")
    (success : n.unsubscribe s msg answer now = some (n', s', res)) (covered : Covered s) :
    Covered s' ↔ ¬ Strays s msg answer := by
  obtain ⟨free, ⟨ignored, rfl, held, rfl⟩ | ⟨reply, channel, accepted, answered, handled, dirty,
    committed, turn, stored, rfl⟩⟩ := Node.unsubscribe_cases success
  · refine iff_of_true (covered.same rfl rfl) ?_
    rintro ⟨accepted, reply, -, -, ⟨other, -⟩ | ⟨-, channel, -⟩⟩
    · rw [command] at other
      exact absurd other (by decide)
    · simp [channel, accepted] at ignored
  · have strays : Strays s msg answer ↔ reply.iState.isSome = true ∧ answer.err = none := by
      simp [Strays, accepted, answered, command, channel]
    rw [strays]
    cases failed : answer.err with
    | none =>
      simp only [failed, Option.isNone_none, if_true] at turn
      obtain ⟨-, -, -, -, -, env, subscriptions, -⟩ :=
        handleCommandReply_session (by exact free) turn
      rw [covered_reply_iff (covered_remove covered msg.identifier)
        (by simp [SubscriptionState.hasChannel, SubscriptionState.removeChannel])
        { reply with stopAllStreams := true } env subscriptions]
      simp
    | some err =>
      simp only [failed, Option.isNone_some, Bool.false_eq_true, if_false] at turn
      obtain ⟨-, -, -, -, -, env, subscriptions, -⟩ := handleCommandReply_session free turn
      exact iff_of_true (covered_reply covered channel reply env subscriptions) (by simp)

theorem perform_covered {msg : Message} {answer : Answer CommandResult} {now : Instant}
    {res : Except String (Option CommandResult)}
    (success : n.perform s msg answer now = some (n', s', res)) (covered : Covered s) :
    Covered s' := by
  obtain ⟨free, ⟨-, rfl, rfl⟩ | ⟨reply, channel, -, -, -, handled, dirty, turn, stored⟩⟩ :=
    Node.perform_cases success
  · exact covered
  · obtain ⟨-, -, -, -, -, env, subscriptions, -⟩ := handleCommandReply_session free turn
    exact covered_reply covered channel reply env subscriptions

theorem handleCommand_covered {msg : Message} {answer : Answer CommandResult} {now : Instant}
    {res : Except String Unit}
    (success : n.handleCommand s msg answer now = some (n', s', res)) (covered : Covered s) :
    Covered s' ↔ ¬ Strays s msg answer := by
  by_cases subscribe : msg.command = "subscribe"
  · simp only [Node.handleCommand, subscribe] at success
    obtain ⟨⟨after, session, result⟩, done, same⟩ := Option.map_eq_some_iff.mp success
    cases same
    exact subscribe_covered subscribe done covered
  by_cases unsubscribe : msg.command = "unsubscribe"
  · simp only [Node.handleCommand, unsubscribe] at success
    obtain ⟨⟨after, session, result⟩, done, same⟩ := Option.map_eq_some_iff.mp success
    cases same
    exact unsubscribe_covered unsubscribe done covered
  -- no other command can leave a state behind
  refine iff_of_true ?_ ?_
  · by_cases message : msg.command = "message"
    · simp only [Node.handleCommand, message] at success
      obtain ⟨⟨after, session, result⟩, done, same⟩ := Option.map_eq_some_iff.mp success
      cases same
      exact perform_covered done covered
    · obtain ⟨env, subscriptions⟩ := handleCommand_same subscribe unsubscribe message success
      exact covered.same env subscriptions
  · rintro ⟨-, reply, -, -, ⟨command, -⟩ | ⟨command, -⟩⟩
    · exact subscribe command
    · exact unsubscribe command

/-! ### Runs -/

/-- A restored session has what was cached, and no more. -/
theorem restored_covered {ref : SessionRef} {client : Client} {entry : CacheEntry}
    (covered : EntryCovered entry)
    (read : (newSession ref client).restoreFromCache entry = some s) : Covered s := by
  obtain ⟨filled, found, -, -, -, -, -, -, -, states, channels⟩ :=
    restoreFromCache_new ref client entry
  rw [found] at read
  cases read
  intro id state
  rw [states, Option.isSome_map] at state
  rw [SubscriptionState.hasChannel, channels, Option.isSome_map]
  exact covered id state

theorem law : Law Covered EntryCovered where
  same := fun s s' covered env subscriptions => covered.same env subscriptions
  blank := by
    intro s empty _ id state
    rw [empty] at state
    cases state
  stored := fun entry s describes covered => entryCovered_of_describes describes covered
  restored := fun ref client entry s covered read => restored_covered covered read

theorem step_obeyed {a : System.Act} (obeyed : Obeyed Covered EntryCovered x)
    (returned : Returned x a) (stepped : x.step a = some y) : Obeyed Covered EntryCovered y := by
  by_cases command : ∃ ref msg answer now, a = .command ref msg answer now
  · obtain ⟨ref, msg, answer, now, rfl⟩ := command
    obtain ⟨s, n, s', res, found, covered, handled, -, keeps⟩ := law.command obeyed stepped
    exact keeps ((handleCommand_covered handled covered).mpr (returned s found))
  · exact law.other obeyed stepped fun ref msg answer now same =>
      command ⟨ref, msg, answer, now, same⟩

/-- In every run of a node: all requests of all sessions are orderly, all the time, exactly if no
answer to an `Unsubscribe` or to a `Subscribe` that is not confirmed sets a state. -/
theorem states_kept_iff_returned (setup : Setup) (schedule : List System.Act) (final : System)
    (ran : Run.exec System.step setup.start schedule = some final) :
    Run.Always System.step (fun x => ∀ ref s, x.sessions.lookup ref = some s → Orderly s)
        setup.start schedule ↔
      Run.Meets System.step Returned setup.start schedule := by
  refine Run.always_iff_meets
    (fun x a y obeyed returned stepped => step_obeyed obeyed returned stepped) ?_
    (fun x obeyed ref s found => orderly_iff_covered.mpr (obeyed.sessions ref s found))
    (Law.start setup) ran
  intro x a y obeyed stepped orderly
  cases a with
  | command ref msg answer now =>
    intro s found
    obtain ⟨s, n, s', res, before, covered, handled, rfl, -⟩ := law.command obeyed stepped
    rw [before] at found
    cases found
    have after := orderly_iff_covered.mp (orderly ref s' (put_lookup x ref (n, s')))
    exact (handleCommand_covered handled covered).mp after
  | connect | disconnect | disconnectNow | register | deliver | handleBroadcast | handlePubSub
  | expire | shutdown => trivial

/-- A subscription, and an `Unsubscribe` whose answer sets a state. -/
def unsubscribed : List System.Act :=
  [.connect 0 ⟨"sid", "", false⟩ { res := some { status := .success } } 0,
   .command 0 { command := "subscribe", identifier := "chat" }
     { res := some { status := .success } } 0,
   .command 0 { command := "unsubscribe", identifier := "chat" }
     { res := some { status := .success, iState := some (AList.singleton "a" "1") } } 0]

def node : Setup where
  codec := .blank

/-- The channel is gone, and the next `Subscribe` to it carries the state. -/
theorem state_left_behind :
    ∃ final s, Run.exec System.step node.start unsubscribed = some final ∧
      final.sessions.lookup 0 = some s ∧ s.subscriptions.hasChannel "chat" = false ∧
      (subscribeRequest ⟨"", ∅⟩ s "chat").env.istate.bind (·.lookup "a") = some "1" ∧
      ¬ Run.Always System.step (fun x => ∀ ref s, x.sessions.lookup ref = some s → Orderly s)
        node.start unsubscribed := by
  refine ⟨_, _, rfl, rfl, by decide +kernel, by decide +kernel, fun always => ?_⟩
  obtain ⟨-, returned⟩ := (states_kept_iff_returned node unsubscribed _ rfl).mp always
  obtain ⟨-, returned⟩ := returned _ rfl
  obtain ⟨returned, -⟩ := returned _ rfl
  exact returned _ rfl ⟨rfl, _, rfl, rfl, .inr ⟨rfl, by decide +kernel, rfl⟩⟩

end AnyCable.Guarantees.ChannelStates
