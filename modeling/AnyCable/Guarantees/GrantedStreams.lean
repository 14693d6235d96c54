import AnyCable.Guarantees.DirectStreams
import AnyCable.Guarantees.SessionLaws
import AnyCable.Source.GateGains
import AnyCable.Source.Router

/-!
# Streams of routed channels

Source: `router/router.go`, `cli/cli.go:498-517`, `streams/controller.go:36-217`,
`node/node.go:379-584,664-693,751-776,884-1002`. A client reads from the streams that its session is
subscribed to, and whispers to and is present in those that the states of its channels name. For a
channel with a route these come from a streams controller, which gives out a stream only to who may
have it (`DirectStreams`), with one way around: a `Perform` to such a channel goes to the default
controller, whose answers may start any streams and set any states.

In every run of a node, through all restores from the cache, nobody has a stream of a routed channel
that its identifier does not entitle to, exactly if no answer to a `Perform` to a routed channel
brings one (`granted_iff_withheld`). Without RPC there is no such answer (`withheld_null`).
-/

set_option autoImplicit false

namespace AnyCable.Guarantees.GrantedStreams
open AnyCable.Lib AnyCable.Source AnyCable.Source.System
open CacheFreshness DirectStreams LosslessRestore SessionLaws

variable (lib : Streams.Library) (conf : Router.Config)

/-- The controller of a channel. The first route to a channel stands. -/
def builtFor (channel : String) : Option Built :=
  if conf.pubSubChannel ≠ "" ∧ channel = conf.pubSubChannel then some (.streams conf.toConfig)
  else if (conf.turbo ∧ conf.getTurboSecret ≠ "") ∧ channel = "Turbo::StreamsChannel" then
    some (.turbo conf.getTurboSecret)
  else if (conf.cableReady ∧ conf.getCableReadySecret ≠ "") ∧ channel = "CableReady::Stream" then
    some (.cableReady conf.getCableReadySecret)
  else none

/-- The controller that an identifier is routed to. -/
def handlerOf (identifier : String) : Option Built :=
  if Router.extractChannel identifier = "" then none
  else builtFor conf (Router.extractChannel identifier)

/-- The identifier entitles to the stream, or is not routed. -/
def Granted (identifier stream : String) : Prop :=
  ∀ b, handlerOf conf identifier = some b → Authorized lib b identifier stream

/-- The fields of a channel state that name streams. -/
def streamFields : List String := [whisperStreamState, presenceStreamState]

/-- A field of a channel state has the value. -/
def Told (states : GoMap String (GoMap String String)) (id field value : String) : Prop :=
  ∃ state, states.lookup id = some state ∧ state.lookup field = some value

/-- The streams of a session, to read from and to whisper to or be present in. -/
structure SessionGranted (s : Session) : Prop where
  streams : ∀ id st, s.subscriptions.Holds id st → Granted lib conf id st
  states : ∀ id field st, field ∈ streamFields → Told s.env.channelStates id field st →
    Granted lib conf id st

/-- The streams of the gates, which messages are sent by. -/
def GatesGranted (h : Hub) : Prop :=
  ∀ k ref st id, (h.gates k).Has ref st id → Granted lib conf id st

/-- All streams that clients have. -/
structure AllGranted (x : System) : Prop where
  sessions : ∀ ref s, x.sessions.lookup ref = some s → SessionGranted lib conf s
  gates : GatesGranted lib conf x.node.hub

/-- The streams that an answer brings. -/
structure ReplyGranted (id : String) (reply : CommandResult) : Prop where
  streams : ∀ st ∈ reply.streams.getD [], Granted lib conf id st
  states : ∀ state field st, reply.iState = some state → field ∈ streamFields →
    state.lookup field = some st → st ≠ "" → Granted lib conf id st

/-- The controller is asked, or would be. -/
def asks (s : Session) (msg : Message) : Bool :=
  match msg.command, msg.data with
  | "subscribe", _ => !s.subscriptions.hasChannel msg.identifier
  | "unsubscribe", _ => s.subscriptions.hasChannel msg.identifier
  | "message", .text _ => s.subscriptions.hasChannel msg.identifier
  | _, _ => false

/-- The answer that is handled. -/
def taken (s : Session) (msg : Message) (answer : Answer CommandResult) : Option CommandResult :=
  if asks s msg && (Node.refusal answer).isNone then answer.res else none

/-- The controllers are asked through the router; the default one may say anything. -/
def Asked : System.Act → Prop
  | .command _ msg answer _ =>
    ∃ fallback, Router.answer lib (Router.defaultRouter lib conf) msg fallback = some answer
  | _ => True

/-- A `Perform` brings no other streams. -/
def Withheld (x : System) : System.Act → Prop
  | .command ref msg answer _ => msg.command = "message" →
      ∀ s reply, x.sessions.lookup ref = some s → taken s msg answer = some reply →
        ReplyGranted lib conf msg.identifier reply
  | _ => True

variable {lib conf} {n n' : Node} {s s' : Session} {x y : System} {msg : Message}
  {answer : Answer CommandResult}

/-! ### Routes -/

/-- A route counts if there is none before it. -/
theorem lookup_add (routes : Router.Routes) (wanted : Prop) [Decidable wanted]
    (channel k : String) (handler : Streams.Controller) :
    (if wanted then routes.add channel handler else routes).lookup k =
      (routes.lookup k).or (if wanted ∧ k = channel then some handler else none) := by
  by_cases own : wanted ∧ k = channel
  · obtain ⟨wanted, rfl⟩ := own
    rw [if_pos wanted, if_pos ⟨wanted, rfl⟩]
    unfold Router.Routes.add Router.Routes.route
    cases found : routes.lookup k with
    | none => simp
    | some other => simp [found]
  · rw [if_neg own, Option.or_none]
    split
    next wanted =>
      unfold Router.Routes.add Router.Routes.route
      by_cases defined : (routes.lookup channel).isSome = true
      · rw [if_pos defined]
      · rw [if_neg defined]
        simp only [GoMap.lookup_insert_apply, if_neg fun same => own ⟨wanted, same⟩]
    · rfl

theorem lookup_defaultRouter (channel : String) :
    (Router.defaultRouter lib conf).lookup channel =
      (builtFor conf channel).map (·.controller lib) := by
  simp only [Router.defaultRouter, lookup_add, AList.lookup_empty, Option.none_or]
  unfold builtFor
  split
  · rfl
  · split
    · rfl
    · split <;> rfl

/-- What the controller of a channel answers to the three calls. -/
theorem routed_handler {identifier : String} {b : Built}
    (handler : handlerOf conf identifier = some b)
    (call : Streams.Controller → Option (Answer CommandResult)) (fallback : Answer CommandResult) :
    Router.routed (Router.defaultRouter lib conf) identifier call fallback =
      (call (b.controller lib)).map fun answer =>
        if answer.res.isSome || answer.err.isSome then answer else fallback := by
  unfold handlerOf at handler
  split at handler
  · cases handler
  next named =>
    unfold Router.routed
    rw [if_neg named, lookup_defaultRouter, handler]
    rfl

/-- A controller says who may have the stream when it is asked to subscribe, gives nothing when it
is asked to unsubscribe and leaves the rest to the default one. -/
theorem replyGranted_routed {fallback : Answer CommandResult} {reply : CommandResult}
    (asked : Router.answer lib (Router.defaultRouter lib conf) msg fallback = some answer)
    (other : msg.command = "subscribe" ∨ msg.command = "unsubscribe")
    (answered : answer.res = some reply) : ReplyGranted lib conf msg.identifier reply := by
  cases handler : handlerOf conf msg.identifier with
  | none =>
    have any : ∀ st, Granted lib conf msg.identifier st := by
      intro st b found
      cases handler.symm.trans found
    exact ⟨fun st _ => any st, fun _ _ st _ _ _ _ => any st⟩
  | some b =>
    have granted : ∀ st, Authorized lib b msg.identifier st →
        Granted lib conf msg.identifier st := by
      intro st authorized b' found
      cases handler.symm.trans found
      exact authorized
    rcases other with command | command
    · simp only [Router.answer, command, Router.subscribe, routed_handler handler,
        Option.map_eq_some_iff] at asked
      obtain ⟨ans, called, same⟩ := asked
      rcases subscribe_right lib b msg.identifier with ⟨panicked, -⟩ | ⟨ans', returned, -, right⟩
      · cases panicked.symm.trans called
      cases returned.symm.trans called
      rcases right with ⟨name, signed, stream, -, rfl, only⟩ | ⟨err, rfl, -⟩
      · cases same
        cases answered
        have own := granted stream ((only stream).mpr rfl)
        refine ⟨fun st member => ?_, fun state field st state' _ found _ => ?_⟩
        · cases List.mem_singleton.mp member
          exact own
        · have looked := lookup_streamState (requestOf b name signed) stream field
          simp only [Streams.success] at state'
          rw [state', Option.getD_some, found] at looked
          split at looked
          · cases looked
            exact own
          · cases looked
      · cases same
        cases answered
        exact ⟨fun st member => absurd member (by simp [Streams.failure]),
          fun _ _ _ state => by cases state⟩
    · simp only [Router.answer, command, Router.unsubscribe, routed_handler handler,
        Option.map_some] at asked
      cases asked
      cases answered
      exact ⟨fun st member => absurd member (by simp),
        fun _ _ _ state => by cases state⟩

/-! ### Commands -/

/-- The states after an answer. -/
theorem told_replyEnv {env : SessionEnv} {id k field v : String} {reply : CommandResult}
    (told : Told (replyEnv env id reply).channelStates k field v) :
    Told env.channelStates k field v ∨ k = id ∧ ∃ state, reply.iState = some state ∧
      state.lookup field = some v ∧ v ≠ "" := by
  rw [replyEnv_channelStates] at told
  cases set : reply.iState with
  | none =>
    rw [set] at told
    exact .inl told
  | some state =>
    rw [set] at told
    obtain ⟨merged, found, value⟩ := told
    simp only [mergeReply, SessionEnv.mergeChannelState, GoMap.lookup_insert_apply] at found
    split at found
    next same =>
      cases found
      rw [lookup_mergeState] at value
      cases given : state.lookup field with
      | none =>
        rw [given, Option.elim_none] at value
        left
        cases old : env.channelStates.lookup id with
        | none =>
          rw [old] at value
          cases value
        | some before =>
          rw [old] at value
          exact ⟨before, same ▸ old, value⟩
      | some w =>
        rw [given, Option.elim_some] at value
        split at value
        · cases value
        next full =>
          cases value
          exact .inr ⟨same, state, rfl, given, full⟩
    · exact .inl ⟨merged, found, value⟩

theorem told_of_reply {env : SessionEnv} {id field v : String} {reply : CommandResult}
    {state : GoMap String String} (set : reply.iState = some state)
    (given : state.lookup field = some v) (full : v ≠ "") :
    Told (replyEnv env id reply).channelStates id field v := by
  rw [replyEnv_channelStates, set]
  refine ⟨_, AList.lookup_insert _, ?_⟩
  rw [lookup_mergeState, given, Option.elim_some, if_neg full]

theorem mem_acquired {st : String} (member : st ∈ (commandChange s msg answer).acquired) :
    ∃ reply, taken s msg answer = some reply ∧ st ∈ reply.streams.getD [] := by
  unfold commandChange at member
  split at member
  next command =>
    unfold subscribeChange at member
    split at member
    next res missing accepted answered =>
      exact ⟨res, by simp [taken, asks, command, missing, accepted, answered], member⟩
    · cases member
  next command =>
    unfold unsubscribeChange at member
    split at member
    next res channel accepted answered =>
      refine ⟨res, by simp [taken, asks, command, channel, accepted, answered], ?_⟩
      split at member <;> exact member
    · cases member
  next command =>
    unfold performChange at member
    split at member
    next text res channel data accepted answered =>
      exact ⟨res, by simp [taken, asks, command, channel, data, accepted, answered], member⟩
    · cases member
  · cases member

/-- The states after a command. -/
theorem handleCommand_told {now : Instant} {res : Except String Unit} {k field v : String}
    (success : n.handleCommand s msg answer now = some (n', s', res))
    (told : Told s'.env.channelStates k field v) :
    Told s.env.channelStates k field v ∨ k = msg.identifier ∧ ∃ reply state,
      taken s msg answer = some reply ∧ reply.iState = some state ∧
      state.lookup field = some v ∧ v ≠ "" := by
  by_cases subscribe : msg.command = "subscribe"
  · simp only [Node.handleCommand, subscribe] at success
    obtain ⟨⟨after, session, result⟩, done, same⟩ := Option.map_eq_some_iff.mp success
    cases same
    obtain ⟨free, ⟨-, -, held, rfl⟩ | ⟨reply, missing, accepted, answered, handled, replied, dirty,
      turn, finished⟩⟩ := Node.subscribe_cases done
    · exact .inl told
    · obtain ⟨-, -, -, -, -, env, -⟩ := handleCommandReply_session (by split <;> exact free) turn
      rw [(afterSubscribe_same finished).1, env] at told
      rcases told_replyEnv told with before | ⟨own, state, set, given⟩
      · left
        split at before <;> exact before
      · exact .inr ⟨own, reply, state,
          by simp [taken, asks, subscribe, missing, accepted, answered], set, given⟩
  by_cases unsubscribe : msg.command = "unsubscribe"
  · simp only [Node.handleCommand, unsubscribe] at success
    obtain ⟨⟨after, session, result⟩, done, same⟩ := Option.map_eq_some_iff.mp success
    cases same
    obtain ⟨free, ⟨-, -, held, rfl⟩ | ⟨reply, channel, accepted, answered, handled, dirty,
      committed, turn, stored, -⟩⟩ := Node.unsubscribe_cases done
    · exact .inl told
    · obtain ⟨-, -, -, -, -, env, -⟩ := handleCommandReply_session (by split <;> exact free) turn
      rw [env] at told
      rcases told_replyEnv told with before | ⟨own, state, set, given⟩
      · left
        split at before
        · obtain ⟨state, found, value⟩ := before
          simp only [SessionEnv.removeChannelState, GoMap.lookup_erase_apply] at found
          split at found
          · cases found
          · exact ⟨state, found, value⟩
        · exact before
      · refine .inr ⟨own, reply, state,
          by simp [taken, asks, unsubscribe, channel, accepted, answered], ?_, given⟩
        split at set <;> exact set
  by_cases message : msg.command = "message"
  · simp only [Node.handleCommand, message] at success
    obtain ⟨⟨after, session, result⟩, done, same⟩ := Option.map_eq_some_iff.mp success
    cases same
    obtain ⟨free, ⟨-, -, rfl⟩ | ⟨reply, channel, ⟨text, data⟩, accepted, answered, handled, dirty,
      turn, stored⟩⟩ := Node.perform_cases done
    · exact .inl told
    · obtain ⟨-, -, -, -, -, env, -⟩ := handleCommandReply_session free turn
      rw [env] at told
      rcases told_replyEnv told with before | ⟨own, state, set, given⟩
      · exact .inl before
      · exact .inr ⟨own, reply, state,
          by simp [taken, asks, message, channel, data, accepted, answered], set, given⟩
  · rw [(handleCommand_same subscribe unsubscribe message success).1] at told
    exact .inl told

theorem handleCommand_granted {now : Instant} {res : Except String Unit}
    (success : n.handleCommand s msg answer now = some (n', s', res))
    (granted : SessionGranted lib conf s)
    (replies : ∀ reply, taken s msg answer = some reply →
      ReplyGranted lib conf msg.identifier reply) : SessionGranted lib conf s' where
  streams := by
    intro id st holds
    rcases ((Node.handleCommand_turn success).holds id st).mp holds with
      ⟨rfl, acquired, -⟩ | ⟨before, -⟩
    · obtain ⟨reply, handled, member⟩ := mem_acquired acquired
      exact (replies reply handled).streams st member
    · exact granted.streams id st before
  states := by
    intro id field st listed told
    rcases handleCommand_told success told with
      before | ⟨rfl, reply, state, handled, set, given, full⟩
    · exact granted.states id field st listed before
    · exact (replies reply handled).states state field st set listed given full

theorem taken_ignored (command : msg.command = "message")
    (ignored : s.subscriptions.hasChannel msg.identifier = false ∨
      (∀ text, msg.data ≠ .text text) ∨ (Node.refusal answer).isSome = true ∨ answer.res = none) :
    taken s msg answer = none := by
  unfold taken
  rcases ignored with missing | other | refused | nothing
  · simp only [asks, command, missing]
    cases msg.data <;> rfl
  · have unasked : asks s msg = false := by
      simp only [asks, command]
      split
      · contradiction
      · contradiction
      next text _ data => exact absurd data (other text)
      · rfl
    rw [unasked]
    rfl
  · simp [Option.isSome_iff_ne_none.mp refused]
  · simp [nothing]

/-- The session shows what the answer to a `Perform` brought. -/
theorem replyGranted_of_session {now : Instant} {res : Except String Unit} {reply : CommandResult}
    (success : n.handleCommand s msg answer now = some (n', s', res))
    (command : msg.command = "message") (handled : taken s msg answer = some reply)
    (granted : SessionGranted lib conf s') : ReplyGranted lib conf msg.identifier reply := by
  have turn := Node.handleCommand_turn success
  simp only [Node.handleCommand, command] at success
  obtain ⟨⟨after, session, result⟩, done, same⟩ := Option.map_eq_some_iff.mp success
  cases same
  obtain ⟨free, ⟨ignored, -, -⟩ | ⟨reply', channel, ⟨text, data⟩, accepted, answered, node, dirty,
    replied, stored⟩⟩ := Node.perform_cases done
  · -- an answer that is handled is not ignored
    exact absurd handled (by rw [taken_ignored command ignored]; simp)
  · have same : reply' = reply := by
      simpa [taken, asks, command, channel, data, accepted, answered] using handled
    subst same
    obtain ⟨-, -, -, -, -, env, -⟩ := handleCommandReply_session free replied
    constructor
    · intro st member
      refine granted.streams _ st ((turn.holds _ st).mpr (.inl ⟨rfl, ?_, ?_⟩))
      · simpa [commandChange, command, performChange, channel, data, accepted, answered,
          replyChange] using member
      · simp [commandChange, command, performChange, channel, data, accepted, answered,
          replyChange]
    · intro state field st set listed given full
      refine granted.states _ field st listed ?_
      rw [env]
      exact told_of_reply set given full

/-! ### Runs -/

/-- The streams of a cached session. -/
structure EntryGranted (lib : Streams.Library) (conf : Router.Config) (entry : CacheEntry) :
    Prop where
  streams : ∀ id listed st, entry.subscriptions.lookup id = some listed → st ∈ listed →
    Granted lib conf id st
  states : ∀ id field st, field ∈ streamFields → Told entry.channelsState id field st →
    Granted lib conf id st

theorem entryGranted_of_describes {entry : CacheEntry} (describes : entry.Describes s)
    (granted : SessionGranted lib conf s) : EntryGranted lib conf entry where
  streams := by
    intro id listed st found member
    refine granted.streams id st ((SubscriptionState.holds_iff).mpr ?_)
    have rel := describes.subscriptions id
    rw [found] at rel
    generalize s.subscriptions.channels.lookup id = streams at rel ⊢
    cases rel with
    | some perm => exact ⟨_, rfl, AList.mem_keys.mpr (perm.mem_iff.mp member)⟩
  states := by
    rintro id field st listed ⟨state, found, value⟩
    refine granted.states id field st listed ?_
    have rel := describes.channelsState id
    rw [found] at rel
    cases held : s.env.channelStates.lookup id with
    | none =>
      rw [held] at rel
      cases rel
    | some other =>
      rw [held] at rel
      cases rel with
      | some same => exact ⟨other, held, (same field).symm.trans value⟩

theorem restored_granted {ref : SessionRef} {client : Client} {entry : CacheEntry}
    (granted : EntryGranted lib conf entry)
    (read : (newSession ref client).restoreFromCache entry = some s) :
    SessionGranted lib conf s := by
  obtain ⟨filled, found, -, -, -, -, -, -, -, states, channels⟩ :=
    restoreFromCache_new ref client entry
  rw [found] at read
  cases read
  constructor
  · intro id st holds
    obtain ⟨streams, set, member⟩ := SubscriptionState.holds_iff.mp holds
    rw [channels] at set
    obtain ⟨listed, cached, rfl⟩ := Option.map_eq_some_iff.mp set
    exact granted.streams id listed st cached (mem_streamSet.mp member)
  · rintro id field st listed ⟨state, set, value⟩
    rw [states] at set
    obtain ⟨cached, found, rfl⟩ := Option.map_eq_some_iff.mp set
    refine granted.states id field st listed ⟨cached, found, ?_⟩
    rw [lookup_mergeState] at value
    cases given : cached.lookup field with
    | none =>
      rw [given] at value
      cases value
    | some w =>
      rw [given, Option.elim_some] at value
      split at value
      · cases value
      · exact value

theorem law : Law (SessionGranted lib conf) (EntryGranted lib conf) where
  same := by
    intro s s' granted env subscriptions
    constructor
    · rw [subscriptions]
      exact granted.streams
    · rw [env]
      exact granted.states
  blank := by
    intro s empty none
    constructor
    · intro id st holds
      rw [none] at holds
      obtain ⟨streams, set, -⟩ := SubscriptionState.holds_iff.mp holds
      cases set
    · rintro id field st - ⟨state, set, -⟩
      rw [empty] at set
      cases set
  stored := fun entry s describes granted => entryGranted_of_describes describes granted
  restored := fun ref client entry s granted read => restored_granted granted read

theorem GatesGranted.gains {h h' : Hub} {more : String → String → Prop}
    (granted : GatesGranted lib conf h) (gains : h.Gains more h')
    (new : ∀ id st, more id st → Granted lib conf id st) : GatesGranted lib conf h' := by
  intro k ref st id has
  rcases gains k ref st id has with before | more
  · exact granted k ref st id before
  · exact new id st more

/-- The state between two steps. -/
structure Inv (lib : Streams.Library) (conf : Router.Config) (x : System) : Prop where
  obeyed : Obeyed (SessionGranted lib conf) (EntryGranted lib conf) x
  gates : GatesGranted lib conf x.node.hub

theorem inv_start (setup : Setup) : Inv lib conf setup.start where
  obeyed := Law.start setup
  gates := by
    intro k ref st id has
    simp [Setup.start, Gate.Has] at has

theorem step_gates_other {a : System.Act} (stepped : x.step a = some y)
    (other : ∀ ref msg answer now, a ≠ .command ref msg answer now)
    (gates : GatesGranted lib conf x.node.hub)
    (sessions : ∀ ref s, y.sessions.lookup ref = some s → SessionGranted lib conf s) :
    GatesGranted lib conf y.node.hub := by
  have lost : ∀ {h : Hub}, x.node.hub.Gains (fun _ _ => False) h → GatesGranted lib conf h :=
    fun gains => gates.gains gains fun _ _ impossible => impossible.elim
  cases a with
  | connect ref client answer now =>
    simp only [System.step] at stepped
    split at stepped
    · obtain ⟨⟨n, s, res⟩, opened, stepped⟩ := Option.bind_eq_some_iff.mp stepped
      cases stepped
      rw [serve_sessions] at sessions
      rw [serve_node]
      exact gates.gains (Node.authenticate_gains opened)
        (sessions ref s (put_lookup x ref (n, s))).streams
    · cases stepped
  | command ref msg answer now => exact absurd rfl (other ref msg answer now)
  | disconnect ref reason code now =>
    obtain ⟨before, found, stepped⟩ := Option.bind_eq_some_iff.mp stepped
    cases stepped
    exact lost (Node.sessionDisconnect_gains _ _ _)
  | disconnectNow ref now =>
    obtain ⟨before, found, stepped⟩ := Option.bind_eq_some_iff.mp stepped
    cases stepped
    exact lost (Node.sessionDisconnectNow_gains _)
  | register =>
    simp only [System.step] at stepped
    split at stepped
    · cases stepped
    · obtain ⟨s, found, stepped⟩ := Option.bind_eq_some_iff.mp stepped
      cases stepped
      exact lost (.of_gates rfl)
    next ref rest _ =>
      obtain ⟨s, found, stepped⟩ := Option.bind_eq_some_iff.mp stepped
      cases stepped
      have taken : x.node.hub.Gains (fun _ _ => False) { x.node.hub with register := rest } :=
        .of_gates rfl
      exact lost (taken.trans Hub.gains_removeSession)
  | deliver =>
    simp only [System.step] at stepped
    split at stepped
    · cases stepped
    · cases stepped
      exact lost (.of_gates rfl)
  | handleBroadcast msg now =>
    obtain ⟨broker, told, stepped⟩ := Option.bind_eq_some_iff.mp stepped
    cases stepped
    exact lost (.of_gates rfl)
  | handlePubSub | expire | shutdown =>
    cases stepped
    exact lost (.of_gates rfl)

/-- An answer that is handled came from the controller of the channel, or is one to a `Perform`. -/
theorem replies_granted {ref : SessionRef} {now : Instant}
    (asked : Asked lib conf (.command ref msg answer now))
    (withheld : Withheld lib conf x (.command ref msg answer now))
    (found : x.sessions.lookup ref = some s) :
    ∀ reply, taken s msg answer = some reply → ReplyGranted lib conf msg.identifier reply := by
  intro reply handled
  by_cases message : msg.command = "message"
  · exact withheld message s reply found handled
  · obtain ⟨fallback, asked⟩ := asked
    simp only [taken, Option.ite_none_right_eq_some, Bool.and_eq_true] at handled
    obtain ⟨⟨asks, -⟩, answered⟩ := handled
    refine replyGranted_routed asked ?_ answered
    unfold GrantedStreams.asks at asks
    split at asks
    next command => exact .inl command
    next command => exact .inr command
    next command _ => exact absurd command message
    · cases asks

theorem step_inv {a : System.Act} (inv : Inv lib conf x) (asked : Asked lib conf a)
    (withheld : Withheld lib conf x a) (stepped : x.step a = some y) : Inv lib conf y := by
  by_cases command : ∃ ref msg answer now, a = .command ref msg answer now
  · obtain ⟨ref, msg, answer, now, rfl⟩ := command
    obtain ⟨s, n, s', res, found, granted, handled, rfl, keeps⟩ := law.command inv.obeyed stepped
    have replies := replies_granted asked withheld found
    refine ⟨keeps (handleCommand_granted handled granted replies),
      inv.gates.gains (Node.handleCommand_gains handled) ?_⟩
    rintro id st ⟨rfl, acquired⟩
    obtain ⟨reply, handled, member⟩ := mem_acquired acquired
    exact (replies reply handled).streams st member
  · have other : ∀ ref msg answer now, a ≠ .command ref msg answer now :=
      fun ref msg answer now same => command ⟨ref, msg, answer, now, same⟩
    have obeyed := law.other inv.obeyed stepped other
    exact ⟨obeyed, step_gates_other stepped other inv.gates obeyed.sessions⟩

/-- In every run of a node with a channels router, all streams of routed channels that clients have
are granted by their identifiers, all the time, exactly if no answer to a `Perform` brings another
one. -/
theorem granted_iff_withheld (lib : Streams.Library) (conf : Router.Config) (setup : Setup)
    (schedule : List System.Act) (final : System)
    (asked : ∀ a ∈ schedule, Asked lib conf a)
    (ran : Run.exec System.step setup.start schedule = some final) :
    Run.Always System.step (AllGranted lib conf) setup.start schedule ↔
      Run.Meets System.step (Withheld lib conf) setup.start schedule := by
  have within : Run.Meets System.step (fun _ a => Asked lib conf a) setup.start schedule :=
    (Run.meets_label_iff ran).mpr asked
  refine Run.always_iff_meets_within
    (fun x a y inv asked withheld stepped => step_inv inv asked withheld stepped) ?_
    (fun x inv => ⟨inv.obeyed.sessions, inv.gates⟩) (inv_start setup) within ran
  intro x a y inv _ stepped all
  cases a with
  | command ref msg answer now =>
    intro command s reply found handled
    obtain ⟨s, n, s', res, before, -, success, rfl, -⟩ := law.command inv.obeyed stepped
    rw [before] at found
    cases found
    exact replyGranted_of_session success command handled
      (all.sessions ref s' (put_lookup x ref (n, s')))
  | connect | disconnect | disconnectNow | register | deliver | handleBroadcast | handlePubSub
  | expire | shutdown => trivial

/-- The default controller is a `NullController`. -/
def AskedNull (lib : Streams.Library) (conf : Router.Config) : System.Act → Prop
  | .command _ msg answer _ =>
    Router.answer lib (Router.defaultRouter lib conf) msg (Router.nullAnswer msg) = some answer
  | _ => True

/-- It does not answer a `Perform`. -/
theorem withheld_null {a : System.Act} (asked : AskedNull lib conf a) : Withheld lib conf x a := by
  cases a with
  | command ref msg answer now =>
    intro command s reply found handled
    have unanswered : answer.res = none := by
      simp only [AskedNull, Router.answer, command, Router.perform, Router.routed,
        Router.nullAnswer, Router.streamsPerform] at asked
      split at asked
      · cases asked
        rfl
      · split at asked
        · cases asked
          rfl
        · cases asked
          rfl
    rw [taken_ignored command (.inr (.inr (.inr unanswered)))] at handled
    cases handled
  | connect | disconnect | disconnectNow | register | deliver | handleBroadcast | handlePubSub
  | expire | shutdown => trivial

/-- A node without RPC gives out no streams that it should not. -/
theorem granted_without_rpc (lib : Streams.Library) (conf : Router.Config) (setup : Setup)
    (schedule : List System.Act) (final : System) (asked : ∀ a ∈ schedule, AskedNull lib conf a)
    (ran : Run.exec System.step setup.start schedule = some final) :
    AllGranted lib conf final := by
  have inv : Inv lib conf final := by
    refine Run.invariant_of_meets ?_ (inv_start setup) ((Run.meets_label_iff ran).mpr asked) ran
    intro x a y inv null stepped
    refine step_inv inv ?_ (withheld_null null) stepped
    cases a with
    | command ref msg answer now => exact ⟨_, null⟩
    | connect | disconnect | disconnectNow | register | deliver | handleBroadcast | handlePubSub
    | expire | shutdown => trivial
  exact ⟨inv.obeyed.sessions, inv.gates⟩

/-- Everybody may have the streams they name. -/
def publicConf : Router.Config where
  isPublic := true

def publicNode : Setup where
  codec := .blank

def publicChat : String :=
  "\x7b\"channel\":\"$pubsub\",\"stream_name\":\"chat\"\x7d"

/-- A subscription to a public stream. -/
def subscribed : List System.Act :=
  [.connect 0 ⟨"sid", "", false⟩ { res := some { status := .success } } 0,
   .command 0 { command := "subscribe", identifier := publicChat }
     { res := some (Streams.success publicChat
         (requestOf (.streams publicConf.toConfig) "chat" "") "chat") } 0]

/-- And a `Perform` that the RPC server answers. -/
def performed : List System.Act := subscribed ++
  [.command 0 { command := "message", identifier := publicChat, data := .text "" }
     { res := some { status := .success, streams := some ["secret"] } } 0]

theorem publicChat_handler :
    handlerOf publicConf publicChat = some (.streams publicConf.toConfig) := by
  have channel : Router.extractChannel publicChat = "$pubsub" := by decide +kernel
  rw [handlerOf, channel]
  rfl

theorem publicChat_names :
    (Built.streams publicConf.toConfig).names publicChat = some ("chat", "") := by
  decide +kernel

/-- The default controller is not asked. -/
theorem publicChat_answer (fallback : Answer CommandResult) :
    Router.answer plainLibrary (Router.defaultRouter plainLibrary publicConf)
        { command := "subscribe", identifier := publicChat } fallback =
      some { res := some (Streams.success publicChat
        (requestOf (.streams publicConf.toConfig) "chat" "") "chat") } := by
  have resolved := resolver_some plainLibrary publicChat_names
  rw [if_neg (by decide)] at resolved
  have answered : Streams.subscribe plainLibrary
      ((Built.streams publicConf.toConfig).controller plainLibrary) publicChat =
        some ⟨some (Streams.success publicChat
          (requestOf (.streams publicConf.toConfig) "chat" "") "chat"), none⟩ := by
    simp [Streams.subscribe, resolved, Streams.SubscribeRequest.isPresent, requestOf]
  simp only [Router.answer, Router.subscribe, routed_handler publicChat_handler, answered,
    Option.map_some, Option.isSome_some, Bool.true_or, if_true]

theorem granted_without_rpc_public :
    ∃ final s, Run.exec System.step publicNode.start subscribed = some final ∧
      final.sessions.lookup 0 = some s ∧ s.subscriptions.Holds publicChat "chat" ∧
      AllGranted plainLibrary publicConf final := by
  refine ⟨_, _, rfl, rfl, by decide +kernel, ?_⟩
  refine granted_without_rpc plainLibrary publicConf publicNode subscribed _ ?_ rfl
  intro a member
  simp only [subscribed, List.mem_cons, List.not_mem_nil, or_false] at member
  rcases member with rfl | rfl
  · trivial
  · exact publicChat_answer _

theorem performed_asked : ∀ a ∈ performed, Asked plainLibrary publicConf a := by
  intro a member
  simp only [performed, subscribed, List.cons_append, List.nil_append, List.mem_cons,
    List.not_mem_nil, or_false] at member
  rcases member with rfl | rfl | rfl
  · trivial
  · exact ⟨{ res := none }, publicChat_answer _⟩
  · refine ⟨{ res := some { status := .success, streams := some ["secret"] } }, ?_⟩
    simp only [Router.answer, Router.perform, routed_handler publicChat_handler,
      Router.streamsPerform, Option.map_some, Option.isSome_none, Bool.or_false,
      Bool.false_eq_true, if_false]

/-- The session reads from a stream that its identifier does not name. -/
theorem secret_performed :
    ∃ final s, Run.exec System.step publicNode.start performed = some final ∧
      final.sessions.lookup 0 = some s ∧ s.subscriptions.Holds publicChat "secret" ∧
      ¬ Run.Always System.step (AllGranted plainLibrary publicConf) publicNode.start performed := by
  refine ⟨_, _, rfl, rfl, by decide +kernel, fun always => ?_⟩
  obtain ⟨-, withheld⟩ := (granted_iff_withheld plainLibrary publicConf _ performed _
    performed_asked rfl).mp always
  obtain ⟨-, withheld⟩ := withheld _ rfl
  obtain ⟨withheld, -⟩ := withheld _ rfl
  have granted := (withheld rfl _ _ rfl rfl).streams "secret" (by simp)
  obtain ⟨name, signed, names, entitled⟩ := granted _ publicChat_handler
  rw [publicChat_names] at names
  cases names
  rcases entitled with ⟨-, other, -⟩ | ⟨unnamed, -⟩
  · exact absurd other (by decide)
  · exact absurd unnamed (by decide)

end AnyCable.Guarantees.GrantedStreams
