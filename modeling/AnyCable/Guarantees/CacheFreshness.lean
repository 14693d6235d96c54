import AnyCable.Lib.Run
import AnyCable.Source.SessionCache
import AnyCable.Source.SystemSteps

/-!
# The cache follows the session

A resumable session is stored again by `Authenticate`, by a confirmed `Subscribe`, by every
`Unsubscribe` and by a `Perform` whose reply is reported to have changed something
(`node/node.go:327-584`). `Fresh` says that what is stored is what the session is. The commands
of one session run one after the other, with any answers.

A `Subscribe` that the controller answers but does not confirm goes through the same reply
handler, which merges the states it carries, and stores nothing (`node/node.go:437-492`), so
the cache keeps the old states (`rejected_state_lost`). Every other command leaves the cache
fresh: it is fresh all along a run if and only if no such `Subscribe` changes a state or the
disconnect flag (`fresh_iff_unaltered`).
-/

set_option autoImplicit false

namespace AnyCable.Guarantees.CacheFreshness
open AnyCable.Lib AnyCable.Source AnyCable.Source.System

structure State where
  node : Node
  session : Session

inductive Act where
  | authenticate (res : ConnectResult) (disconnectOnFailure : Bool) (now : Instant)
  | subscribe (msg : Message) (answer : Answer CommandResult) (now : Instant)
  | unsubscribe (msg : Message) (answer : Answer CommandResult) (now : Instant)
  | perform (msg : Message) (answer : Answer CommandResult) (now : Instant)

def step (x : State) : Act → Option State
  | .authenticate res disconnectOnFailure now =>
    (x.node.authenticate x.session { res := some res } disconnectOnFailure now).map
      fun r => ⟨r.1, r.2.1⟩
  | .subscribe msg answer now =>
    (x.node.subscribe x.session msg answer now).map fun r => ⟨r.1, r.2.1⟩
  | .unsubscribe msg answer now =>
    (x.node.unsubscribe x.session msg answer now).map fun r => ⟨r.1, r.2.1⟩
  | .perform msg answer now =>
    (x.node.perform x.session msg answer now).map fun r => ⟨r.1, r.2.1⟩

/-- The property of one state: `RestoreSession` returns the session as it is. -/
def Fresh (x : State) : Prop :=
  ∃ entry, x.node.broker.restoreSession x.session.uid = some entry ∧ entry.Describes x.session

/-- The reply that a `Subscribe` handles without being confirmed. -/
def unconfirmed (s : Session) (msg : Message) (answer : Answer CommandResult) :
    Option CommandResult :=
  if s.subscriptions.hasChannel msg.identifier = false ∧ Node.refusal answer = none then
    answer.res.filter fun reply => !confirmed answer reply
  else none

/-- The reply changes neither a state nor the disconnect flag. -/
structure Unaltered (n : Node) (s : Session) (id : String) (reply : CommandResult) : Prop where
  connectionState : SameState (replyEnv s.env id reply).connectionState s.env.connectionState
  channelStates : SameStates (replyEnv s.env id reply).channelStates s.env.channelStates
  disconnectable : (n.markDisconnectable s reply.disconnectInterest).disconnectInterest =
    s.disconnectInterest

instance (n : Node) (s : Session) (id : String) (reply : CommandResult) :
    Decidable (Unaltered n s id reply) :=
  decidable_of_iff (_ ∧ _ ∧ _) ⟨fun h => ⟨h.1, h.2.1, h.2.2⟩, fun h => ⟨h.1, h.2, h.3⟩⟩

/-- The condition on a step. -/
def Unchanging (x : State) : Act → Prop
  | .subscribe msg answer _ => ∀ reply ∈ unconfirmed x.session msg answer,
      Unaltered x.node x.session msg.identifier reply
  | _ => True

instance (x : State) : (a : Act) → Decidable (Unchanging x a)
  | .subscribe msg answer _ => inferInstanceAs (Decidable (∀ reply ∈
      unconfirmed x.session msg answer, Unaltered x.node x.session msg.identifier reply))
  | .authenticate .. | .unsubscribe .. | .perform .. => isTrue trivial

structure Inv (x : State) : Prop where
  resumable : x.session.resumable = true
  memory : x.node.broker.memory.isSome = true
  fresh : Fresh x

variable {n n' n'' : Node} {s s' s'' : Session} {x y : State}

/-- Without a commit the cache stays fresh for sessions that are alike, and for no others. -/
theorem fresh_iff_alike (fresh : Fresh ⟨n, s⟩) (s' : Session) (keeps : n.broker.Keeps n'.broker)
    (uid : s'.uid = s.uid) : Fresh ⟨n', s'⟩ ↔ s.Alike s' := by
  obtain ⟨entry, found, describes⟩ := fresh
  dsimp only at found
  unfold Fresh
  dsimp only
  rw [keeps.cached, uid, found]
  simp only [Option.some.injEq, exists_eq_left']
  exact describes.alike_iff

/-- Nothing happens between a commit and the end that the cache would have to know. -/
theorem inv_of_commit (resumable : s.resumable = true)
    (memory : n.broker.memory.isSome = true) (stored : n.commit s = some n')
    (keeps : n'.broker.Keeps n''.broker) (uid : s''.uid = s.uid)
    (stays : s''.resumable = s.resumable) (alike : s.Alike s'') : Inv ⟨n'', s''⟩ := by
  obtain ⟨kind, entry, found, describes⟩ := Node.commit_stores resumable memory stored
  exact ⟨stays.trans resumable, keeps.kind.trans kind,
    (fresh_iff_alike ⟨entry, found, describes⟩ s'' keeps uid).mpr alike⟩

theorem alike_of_eq (env : s'.env = s.env) (subscriptions : s'.subscriptions = s.subscriptions)
    (interest : s'.disconnectInterest = s.disconnectInterest) : s.Alike s' where
  identifiers := by rw [env]
  channels := by
    rw [subscriptions]
    exact fun _ => GoMap.rel_refl (fun _ _ => Iff.rfl) _
  connectionState := by
    rw [env]
    exact SameState.refl _
  channelStates := by
    rw [env]
    exact fun _ => GoMap.rel_refl SameState.refl _
  disconnectable := interest

/-- The lock is no part of what is stored. -/
theorem Inv.hold (inv : Inv ⟨n, s⟩) (held : Bool) : Inv ⟨n, { s with smu := held }⟩ :=
  ⟨inv.resumable, inv.memory, (fresh_iff_alike inv.fresh { s with smu := held } .refl rfl).mpr
    (alike_of_eq rfl rfl rfl)⟩

section Reply

theorem sessionDisconnect_mode (reason : String) (code : Nat) (now : Instant) :
    (n.sessionDisconnect s reason code now).1.disconnectMode = n.disconnectMode := by
  unfold Node.sessionDisconnect Node.disconnectFromNode Node.disconnect
  dsimp only
  split
  · split <;> split <;> rfl
  · rfl

theorem markDisconnectable_congr (mode : n'.disconnectMode = n.disconnectMode)
    (flag : s'.disconnectInterest = s.disconnectInterest) (interest : Int) :
    n'.markDisconnectable s' interest = { s' with
      disconnectInterest := (n.markDisconnectable s interest).disconnectInterest } := by
  unfold Node.markDisconnectable
  rw [mode]
  split
  · simp only [Session.markDisconnectable, flag]
  · simp only [Session.markDisconnectable, flag]
  · simp only [Session.markDisconnectable, flag]
  · rw [← flag]

/-- What the cache could notice of a reply. -/
theorem handleCommandReply_session {msg : Message} {reply : CommandResult} {now : Instant}
    {dirty : Bool} (free : s.smu = false)
    (success : n.handleCommandReply s msg reply now = some (n', s', dirty)) :
    n.broker.Keeps n'.broker ∧ n'.disconnectMode = n.disconnectMode ∧
      dirty = replyDirty s.subscriptions msg.identifier reply ∧ s'.uid = s.uid ∧
      s'.resumable = s.resumable ∧ s'.env = replyEnv s.env msg.identifier reply ∧
      s'.subscriptions = replySubscriptions s.subscriptions msg.identifier reply ∧
      s'.disconnectInterest = s.disconnectInterest := by
  obtain ⟨broker, sent, keeps, flag, after, session, handled, rfl, result⟩ :=
    Node.handleCommandReply_cases free success
  have kept : n.broker.Keeps after.broker := by
    rw [handled]
    exact keeps
  have mode : after.disconnectMode = n.disconnectMode := by rw [handled]
  split at result
  · obtain ⟨rfl, rfl⟩ := Prod.ext_iff.mp result
    exact ⟨kept.trans (Node.sessionDisconnect_still _ _ _).toKeeps,
      (sessionDisconnect_mode _ _ _).trans mode, flag, rfl, rfl, rfl, rfl, rfl⟩
  · cases result
    exact ⟨kept, mode, flag, rfl, rfl, rfl, rfl, rfl⟩

/-- A channel that is not there gets no streams. -/
theorem replySubscriptions_missing {st : SubscriptionState} {id : String}
    (missing : st.hasChannel id = false) (reply : CommandResult) :
    replySubscriptions st id reply = st := by
  have absent : st.channels.lookup id = none := by simpa [SubscriptionState.hasChannel] using missing
  have stops : ∀ streams : List String,
      streams.foldl (fun st stream => st.removeChannelStream id stream) st = st := by
    intro streams
    induction streams with
    | nil => rfl
    | cons stream streams ih =>
      simpa [SubscriptionState.removeChannelStream, absent] using ih
  have starts : ∀ streams : List String,
      streams.foldl (fun st stream => st.addChannelStream id stream) st = st := by
    intro streams
    induction streams with
    | nil => rfl
    | cons stream streams ih =>
      simpa [SubscriptionState.addChannelStream, absent] using ih
  have stopped : stopSubscriptions st id reply = st := by
    unfold stopSubscriptions
    split
    · simp [SubscriptionState.removeChannelStreams, absent]
    · exact stops _
  rw [replySubscriptions, stopped, starts]

/-- A reply that is not dirty leaves every channel with the streams it had. -/
theorem replySubscriptions_clean {st : SubscriptionState} {id : String} {reply : CommandResult}
    (clean : replyDirty st id reply = false) (other : String) :
    Option.Rel (fun a b => ∀ stream, stream ∈ a ↔ stream ∈ b)
      ((replySubscriptions st id reply).channels.lookup other) (st.channels.lookup other) := by
  have same := GoMap.rel_refl (R := fun a b : GoMap String Unit => ∀ stream, stream ∈ a ↔ stream ∈ b)
    (fun _ _ => Iff.rfl) (st.channels.lookup other)
  simp only [replyDirty, Bool.or_eq_false_iff, Option.isSome_eq_false_iff, Option.isNone_iff_eq_none]
    at clean
  obtain ⟨⟨⟨stopped, streams⟩, -⟩, -⟩ := clean
  rw [replySubscriptions, streams]
  unfold stopDirty at stopped
  unfold stopSubscriptions
  split
  next all =>
    simp only [all, if_true, Bool.not_eq_false', List.isEmpty_iff] at stopped
    unfold SubscriptionState.removeChannelStreams
    split
    · exact same
    next held found =>
      -- the channel is emptied, but it was empty
      have empty : ∀ stream, stream ∉ held := by
        intro stream member
        simp only [SubscriptionState.streamsFor, found] at stopped
        rw [AList.mem_keys, stopped] at member
        cases member
      simp only [Option.getD_none, List.foldl_nil, GoMap.lookup_insert_apply]
      split
      next own =>
        rw [own, found]
        exact .some fun stream => by simp [empty]
      · exact same
  next listed =>
    simp only [listed, Bool.false_eq_true, if_false, Option.isSome_eq_false_iff,
      Option.isNone_iff_eq_none] at stopped
    simpa [stopped] using same

theorem replyEnv_clean {st : SubscriptionState} {id : String} {reply : CommandResult}
    (clean : replyDirty st id reply = false) (env : SessionEnv) : replyEnv env id reply = env := by
  simp only [replyDirty, Bool.or_eq_false_iff, Option.isSome_eq_false_iff, Option.isNone_iff_eq_none]
    at clean
  obtain ⟨⟨-, iState⟩, cState⟩ := clean
  simp [replyEnv, mergeReply, iState, cState]

end Reply

section Commands

theorem restored_inv {entry : CacheEntry} {filled : Session} {sent : List Outgoing}
    (resumable : s.resumable = true) (memory : n.broker.memory.isSome = true)
    (read : s.restoreFromCache entry = some filled)
    (stored : (filled.subscriptions.pairs.foldl (Node.resubscribe { filled with connected := true })
      { n with hub := n.hub.addSession filled.toHub }).commit
        { filled with connected := true, sent := sent } = some n') :
    Inv ⟨n', { filled with connected := true, sent := sent }⟩ := by
  have stays := (Session.restoreFromCache_frame read).2.1
  refine inv_of_commit (by exact stays.trans resumable) ?_ stored .refl rfl rfl
    (alike_of_eq rfl rfl rfl)
  rw [Node.resubscribeEach_broker, Broker.subscribeEach_memory]
  exact memory

theorem authenticate_inv {res : ConnectResult} {disconnectOnFailure : Bool} {now : Instant}
    {result : Except String ConnectResult} (resumable : s.resumable = true)
    (memory : n.broker.memory.isSome = true)
    (success : n.authenticate s { res := some res } disconnectOnFailure now =
      some (n', s', result)) : Inv ⟨n', s'⟩ := by
  rcases Node.authenticate_cases success with
    success | ⟨entry, filled, sent, -, read, rfl, restored⟩
  · simp only [Node.authenticateAnswer, Option.bind_eq_bind, Option.bind_eq_some_iff] at success
    obtain ⟨reply, answered, ⟨called, replied, dirty⟩, call, committed, stored, success⟩ := success
    have quiet := Node.handleCallReply_quiet call
    have marked := Node.markDisconnectable_like called replied reply.disconnectInterest
    have stays : (called.markDisconnectable replied reply.disconnectInterest).resumable = true := by
      rw [marked.resumable, quiet.session.resumable]
      split <;> exact resumable
    have kind : called.broker.memory.isSome = true := by
      rw [quiet.broker.writes.kind]
      split <;> exact memory
    cases success
    split
    · exact inv_of_commit stays kind stored (Node.sessionDisconnect_still _ _ _).toKeeps rfl rfl
        (alike_of_eq rfl rfl rfl)
    · exact inv_of_commit stays kind stored .refl rfl rfl (alike_of_eq rfl rfl rfl)
  · exact restored_inv resumable memory read restored

theorem subscribe_inv {msg : Message} {answer : Answer CommandResult} {now : Instant}
    {result : Except String CommandResult} (inv : Inv ⟨n, s⟩)
    (success : n.subscribe s msg answer now = some (n', s', result)) :
    (∀ reply ∈ unconfirmed s msg answer, Unaltered n s msg.identifier reply) ↔
      Inv ⟨n', s'⟩ := by
  obtain ⟨free, ⟨ignored, rfl, held, rfl⟩ | ⟨reply, missing, accepted, answered, handled, replied,
    dirty, turn, finished⟩⟩ := Node.subscribe_cases success
  · have skipped : unconfirmed s msg answer = none := by
      unfold unconfirmed
      rw [if_neg]
      rintro ⟨missing, accepted⟩
      simp [missing, accepted] at ignored
    simp only [skipped, Option.mem_def, reduceCtorEq, false_implies, implies_true, true_iff]
    exact inv.hold held
  · have pending : unconfirmed s msg answer =
        if confirmed answer reply then none else some reply := by
      simp only [unconfirmed, missing, accepted, and_self, if_true, answered]
      cases outcome : confirmed answer reply <;> simp [Option.filter, outcome]
    rw [pending]
    cases outcome : confirmed answer reply with
    | true =>
      simp only [outcome, if_true] at turn finished
      obtain ⟨keeps, -, -, -, stays, -⟩ := handleCommandReply_session (by exact free) turn
      have marked := Node.markDisconnectable_like handled replied reply.disconnectInterest
      simp only [Node.afterSubscribe, if_true, Option.bind_eq_bind, Option.bind_eq_some_iff]
        at finished
      obtain ⟨committed, stored, after, told, done⟩ := finished
      obtain ⟨sent, rfl⟩ := Node.subscribeHistory_eq told
      cases done
      simp only [if_true, Option.mem_def, reduceCtorEq, false_implies, implies_true, true_iff]
      refine inv_of_commit (marked.resumable.trans (stays.trans inv.resumable))
        (keeps.kind.trans inv.memory) stored ?_ rfl rfl (alike_of_eq rfl rfl rfl)
      split
      · exact (Node.handlePresenceReply_still _ _ _).toKeeps
      · exact .refl
    | false =>
      simp only [outcome, Bool.false_eq_true, if_false] at turn finished
      obtain ⟨keeps, mode, -, uid, stays, env, subscriptions, interest⟩ :=
        handleCommandReply_session free turn
      rw [replySubscriptions_missing missing] at subscriptions
      have fresh := fresh_iff_alike inv.fresh { replied with
        disconnectInterest := (n.markDisconnectable s reply.disconnectInterest).disconnectInterest }
        keeps uid
      cases finished
      rw [markDisconnectable_congr mode interest]
      simp only [Bool.false_eq_true, if_false, Option.mem_def, Option.some.injEq, forall_eq']
      constructor
      · intro unaltered
        refine ⟨stays.trans inv.resumable, keeps.kind.trans inv.memory, fresh.mpr ?_⟩
        refine ⟨?_, ?_, ?_, ?_, unaltered.disconnectable⟩
        · simp only [env, replyEnv_identifiers]
        · simp only [subscriptions]
          exact fun _ => GoMap.rel_refl (fun _ _ => Iff.rfl) _
        · simpa only [env] using unaltered.connectionState
        · simpa only [env] using unaltered.channelStates
      · intro after
        have alike := fresh.mp after.fresh
        refine ⟨?_, ?_, alike.disconnectable⟩
        · simpa only [env] using alike.connectionState
        · simpa only [env] using alike.channelStates

theorem unsubscribe_inv {msg : Message} {answer : Answer CommandResult} {now : Instant}
    {result : Except String CommandResult} (inv : Inv ⟨n, s⟩)
    (success : n.unsubscribe s msg answer now = some (n', s', result)) : Inv ⟨n', s'⟩ := by
  obtain ⟨free, ⟨-, rfl, held, rfl⟩ | ⟨reply, -, -, -, handled, dirty, committed, turn,
    stored, rfl⟩⟩ := Node.unsubscribe_cases success
  · exact inv.hold held
  · generalize removed : (if answer.err.isNone then
      { s with env := s.env.removeChannelState msg.identifier
               subscriptions := s.subscriptions.removeChannel msg.identifier }
      else s : Session) = session at turn
    have unlocked : session.smu = false := by
      rw [← removed]
      split <;> exact free
    have resumable : session.resumable = true := by
      rw [← removed]
      split <;> exact inv.resumable
    obtain ⟨keeps, -, -, -, stays, -⟩ := handleCommandReply_session unlocked turn
    exact inv_of_commit (stays.trans resumable) (keeps.kind.trans inv.memory) stored
      (Node.removePresence_still _ _).toKeeps rfl rfl (alike_of_eq rfl rfl rfl)

theorem perform_inv {msg : Message} {answer : Answer CommandResult} {now : Instant}
    {result : Except String (Option CommandResult)} (inv : Inv ⟨n, s⟩)
    (success : n.perform s msg answer now = some (n', s', result)) : Inv ⟨n', s'⟩ := by
  obtain ⟨free, ⟨-, rfl, rfl⟩ | ⟨reply, -, -, -, -, handled, dirty, turn, stored⟩⟩ :=
    Node.perform_cases success
  · exact inv
  · obtain ⟨keeps, -, flag, uid, stays, env, subscriptions, interest⟩ :=
      handleCommandReply_session free turn
    unfold Node.commitDirty at stored
    split at stored
    · exact inv_of_commit (stays.trans inv.resumable) (keeps.kind.trans inv.memory) stored .refl
        rfl rfl (alike_of_eq rfl rfl rfl)
    next clean =>
      cases stored
      have same : replyDirty s.subscriptions msg.identifier reply = false := by
        rw [← flag]
        simpa using clean
      rw [replyEnv_clean same] at env
      refine ⟨stays.trans inv.resumable, keeps.kind.trans inv.memory,
        (fresh_iff_alike inv.fresh _ keeps uid).mpr ⟨?_, ?_, ?_, ?_, interest⟩⟩
      · rw [env]
      · rw [subscriptions]
        exact replySubscriptions_clean same
      · rw [env]
        exact SameState.refl _
      · rw [env]
        exact fun _ => GoMap.rel_refl SameState.refl _

end Commands

theorem step_inv {a : Act} (inv : Inv x) (quiet : Unchanging x a) (stepped : step x a = some y) :
    Inv y := by
  cases a with
  | authenticate res disconnectOnFailure now =>
    obtain ⟨⟨n', s', result⟩, success, rfl⟩ := Option.map_eq_some_iff.mp stepped
    exact authenticate_inv inv.resumable inv.memory success
  | subscribe msg answer now =>
    obtain ⟨⟨n', s', result⟩, success, rfl⟩ := Option.map_eq_some_iff.mp stepped
    exact (subscribe_inv inv success).mp quiet
  | unsubscribe msg answer now =>
    obtain ⟨⟨n', s', result⟩, success, rfl⟩ := Option.map_eq_some_iff.mp stepped
    exact unsubscribe_inv inv success
  | perform msg answer now =>
    obtain ⟨⟨n', s', result⟩, success, rfl⟩ := Option.map_eq_some_iff.mp stepped
    exact perform_inv inv success

/-- A fresh cache after the step means that the step was quiet. -/
theorem step_shows {a : Act} (inv : Inv x) (stepped : step x a = some y) (fresh : Fresh y) :
    Unchanging x a := by
  cases a with
  | subscribe msg answer now =>
    obtain ⟨⟨n', s', result⟩, success, rfl⟩ := Option.map_eq_some_iff.mp stepped
    have turn := Node.subscribe_turn success
    have resumable := turn.resumable.trans inv.resumable
    have memory := turn.writes.kind.trans inv.memory
    exact (subscribe_inv inv success).mpr ⟨resumable, memory, fresh⟩
  | authenticate _ _ _ | unsubscribe _ _ _ | perform _ _ _ => trivial

/-- A resumable session over a memory broker is authenticated and then runs any commands. The
cache is fresh after every one of them if and only if no unconfirmed `Subscribe` changes a
state or the disconnect flag. -/
theorem fresh_iff_unaltered (n : Node) (s : Session) (memory : n.broker.memory.isSome = true)
    (resumable : s.resumable = true) (res : ConnectResult) (disconnectOnFailure : Bool)
    (now : Instant) (schedule : List Act) (x final : State)
    (authenticated : step ⟨n, s⟩ (.authenticate res disconnectOnFailure now) = some x)
    (ran : Run.exec step x schedule = some final) :
    Run.Always step Fresh x schedule ↔ Run.Meets step Unchanging x schedule := by
  obtain ⟨⟨n', s', result⟩, success, rfl⟩ := Option.map_eq_some_iff.mp authenticated
  exact Run.always_iff_meets (fun _ _ _ inv quiet stepped => step_inv inv quiet stepped)
    (fun _ _ _ inv stepped fresh => step_shows inv stepped fresh) (fun _ inv => inv.fresh)
    (authenticate_inv resumable memory success) ran

def start : State where
  node := { codec := .blank
            hub := { gatesNum := 1 }
            broker := { memory := some { history := .new {} "epoch" } } }
  session := newSession 1 ⟨"sid", "", true⟩

/-- The state after a successful `Authenticate`. -/
def welcomed : State :=
  (step start (.authenticate { status := .success, identifier := "user" } true 0)).getD start

/-- A channel with a stream and states, and a rejected one without. -/
def orderly : List Act :=
  [.subscribe { identifier := "room" }
     { res := some { status := .success, streams := some ["chat"] } } 0,
   .perform { identifier := "room", data := .text "" }
     { res := some { status := .failure, iState := some (AList.singleton "a" "1") } } 0,
   .subscribe { identifier := "vip" }
     { res := some { status := .failure, disconnectInterest := -1 } } 0,
   .unsubscribe { identifier := "room" } { res := some { status := .success } } 0]

theorem orderly_fresh :
    (∃ final, Run.exec step welcomed orderly = some final) ∧
      Run.Always step Fresh welcomed orderly := by
  obtain ⟨final, ran⟩ := Option.isSome_iff_exists.mp
    (show (Run.exec step welcomed orderly).isSome by decide +kernel)
  exact ⟨⟨final, ran⟩, (fresh_iff_unaltered start.node start.session rfl rfl
    { status := .success, identifier := "user" } true 0 orderly welcomed final rfl ran).mpr
    (by decide +kernel)⟩

/-- A rejected `Subscribe` with a connection state. -/
def rejected : Act :=
  .subscribe { identifier := "vip" }
    { res := some { status := .failure, cState := some (AList.singleton "plan" "free") } } 0

/-- The session has the new state, the cache has not. -/
theorem rejected_state_lost :
    ∃ x, step welcomed rejected = some x ∧
      x.session.env.connectionState.lookup "plan" = some "free" ∧
      (x.node.broker.restoreSession "sid").bind (·.connectionState.lookup "plan") = none ∧
      ¬ Fresh x := by
  refine ⟨_, rfl, by decide +kernel, by decide +kernel, ?_⟩
  rintro ⟨entry, found, describes⟩
  have same := describes.connectionState "plan"
  cases found
  exact absurd same (by decide +kernel)

end AnyCable.Guarantees.CacheFreshness
