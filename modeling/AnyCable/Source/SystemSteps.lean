import AnyCable.Source.HubEdits
import AnyCable.Source.StreamChanges
import AnyCable.Source.System

/-!
# What a step of the node can do

`Opened` lists the four ways in which `Node.Authenticate` (`node/node.go:327-434`) ends.
`System.Took` lists the steps of a run with what they change; `System.step_took` shows that
there are no others.
-/

set_option autoImplicit false

namespace AnyCable.Source
open AnyCable.Lib

/-- The cached session that a new session is restored from, if any. -/
def Node.restorable (n : Node) (s : Session) : Option CacheEntry :=
  if s.resumable = true ∧ s.prevSid ≠ "" then n.broker.restoreSession s.prevSid else none

inductive Opened (n : Node) (s : Session) (answer : Answer ConnectResult) (n' : Node)
    (s' : Session) : Prop where
  /-- The session takes over all the streams of the cached one. -/
  | restored (entry : CacheEntry) (found : n.restorable s = some entry) (ref : s'.ref = s.ref)
      (closed : s'.closed = s.closed)
      (subscriptions : s'.subscriptions =
        Session.restoreSubscriptions s.subscriptions entry.subscriptions)
      (tracker : n'.broker.tracker =
        n.broker.tracker.addEach (s'.subscriptions.pairs.map Prod.snd))
      (writes : n.broker.Writes s.Commits n'.broker)
  | accepted (res : ConnectResult) (missing : n.restorable s = none) (clean : answer.err = none)
      (answered : answer.res = some res) (success : res.status = .success) (ref : s'.ref = s.ref)
      (closed : s'.closed = s.closed) (subscriptions : s'.subscriptions = s.subscriptions)
      (same : n.broker.Same s.Commits n'.broker)
  | rejected (res : ConnectResult) (missing : n.restorable s = none) (clean : answer.err = none)
      (answered : answer.res = some res) (status : res.status ≠ .success)
      (turn : Turn "" { ends := true } n s n' s')
  | failed (missing : n.restorable s = none) (broken : answer.err ≠ none)
      (turn : Turn "" { ends := true } n s n' s')
      (same : n.broker.Same (fun _ => False) n'.broker)

variable {n n' : Node} {s s' : Session}

theorem Session.restoreFromCache_frame {entry : CacheEntry}
    (success : s.restoreFromCache entry = some s') :
    s'.ref = s.ref ∧ s'.resumable = s.resumable ∧ s'.closed = s.closed ∧
      s'.subscriptions = Session.restoreSubscriptions s.subscriptions entry.subscriptions := by
  simp only [Session.restoreFromCache, Option.bind_eq_bind, Option.bind_eq_some_iff] at success
  obtain ⟨locked, taken, success⟩ := success
  have like := Session.lock_like taken
  cases success
  refine ⟨like.ref, like.resumable, like.closed, ?_⟩
  rw [← like.subscriptions]
  rfl

theorem Node.resubscribeEach_broker (pairs : List (String × String)) :
    (pairs.foldl (Node.resubscribe s) n).broker =
      (pairs.map Prod.snd).foldl Broker.subscribe n.broker := by
  induction pairs generalizing n with
  | nil => rfl
  | cons p pairs ih => exact ih

theorem Node.resubscribeEach_hub (pairs : List (String × String)) :
    (pairs.foldl (Node.resubscribe s) n).hub =
      pairs.foldl (fun h p => h.subscribeSession s.toHub p.2 p.1) n.hub := by
  induction pairs generalizing n with
  | nil => rfl
  | cons p pairs ih => exact ih

/-- The resubscription loop puts the streams of the session into their gates, and nothing else. -/
theorem Node.resubscribeEach_spec (n : Node) (s : Session) :
    (s.subscriptions.pairs.foldl (Node.resubscribe s) n).hub.gatesNum = n.hub.gatesNum ∧
    (n.hub.Complete s.toHub →
      (s.subscriptions.pairs.foldl (Node.resubscribe s) n).hub.Complete s.toHub) ∧
    ∀ k ref st id,
      ((s.subscriptions.pairs.foldl (Node.resubscribe s) n).hub.gates k).Has ref st id ↔
        (k = index st n.hub.gatesNum ∧ ref = s.ref ∧ s.subscriptions.Holds id st) ∨
          (n.hub.gates k).Has ref st id := by
  rw [Node.resubscribeEach_hub]
  obtain ⟨gatesNum, complete, has⟩ := Hub.subscribeEach_spec (s := s.toHub) (f := Prod.swap)
    s.subscriptions.pairs n.hub
  refine ⟨gatesNum, complete, fun k ref st id => (has k ref st id).trans ?_⟩
  have listed : (st, id) ∈ s.subscriptions.pairs.map Prod.swap ↔ s.subscriptions.Holds id st := by
    rw [← SubscriptionState.mem_pairs, ← Prod.swap_prod_mk,
      List.mem_map_of_injective Prod.swap_injective]
  rw [listed]
  rfl

/-- `TryRestoreSession` finds nothing to restore, or fills the session, subscribes it again and
stores it. -/
theorem Node.tryRestoreSession_cases {restored : Bool}
    (success : n.tryRestoreSession s = some (n', s', restored)) :
    (restored = false ∧ (s.prevSid = "" ∨ n.broker.restoreSession s.prevSid = none) ∧
      n' = n ∧ s' = s) ∨
    ∃ entry filled sent, restored = true ∧ s.prevSid ≠ "" ∧
      n.broker.restoreSession s.prevSid = some entry ∧ s.restoreFromCache entry = some filled ∧
      s' = { filled with connected := true, sent := sent } ∧
      (filled.subscriptions.pairs.foldl (Node.resubscribe { filled with connected := true })
        { n with hub := n.hub.addSession filled.toHub }).commit s' = some n' := by
  unfold Node.tryRestoreSession at success
  split at success
  next empty =>
    cases success
    exact Or.inl ⟨rfl, Or.inl empty, rfl, rfl⟩
  next named =>
    split at success
    next missing =>
      cases success
      exact Or.inl ⟨rfl, Or.inr missing, rfl, rfl⟩
    next entry found =>
      simp only [Option.bind_eq_bind, Option.bind_eq_some_iff] at success
      obtain ⟨filled, read, committed, stored, success⟩ := success
      cases success
      exact Or.inr ⟨entry, filled, _, rfl, named, found, read, rfl, stored⟩

/-- A restore that is reported did happen, and otherwise nothing was changed. -/
theorem Node.restoreResumable_cases {restored : Bool}
    (success : n.restoreResumable s = some (n', s', restored)) :
    (restored = false ∧ n.restorable s = none ∧ n' = n ∧ s' = s) ∨
    ∃ entry, restored = true ∧ n.restorable s = some entry ∧ s'.ref = s.ref ∧
      s'.closed = s.closed ∧
      s'.subscriptions = Session.restoreSubscriptions s.subscriptions entry.subscriptions ∧
      n'.broker.tracker = n.broker.tracker.addEach (s'.subscriptions.pairs.map Prod.snd) ∧
      n.broker.Writes s.Commits n'.broker := by
  unfold Node.restoreResumable at success
  split at success
  next resumable =>
    rcases Node.tryRestoreSession_cases success with
      ⟨rfl, missing, rfl, rfl⟩ | ⟨entry, filled, sent, rfl, named, found, read, rfl, stored⟩
    · refine Or.inl ⟨rfl, ?_, rfl, rfl⟩
      rcases missing with empty | missing
      · simp [Node.restorable, empty]
      · simp [Node.restorable, missing]
    · obtain ⟨ref, stays, closed, subscriptions⟩ := Session.restoreFromCache_frame read
      have quiet := Node.commit_quiet stored
      refine Or.inr ⟨entry, rfl, by simp [Node.restorable, resumable, named, found], ref, closed,
        subscriptions, ?_, ?_⟩
      · rw [quiet.broker.tracker, Node.resubscribeEach_broker]
        exact Broker.subscribeEach_tracker _ _
      · have commits : filled.Commits = s.Commits := by
          funext writer
          simp [Session.Commits, ref, stays]
        refine Broker.Writes.trans (.of_memory ?_) (commits ▸ quiet.broker.writes)
        rw [Node.resubscribeEach_broker]
        exact Broker.subscribeEach_memory _ _
  next plain =>
    cases success
    exact Or.inl ⟨rfl, by simp [Node.restorable, plain], rfl, rfl⟩

/-- A session is restored, or the controller is asked. -/
theorem Node.authenticate_cases {answer : Answer ConnectResult} {disconnectOnFailure : Bool}
    {now : Instant} {res : Except String ConnectResult}
    (success : n.authenticate s answer disconnectOnFailure now = some (n', s', res)) :
    n.authenticateAnswer s answer disconnectOnFailure now = some (n', s', res) ∨
    ∃ entry filled sent, n.broker.restoreSession s.prevSid = some entry ∧
      s.restoreFromCache entry = some filled ∧
      s' = { filled with connected := true, sent := sent } ∧
      (filled.subscriptions.pairs.foldl (Node.resubscribe { filled with connected := true })
        { n with hub := n.hub.addSession filled.toHub }).commit s' = some n' := by
  simp only [Node.authenticate, Option.bind_eq_bind, Option.bind_eq_some_iff] at success
  obtain ⟨⟨first, filled, restored⟩, tried, success⟩ := success
  unfold Node.restoreResumable at tried
  split at tried
  · rcases Node.tryRestoreSession_cases tried with
      ⟨rfl, -, rfl, rfl⟩ | ⟨entry, read, sent, rfl, -, found, taken, rfl, stored⟩
    · exact .inl success
    · cases success
      exact .inr ⟨entry, read, sent, found, taken, rfl, stored⟩
  · cases tried
    exact .inl success

/-- The controller is asked: after an error the session is disconnected. Otherwise its answer is
handled and the session is committed, with the channels as they were; it may be disconnected
then. -/
theorem Node.authenticateAnswer_cases {answer : Answer ConnectResult} {disconnectOnFailure : Bool}
    {now : Instant} {res : Except String ConnectResult} (free : s.smu = false)
    (success : n.authenticateAnswer s answer disconnectOnFailure now = some (n', s', res)) :
    n.sessionDisconnect s "Auth Error" closeInternalServerErr now = (n', s') ∨
    ∃ (called : Node) (marked : Session) (committed : Node),
      called.hub.gates = n.hub.gates ∧ n.broker.Keeps called.broker ∧
      marked.env.channelStates = s.env.channelStates ∧ marked.subscriptions = s.subscriptions ∧
      called.commit marked = some committed ∧
      ((committed, marked) = (n', s') ∨
        committed.sessionDisconnect marked "Auth Failed" closeNormalClosure now = (n', s')) := by
  unfold Node.authenticateAnswer at success
  split at success
  · cases success
    exact .inl rfl
  · simp only [Option.bind_eq_bind, Option.bind_eq_some_iff] at success
    obtain ⟨reply, answered, ⟨called, replied, dirty⟩, call, committed, stored, success⟩ := success
    generalize entered : (if reply.status = .success then n.authenticated s reply.identifier
      else (n, s)) = first at call
    obtain ⟨unlocked, gates, keeps, states, channels⟩ : first.2.smu = false ∧
        first.1.hub.gates = n.hub.gates ∧ n.broker.Keeps first.1.broker ∧
        first.2.env.channelStates = s.env.channelStates ∧
        first.2.subscriptions = s.subscriptions := by
      rw [← entered]
      split <;> exact ⟨free, rfl, .refl, rfl, rfl⟩
    obtain ⟨broker, sent, still, handled, merged, -⟩ := Node.handleCallReply_eq unlocked call
    obtain ⟨flag, marked⟩ := called.markDisconnectable_eq replied reply.disconnectInterest
    rw [marked] at stored success
    refine .inr ⟨called, _, committed, ?_, ?_, ?_, ?_, stored, ?_⟩
    · rw [handled]
      exact gates
    · rw [handled]
      exact keeps.trans still.toKeeps
    · rw [merged]
      cases reply.toCallResult.cState <;> exact states
    · rw [merged]
      exact channels
    · cases success
      split
      · exact .inr rfl
      · exact .inl rfl

theorem Node.authenticate_opened {answer : Answer ConnectResult} {now : Instant}
    {res : Except String ConnectResult}
    (success : n.authenticate s answer true now = some (n', s', res)) :
    Opened n s answer n' s' := by
  simp only [Node.authenticate, Option.bind_eq_bind, Option.bind_eq_some_iff] at success
  obtain ⟨⟨restoredNode, restoredSession, restored⟩, first, success⟩ := success
  rcases Node.restoreResumable_cases first with
    ⟨no, missing, rfl, rfl⟩ | ⟨entry, yes, found, ref, closed, subscriptions, tracker, writes⟩
  · subst no
    simp only [Bool.false_eq_true, if_false, Node.authenticateAnswer] at success
    split at success
    next err broken =>
      cases success
      exact .failed missing (by simp [broken]) (Node.sessionDisconnect_turn _ _ _)
        (Node.sessionDisconnect_still _ _ _).same
    next clean =>
      simp only [Option.bind_eq_bind, Option.bind_eq_some_iff] at success
      obtain ⟨reply, answered, ⟨called, replied, dirty⟩, call, committed, stored, success⟩ := success
      cases success
      have settled := (Node.handleCallReply_quiet call).trans
        ((Quiet.of_like (Node.markDisconnectable_like _ _ _)).trans (Node.commit_quiet stored))
      by_cases status : reply.status = .success
      · simp only [status, if_true, ne_eq, not_true, false_and, if_false] at settled ⊢
        exact .accepted reply missing clean answered status settled.session.ref
          settled.session.closed settled.session.subscriptions settled.broker
      · simp only [status, if_false, ne_eq, not_false_eq_true, true_and, if_true] at settled ⊢
        refine .rejected reply missing clean answered status ?_
        exact (Turn.of_quiet settled).then_end (c := {}) (Node.sessionDisconnect_turn _ _ _)
  · subst yes
    simp only [if_true] at success
    cases success
    exact .restored entry found ref closed subscriptions tracker writes

namespace System

variable {x y : System}

/-- The step is about no session. -/
def Act.isGeneral : Act → Bool
  | .connect .. | .command .. | .disconnect .. | .disconnectNow .. => false
  | .register | .deliver | .handleBroadcast .. | .handlePubSub .. | .expire .. | .shutdown => true

/-- A step, with the sessions and the broker afterwards. -/
inductive Took (x : System) : Act → System → Prop where
  | connect {ref : SessionRef} {client : Client} {answer : Answer ConnectResult} {now : Instant}
      {n : Node} {s : Session} (fresh : x.sessions.lookup ref = none)
      (opened : Opened x.node (newSession ref client) answer n s) :
      Took x (.connect ref client answer now) ((x.put ref (n, s)).serve s)
  | command {ref : SessionRef} {msg : Message} {answer : Answer CommandResult} {now : Instant}
      {before : Session} {n : Node} {s : Session} (found : x.sessions.lookup ref = some before)
      (reading : ref ∈ x.readers)
      (turn : Turn msg.identifier (commandChange before msg answer) x.node before n s) :
      Took x (.command ref msg answer now) (x.put ref (n, s))
  | disconnect {ref : SessionRef} {reason : String} {code : Nat} {now : Instant}
      {before : Session} {n : Node} {s : Session} (found : x.sessions.lookup ref = some before)
      (turn : Turn "" { ends := true } x.node before n s)
      (same : x.node.broker.Same (fun _ => False) n.broker) :
      Took x (.disconnect ref reason code now) (x.put ref (n, s))
  | disconnectNow {ref : SessionRef} {now : Instant} {before : Session} {n : Node} {s : Session}
      (found : x.sessions.lookup ref = some before)
      (turn : Turn "" { ends := before.connected } x.node before n s)
      (same : x.node.broker.Same (fun _ => False) n.broker) :
      Took x (.disconnectNow ref now) (x.put ref (n, s))
  /-- Sessions are at most sent messages, and nothing is cached. -/
  | other {a : Act} {y : System} (general : a.isGeneral = true) (readers : y.readers = x.readers)
      (same : x.node.broker.Same (fun _ => False) y.node.broker)
      (sessions : ∀ ref, Option.Rel Session.Like (x.sessions.lookup ref) (y.sessions.lookup ref)) :
      Took x a y

theorem like_refl (found : Option Session) : Option.Rel Session.Like found found := by
  cases found with
  | none => exact .none
  | some s => exact .some .refl

theorem like_trans {first second third : Option Session}
    (one : Option.Rel Session.Like first second) (two : Option.Rel Session.Like second third) :
    Option.Rel Session.Like first third := by
  cases one with
  | none => exact two
  | some like =>
    cases two with
    | some like' => exact .some (like.trans like')

theorem like_before {first : Option Session} {s : Session}
    (rel : Option.Rel Session.Like first (some s)) : ∃ old, first = some old ∧ old.Like s := by
  cases rel with
  | some like => exact ⟨_, rfl, like⟩

theorem like_after {second : Option Session} {old : Session}
    (rel : Option.Rel Session.Like (some old) second) : ∃ s, second = some s ∧ old.Like s := by
  cases rel with
  | some like => exact ⟨_, rfl, like⟩

theorem like_sendEach (sessions : GoMap SessionRef Session) (msg : StreamMessage)
    (targets : List (SessionRef × String)) (ref : SessionRef) :
    Option.Rel Session.Like (sessions.lookup ref) ((sendEach sessions msg targets).lookup ref) := by
  unfold sendEach
  induction targets generalizing sessions with
  | nil => exact like_refl _
  | cons t targets ih =>
    rw [List.foldl_cons]
    split
    · exact ih sessions
    next s found =>
      have rest := ih (sessions.insert t.1 (s.send (.message msg t.2)))
      by_cases same : ref = t.1
      · subst same
        rw [AList.lookup_insert] at rest
        rw [found]
        exact like_trans (.some (Session.send_like _)) rest
      · rwa [AList.lookup_insert_ne same] at rest

theorem step_took {a : Act} (stepped : x.step a = some y) : Took x a y := by
  cases a with
  | connect ref client answer now =>
    simp only [step] at stepped
    split at stepped
    next fresh =>
      obtain ⟨⟨n, s, res⟩, opened, stepped⟩ := Option.bind_eq_some_iff.mp stepped
      cases stepped
      exact .connect (Option.isNone_iff_eq_none.mp fresh) (Node.authenticate_opened opened)
    · cases stepped
  | command ref msg answer now =>
    simp only [step] at stepped
    split at stepped
    next reading =>
      obtain ⟨before, found, stepped⟩ := Option.bind_eq_some_iff.mp stepped
      obtain ⟨⟨n, s, res⟩, handled, stepped⟩ := Option.bind_eq_some_iff.mp stepped
      cases stepped
      exact .command found reading (Node.handleCommand_turn handled)
    · cases stepped
  | disconnect ref reason code now =>
    obtain ⟨before, found, stepped⟩ := Option.bind_eq_some_iff.mp stepped
    cases stepped
    exact .disconnect found (Node.sessionDisconnect_turn _ _ _) (Node.sessionDisconnect_still _ _ _).same
  | disconnectNow ref now =>
    obtain ⟨before, found, stepped⟩ := Option.bind_eq_some_iff.mp stepped
    cases stepped
    exact .disconnectNow found (Node.sessionDisconnectNow_turn _) (Node.sessionDisconnectNow_still _).same
  | register =>
    simp only [step] at stepped
    split at stepped
    · cases stepped
    · obtain ⟨s, found, stepped⟩ := Option.bind_eq_some_iff.mp stepped
      cases stepped
      exact .other rfl rfl .refl fun ref => like_refl _
    · obtain ⟨s, found, stepped⟩ := Option.bind_eq_some_iff.mp stepped
      cases stepped
      exact .other rfl rfl .refl fun ref => like_refl _
  | deliver =>
    simp only [step] at stepped
    split at stepped
    · cases stepped
    · cases stepped
      exact .other rfl rfl .refl fun ref => like_sendEach _ _ _ ref
  | handleBroadcast msg now =>
    obtain ⟨broker, told, stepped⟩ := Option.bind_eq_some_iff.mp stepped
    cases stepped
    exact .other rfl rfl (Broker.handleBroadcast_still told).same fun ref => like_refl _
  | handlePubSub msg =>
    cases stepped
    exact .other rfl rfl .refl fun ref => like_refl _
  | expire now =>
    cases stepped
    exact .other rfl rfl (Broker.expire_same _ _) fun ref => like_refl _
  | shutdown =>
    cases stepped
    exact .other rfl rfl .refl fun ref => like_refl _

/-- A node keeps the kind of broker it was set up with. -/
theorem step_kind {a : Act} (stepped : x.step a = some y) :
    y.node.broker.memory.isSome = x.node.broker.memory.isSome := by
  cases step_took stepped with
  | connect fresh opened =>
    rw [serve_node]
    cases opened with
    | restored _ _ _ _ _ _ writes => exact writes.kind
    | accepted _ _ _ _ _ _ _ _ same => exact same.writes.kind
    | rejected _ _ _ _ _ turn => exact turn.writes.kind
    | failed _ _ turn _ => exact turn.writes.kind
  | command found reading turn => exact turn.writes.kind
  | disconnect found turn same => exact same.writes.kind
  | disconnectNow found turn same => exact same.writes.kind
  | other general readers same sessions => exact same.writes.kind

end System

end AnyCable.Source
