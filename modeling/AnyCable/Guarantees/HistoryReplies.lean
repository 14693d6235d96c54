import AnyCable.Source.NodeEffects

/-!
# What a history request is answered with

Source: `node/node.go:587-660`. The broker is an interface: `HistoryFrom` and `HistorySince` may
return messages or an error for any stream. `Answers` has an answer for every call that
`retreiveHistory` can make; as the streams of a channel are visited once each, this covers every
combination of answers, also of a broker that changes in between. The node's own broker is one of
them, as long as it does not panic.

Nothing is sent before the last stream has answered. `history_all_or_nothing` derives that a client
gets one rejection and no message, or all messages and one confirmation.
-/

set_option autoImplicit false

namespace AnyCable.Guarantees.HistoryReplies
open AnyCable.Lib AnyCable.Source

/-- What the two calls of the broker's interface return. -/
structure Answers where
  historyFrom : String → String → Nat → Except String (List StreamMessage)
  historySince : String → Int → Except String (List StreamMessage)

def Answers.calls (answers : Answers) : Node.HistoryCalls where
  historyFrom stream epoch offset := answers.historyFrom stream epoch offset
  historySince stream since := answers.historySince stream since

variable (answers : Answers)

/-! ### What is asked of the broker, stream by stream -/

/-- The answer for one stream: from its position if one is given, else since the given time if
there is one, else nothing. -/
def consult (request : HistoryRequest) (stream : String) : Except String (List StreamMessage) :=
  match request.streams.bind fun positions => positions.lookup stream with
  | some pos => answers.historyFrom stream pos.epoch pos.offset
  | none => if 0 < request.since then answers.historySince stream request.since else .ok []

/-- The messages of a stream that has answered. -/
def messages (request : HistoryRequest) (stream : String) : List StreamMessage :=
  (consult answers request stream).toOption.getD []

variable {answers}

theorem retreiveStream_eq (request : HistoryRequest) (stream : String) :
    Node.retreiveStream answers.calls request stream = some (consult answers request stream) := by
  unfold Node.retreiveStream consult
  cases request.streams.bind fun positions => positions.lookup stream with
  | some pos => rfl
  | none =>
    simp only [Answers.calls]
    by_cases since : 0 < request.since
    · rw [if_pos since, if_pos since]
    · rw [if_neg since, if_neg since]

/-- Every stream answers, and the backlog has all the messages in the order of the streams. -/
theorem retreiveHistory_ok {request : HistoryRequest} {streams : List String}
    (answered : ∀ stream ∈ streams, (consult answers request stream).isOk = true) :
    Node.retreiveHistory answers.calls request streams =
      some (.ok (streams.flatMap (messages answers request))) := by
  induction streams with
  | nil => rfl
  | cons stream rest ih =>
    have here := answered stream (by simp)
    have later := ih fun other member => answered other (by simp [member])
    rw [Node.retreiveHistory, retreiveStream_eq, later]
    cases consulted : consult answers request stream with
    | error err => simp [consulted, Except.isOk, Except.toBool] at here
    | ok streamBacklog => simp [messages, consulted, Except.toOption, Except.map]

/-- The first stream that fails ends the loop with its error. -/
theorem retreiveHistory_error {request : HistoryRequest} {before : List String}
    (after : List String) {stream err : String}
    (answered : ∀ other ∈ before, (consult answers request other).isOk = true)
    (failed : consult answers request stream = .error err) :
    Node.retreiveHistory answers.calls request (before ++ stream :: after) =
      some (.error err) := by
  induction before with
  | nil => simp [Node.retreiveHistory, retreiveStream_eq, failed]
  | cons other rest ih =>
    have here := answered other (by simp)
    have later := ih fun later member => answered later (by simp [member])
    rw [List.cons_append, Node.retreiveHistory, retreiveStream_eq, later]
    cases consulted : consult answers request other with
    | error err => simp [consulted, Except.isOk, Except.toBool] at here
    | ok streamBacklog => rfl

variable (answers) in
/-- `stream` is the first of the streams to fail, and it fails with `err`. -/
def FailsFirst (request : HistoryRequest) (streams : List String) (stream err : String) : Prop :=
  ∃ before after, streams = before ++ stream :: after ∧
    (∀ other ∈ before, (consult answers request other).isOk = true) ∧
    consult answers request stream = .error err

/-- Induction on the streams: one that fails has a first one that does. -/
theorem answers_or_fails (answers : Answers) (request : HistoryRequest) (streams : List String) :
    (∀ stream ∈ streams, (consult answers request stream).isOk = true) ∨
      ∃ stream err, FailsFirst answers request streams stream err := by
  induction streams with
  | nil => exact .inl (by simp)
  | cons stream rest ih =>
    cases consulted : consult answers request stream with
    | error err => exact .inr ⟨stream, err, [], rest, rfl, by simp, consulted⟩
    | ok streamBacklog =>
      rcases ih with all | ⟨later, err, before, after, rfl, answered, failed⟩
      · refine .inl fun other member => ?_
        rcases List.mem_cons.mp member with rfl | member
        · simp [consulted, Except.isOk, Except.toBool]
        · exact all other member
      · refine .inr ⟨later, err, stream :: before, after, rfl, fun other member => ?_, failed⟩
        rcases List.mem_cons.mp member with rfl | member
        · simp [consulted, Except.isOk, Except.toBool]
        · exact answered other member

/-- The reply of type `HistoryRejectedType`. -/
def rejectHistory (identifier : String) : Outgoing :=
  .reply { type := "reject_history", identifier := identifier }

/-- The reply of type `HistoryConfirmedType`. -/
def confirmHistory (identifier : String) : Outgoing :=
  .reply { type := "confirm_history", identifier := identifier }

/-- A request that is not refused by itself is answered by what `retreiveHistory` returns. -/
theorem history_asked {n : Node} {s : Session} {msg : Message}
    {res : Except String (List StreamMessage)} (free : s.smu = false)
    (subscribed : s.subscriptions.hasChannel msg.identifier = true)
    (asked : msg.history.since ≠ 0 ∨ msg.history.streams.isSome = true)
    (retreived : Node.retreiveHistory answers.calls msg.history
      (s.subscriptions.streamsFor msg.identifier) = some res) :
    n.historyWith answers.calls s msg =
      match res with
      | .error err => some ({ s with sent := s.sent ++ [rejectHistory msg.identifier] }, .error err)
      | .ok backlog => some ({ s with
          sent := s.sent ++ backlog.map (fun el => .message el msg.identifier) ++
            [confirmHistory msg.identifier] }, .ok ()) := by
  have present : ¬ (msg.history.since = 0 ∧ msg.history.streams.isNone = true) := by
    rintro ⟨zero, missing⟩
    rcases asked with nonzero | some
    · exact nonzero zero
    · simp [Option.isNone_iff_eq_none.mp missing] at some
  have taken : s.lock = some { s with smu := true } := by simp [Session.lock, free]
  simp only [Node.historyWith, taken, Option.bind_eq_bind, Option.bind_some, subscribed,
    Bool.true_eq_false, if_false, if_neg present, retreived, Session.unlock_lock free,
    Session.sendEach]
  split <;> rfl

/-- For every channel of a session, with any streams in any order, every request that gives a time
or positions, and every combination of answers of the broker: either a stream fails, the first such
error is returned, and the session is sent one `reject_history` and nothing else; or every stream
answers, no error is returned, and the session is sent all the messages of each stream in turn and
then one `confirm_history`. -/
theorem history_all_or_nothing (answers : Answers) (n : Node) (s : Session) (msg : Message)
    (free : s.smu = false) (subscribed : s.subscriptions.hasChannel msg.identifier = true)
    (asked : msg.history.since ≠ 0 ∨ msg.history.streams.isSome = true) :
    (∃ stream err,
      FailsFirst answers msg.history (s.subscriptions.streamsFor msg.identifier) stream err ∧
      n.historyWith answers.calls s msg =
        some ({ s with sent := s.sent ++ [rejectHistory msg.identifier] }, .error err)) ∨
    ((∀ stream ∈ s.subscriptions.streamsFor msg.identifier,
      (consult answers msg.history stream).isOk = true) ∧
      n.historyWith answers.calls s msg =
        some ({ s with
          sent := s.sent ++
            ((s.subscriptions.streamsFor msg.identifier).flatMap
              (messages answers msg.history)).map (fun el => .message el msg.identifier) ++
            [confirmHistory msg.identifier] }, .ok ())) := by
  rcases answers_or_fails answers msg.history
    (s.subscriptions.streamsFor msg.identifier) with all | ⟨stream, err, fails⟩
  · exact .inr ⟨all, history_asked free subscribed asked (retreiveHistory_ok all)⟩
  · refine .inl ⟨stream, err, fails, ?_⟩
    obtain ⟨before, after, split, answered, failed⟩ := fails
    have ended := retreiveHistory_error after answered failed
    rw [← split] at ended
    exact history_asked free subscribed asked ended

/-- A session that is subscribed to two streams of a channel. -/
def twoStreams : Session :=
  { ref := 0, uid := "s",
    subscriptions := ((SubscriptionState.addChannel {} "chat").addChannelStream "chat"
      "a").addChannelStream "chat" "b" }

def legacy : Node where
  codec := .blank
  hub := { gatesNum := 1 }

def lateAnswers : Answers where
  historyFrom stream _ _ := .ok [{ stream := stream, data := "missed" }]
  historySince _ _ := .error "history not supported"

/-- One stream is read from a position, the other since a time, and the latter fails: the messages
of the former are not sent. -/
theorem history_second_stream_fails :
    ∃ err, legacy.historyWith lateAnswers.calls twoStreams
      { identifier := "chat",
        history := { since := 5, streams := some (AList.insert "a" ⟨"e", 1⟩ ∅) } } =
      some ({ twoStreams with sent := [rejectHistory "chat"] }, .error err) := by
  rcases history_all_or_nothing lateAnswers legacy twoStreams
    { identifier := "chat",
      history := { since := 5, streams := some (AList.insert "a" ⟨"e", 1⟩ ∅) } }
    rfl (by decide) (by decide) with ⟨stream, err, -, rejected⟩ | ⟨answered, -⟩
  · exact ⟨err, rejected⟩
  · exact absurd (answered "b" (by decide)) (by decide)

/-! ### The broker of the node -/

/-- The broker of the node gives these answers; in particular it does not panic. -/
structure Gives (b : Broker) (answers : Answers) : Prop where
  historyFrom : ∀ stream epoch offset,
    b.historyFrom stream epoch offset = some (answers.historyFrom stream epoch offset)
  historySince : ∀ stream since,
    b.historySince stream since = answers.historySince stream since

theorem history_node {n : Node} (gives : Gives n.broker answers) (s : Session) (msg : Message) :
    n.history s msg = n.historyWith answers.calls s msg := by
  have calls : (⟨n.broker.historyFrom, fun stream since => n.broker.historySince stream since⟩ :
      Node.HistoryCalls) = answers.calls := by
    rw [Answers.calls, Node.HistoryCalls.mk.injEq]
    refine ⟨?_, ?_⟩
    · funext stream epoch offset
      exact gives.historyFrom stream epoch offset
    · funext stream since
      exact congrArg some (gives.historySince stream since)
  rw [Node.history, calls]

end AnyCable.Guarantees.HistoryReplies
