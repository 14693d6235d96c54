import AnyCable.Lib.EventStream
import AnyCable.Source.Encoders
import AnyCable.Source.SseConnection

/-!
# What a client reads from an SSE connection

Source: `sse/encoder.go:34-81`, `sse/connection.go:46-75,92-104`. The encoder writes the type of a
message, an unwrapped string, and the epoch and the name of the stream as they are, one line each;
all other values are JSON, which has no line ends. The independent specification is `expected`: the
event a client should read of a message.

* The payload of a frame is the event written with one line per field (`payload_eq_text`).
* A client reads the event back exactly if none of the values written as they are has a line end
  (`read_iff_unbroken`); a message with a line end adds events and fields (`message_forges_event`).
* Over a whole connection, with writes before and after it is established, the events read are those
  of the messages sent (`stream_faithful`).

The writer of the response takes what it is given; its failures end the session.
-/

set_option autoImplicit false

namespace AnyCable.Guarantees.EventFraming
open AnyCable.Lib AnyCable.Lib.EventStream AnyCable.Source AnyCable.Source.Encoders

/-! ### The connection -/

/-- The bytes of a text. -/
def utf8 (text : List Char) : List UInt8 := text.flatMap String.utf8EncodeChar

theorem utf8_append (front back : List Char) : utf8 (front ++ back) = utf8 front ++ utf8 back :=
  List.flatMap_append

theorem bytes_payload {c : SseConnection} (isOpen : c.done = false) (payload : String) :
    (c.write (utf8 payload.toList)).bytes =
      c.bytes ++ utf8 (payload.toList ++ ['\n', '\n']) := by
  rw [SseConnection.bytes_write isOpen, utf8_append]
  rfl

/-! ### The event of a message -/

/-- The reply has the position of a message in a stream. -/
def Resumable (r : Reply) : Prop := 0 < r.offset ∧ r.epoch ≠ "" ∧ r.streamId ≠ ""

instance (r : Reply) : Decidable (Resumable r) :=
  inferInstanceAs (Decidable (0 < r.offset ∧ r.epoch ≠ "" ∧ r.streamId ≠ ""))

/-- The data: the message alone, as it is if it is a string, or the whole JSON. -/
def eventData (e : Sse) : EncodedMessage → List Char
  | .reply r =>
    if r.type = "" ∧ e.unwrapData then
      match r.message with
      | .text s => s.toList
      | body => body.json.chars
    else r.json.chars
  | .ping p => p.json.chars
  | .disconnect d => d.json.chars

def eventId : EncodedMessage → Option (List Char)
  | .reply r => if Resumable r then some (Sse.lastId r).toList else none
  | _ => none

def eventRetry : EncodedMessage → Option (List Char)
  | .disconnect d => if d.reconnect then none else some (toString Sse.retryNoReconnect).toList
  | _ => none

/-- The event a client should read. -/
def expected (e : Sse) (msg : EncodedMessage) : Event where
  type := msg.getType.toList
  data := eventData e msg
  id := eventId msg
  retry := eventRetry msg

section Payload

variable {e : Sse} {msg : EncodedMessage} {frame : SentFrame}

theorem dataLine_toList (e : Sse) (msg : EncodedMessage) :
    (e.dataLine msg).toList = fieldLine "data".toList (eventData e msg) := by
  cases msg with
  | ping p => simp [Sse.dataLine, eventData, fieldLine, EncodedMessage.json, Json.text]
  | disconnect d => simp [Sse.dataLine, eventData, fieldLine, EncodedMessage.json, Json.text]
  | reply r =>
    by_cases unwrapped : r.type = "" ∧ e.unwrapData
    · rw [Sse.dataLine, if_pos unwrapped, eventData, if_pos unwrapped]
      cases r.message <;> simp [Sse.unwrap, fieldLine, Json.text]
    · rw [Sse.dataLine, if_neg unwrapped, eventData, if_neg unwrapped]
      simp [fieldLine, Json.text]

theorem addId_toList (msg : EncodedMessage) (payload : String) :
    (Sse.addId msg payload).toList =
      payload.toList ++ Event.optionalLine "id".toList (eventId msg) := by
  cases msg with
  | ping p => simp [Sse.addId, eventId, Event.optionalLine]
  | disconnect d => simp [Sse.addId, eventId, Event.optionalLine]
  | reply r =>
    by_cases resumable : Resumable r
    · have position : r.offset > 0 ∧ r.epoch ≠ "" ∧ r.streamId ≠ "" := resumable
      rw [Sse.addId, if_pos position, eventId, if_pos resumable]
      simp [Event.optionalLine, fieldLine]
    · have position : ¬(r.offset > 0 ∧ r.epoch ≠ "" ∧ r.streamId ≠ "") := resumable
      rw [Sse.addId, if_neg position, eventId, if_neg resumable]
      simp [Event.optionalLine]

theorem addRetry_toList (msg : EncodedMessage) (payload : String) :
    (Sse.addRetry msg payload).toList =
      payload.toList ++ Event.optionalLine "retry".toList (eventRetry msg) := by
  cases msg with
  | ping p => simp [Sse.addRetry, eventRetry, Event.optionalLine]
  | reply r => simp [Sse.addRetry, eventRetry, Event.optionalLine]
  | disconnect d =>
    cases again : d.reconnect
    · simp [Sse.addRetry, EncodedMessage.getType, DisconnectMessage.getType, eventRetry, again,
        Event.optionalLine, fieldLine]
    · simp [Sse.addRetry, eventRetry, again, Event.optionalLine]

/-- The payload of a frame is the expected event with one line per field. -/
theorem payload_eq_text (sent : e.encode msg = .ok (some frame)) :
    frame.payload.toList = (expected e msg).text := by
  rw [Event.text_eq]
  by_cases untyped : msg.getType = ""
  · simp only [Sse.encode, untyped, ne_eq, not_true_eq_false, if_false, Except.ok.injEq,
      Option.some.injEq] at sent
    rw [← sent]
    simp [addRetry_toList, addId_toList, dataLine_toList, expected, untyped]
  · cases raw : e.rawData
    · simp only [Sse.encode, ne_eq, untyped, not_false_eq_true, if_true, raw, Bool.false_eq_true,
        if_false, Except.ok.injEq, Option.some.injEq] at sent
      rw [← sent]
      simp [addRetry_toList, addId_toList, dataLine_toList, expected, untyped, fieldLine]
    · simp [Sse.encode, untyped, raw] at sent

end Payload

/-! ### Line ends -/

/-- No value that is written as it is has a line end. -/
def Unbroken (e : Sse) : EncodedMessage → Prop
  | .reply r =>
    OneLine r.type.toList ∧
    (r.type = "" → e.unwrapData = true → ∀ s, r.message = .text s → OneLine s.toList) ∧
    (Resumable r → OneLine r.epoch.toList ∧ OneLine r.streamId.toList)
  | _ => True

section Flat

variable {e : Sse} {msg : EncodedMessage}

theorem oneLine_toDigits (n : Nat) : OneLine (Nat.toDigits 10 n) := by
  apply oneLine_of_digits
  rw [List.all_eq_true]
  intro c inside
  exact Nat.isDigit_of_mem_toDigits (by decide) (by decide) inside

theorem oneLine_lastId {r : Reply} :
    OneLine (Sse.lastId r).toList ↔ OneLine r.epoch.toList ∧ OneLine r.streamId.toList := by
  have slash (rest : List Char) : OneLine (Sse.lastIdDelimeter :: rest) ↔ OneLine rest := by
    simp [OneLine, Sse.lastIdDelimeter, isLineBreak]
  simp [Sse.lastId, oneLine_append, oneLine_toDigits, slash]

theorem oneLine_eventData {r : Reply} :
    OneLine (eventData e (.reply r)) ↔
      (r.type = "" → e.unwrapData = true → ∀ s, r.message = .text s → OneLine s.toList) := by
  by_cases unwrapped : r.type = "" ∧ e.unwrapData
  · rw [eventData, if_pos unwrapped]
    cases r.message with
    | nil => simp [Json.chars_oneLine]
    | value json => simp [Json.chars_oneLine]
    | text s => simp [unwrapped]
  · rw [eventData, if_neg unwrapped]
    constructor
    · intro _ untyped unwrap
      exact absurd ⟨untyped, unwrap⟩ unwrapped
    · intro _
      exact Json.chars_oneLine _

theorem flat_reply {r : Reply} :
    (expected e (.reply r)).Flat ↔ Unbroken e (.reply r) := by
  have position : (∀ value ∈ eventId (.reply r), OneLine value) ↔
      (Resumable r → OneLine r.epoch.toList ∧ OneLine r.streamId.toList) := by
    by_cases resumable : Resumable r
    · simp [eventId, resumable, oneLine_lastId]
    · simp [eventId, resumable]
  constructor
  · intro flat
    exact ⟨flat.type, oneLine_eventData.mp flat.data, position.mp flat.id⟩
  · intro ⟨type, data, id⟩
    exact ⟨type, oneLine_eventData.mpr data, position.mpr id, by simp [expected, eventRetry]⟩

/-- The messages of the server itself are always read back. -/
theorem flat_disconnect (e : Sse) (d : DisconnectMessage) : (expected e (.disconnect d)).Flat := by
  have type : OneLine (expected e (.disconnect d)).type := by
    simp only [expected, EncodedMessage.getType, DisconnectMessage.getType]
    decide
  refine ⟨type, Json.chars_oneLine d.json, by simp [expected, eventId], ?_⟩
  intro value present
  simp only [expected, eventRetry] at present
  split at present
  · cases present
  · rw [← Option.mem_some_iff.mp present]
    decide

theorem flat_ping (e : Sse) (p : PingMessage) : (expected e (.ping p)).Flat := by
  have type : OneLine (expected e (.ping p)).type := by
    simp only [expected, EncodedMessage.getType, PingMessage.getType]
    decide
  exact ⟨type, Json.chars_oneLine p.json, by simp [expected, eventId],
    by simp [expected, eventRetry]⟩

/-- The expected event is one line per value exactly if no value written as it is has a line end. -/
theorem flat_iff_unbroken : (expected e msg).Flat ↔ Unbroken e msg := by
  cases msg with
  | reply r => exact flat_reply
  | ping p => exact iff_of_true (flat_ping e p) trivial
  | disconnect d => exact iff_of_true (flat_disconnect e d) trivial

end Flat

/-- The bytes a frame adds to an open connection are read as the one event of the message exactly if
no value that is written as it is has a line end. -/
theorem read_iff_unbroken (e : Sse) (msg : EncodedMessage) (frame : SentFrame) (c : SseConnection)
    (sent : e.encode msg = .ok (some frame)) (isOpen : c.done = false) :
    ∃ added, (c.write (utf8 frame.payload.toList)).bytes = c.bytes ++ utf8 added ∧
      (parse added = [expected e msg] ↔ Unbroken e msg) := by
  refine ⟨_, bytes_payload isOpen frame.payload, ?_⟩
  rw [payload_eq_text sent, parse_text_iff, flat_iff_unbroken]

/-- A message with its position, unwrapped, on a new connection. -/
theorem message_read :
    ∃ added,
      (({} : SseConnection).write (utf8 "data: hi\nid: 7/e/s".toList)).bytes =
        ({} : SseConnection).bytes ++ utf8 added ∧
      (parse added = [{ data := "hi".toList, id := some "7/e/s".toList }] ↔
        Unbroken { unwrapData := true } (.reply
          { message := .text "hi", streamId := "s", epoch := "e", offset := 7 })) :=
  read_iff_unbroken { unwrapData := true }
    (.reply { message := .text "hi", streamId := "s", epoch := "e", offset := 7 })
    ⟨.text, "data: hi\nid: 7/e/s"⟩ {} (by decide +kernel) rfl

/-- A broadcast of a text with line ends: the client reads two events, of which the second has a
type and an id of the sender's choice. -/
theorem message_forges_event :
    let text := "a\n\nevent: disconnect\nid: 9/e/s\ndata: b"
    let e : Sse := { unwrapData := true }
    (e.encode (.reply { message := .text text }) = .ok (some ⟨.text, "data: " ++ text⟩)) ∧
      (({} : SseConnection).write (utf8 ("data: " ++ text).toList)).bytes =
        utf8 (("data: " ++ text).toList ++ ['\n', '\n']) ∧
      parse (("data: " ++ text).toList ++ ['\n', '\n']) =
        [{ data := "a".toList },
         { type := "disconnect".toList, data := "b".toList, id := some "9/e/s".toList }] ∧
      (expected e (.reply { message := .text text })).data = text.toList := by
  decide +kernel

/-! ### Whole connections -/

inductive Op where
  | send (msg : EncodedMessage)
  | establish
  | close

def step (e : Sse) (c : SseConnection) : Op → SseConnection
  | .send msg =>
    match e.encode msg with
    | .ok (some frame) => c.write (utf8 frame.payload.toList)
    | _ => c
  | .establish => c.establish
  | .close => c.close

/-- `RawData` leaves out the messages with a type. -/
def suppressed (e : Sse) (msg : EncodedMessage) : Bool := e.rawData && msg.getType != ""

/-- The events of the messages sent before the connection is closed. -/
def eventsSent (e : Sse) : Bool → List Op → List Event
  | _, [] => []
  | done, .send msg :: ops =>
    (if done || suppressed e msg then [] else [expected e msg]) ++ eventsSent e done ops
  | done, .establish :: ops => eventsSent e done ops
  | _, .close :: ops => eventsSent e true ops

section Streams

variable {e : Sse} {msg : EncodedMessage} {c : SseConnection}

theorem encode_suppressed (left : suppressed e msg = true) : e.encode msg = .ok none := by
  rw [suppressed, Bool.and_eq_true, bne_iff_ne] at left
  simp [Sse.encode, left.1, left.2]

theorem encode_some (kept : suppressed e msg = false) :
    ∃ frame, e.encode msg = .ok (some frame) := by
  by_cases untyped : msg.getType = ""
  · simp [Sse.encode, untyped]
  · have full : e.rawData = false := by
      simpa [suppressed, untyped] using kept
    simp [Sse.encode, untyped, full]

/-- What a message adds to the connection. -/
theorem bytes_send (e : Sse) (msg : EncodedMessage) (c : SseConnection) :
    (step e c (.send msg)).bytes = c.bytes ++
      utf8 ((if c.done || suppressed e msg then [] else [expected e msg]).flatMap
        fun event => event.text ++ ['\n', '\n']) := by
  cases left : suppressed e msg with
  | true => simp [step, encode_suppressed left, utf8]
  | false =>
    obtain ⟨frame, sent⟩ := encode_some left
    simp only [step, sent]
    cases isOpen : c.done with
    | true => simp [SseConnection.write_of_done isOpen, utf8]
    | false =>
      rw [bytes_payload isOpen, payload_eq_text sent]
      simp

theorem done_send (e : Sse) (msg : EncodedMessage) (c : SseConnection) :
    (step e c (.send msg)).done = c.done := by
  rw [step]
  split
  · exact c.done_write _
  · rfl

theorem bytes_run (e : Sse) (c : SseConnection) (ops : List Op) :
    (ops.foldl (step e) c).bytes = c.bytes ++
      utf8 ((eventsSent e c.done ops).flatMap fun event => event.text ++ ['\n', '\n']) := by
  induction ops generalizing c with
  | nil => simp [eventsSent, utf8]
  | cons op ops ih =>
    rw [List.foldl_cons, ih]
    cases op with
    | send msg =>
      rw [bytes_send, done_send, eventsSent, List.flatMap_append, utf8_append, List.append_assoc]
    | establish => rw [eventsSent, step, c.bytes_establish, c.done_establish]
    | close => rw [eventsSent, step, c.bytes_close, c.done_close]

theorem mem_eventsSent {event : Event} {done : Bool} {ops : List Op}
    (member : event ∈ eventsSent e done ops) : ∃ msg, .send msg ∈ ops ∧ event = expected e msg := by
  induction ops generalizing done with
  | nil => cases member
  | cons op ops ih =>
    cases op with
    | send msg =>
      rw [eventsSent] at member
      rcases List.mem_append.mp member with now | later
      · split at now
        · cases now
        · exact ⟨msg, List.mem_cons_self, List.mem_singleton.mp now⟩
      · obtain ⟨other, sent, same⟩ := ih later
        exact ⟨other, List.mem_cons_of_mem _ sent, same⟩
    | establish | close =>
      obtain ⟨other, sent, same⟩ := ih member
      exact ⟨other, List.mem_cons_of_mem _ sent, same⟩

/-- Over any use of a connection, the client reads the events of the messages sent, if none of the
values written as they are has a line end. -/
theorem stream_faithful (e : Sse) (ops : List Op)
    (unbroken : ∀ msg, .send msg ∈ ops → Unbroken e msg) :
    ∃ text, (ops.foldl (step e) {}).bytes = utf8 text ∧ parse text = eventsSent e false ops := by
  have flat : ∀ event ∈ eventsSent e false ops, event.Flat := by
    intro event member
    obtain ⟨msg, sent, rfl⟩ := mem_eventsSent member
    exact flat_iff_unbroken.mpr (unbroken msg sent)
  exact ⟨_, bytes_run e {} ops, parse_stream flat⟩

end Streams

end AnyCable.Guarantees.EventFraming
