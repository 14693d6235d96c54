import AnyCable.Lib.Float64
import AnyCable.Source.Structs

/-!
# Published data on its way to clients

Source: `common/common.go:393-419`, `hub/gate.go:164-172`, `encoders/json.go:19-25`. The data of a
message is decoded into an untyped value and encoded again as a field of the frame. A value that is
still unset after decoding stands for data that is no JSON, which is sent as a string; but `null` is
decoded to the same, and so is a number that does not fit a `float64`.

`data_arrives_iff` says which messages arrive as they were published, on both ways: broadcast
(`buildMessage`) and from history (`ToReplyFor`).
-/

set_option autoImplicit false

namespace AnyCable.Guarantees.PublishedData
open AnyCable.Lib AnyCable.Source AnyCable.Source.Encoders

variable (floats : Floats)

/-- The ways on which a message gets to a client. -/
inductive Way where
  | live | history
  deriving DecidableEq, Repr

/-- The reply for a message. -/
def replyOn (sm : StreamMessage) (identifier : String) : Way → Reply
  | .live => buildReply (Json.untyped floats) sm identifier
  | .history => toReplyFor (Json.untyped floats) sm identifier

/-- A field of the JSON object in a frame. -/
def field (frame : SentFrame) (name : String) : Option Json :=
  match Json.parse frame.payload with
  | some (.obj fields) => fields.lookup name
  | _ => none

/-- The frame has the data and the position of the message. -/
structure Arrives (sm : StreamMessage) (frame : SentFrame) : Prop where
  /-- JSON arrives with its value. -/
  json : ∀ d, Json.parse sm.data = some d →
    ∃ j, field frame "message" = some j ∧ j.value = d.value
  /-- Everything else arrives as a string. -/
  text : Json.parse sm.data = none → field frame "message" = some (.str sm.data)
  streamId : (field frame "stream_id").isSome = true ↔ sm.epoch ≠ ""
  epoch : (field frame "epoch").isSome = true ↔ sm.epoch ≠ ""
  offset : (field frame "offset").isSome = true ↔ sm.epoch ≠ ""

/-- The messages that arrive. -/
structure Plain (sm : StreamMessage) : Prop where
  /-- JSON data is not `null`, and its numbers are kept. -/
  data : ∀ d, Json.parse sm.data = some d → d ≠ .null ∧ d.Exact floats
  /-- An epoch comes with a stream and an offset, and without one there is no offset. -/
  position : if sm.epoch = "" then sm.offset = 0 else sm.stream ≠ "" ∧ sm.offset ≠ 0

/-! ### The message of a reply -/

variable {floats} {sm : StreamMessage} {identifier : String}

/-- The two ways differ in the type alone. -/
theorem replyOn_fields (floats : Floats) (sm : StreamMessage) (identifier : String) (way : Way) :
    (replyOn floats sm identifier way).message =
        (toReplyFor (Json.untyped floats) sm identifier).message ∧
      (replyOn floats sm identifier way).presence = none ∧
      (replyOn floats sm identifier way).streamId = (if sm.epoch ≠ "" then sm.stream else "") ∧
      (replyOn floats sm identifier way).epoch = sm.epoch ∧
      (replyOn floats sm identifier way).offset = sm.offset := by
  cases way with
  | history => exact ⟨rfl, rfl, rfl, rfl, rfl⟩
  | live =>
    unfold replyOn buildReply
    cases sm.metadata with
    | none => exact ⟨rfl, rfl, rfl, rfl, rfl⟩
    | some d => exact ⟨rfl, rfl, rfl, rfl, rfl⟩

theorem message_of_text (other : Json.parse sm.data = none) :
    (toReplyFor (Json.untyped floats) sm identifier).message = .text sm.data := by
  simp [toReplyFor, Json.untyped, other]

variable (floats) in
/-- What becomes of JSON data. -/
def bodyOf (data : String) : Json → Value
  | .null => .text data
  | .num n =>
    match floats.reprint n with
    | none => .text data
    | some m => .value (.num m)
  | .str s => .text s
  | j => .value (j.reencode floats)

theorem message_of_json {d : Json} (parsed : Json.parse sm.data = some d) :
    (toReplyFor (Json.untyped floats) sm identifier).message = bodyOf floats sm.data d := by
  cases d with
  | num n =>
    simp only [toReplyFor, Json.untyped, parsed, bodyOf]
    cases floats.reprint n <;> rfl
  | _ => simp [toReplyFor, Json.untyped, parsed, Json.reencode, bodyOf]

theorem message_value_iff {d : Json} (parsed : Json.parse sm.data = some d) :
    (toReplyFor (Json.untyped floats) sm identifier).message.json.value = d.value ↔
      d ≠ .null ∧ d.Exact floats := by
  rw [message_of_json parsed]
  cases d with
  | null => simp [bodyOf, Value.json, Json.value]
  | num n =>
    cases printed : floats.reprint n with
    | none => simp [bodyOf, Value.json, Json.value, Json.Exact, printed]
    | some m => simp [bodyOf, Value.json, Json.value, Json.Exact, printed]
  | str s => simp [bodyOf, Value.json, Json.Exact]
  | bool b => simp [bodyOf, Value.json, Json.Exact, Json.reencode]
  | arr items =>
    rw [← Json.value_reencode_iff floats (.arr items)]
    simp [bodyOf, Value.json]
  | obj fields =>
    rw [← Json.value_reencode_iff floats (.obj fields)]
    simp [bodyOf, Value.json]

/-- The message of a reply is there, and can be encoded. -/
theorem message_valid (floats : Floats) (sm : StreamMessage) (identifier : String) :
    (toReplyFor (Json.untyped floats) sm identifier).message.isNil = false ∧
      (toReplyFor (Json.untyped floats) sm identifier).message.json.valid = true := by
  cases parsed : Json.parse sm.data with
  | none =>
    rw [message_of_text parsed]
    exact ⟨rfl, rfl⟩
  | some d =>
    rw [message_of_json parsed]
    cases d with
    | null => exact ⟨rfl, rfl⟩
    | str s => exact ⟨rfl, rfl⟩
    | num n =>
      cases printed : floats.reprint n with
      | none => simp [bodyOf, printed, Value.isNil, Value.json, Json.valid]
      | some m =>
        simp [bodyOf, printed, Value.isNil, Value.json, Json.valid, floats.number n m printed]
    | bool b => exact ⟨rfl, Json.valid_reencode floats (.bool b)⟩
    | arr items => exact ⟨rfl, Json.valid_reencode floats (.arr items)⟩
    | obj fields => exact ⟨rfl, Json.valid_reencode floats (.obj fields)⟩

/-! ### The fields of the frame -/

section Frame

variable {r : Reply} {frame : SentFrame}

theorem field_eq (message : r.message.json.valid = true) (noPresence : r.presence = none)
    (sent : Encoder.json.encode (.reply r) = .ok (some frame)) (name : String) :
    field frame name = match r.json with
      | .obj fields => fields.lookup name
      | _ => none := by
  have payload : frame.payload = r.json.text := by
    simp only [Encoder.encode, EncodedMessage.json, Except.ok.injEq, Option.some.injEq] at sent
    rw [← sent]
  rw [field, payload, Json.parse_text (valid_reply message (by simp [noPresence]))]
  rfl

theorem field_message (message : r.message.json.valid = true) (noPresence : r.presence = none)
    (present : r.message.isNil = false)
    (sent : Encoder.json.encode (.reply r) = .ok (some frame)) :
    field frame "message" = some r.message.json := by
  rw [field_eq message noPresence sent]
  simp [Reply.json, List.lookup_append, lookup_omitEmpty, present]

theorem field_position (message : r.message.json.valid = true) (noPresence : r.presence = none)
    (sent : Encoder.json.encode (.reply r) = .ok (some frame)) :
    ((field frame "stream_id").isSome = true ↔ r.streamId ≠ "") ∧
      ((field frame "epoch").isSome = true ↔ r.epoch ≠ "") ∧
      ((field frame "offset").isSome = true ↔ r.offset ≠ 0) := by
  rw [field_eq message noPresence sent, field_eq message noPresence sent,
    field_eq message noPresence sent]
  refine ⟨?_, ?_, ?_⟩
  all_goals simp [Reply.json, List.lookup_append, lookup_omitEmpty, noPresence]

/-- Stream and offset come with the epoch. -/
theorem position_iff (sm : StreamMessage) :
    (((if sm.epoch ≠ "" then sm.stream else "") ≠ "" ↔ sm.epoch ≠ "") ∧
        (sm.offset ≠ 0 ↔ sm.epoch ≠ "")) ↔
      if sm.epoch = "" then sm.offset = 0 else sm.stream ≠ "" ∧ sm.offset ≠ 0 := by
  by_cases missing : sm.epoch = ""
  · simp [missing]
  · simp [missing]

end Frame

/-- For every message, on both ways: the frame that the JSON encoder makes has the value of the data
(or the data as a string, if it is no JSON) and the position exactly if there is an epoch, if and
only if the data is not `null`, its numbers survive as `float64`, and stream and offset come with
the epoch. -/
theorem data_arrives_iff (floats : Floats) (sm : StreamMessage) (identifier : String) (way : Way)
    (frame : SentFrame)
    (sent : Encoder.json.encode (.reply (replyOn floats sm identifier way)) = .ok (some frame)) :
    Arrives sm frame ↔ Plain floats sm := by
  obtain ⟨message, noPresence, streamId, epoch, offset⟩ :=
    replyOn_fields floats sm identifier way
  obtain ⟨present, valid⟩ := message_valid floats sm identifier
  rw [← message] at present valid
  have body := field_message valid noPresence present sent
  obtain ⟨hasStream, hasEpoch, hasOffset⟩ := field_position valid noPresence sent
  rw [streamId] at hasStream
  rw [epoch] at hasEpoch
  rw [offset] at hasOffset
  constructor
  · intro arrives
    refine ⟨fun d parsed => ?_, (position_iff sm).mp
      ⟨hasStream.symm.trans arrives.streamId, hasOffset.symm.trans arrives.offset⟩⟩
    obtain ⟨j, found, same⟩ := arrives.json d parsed
    rw [body, Option.some.injEq] at found
    rw [← found, message] at same
    exact (message_value_iff parsed).mp same
  · intro plain
    obtain ⟨streams, offsets⟩ := (position_iff sm).mpr plain.position
    refine ⟨fun d parsed => ⟨_, body, ?_⟩, fun other => ?_, hasStream.trans streams, hasEpoch,
      hasOffset.trans offsets⟩
    · rw [message]
      exact (message_value_iff parsed).mpr (plain.data d parsed)
    · rw [body, message, message_of_text other]
      rfl

/-- A list with a number, from history. -/
theorem list_arrives :
    Arrives ⟨"chat", (Json.arr [.bool true, .num (numeral 12)]).text, none, 7, "e1"⟩
      ⟨.text, (replyOn Float64.floats
        ⟨"chat", (Json.arr [.bool true, .num (numeral 12)]).text, none, 7, "e1"⟩ "room"
        .history).json.text⟩ := by
  refine (data_arrives_iff Float64.floats _ "room" .history _ rfl).mpr ⟨fun d parsed => ?_, ?_⟩
  · rw [Json.parse_text rfl, Option.some.injEq] at parsed
    have printed : (Float64.floats.reprint (numeral 12)).map Numeral.digits =
        some (numeral 12).digits := by decide +kernel
    obtain ⟨m, found, digits⟩ := Option.map_eq_some_iff.mp printed
    have same : m.value = (numeral 12).value := by
      rw [Numeral.value, Numeral.decimal, digits, Numeral.value, Numeral.decimal]
    rw [← parsed]
    exact ⟨Json.noConfusion, trivial, ⟨m, found, same⟩, trivial⟩
  · rw [if_neg (by decide)]
    exact ⟨by decide, by decide⟩

/-- Data that is `null` arrives as a string, and a large number as another one. -/
theorem null_arrives_as_string :
    (Encoder.json.encode (.reply (replyOn Float64.floats ⟨"chat", "null", none, 0, ""⟩ "room"
          .live)) =
        .ok (some ⟨.text, "\x7b\"identifier\":\"room\",\"message\":\"null\"\x7d"⟩) ∧
      ¬ Arrives ⟨"chat", "null", none, 0, ""⟩
        ⟨.text, "\x7b\"identifier\":\"room\",\"message\":\"null\"\x7d"⟩) ∧
    Encoder.json.encode (.reply (replyOn Float64.floats ⟨"chat", "9007199254740993", none, 0, ""⟩
        "room" .live)) =
      .ok (some ⟨.text, "\x7b\"identifier\":\"room\",\"message\":9007199254740992\x7d"⟩) := by
  refine ⟨⟨by decide +kernel, fun arrives => ?_⟩, by decide +kernel⟩
  have parsed : Json.parse "null" = some .null := Json.parse_text (j := .null) rfl
  obtain ⟨j, found, same⟩ := arrives.json .null parsed
  have frame : Encoder.json.encode (.reply { identifier := "room", message := .text "null" }) =
      .ok (some ⟨.text, "\x7b\"identifier\":\"room\",\"message\":\"null\"\x7d"⟩) := by
    decide +kernel
  rw [field_message rfl rfl rfl frame, Option.some.injEq] at found
  simp [← found, Value.json, Json.value] at same

end AnyCable.Guarantees.PublishedData
