import AnyCable.Source.Clock
import AnyCable.Source.PubSubMessages
import AnyCable.Source.Structs

/-!
# Messages that go from node to node

Source: `common/common.go:346-374,421-443,546-571`, `pubsub/redis.go:165-189`. What a node publishes
is read back by the others without a tag. Every kind comes back as itself: a stream message or a
batch of them, with named streams, equal to what was sent, a remote command with the same payload
(`wire_faithful`). A command has no name in common with a stream message, so that it is read as one
without a stream, and an array is not an object, nor an object an array.
-/

set_option autoImplicit false

namespace AnyCable.Guarantees.WireMessages
open AnyCable.Lib AnyCable.Source AnyCable.Source.Encoders

/-! ### What is written can be parsed -/

theorem valid_metadata (d : StreamMessageMetadata) : d.json.valid = true := by
  have text (s : String) : (Json.str s).valid = true := rfl
  have flag (b : Bool) : (Json.bool b).valid = true := rfl
  simp [StreamMessageMetadata.json, Json.valid, Json.validFields_append,
    validFields_omitEmpty _ _ (text _), validFields_omitEmpty _ _ (flag _)]

theorem valid_message (m : StreamMessage) : m.json.valid = true := by
  have offset : isNumber (numeral m.offset).digits = true := isNumber_toDigits m.offset
  cases shape : m.metadata with
  | none => simp [StreamMessage.json, shape, Json.valid, Json.validFields, offset]
  | some d => simp [StreamMessage.json, shape, Json.valid, Json.validFields, offset, valid_metadata]

/-! ### What is written is read back -/

theorem unmarshal_metadata (d : StreamMessageMetadata) :
    unmarshal StreamMessageMetadata.fields {} d.json = some d := by
  have socket : assign StreamMessageMetadata.fields {} ("exclude_socket", .str d.excludeSocket) =
      some { excludeSocket := d.excludeSocket } := rfl
  have type : assign StreamMessageMetadata.fields { excludeSocket := d.excludeSocket }
      ("broadcast_type", .str d.broadcastType) =
        some { excludeSocket := d.excludeSocket, broadcastType := d.broadcastType } := rfl
  have transient : assign StreamMessageMetadata.fields
      { excludeSocket := d.excludeSocket, broadcastType := d.broadcastType }
      ("transient", .bool d.transient) = some d := rfl
  rw [StreamMessageMetadata.json, List.append_assoc, unmarshal_omitEmpty socket,
    unmarshal_omitEmpty type, ← List.append_nil (omitEmpty _ "transient" _),
    unmarshal_omitEmpty transient]
  · rfl
  · intro off
    simp only [Bool.not_eq_true'] at off
    simp [← off]
  · intro unset
    simp [beq_iff_eq.mp unset]
  · intro unset
    simp [beq_iff_eq.mp unset]

theorem unmarshal_message {m : StreamMessage} (small : m.offset < 2 ^ 64) :
    StreamMessage.unmarshal m.json = some m := by
  have offset (x : StreamMessage) : assign StreamMessage.fields x
      ("Offset", .num (numeral m.offset)) = some { x with offset := m.offset } :=
    congrArg (Option.map _) (parseUint_toDigits small)
  have rest (x : StreamMessage) : unmarshal StreamMessage.fields x
      (.obj [("Offset", .num (numeral m.offset)), ("Epoch", .str m.epoch)]) =
        some { x with offset := m.offset, epoch := m.epoch } := by
    rw [unmarshal_cons (offset x)]
    rfl
  rw [StreamMessage.unmarshal, StreamMessage.json, List.append_assoc, List.cons_append,
    List.cons_append, List.nil_append]
  rw [unmarshal_cons (show assign StreamMessage.fields StreamMessage.zero
      ("stream", .str m.stream) = some { stream := m.stream, data := "" } from rfl),
    unmarshal_cons (show assign StreamMessage.fields { stream := m.stream, data := "" }
      ("data", .str m.data) = some { stream := m.stream, data := m.data } from rfl)]
  cases shape : m.metadata with
  | none =>
    rw [Option.map_none, Option.toList_none, List.nil_append, rest, ← shape]
  | some d =>
    have meta_read : assign StreamMessage.fields { stream := m.stream, data := m.data }
        ("meta", d.json) = some { stream := m.stream, data := m.data, metadata := some d } :=
      congrArg (Option.map _) (unmarshal_metadata d)
    rw [Option.map_some, Option.toList_some, List.singleton_append, unmarshal_cons meta_read, rest,
      ← shape]

theorem unmarshal_command (c : RemoteCommandMessage) :
    RemoteCommandMessage.unmarshal c.json = some c := by
  have command : assign RemoteCommandMessage.fields {} ("command", .str c.command) =
      some { command := c.command } := rfl
  rw [RemoteCommandMessage.unmarshal, RemoteCommandMessage.json, unmarshal_omitEmpty command]
  · cases shape : c.payload with
    | none =>
      rw [Option.map_none, Option.toList_none, unmarshal, List.foldlM_nil, ← shape]
      rfl
    | some value =>
      have payload : assign RemoteCommandMessage.fields { command := c.command }
          ("payload", value) = some { command := c.command, payload := some value } := rfl
      rw [Option.map_some, Option.toList_some, unmarshal_cons payload, unmarshal,
        List.foldlM_nil, ← shape]
      rfl
  · intro unset
    simp [beq_iff_eq.mp unset]

theorem assign_unknown {S : Type} {fields : List (JsonField S)} {name : String}
    (unknown : (JsonField.find fields name).isNone = true) (s : S) (value : Json) :
    assign fields s (name, value) = some s := by
  simp [assign, Option.isNone_iff_eq_none.mp unknown]

/-- No field of a command is one of a stream message. -/
theorem unmarshal_message_of_command (c : RemoteCommandMessage) :
    StreamMessage.unmarshal c.json = some StreamMessage.zero := by
  have command := assign_unknown (show (JsonField.find StreamMessage.fields "command").isNone = true
    by decide +kernel)
  have payload := assign_unknown (show (JsonField.find StreamMessage.fields "payload").isNone = true
    by decide +kernel)
  rw [StreamMessage.unmarshal, RemoteCommandMessage.json,
    unmarshal_omitEmpty (command _ _) fun _ => rfl]
  cases c.payload with
  | none => rfl
  | some value => exact unmarshal_cons (payload _ value)

theorem unmarshal_batch {ms : List StreamMessage} (small : ∀ m ∈ ms, m.offset < 2 ^ 64) :
    Batch.unmarshal (Batch.json (ms.map some)) = some (ms.map some) := by
  have element (m : StreamMessage) (fits : m.offset < 2 ^ 64) :
      Batch.element m.json = some (some m) :=
    congrArg (Option.map some) (unmarshal_message fits)
  rw [Batch.json, Batch.unmarshal, List.map_map]
  induction ms with
  | nil => rfl
  | cons m ms ih =>
    obtain ⟨fits, later⟩ := List.forall_mem_cons.mp small
    simp [element m fits, ih later]

/-! ### The three attempts -/

theorem valid_batch (ms : List StreamMessage) : (Batch.json (ms.map some)).valid = true := by
  simp only [Batch.json, Json.valid, Json.validItems_eq_all, List.all_eq_true]
  intro j member
  simp only [List.map_map, List.mem_map, Function.comp_apply, Option.map_some,
    Option.getD_some] at member
  obtain ⟨m, -, rfl⟩ := member
  exact valid_message m

theorem valid_command {c : RemoteCommandMessage} (ok : ∀ value ∈ c.payload, value.valid = true) :
    c.json.valid = true := by
  have command : Json.validFields (omitEmpty (c.command == "") "command" (.str c.command)) :=
    validFields_omitEmpty _ _ rfl
  rw [RemoteCommandMessage.json, Json.valid, Json.validFields_append, command, Bool.true_and]
  cases shape : c.payload with
  | none => rfl
  | some value => simp [Json.validFields, ok value shape]

/-- What is published is read as what it was: a stream message and a batch with named streams come
back equal, a remote command with the value of its payload. -/
theorem wire_faithful :
    (∀ m : StreamMessage, m.stream ≠ "" → m.offset < uint64Size →
      pubSubMessageFromJSON m.json.text = .returns (.message m)) ∧
    (∀ (c : RemoteCommandMessage) (value : Json), c.payload = some value → value.valid = true →
      pubSubMessageFromJSON c.json.text = .returns (.command c)) ∧
    ∀ ms : List StreamMessage, ms ≠ [] → (∀ m ∈ ms, m.stream ≠ "" ∧ m.offset < uint64Size) →
      pubSubMessageFromJSON (Batch.json (ms.map some)).text = .returns (.batch (ms.map some)) := by
  refine ⟨fun m named small => ?_, fun c value payload ok => ?_, fun ms nonempty named => ?_⟩
  · simp [pubSubMessageFromJSON, Json.parse_text (valid_message m), unmarshal_message small, named]
  · have parsed := Json.parse_text (valid_command (c := c) (by simp [payload, ok]))
    -- read as a stream message it has no stream, and it is no array
    have array : Batch.unmarshal c.json = none := rfl
    simp [pubSubMessageFromJSON, batchFromJSON, commandFromJSON, parsed,
      unmarshal_message_of_command, StreamMessage.zero, array, unmarshal_command]
  · have parsed := Json.parse_text (valid_batch ms)
    have object : StreamMessage.unmarshal (Batch.json (ms.map some)) = none := rfl
    have read := unmarshal_batch fun m member => (named m member).2
    cases ms with
    | nil => exact absurd rfl nonempty
    | cons m ms =>
      have first := (named m (by simp)).1
      simp only [List.map_cons] at parsed object read ⊢
      simp [pubSubMessageFromJSON, batchFromJSON, parsed, object, read, first]

theorem disconnect_read_back :
    pubSubMessageFromJSON (RemoteCommandMessage.json
        { command := "disconnect", payload := some (.obj [("reconnect", .bool false)]) }).text =
      .returns (.command
        { command := "disconnect", payload := some (.obj [("reconnect", .bool false)]) }) :=
  wire_faithful.2.1 _ _ rfl rfl

end AnyCable.Guarantees.WireMessages
