import AnyCable.Source.NodeBroadcasts

/-!
# Batches with missing messages

Source: `common/common.go:546-571`, `node/node.go:198-243`. `null` in a batch is decoded to a `nil`
pointer. `PubSubMessageFromJSON` reads the stream of the first element, so it panics if that one is
missing; elements behind it are not looked at, and what consumes the batch reads a field of each.

`broadcast_safe_iff` gives the texts for which this happens (`MissingMessage`): all others are
parsed without a panic, into messages that are there, and are consumed without reading a `nil` one.
-/

set_option autoImplicit false

namespace AnyCable.Guarantees.MissingMessages
open AnyCable.Lib AnyCable.Source

/-- The text is an array of messages with a `null` among them, whose first element is `null` or
names a stream. -/
def MissingMessage (raw : String) : Prop :=
  ∃ items ms, Json.parse raw = some (.arr items) ∧ Batch.unmarshal (.arr items) = some ms ∧
    Json.null ∈ items ∧ ∀ m, ms.head? = some (some m) → m.stream ≠ ""

/-- What a received text should not do to a node. -/
structure Safe (x : Receiver) (raw : String) (now : Instant) : Prop where
  parses : pubSubMessageFromJSON raw ≠ .panics
  complete : ∀ ms, pubSubMessageFromJSON raw = .returns (.batch ms) → none ∉ ms
  handleBroadcast : x.handleBroadcast raw now ≠ .error .nilMessage
  handlePubSub : ∃ after, x.handlePubSub raw = .ok after

/-! ### The elements of a batch -/

theorem element_eq_none {item : Json} : Batch.element item = some none ↔ item = .null := by
  cases item <;> simp [Batch.element]

/-- The elements that are missing are those that are `null`. -/
theorem mem_unmarshal {items : List Json} {ms : Batch}
    (read : Batch.unmarshal (.arr items) = some ms) : none ∈ ms ↔ Json.null ∈ items := by
  simp only [Batch.unmarshal] at read
  induction items generalizing ms with
  | nil =>
    cases read
    simp
  | cons item items ih =>
    simp only [List.mapM_cons, Option.bind_eq_bind, Option.bind_eq_some_iff, pure,
      Option.some.injEq] at read
    obtain ⟨first, here, rest, later, rfl⟩ := read
    rw [List.mem_cons, List.mem_cons, ih later]
    refine or_congr ⟨fun missing => ?_, fun null => ?_⟩ Iff.rfl
    · exact (element_eq_none.mp (missing ▸ here)).symm
    · rw [← null] at here
      exact Option.some.inj here

theorem missingMessage_iff {raw : String} :
    MissingMessage raw ↔ ∃ first rest,
      (Json.parse raw).bind Batch.unmarshal = some (first :: rest) ∧ none ∈ first :: rest ∧
      ∀ m, first = some m → m.stream ≠ "" := by
  constructor
  · rintro ⟨items, ms, parsed, read, null, named⟩
    have missing := (mem_unmarshal read).mpr null
    cases ms with
    | nil => simp at missing
    | cons first rest =>
      exact ⟨first, rest, by simp [parsed, read], missing, fun m same => named m (by simp [same])⟩
  · rintro ⟨first, rest, read, missing, named⟩
    obtain ⟨j, parsed, read⟩ := Option.bind_eq_some_iff.mp read
    cases j with
    | arr items =>
      exact ⟨items, _, parsed, read, (mem_unmarshal read).mp missing,
        fun m same => named m (by simpa using same)⟩
    | _ => simp [Batch.unmarshal] at read

/-! ### The three attempts -/

/-- What the last attempt returns is a command. -/
theorem commandFromJSON_cases (raw : String) :
    (∃ c, commandFromJSON raw = .returns (.command c)) ∨ commandFromJSON raw = .fails := by
  unfold commandFromJSON
  split
  · exact .inl ⟨_, rfl⟩
  · exact .inr rfl

/-- An array is not decoded into a message. -/
theorem message_of_batch {value : Option Json} {first : Option StreamMessage} {rest : Batch}
    (read : value.bind Batch.unmarshal = some (first :: rest)) :
    value.bind StreamMessage.unmarshal = none := by
  obtain ⟨j, rfl, read⟩ := Option.bind_eq_some_iff.mp read
  cases j with
  | arr items => rfl
  | _ => simp [Batch.unmarshal] at read

/-- A text whose second attempt goes on to the third. -/
theorem noBatch {raw : String} (last : batchFromJSON raw = commandFromJSON raw) :
    (∃ m, pubSubMessageFromJSON raw = .returns (.message m)) ∨
      (∃ c, pubSubMessageFromJSON raw = .returns (.command c)) ∨
      pubSubMessageFromJSON raw = .fails := by
  unfold pubSubMessageFromJSON
  rw [last]
  split
  · split
    · exact .inl ⟨_, rfl⟩
    · exact .inr (commandFromJSON_cases raw)
  · exact .inr (commandFromJSON_cases raw)

/-- How a text is read: as a batch whose first element is missing or names a stream, or else as a
message, as a command or not at all. -/
theorem pubSubMessageFromJSON_cases (raw : String) :
    (∃ rest, (Json.parse raw).bind Batch.unmarshal = some (none :: rest) ∧
      pubSubMessageFromJSON raw = .panics) ∨
    (∃ m rest, (Json.parse raw).bind Batch.unmarshal = some (some m :: rest) ∧ m.stream ≠ "" ∧
      pubSubMessageFromJSON raw = .returns (.batch (some m :: rest))) ∨
    ((∀ first rest, (Json.parse raw).bind Batch.unmarshal = some (first :: rest) →
        ∃ m, first = some m ∧ m.stream = "") ∧
      ((∃ m, pubSubMessageFromJSON raw = .returns (.message m)) ∨
        (∃ c, pubSubMessageFromJSON raw = .returns (.command c)) ∨
        pubSubMessageFromJSON raw = .fails)) := by
  cases read : (Json.parse raw).bind Batch.unmarshal with
  | none => exact .inr (.inr ⟨by simp, noBatch (by simp [batchFromJSON, read])⟩)
  | some ms =>
    cases ms with
    | nil => exact .inr (.inr ⟨by simp, noBatch (by simp [batchFromJSON, read])⟩)
    | cons first rest =>
      have second : pubSubMessageFromJSON raw = batchFromJSON raw := by
        simp [pubSubMessageFromJSON, message_of_batch read]
      cases first with
      | none => exact .inl ⟨rest, rfl, by simp [second, batchFromJSON, read]⟩
      | some m =>
        by_cases named : m.stream = ""
        · refine .inr (.inr ⟨fun first rest same => ?_, .inr ?_⟩)
          · cases same
            exact ⟨m, rfl, named⟩
          · have last : pubSubMessageFromJSON raw = commandFromJSON raw := by
              simp [second, batchFromJSON, read, named]
            rw [last]
            exact commandFromJSON_cases raw
        · exact .inr (.inl ⟨m, rest, rfl, named, by simp [second, batchFromJSON, read, named]⟩)

/-! ### The consumers of a batch -/

/-- A loop over messages that are there does not read a `nil` one, if no turn does. -/
theorem foldlM_complete {turn : Receiver → Option StreamMessage → Except Panic Receiver}
    (reads : ∀ x m, turn x (some m) ≠ .error .nilMessage) {ms : Batch} (complete : none ∉ ms)
    (x : Receiver) : ms.foldlM turn x ≠ .error .nilMessage := by
  induction ms generalizing x with
  | nil => simp [pure, Except.pure]
  | cons first rest ih =>
    cases first with
    | none => simp at complete
    | some m =>
      rw [List.foldlM_cons]
      cases turned : turn x (some m) with
      | error panic =>
        intro same
        exact reads x m (turned.trans same)
      | ok next => exact ih (fun member => complete (by simp [member])) next

theorem record_reads (now : Instant) (x : Receiver) (m : StreamMessage) :
    x.record now (some m) ≠ .error .nilMessage := by
  simp only [Receiver.record]
  split <;> simp

/-- The hub takes every message that is there. -/
theorem foldlM_broadcast {ms : Batch} (complete : none ∉ ms) (x : Receiver) :
    ∃ after, ms.foldlM Receiver.broadcast x = .ok after := by
  induction ms generalizing x with
  | nil => exact ⟨x, rfl⟩
  | cons first rest ih =>
    cases first with
    | none => simp at complete
    | some m => exact ih (fun member => complete (by simp [member])) _

/-- For every text a node receives: the parser does not panic, a batch it returns has no missing
message, and neither `HandleBroadcast` nor `HandlePubSub` reads a missing one, if and only if the
text is not a batch with a `null` whose first element is `null` or names a stream. -/
theorem broadcast_safe_iff (x : Receiver) (raw : String) (now : Instant) :
    Safe x raw now ↔ ¬ MissingMessage raw := by
  rw [missingMessage_iff]
  rcases pubSubMessageFromJSON_cases raw with
    ⟨rest, read, panics⟩ | ⟨m, rest, read, named, batch⟩ | ⟨unnamed, single⟩
  · refine iff_of_false (fun safe => safe.parses panics) (not_not_intro ?_)
    exact ⟨none, rest, read, by simp, by simp⟩
  · have missing : (∃ first others,
        (Json.parse raw).bind Batch.unmarshal = some (first :: others) ∧
        none ∈ first :: others ∧ ∀ m, first = some m → m.stream ≠ "") ↔
        none ∈ some m :: rest := by
      constructor
      · rintro ⟨first, others, same, member, -⟩
        cases read.symm.trans same
        exact member
      · intro member
        exact ⟨some m, rest, read, member, by simpa using named⟩
    rw [missing]
    refine ⟨fun safe => safe.complete _ batch, fun complete => ⟨?_, ?_, ?_, ?_⟩⟩
    · simp [batch]
    · intro ms same
      cases batch.symm.trans same
      exact complete
    · simpa only [Receiver.handleBroadcast, batch] using
        foldlM_complete (record_reads now) complete x
    · simpa only [Receiver.handlePubSub, batch] using foldlM_broadcast complete x
  · refine iff_of_true ?_ ?_
    · rcases single with ⟨m, read⟩ | ⟨c, read⟩ | read
      · refine ⟨by simp [read], by simp [read], ?_, ?_⟩
        · simpa only [Receiver.handleBroadcast, read] using record_reads now x m
        · exact ⟨_, by simp only [Receiver.handlePubSub, read]; rfl⟩
      · refine ⟨by simp [read], by simp [read], ?_, ?_⟩
        · simp [Receiver.handleBroadcast, read]
        · exact ⟨_, by simp only [Receiver.handlePubSub, read]; rfl⟩
      · refine ⟨by simp [read], by simp [read], ?_, ?_⟩
        · simp [Receiver.handleBroadcast, read]
        · exact ⟨_, by simp only [Receiver.handlePubSub, read]; rfl⟩
    · rintro ⟨first, rest, read, -, named⟩
      obtain ⟨m, rfl, empty⟩ := unnamed first rest read
      exact named m rfl empty

/-- A node with the broker that keeps no history. -/
def legacyNode : Receiver :=
  { node := { codec := .blank, hub := { gatesNum := 1 } } }

/-- A `null` alone, and a `null` behind a message that names a stream. -/
theorem null_elements_panic :
    pubSubMessageFromJSON "[null]" = .panics ∧
    pubSubMessageFromJSON "[\x7b\"stream\":\"a\",\"data\":\"b\"\x7d,null]" =
      .returns (.batch [some { stream := "a", data := "b" }, none]) ∧
    legacyNode.handleBroadcast "[\x7b\"stream\":\"a\",\"data\":\"b\"\x7d,null]" 0 =
      .error .nilMessage ∧
    legacyNode.handlePubSub "[\x7b\"stream\":\"a\",\"data\":\"b\"\x7d,null]" =
      .error .nilMessage := by
  have alone : (Json.parse "[null]").bind Batch.unmarshal = some [none] := by decide +kernel
  have behind : (Json.parse "[\x7b\"stream\":\"a\",\"data\":\"b\"\x7d,null]").bind
      Batch.unmarshal = some [some { stream := "a", data := "b" }, none] := by decide +kernel
  have batch : pubSubMessageFromJSON "[\x7b\"stream\":\"a\",\"data\":\"b\"\x7d,null]" =
      .returns (.batch [some { stream := "a", data := "b" }, none]) := by
    simp [pubSubMessageFromJSON, batchFromJSON, message_of_batch behind, behind]
  refine ⟨?_, batch, ?_, ?_⟩
  · simp [pubSubMessageFromJSON, batchFromJSON, message_of_batch alone, alone]
  · simp only [Receiver.handleBroadcast, batch]
    rfl
  · simp only [Receiver.handlePubSub, batch]
    rfl

end AnyCable.Guarantees.MissingMessages
