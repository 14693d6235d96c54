import AnyCable.Guarantees.EventFraming
import AnyCable.Source.Clock
import AnyCable.Source.SseRequest

/-!
# Resuming an event stream

Source: `sse/encoder.go:67-71`, `sse/sse.go:126-159`. The encoder writes the position of a message
as the id of its event, as offset, epoch and stream with a slash between them. A client that
connects again sends the last id it has seen as a header, and the request is read as a subscription
with history from that position.

The two agree because an offset has no slash, an epoch is taken to have none, and the stream comes
last, where further slashes are not cut.
-/

set_option autoImplicit false

namespace AnyCable.Guarantees.ResumePosition
open AnyCable.Lib AnyCable.Source AnyCable.Source.Encoders AnyCable.Source.SseRequest

variable (decorate numError : String → String → String)

/-- A history request for one stream from one position. -/
def fromPosition (stream epoch : String) (offset : Nat) : GoMap String HistoryPosition :=
  AList.insert stream ⟨epoch, offset⟩ ∅

/-- The message of a request whose last event id is a position: the rest is up to the parameter
`history_since`. -/
def resumes (r : Request) (streams : GoMap String HistoryPosition) :
    Except String (Option Message) :=
  (since decorate numError r).map fun since =>
    some { command := "subscribe", identifier := identifier r,
           history := { since := since, streams := some streams } }

/-! ### The parts of an id -/

/-- An id of three parts, the first two without a slash. -/
theorem position_parts {first epoch : List Char} (freeFirst : '/' ∉ first) (freeEpoch : '/' ∉ epoch)
    (stream : List Char) :
    position decorate numError (String.ofList (first ++ '/' :: (epoch ++ '/' :: stream))) =
      match JsonField.parseUint first with
      | none => .error (decorate (numError "ParseUint" (String.ofList first))
          ("failed to parse last event id: " ++
            String.ofList (first ++ '/' :: (epoch ++ '/' :: stream))))
      | some offset =>
        .ok (some (fromPosition (String.ofList stream) (String.ofList epoch) offset)) := by
  have parts : splitN Sse.lastIdDelimeter 3 (first ++ '/' :: (epoch ++ '/' :: stream)) =
      [first, epoch, stream] := splitN_three freeFirst freeEpoch stream
  rw [position, String.toList_ofList, parts]
  rfl

theorem digits_free (n : Nat) : '/' ∉ Nat.toDigits 10 n := by
  intro inside
  have digit := Nat.isDigit_of_mem_toDigits (by decide) (by decide) inside
  exact absurd digit (by decide)

/-- The id of a reply as it is taken apart. -/
theorem lastId_eq (r : Reply) :
    Sse.lastId r = String.ofList
      (Nat.toDigits 10 r.offset ++ '/' :: (r.epoch.toList ++ '/' :: r.streamId.toList)) := by
  apply String.toList_inj.mp
  simp [Sse.lastId, Sse.lastIdDelimeter]

theorem position_lastId {r : Reply} (small : r.offset < uint64Size)
    (free : '/' ∉ r.epoch.toList) :
    position decorate numError (Sse.lastId r) =
      .ok (some (fromPosition r.streamId r.epoch r.offset)) := by
  rw [lastId_eq, position_parts decorate numError (digits_free r.offset) free,
    parseUint_toDigits small]
  simp

/-! ### The request -/

theorem subscribe_of_position {decorate numError : String → String → String} {req : Request}
    {streams : GoMap String HistoryPosition} (asked : identifier req ≠ "")
    (given : req.header "last-event-id" ≠ "")
    (read : position decorate numError (req.header "last-event-id") = .ok (some streams)) :
    subscribeCommandFromGetRequest decorate numError req = resumes decorate numError req streams := by
  simp only [subscribeCommandFromGetRequest, if_neg asked, lastPosition, if_pos given, read,
    resumes]
  cases since decorate numError req <;> rfl

theorem subscribe_of_error {decorate numError : String → String → String} {req : Request} {err : String}
    (asked : identifier req ≠ "") (given : req.header "last-event-id" ≠ "")
    (read : position decorate numError (req.header "last-event-id") = .error err) :
    subscribeCommandFromGetRequest decorate numError req = .error err := by
  simp only [subscribeCommandFromGetRequest, if_neg asked, lastPosition, if_pos given, read]
  rfl

/-- A request with a channel has an identifier. -/
theorem identifier_of_channel {req : Request} (channel : req.query "channel" ≠ "") :
    identifier req ≠ "" := by
  have made : channelIdentifier req ≠ "" := by
    rw [channelIdentifier, if_pos channel, Json.text]
    intro empty
    have none := congrArg String.toList empty
    simp [Json.chars] at none
  simp only [identifier, orElse]
  split
  · exact made
  next given => exact given

/-- The frame ends with the line of the id. -/
theorem payload_id {e : Sse} {r : Reply} {frame : SentFrame}
    (resumable : EventFraming.Resumable r) (sent : e.encode (.reply r) = .ok (some frame)) :
    ∃ front, frame.payload = front ++ "\nid: " ++ Sse.lastId r := by
  have added : ∀ payload, Sse.addRetry (.reply r) (Sse.addId (.reply r) payload) =
      payload ++ "\nid: " ++ Sse.lastId r := by
    intro payload
    have position : r.offset > 0 ∧ r.epoch ≠ "" ∧ r.streamId ≠ "" := resumable
    rw [Sse.addId, if_pos position]
    simp [Sse.addRetry]
  simp only [Sse.encode, added] at sent
  split at sent
  · split at sent
    · cases sent
    · cases sent
      exact ⟨_, rfl⟩
  · cases sent
    exact ⟨_, rfl⟩

theorem lastId_ne_empty (r : Reply) : Sse.lastId r ≠ "" := by
  intro empty
  have none := congrArg String.toList empty
  rw [lastId_eq, String.toList_ofList] at none
  simp at none

/-- The event that a client reads has the id, if no line is broken. -/
theorem event_id {e : Sse} {r : Reply} {frame : SentFrame}
    (resumable : EventFraming.Resumable r) (sent : e.encode (.reply r) = .ok (some frame))
    (unbroken : EventFraming.Unbroken e (.reply r)) :
    ∃ event, EventStream.parse (frame.payload.toList ++ ['\n', '\n']) = [event] ∧
      event.id = some (Sse.lastId r).toList := by
  refine ⟨EventFraming.expected e (.reply r), ?_, ?_⟩
  · rw [EventFraming.payload_eq_text sent]
    exact EventStream.parse_text_iff.mpr (EventFraming.flat_iff_unbroken.mpr unbroken)
  · simp only [EventFraming.expected, EventFraming.eventId, if_pos resumable]

/-- For every encoder setting, every reply with a position whose epoch has no slash, and every
request that subscribes: the frame ends with the id of the reply (which is what a client reads, if
nothing written as it is has a line end), and a request with this id asks for the history of exactly
its stream from exactly its epoch and offset. And every last event id with at least two slashes is
taken for the position after its first two, or refused if the first part is no `uint64`. -/
theorem resume_round_trips (decorate numError : String → String → String) :
    (∀ (e : Sse) (r : Reply) (frame : SentFrame) (req : Request),
      0 < r.offset → r.offset < uint64Size → r.epoch ≠ "" → '/' ∉ r.epoch.toList →
      r.streamId ≠ "" → e.encode (.reply r) = .ok (some frame) → identifier req ≠ "" →
      (∃ front, frame.payload = front ++ "\nid: " ++ Sse.lastId r) ∧
      (EventFraming.Unbroken e (.reply r) → ∃ event,
        EventStream.parse (frame.payload.toList ++ ['\n', '\n']) = [event] ∧
        event.id = some (Sse.lastId r).toList) ∧
      (req.header "last-event-id" = Sse.lastId r →
        subscribeCommandFromGetRequest decorate numError req =
          resumes decorate numError req (fromPosition r.streamId r.epoch r.offset))) ∧
    ∀ req : Request, identifier req ≠ "" → 2 ≤ (req.header "last-event-id").toList.count '/' →
      ∃ first epoch stream : List Char,
        (req.header "last-event-id").toList = first ++ '/' :: (epoch ++ '/' :: stream) ∧
        '/' ∉ first ∧ '/' ∉ epoch ∧
        subscribeCommandFromGetRequest decorate numError req =
          match JsonField.parseUint first with
          | none => .error (decorate (numError "ParseUint" (String.ofList first))
              ("failed to parse last event id: " ++ req.header "last-event-id"))
          | some offset => resumes decorate numError req
              (fromPosition (String.ofList stream) (String.ofList epoch) offset) := by
  constructor
  · intro e r frame req positive small epoch free stream sent asked
    have resumable : EventFraming.Resumable r := ⟨positive, epoch, stream⟩
    refine ⟨payload_id resumable sent, event_id resumable sent, fun given => ?_⟩
    have present := lastId_ne_empty r
    rw [← given] at present
    apply subscribe_of_position asked present
    rw [given]
    exact position_lastId decorate numError small free
  · intro req asked two
    obtain ⟨first, epoch, stream, split, freeFirst, freeEpoch⟩ := three_parts two
    have same : req.header "last-event-id" =
        String.ofList (first ++ '/' :: (epoch ++ '/' :: stream)) := by
      rw [← split, String.ofList_toList]
    have present : req.header "last-event-id" ≠ "" := by
      intro empty
      simp [empty] at split
    refine ⟨first, epoch, stream, split, freeFirst, freeEpoch, ?_⟩
    have read := position_parts decorate numError freeFirst freeEpoch stream
    rw [← same] at read
    cases parsed : JsonField.parseUint first with
    | none =>
      rw [parsed] at read
      exact subscribe_of_error asked present read
    | some offset =>
      rw [parsed] at read
      exact subscribe_of_position asked present read

/-- A client of the channel `chat` that has seen the event `7/e/a/b`. -/
def reconnecting : Request where
  query name := if name = "channel" then "chat" else ""
  header name := if name = "last-event-id" then "7/e/a/b" else ""

theorem resume_stream_with_slash :
    subscribeCommandFromGetRequest (fun _ _ => "") (fun _ _ => "") reconnecting =
      resumes (fun _ _ => "") (fun _ _ => "") reconnecting (fromPosition "a/b" "e" 7) := by
  have channel : reconnecting.query "channel" ≠ "" := by decide
  exact ((resume_round_trips (fun _ _ => "") fun _ _ => "").1 {}
    { streamId := "a/b", epoch := "e", offset := 7 }
    ⟨.text, "data: \x7b\"stream_id\":\"a/b\",\"epoch\":\"e\",\"offset\":7\x7d\nid: 7/e/a/b"⟩
    reconnecting (by decide) (by decide) (by decide) (by decide) (by decide) (by decide +kernel)
    (identifier_of_channel channel)).2.2 (by decide +kernel)

end AnyCable.Guarantees.ResumePosition
