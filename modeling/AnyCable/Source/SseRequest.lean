import AnyCable.Lib.Texts
import AnyCable.Lib.Unmarshal
import AnyCable.Source.Encoders

/-!
# Subscribing by a GET request

Source: `sse/sse.go:19-26,71-162`. A request is what it has under the names of its query and of its
headers, `""` for none. The identifier is taken from the first parameter that is there; a name of a
channel or a stream is made into an identifier, whose keys `utils.ToJSON` writes in their order.

The texts of the errors of `strconv`, by the function and its argument, and of `errorx.Decorate`, by
the error and the text put before it, are parameters.
-/

set_option autoImplicit false

namespace AnyCable.Source.SseRequest
open AnyCable.Lib

structure Request where
  /-- `r.URL.Query().Get`. -/
  query : String → String
  /-- `r.Header.Get`. -/
  header : String → String

def signedStreamParam : String := "signed_stream"
def publicStreamParam : String := "stream"
def signedStreamChannel : String := "$pubsub"
def turboStreamsParam : String := "turbo_signed_stream_name"
def turboStreamsChannel : String := "Turbo::StreamsChannel"
def historySinceParam : String := "history_since"

/-- The identifier of a stream's channel under one of the parameters. -/
def streamIdentifier (r : Request) (param channel field : String) : String :=
  let stream := r.query param
  if stream ≠ "" then (Json.obj [("channel", .str channel), (field, .str stream)]).text else ""

/-- A later source of the identifier is used if the ones before have none. -/
def orElse (identifier next : String) : String := if identifier = "" then next else identifier

def channelIdentifier (r : Request) : String :=
  let channel := r.query "channel"
  if channel ≠ "" then (Json.obj [("channel", .str channel)]).text else ""

def identifier (r : Request) : String :=
  orElse (r.query "identifier") <|
  orElse (channelIdentifier r) <|
  orElse (streamIdentifier r publicStreamParam signedStreamChannel "stream_name") <|
  orElse (streamIdentifier r signedStreamParam signedStreamChannel "signed_stream_name") <|
  streamIdentifier r turboStreamsParam turboStreamsChannel "signed_stream_name"

variable (decorate numError : String → String → String)

/-- The position that a last event id stands for: none if it does not have three parts. -/
def position (lastId : String) : Except String (Option (GoMap String HistoryPosition)) :=
  match splitN Encoders.Sse.lastIdDelimeter 3 lastId.toList with
  | [first, epoch, stream] =>
    match JsonField.parseUint first with
    | none => .error (decorate (numError "ParseUint" (String.ofList first))
        ("failed to parse last event id: " ++ lastId))
    | some offset =>
      .ok (some (AList.insert (String.ofList stream) ⟨String.ofList epoch, offset⟩ ∅))
  | _ => .ok none

def lastPosition (r : Request) : Except String (Option (GoMap String HistoryPosition)) :=
  let lastId := r.header "last-event-id"
  if lastId ≠ "" then position decorate numError lastId else .ok none

def since (r : Request) : Except String Int :=
  let since := r.query historySinceParam
  if since ≠ "" then
    match parseInt since.toList with
    | none => .error (decorate (numError "ParseInt" since)
        ("failed to parse history since value: " ++ since))
    | some n => .ok n
  else .ok 0

/-- No message is returned for a request without an identifier. -/
def subscribeCommandFromGetRequest (r : Request) : Except String (Option Message) := do
  if identifier r = "" then return none
  else
    let streams ← lastPosition decorate numError r
    let since ← since decorate numError r
    return some { command := "subscribe", identifier := identifier r,
                  history := { since := since, streams := streams } }

end AnyCable.Source.SseRequest
