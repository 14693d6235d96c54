import AnyCable.Lib.Json
import AnyCable.Source.Common

/-!
# Outgoing messages and their encoders

Source: `common/common.go` (`Reply`, `PingMessage`, `DisconnectMessage`, `ToReplyFor`),
`encoders/json.go`, `encoders/encoding_cache.go`, `sse/encoder.go`, and `encodeMessage` and `Send`
of `node/session.go`. A payload is kept as text: the line ends and colons of the event stream are
one byte each in UTF-8 and part of no other character. The close code and reason of a frame are zero
here and left out. Values that cannot be written as JSON make the encoders panic; a message has
none.
-/

set_option autoImplicit false

namespace AnyCable.Source
open AnyCable.Lib

namespace Reply

def getType (r : Reply) : String := r.type

def json (r : Reply) : Json :=
  .obj (omitEmpty (r.type == "") "type" (.str r.type) ++
    omitEmpty (r.identifier == "") "identifier" (.str r.identifier) ++
    omitEmpty r.message.isNil "message" r.message.json ++
    (r.presence.map fun p => ("presence", p.json)).toList ++
    omitEmpty (r.reason == "") "reason" (.str r.reason) ++
    omitEmpty (!r.reconnect) "reconnect" (.bool r.reconnect) ++
    omitEmpty (r.streamId == "") "stream_id" (.str r.streamId) ++
    omitEmpty (r.epoch == "") "epoch" (.str r.epoch) ++
    omitEmpty (r.offset == 0) "offset" (.num (numeral r.offset)) ++
    omitEmpty (r.sid == "") "sid" (.str r.sid) ++
    omitEmpty (!r.restored) "restored" (.bool r.restored) ++
    omitEmpty r.restoredIds.isEmpty "restored_ids" (.arr (r.restoredIds.map .str)))

end Reply

namespace Encoders

structure PingMessage where
  type : String
  message : Value := .nil

namespace PingMessage

def getType (_ : PingMessage) : String := "ping"

def json (p : PingMessage) : Json :=
  .obj ([("type", .str p.type)] ++ omitEmpty p.message.isNil "message" p.message.json)

end PingMessage

structure DisconnectMessage where
  type : String
  reason : String
  reconnect : Bool

namespace DisconnectMessage

def getType (_ : DisconnectMessage) : String := "disconnect"

def json (d : DisconnectMessage) : Json :=
  .obj [("type", .str d.type), ("reason", .str d.reason), ("reconnect", .bool d.reconnect)]

end DisconnectMessage

/-- The implementations of `EncodedMessage`, apart from the cached one. -/
inductive EncodedMessage where
  | reply (r : Reply)
  | ping (p : PingMessage)
  | disconnect (d : DisconnectMessage)

namespace EncodedMessage

def getType : EncodedMessage → String
  | .reply r => r.getType
  | .ping p => p.getType
  | .disconnect d => d.getType

def json : EncodedMessage → Json
  | .reply r => r.json
  | .ping p => p.json
  | .disconnect d => d.json

end EncodedMessage

inductive FrameType where
  | text | close | binary
  deriving DecidableEq, Repr

structure SentFrame where
  frameType : FrameType
  payload : String
  deriving DecidableEq, Repr

/-- The SSE encoder: whether protocol events are left out, and whether only the message of a reply
is sent. -/
structure Sse where
  rawData : Bool := false
  unwrapData : Bool := false
  deriving DecidableEq, Repr

namespace Sse

def retryNoReconnect : Nat := 31536000000

def lastIdDelimeter : Char := '/'

/-- The data of a reply that is unwrapped. -/
def unwrap : Value → String
  | .text s => s
  | body => body.json.text

def lastId (r : Reply) : String :=
  toString r.offset ++ lastIdDelimeter.toString ++ r.epoch ++ lastIdDelimeter.toString ++ r.streamId

/-- The line of the data. -/
def dataLine (e : Sse) (msg : EncodedMessage) : String :=
  match msg with
  | .reply r =>
    if r.type = "" ∧ e.unwrapData then "data: " ++ unwrap r.message else "data: " ++ r.json.text
  | _ => "data: " ++ msg.json.text

def addId (msg : EncodedMessage) (payload : String) : String :=
  match msg with
  | .reply r =>
    if r.offset > 0 ∧ r.epoch ≠ "" ∧ r.streamId ≠ "" then payload ++ "\nid: " ++ lastId r
    else payload
  | _ => payload

def addRetry (msg : EncodedMessage) (payload : String) : String :=
  if msg.getType = "disconnect" then
    match msg with
    | .disconnect d =>
      if !d.reconnect then payload ++ "\nretry: " ++ toString retryNoReconnect else payload
    | _ => payload
  else payload

def encode (e : Sse) (msg : EncodedMessage) : Except String (Option SentFrame) :=
  let payload := e.dataLine msg
  if msg.getType ≠ "" then
    if e.rawData then .ok none
    else
      let payload := "event: " ++ msg.getType ++ "\n" ++ payload
      .ok (some ⟨.text, addRetry msg (addId msg payload)⟩)
  else .ok (some ⟨.text, addRetry msg (addId msg payload)⟩)

end Sse

/-- The encoders of a session. -/
inductive Encoder where
  | json
  | sse (e : Sse)
  deriving DecidableEq, Repr

namespace Encoder

def id : Encoder → String
  | .json => "json"
  | .sse _ => "sse"

def encode : Encoder → EncodedMessage → Except String (Option SentFrame)
  | .json, msg => .ok (some ⟨.text, msg.json.text⟩)
  | .sse e, msg => e.encode msg

end Encoder

/-- Frames by encoder id; `nil` for a failed or suppressed encoding. -/
abbrev EncodingCache := GoMap String (Option SentFrame)

/-- `Fetch`: the frame and the cache afterwards. -/
def EncodingCache.fetch (m : EncodingCache) (msg : EncodedMessage) (encoder : String)
    (callback : EncodedMessage → Except String (Option SentFrame)) :
    Except String (Option SentFrame) × EncodingCache :=
  let m :=
    match m.lookup encoder with
    | some _ => m
    | none =>
      match callback msg with
      | .error _ => m.insert encoder none
      | .ok b => m.insert encoder b
  match m.lookup encoder with
  | some (some b) => (.ok (some b), m)
  | _ => (.error "Encoding failed", m)

structure CachedEncodedMessage where
  target : EncodedMessage
  cache : EncodingCache := ∅

/-- `Session.encodeMessage` for a cached message. -/
def encodeMessage (enc : Encoder) (cm : CachedEncodedMessage) :
    Except String (Option SentFrame) × CachedEncodedMessage :=
  let (result, cache) := EncodingCache.fetch cm.cache cm.target enc.id enc.encode
  (result, { cm with cache })

/-- What `Session.Send` puts in the queue of the session: nothing for an error or a `nil` frame. -/
def enqueued : Except String (Option SentFrame) → Option SentFrame
  | .ok b => b
  | .error _ => none

section Replies

variable (unmarshal : String → Option Json)

/-- `ToReplyFor`; data that is no JSON, or `null`, is taken as a string. -/
def toReplyFor (sm : StreamMessage) (identifier : String) : Reply :=
  let message : Value := match unmarshal sm.data with
    | none => .text sm.data
    | some .null => .text sm.data
    | some (.str s) => .text s
    | some json => .value json
  { identifier, message, streamId := if sm.epoch ≠ "" then sm.stream else "",
    offset := sm.offset, epoch := sm.epoch }

/-- The reply of `buildMessage`. -/
def buildReply (msg : StreamMessage) (identifier : String) : Reply :=
  match msg.metadata with
  | some m => { toReplyFor unmarshal msg identifier with type := m.broadcastType }
  | none => toReplyFor unmarshal msg identifier

def buildMessage (msg : StreamMessage) (identifier : String) : CachedEncodedMessage :=
  { target := .reply (buildReply unmarshal msg identifier) }

/-- `buf` of `performBroadcast`: one message per identifier. -/
abbrev Buf := GoMap String CachedEncodedMessage

/-- The body of the loop: what the session is sent, and `buf` afterwards. -/
def sendTo (msg : StreamMessage) (enc : Encoder) (id : String) (buf : Buf) :
    Option SentFrame × Buf :=
  let bdata := (buf.lookup id).getD (buildMessage unmarshal msg id)
  let (result, bdata) := encodeMessage enc bdata
  (enqueued result, buf.insert id bdata)

/-- The `Send` calls, one after the other. -/
def sendAll (encoder : SessionRef → Encoder) (msg : StreamMessage) :
    List (SessionRef × String) → Buf → List (Option SentFrame)
  | [], _ => []
  | (session, id) :: rest, buf =>
    let (frame, buf) := sendTo unmarshal msg (encoder session) id buf
    frame :: sendAll encoder msg rest buf

/-- The calls for one session of the snapshot: none for the excluded socket. -/
def visits (uid : SessionRef → String) (msg : StreamMessage) (p : SessionRef × List String) :
    List (SessionRef × String) :=
  if msg.excludes (uid p.1) then [] else p.2.map fun id => (p.1, id)

/-- `performBroadcast` over a snapshot of the sessions and their identifiers, in the order of the
walk: the frame each `Send` puts in the queue. -/
def performBroadcast (uid : SessionRef → String) (encoder : SessionRef → Encoder)
    (msg : StreamMessage) (snapshot : List (SessionRef × List String)) :
    List (Option SentFrame) :=
  sendAll unmarshal encoder msg (snapshot.flatMap (visits uid msg)) ∅

end Replies

end Encoders

end AnyCable.Source
