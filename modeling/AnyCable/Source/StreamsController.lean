import AnyCable.Lib.Unmarshal
import AnyCable.Source.Encoders

/-!
# Direct streams

Source: `streams/controller.go`, `streams/config.go:11-24`, `utils/message_verifier.go:43-107` and
`common/common.go:578-586`. A client names a stream itself, in the clear or signed, without a
channel class behind it. `Subscribe` takes the session, its environment and identifiers and looks at
none of them. `none` stands for a panic. The hash, the decoding of base64 and the texts of JSON
errors are parameters. A payload that is not valid UTF-8 is read with replacement characters, as
`json.Unmarshal` does inside strings; outside of them it is an error either way.
-/

set_option autoImplicit false

namespace AnyCable.Source.Streams
open AnyCable.Lib

/-- What is taken from other packages. -/
structure Library where
  /-- The hexadecimal digits of the HMAC-SHA256 of a text under a key. -/
  hmac : String → String → String
  /-- `base64.StdEncoding.DecodeString`. -/
  decodeString : String → Except String String
  /-- The error of `json.Unmarshal` for a text it does not take. -/
  unmarshalError : String → String
  /-- `errorx.Decorate`: the error, and the text put before it. -/
  decorate : String → String → String

/-! ### The message verifier -/

structure MessageVerifier where
  key : String

/-- `strings.Split` at `--`. -/
def splitParts : List Char → List (List Char)
  | '-' :: '-' :: rest => [] :: splitParts rest
  | c :: rest =>
    match splitParts rest with
    | [] => [[c]]
    | part :: parts => (c :: part) :: parts
  | [] => [[]]

def split (msg : String) : List String := (splitParts msg.toList).map String.ofList

namespace MessageVerifier

variable (lib : Library)

/-- Reads the key, which a `nil` verifier does not have. -/
def verifySignature (m : Option MessageVerifier) (payload digest : String) : Option Bool :=
  m.map fun v => lib.hmac v.key payload == digest

def validate (m : Option MessageVerifier) (msg : String) : Option (Except String Unit) :=
  if msg = "" then some (.error "message is empty")
  else match split msg with
    | [data, digest] =>
      (verifySignature lib m data digest).map fun signed =>
        if signed then .ok () else .error "invalid signature"
    | parts => some (.error ("message must contain 2 parts, got " ++ toString parts.length))

/-- The value behind a valid signature. -/
def payload (msg : String) : Except String Json := do
  let jsonStr ← lib.decodeString ((split msg).headD "")
  match Json.parse jsonStr with
  | some result => return result
  | none => .error (lib.unmarshalError jsonStr)

def verified (m : Option MessageVerifier) (msg : String) : Option (Except String Json) :=
  (validate lib m msg).map fun
    | .error err => .error (lib.decorate err "failed to verify message")
    | .ok () => payload lib msg

end MessageVerifier

/-! ### The controller -/

structure SubscribeRequest where
  streamName : String := ""
  signedStreamName : String := ""
  whisper : Bool := false
  presence : Bool := false

def SubscribeRequest.isPresent (r : SubscribeRequest) : Bool :=
  r.streamName != "" || r.signedStreamName != ""

structure Controller where
  verifier : Option MessageVerifier
  resolver : String → Except String SubscribeRequest

def newController (key : String) (resolver : String → Except String SubscribeRequest) :
    Controller where
  verifier := if key ≠ "" then some ⟨key⟩ else none
  resolver

def confirmationMessage (identifier : String) : String :=
  (Reply.json { identifier, type := "confirm_subscription" }).text

def rejectionMessage (identifier : String) : String :=
  (Reply.json { identifier, type := "reject_subscription" }).text

def failure (identifier : String) : CommandResult :=
  { status := .failure, transmissions := [rejectionMessage identifier] }

/-- The channel state of a subscription; a map that nothing is put into stays `nil`. -/
def streamState (request : SubscribeRequest) (stream : String) : Option (GoMap String String) :=
  let state := if request.whisper then some ((∅ : GoMap String String).insert whisperStreamState
    stream) else none
  if request.presence then some ((state.getD ∅).insert presenceStreamState stream) else state

def success (identifier : String) (request : SubscribeRequest) (stream : String) : CommandResult :=
  { status := .success
    transmissions := [confirmationMessage identifier]
    streams := some [stream]
    disconnectInterest := -1
    iState := streamState request stream }

/-- The answer to a signed name, by what it verifies to. -/
def answerSigned (identifier : String) (request : SubscribeRequest) :
    Except String Json → Answer CommandResult
  | .ok (.str stream) => ⟨some (success identifier request stream), none⟩
  -- the signature does not hold, or what is signed is not a string
  | _ => ⟨some (failure identifier), none⟩

def subscribe (lib : Library) (c : Controller) (identifier : String) :
    Option (Answer CommandResult) :=
  match c.resolver identifier with
  | .error err => some ⟨some (failure identifier), some (lib.decorate err "invalid identifier")⟩
  | .ok request =>
    if !request.isPresent then
      some ⟨some (failure identifier),
        some "malformed identifier: no stream name or signed stream"⟩
    else if request.streamName ≠ "" then
      some ⟨some (success identifier request request.streamName), none⟩
    else
      (MessageVerifier.verified lib c.verifier request.signedStreamName).map
        (answerSigned identifier request)

/-! ### The three controllers -/

structure Config where
  secret : String := ""
  isPublic : Bool := false
  whisper : Bool := false
  presence : Bool := false

def unmarshalText {S : Type} (lib : Library) (fields : List (JsonField S)) (zero : S)
    (text : String) : Except String S :=
  match (Json.parse text).bind (unmarshal fields zero) with
  | some s => .ok s
  | none => .error (lib.unmarshalError text)

def SubscribeRequest.fields : List (JsonField SubscribeRequest) :=
  [.string "stream_name" fun text r => { r with streamName := text },
   .string "signed_stream_name" fun text r => { r with signedStreamName := text }]

def newStreamsController (lib : Library) (conf : Config) : Controller :=
  newController conf.secret fun identifier => do
    let request ← unmarshalText lib SubscribeRequest.fields {} identifier
    if !conf.isPublic && request.streamName != "" then
      .error "public streams are not allowed"
    else
      return { request with
        whisper := conf.whisper || request.streamName != ""
        presence := conf.presence || request.streamName != "" }

/-- A `TurboMessage` is its signed stream name, a `CableReadyMesssage` its identifier. -/
def signedOnly (lib : Library) (field : String) (identifier : String) :
    Except String SubscribeRequest := do
  let signed ← unmarshalText lib [.string field fun text _ => text] "" identifier
  return { signedStreamName := signed }

def newTurboController (lib : Library) (key : String) : Controller :=
  newController key (signedOnly lib "signed_stream_name")

def newCableReadyController (lib : Library) (key : String) : Controller :=
  newController key (signedOnly lib "identifier")

end AnyCable.Source.Streams
