import AnyCable.Lib.GoMap
import AnyCable.Lib.Json

/-!
# Shared records: messages, controller results and the session environment

Source: `common/common.go`. Only fields that a modelled function reads or writes
are kept: request headers and URLs, log values and protocol names are not.
A slice or map that the source compares with `nil` is an `Option`.
-/

set_option autoImplicit false

namespace AnyCable.Source
open AnyCable.Lib

/-- Identity of a `*Session`: the pointer, never the client-chosen session id. -/
abbrev SessionRef := Nat

/-- A command result status; `common.SUCCESS`, `FAILURE` and `ERROR`. -/
inductive Status where
  | success | failure | error
  deriving DecidableEq, Repr

/-- An `interface{}` that is marshalled: `nil`, a Go string, or any other value by its JSON. -/
inductive Value where
  | nil
  | text (s : String)
  | value (json : Json)

namespace Value

def isNil : Value → Bool
  | .nil => true
  | _ => false

def json : Value → Json
  | .nil => .null
  | .text s => .str s
  | .value json => json

/-- What is encoded as the JSON, as it is decoded. -/
def ofJson : Json → Value
  | .null => .nil
  | .str s => .text s
  | j => .value j

theorem json_ofJson (j : Json) : (ofJson j).json = j := by
  cases j <;> rfl

end Value

/-- A field with `omitempty`. -/
def omitEmpty (empty : Bool) (name : String) (value : Json) : List (String × Json) :=
  if empty then [] else [(name, value)]

/-- A `uint64`, or an `int` that is not negative. -/
def numeral (n : Nat) : Numeral where
  digits := Nat.toDigits 10 n
  numeric := by
    rw [List.all_eq_true]
    intro c inside
    have digit := Nat.isDigit_of_mem_toDigits (by decide) (by decide) inside
    rw [digit, Bool.true_or]

structure StreamMessageMetadata where
  excludeSocket : String := ""
  broadcastType : String := ""
  transient : Bool := false
  deriving DecidableEq, Repr

/-- A pub/sub message. `offset` is a `uint64`. -/
structure StreamMessage where
  stream : String
  data : String
  metadata : Option StreamMessageMetadata := none
  offset : Nat := 0
  epoch : String := ""
  deriving DecidableEq, Repr

/-- `msg.Meta != nil && msg.Meta.Transient`. -/
def StreamMessage.isTransient (msg : StreamMessage) : Bool :=
  match msg.metadata with
  | some m => m.transient
  | none => false

/-- `msg.Meta != nil && msg.Meta.ExcludeSocket == sid`. -/
def StreamMessage.excludes (msg : StreamMessage) (sid : String) : Bool :=
  match msg.metadata with
  | some m => m.excludeSocket == sid
  | none => false

structure PresenceEvent where
  type : String := ""
  info : Value := .nil
  id : String

def PresenceEvent.json (p : PresenceEvent) : Json :=
  .obj (omitEmpty (p.type == "") "type" (.str p.type) ++
    omitEmpty p.info.isNil "info" p.info.json ++ [("id", .str p.id)])

structure PresenceInfo where
  type : String := ""
  total : Nat := 0
  records : Option (List PresenceEvent) := none

def PresenceInfo.json (p : PresenceInfo) : Json :=
  let records := p.records.getD []
  .obj (omitEmpty (p.type == "") "type" (.str p.type) ++ [("total", .num (numeral p.total))] ++
    omitEmpty records.isEmpty "records" (.arr (records.map PresenceEvent.json)))

/-- `NewPresenceInfo`. -/
def newPresenceInfo : PresenceInfo := { type := "info" }

/-- What a controller call returns: `res` and `err`, either of which may be `nil`. -/
structure Answer (R : Type) where
  res : Option R := none
  err : Option String := none

structure CallResult where
  transmissions : List String
  broadcasts : List StreamMessage
  cState : Option (GoMap String String)
  iState : Option (GoMap String String)

structure ConnectResult where
  identifier : String := ""
  transmissions : List String := []
  broadcasts : List StreamMessage := []
  cState : Option (GoMap String String) := none
  iState : Option (GoMap String String) := none
  disconnectInterest : Int := 0
  status : Status

def ConnectResult.toCallResult (c : ConnectResult) : CallResult :=
  { transmissions := c.transmissions, broadcasts := c.broadcasts,
    cState := c.cState, iState := c.iState }

structure CommandResult where
  stopAllStreams : Bool := false
  disconnect : Bool := false
  streams : Option (List String) := none
  stoppedStreams : Option (List String) := none
  transmissions : List String := []
  broadcasts : List StreamMessage := []
  cState : Option (GoMap String String) := none
  iState : Option (GoMap String String) := none
  disconnectInterest : Int := 0
  status : Status

def CommandResult.toCallResult (c : CommandResult) : CallResult :=
  { transmissions := c.transmissions, broadcasts := c.broadcasts,
    cState := c.cState, iState := c.iState }

structure HistoryPosition where
  epoch : String
  offset : Nat
  deriving DecidableEq, Repr

structure HistoryRequest where
  since : Int := 0
  streams : Option (GoMap String HistoryPosition) := none

structure Message where
  command : String := ""
  identifier : String
  data : Value := .nil
  history : HistoryRequest := {}
  presence : Option PresenceEvent := none

/-- An outgoing client message. `offset` is a `uint64`. -/
structure Reply where
  type : String := ""
  identifier : String := ""
  message : Value := .nil
  presence : Option PresenceEvent := none
  reason : String := ""
  reconnect : Bool := false
  streamId : String := ""
  epoch : String := ""
  offset : Nat := 0
  sid : String := ""
  restored : Bool := false
  restoredIds : List String := []

/-- What is handed to `Session.Send`, `SendJSONTransmission` or `sendClose`.
`message el id` stands for `el.ToReplyFor(id)`. -/
inductive Outgoing where
  | reply (r : Reply)
  | message (el : StreamMessage) (identifier : String)
  | transmission (text : String)
  | close (reason : String) (code : Nat)

structure SessionEnv where
  identifiers : String := ""
  connectionState : GoMap String String := ∅
  channelStates : GoMap String (GoMap String String) := ∅

/-- The loop shared by the two merges: an empty value removes its key. -/
def mergeState (state other : GoMap String String) : GoMap String String :=
  other.toPairs.foldl (fun m p => if p.2 = "" then m.erase p.1 else m.insert p.1 p.2) state

namespace SessionEnv

def mergeConnectionState (env : SessionEnv) (other : GoMap String String) : SessionEnv :=
  { env with connectionState := mergeState env.connectionState other }

def mergeChannelState (env : SessionEnv) (id : String) (other : GoMap String String) :
    SessionEnv :=
  { env with
    channelStates := env.channelStates.insert id
      (mergeState ((env.channelStates.lookup id).getD ∅) other) }

def removeChannelState (env : SessionEnv) (id : String) : SessionEnv :=
  { env with channelStates := env.channelStates.erase id }

/-- The empty string stands for a missing channel or field, as in Go. -/
def getChannelStateField (env : SessionEnv) (id field : String) : String :=
  match env.channelStates.lookup id with
  | none => ""
  | some state => (state.lookup field).getD ""

end SessionEnv

/-- `common.WHISPER_STREAM_STATE`. -/
def whisperStreamState : String := "$w"

/-- `common.PRESENCE_STREAM_STATE`. -/
def presenceStreamState : String := "$p"

end AnyCable.Source
