import AnyCable.Source.Node
import AnyCable.Source.PubSubMessages

/-!
# Messages from publishers and from other nodes

Source: `node/node.go:198-243,779-801,855-859`, `broker/broker.go:181-189`,
`broker/memory.go:294-310`, `common/common.go:435-449` and `hub/hub.go:113-155,305-307`.
`HandleBroadcast` gives what a publisher has sent to the broker, `HandlePubSub` gives what another
node has published to the hub.

A batch is a slice of pointers. The brokers read a field of each message they are given. The hub's
channel takes any pointer, and it is the hub's goroutine that reads its stream: this is counted as
part of the call that has put it there. A byte that is not part of a UTF-8 sequence is read by
`encoding/json` as U+FFFD, so the texts here stand for all byte strings.
-/

set_option autoImplicit false

namespace AnyCable.Source
open AnyCable.Lib

structure RemoteDisconnectMessage where
  identifier : String := ""
  reconnect : Bool := false
  deriving DecidableEq, Repr

namespace RemoteDisconnectMessage

def fields : List (JsonField RemoteDisconnectMessage) :=
  [.string "identifier" fun text m => { m with identifier := text },
   .bool "reconnect" fun flag m => { m with reconnect := flag }]

end RemoteDisconnectMessage

/-- An empty payload is no JSON text. -/
def RemoteCommandMessage.toRemoteDisconnectMessage (c : RemoteCommandMessage) :
    Option RemoteDisconnectMessage :=
  c.payload.bind (Lib.unmarshal RemoteDisconnectMessage.fields {})

/-- The two ways in which a message can end the process. -/
inductive Panic where
  /-- A field of a `nil` message is read. -/
  | nilMessage
  /-- The history of the broker is indexed out of range. -/
  | history
  deriving DecidableEq, Repr

/-- The node with the commands it has passed on. -/
structure Receiver where
  node : Node
  /-- The commands given to the Broadcaster. -/
  published : List RemoteCommandMessage := []
  /-- Commands waiting in the hub's `disconnect` channel, oldest first. -/
  disconnect : List RemoteDisconnectMessage := []

namespace Receiver

/-- `n.broker.HandleBroadcast`, of either broker. -/
def record (now : Instant) (x : Receiver) : Option StreamMessage → Except Panic Receiver
  | none => .error .nilMessage
  | some msg =>
    match x.node.broker.handleBroadcast msg now with
    | none => .error .history
    | some broker => .ok { x with node := { x.node with broker := broker } }

/-- `n.Broadcast`, and the hub reading the stream of what it gets. -/
def broadcast (x : Receiver) : Option StreamMessage → Except Panic Receiver
  | none => .error .nilMessage
  | some msg => .ok { x with node := x.node.broadcast msg }

/-- `n.broker.HandleCommand`. -/
def handleCommand (x : Receiver) (c : RemoteCommandMessage) : Receiver :=
  { x with published := x.published ++ [c] }

def executeRemoteCommand (x : Receiver) (c : RemoteCommandMessage) : Receiver :=
  if c.command = "disconnect" then
    match c.toRemoteDisconnectMessage with
    | none => x
    | some msg => { x with disconnect := x.disconnect ++ [msg] }
  else x

def handleBroadcast (x : Receiver) (raw : String) (now : Instant) : Except Panic Receiver :=
  match pubSubMessageFromJSON raw with
  | .panics => .error .nilMessage
  | .fails => .ok x
  | .returns (.message m) => x.record now (some m)
  | .returns (.batch ms) => ms.foldlM (record now) x
  | .returns (.command c) => .ok (x.handleCommand c)

def handlePubSub (x : Receiver) (raw : String) : Except Panic Receiver :=
  match pubSubMessageFromJSON raw with
  | .panics => .error .nilMessage
  | .fails => .ok x
  | .returns (.message m) => x.broadcast (some m)
  | .returns (.batch ms) => ms.foldlM broadcast x
  | .returns (.command c) => .ok (x.executeRemoteCommand c)

end Receiver

end AnyCable.Source
