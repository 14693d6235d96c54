import AnyCable.Lib.Unmarshal
import AnyCable.Source.Encoders

/-!
# Messages between nodes

Source: `common/common.go:346-374,421-424,546-571` and `utils.ToJSON`. A message carries no tag: the
reader tries a stream message, a batch of them and a remote command, in this order. The payload of
a remote command is a `json.RawMessage`; it is kept as the value that its text denotes, `none` for
an empty one. The texts of the errors of `encoding/json` are left out.
-/

set_option autoImplicit false

namespace AnyCable.Source
open AnyCable.Lib AnyCable.Source.Encoders

namespace StreamMessageMetadata

def json (d : StreamMessageMetadata) : Json :=
  .obj (omitEmpty (d.excludeSocket == "") "exclude_socket" (.str d.excludeSocket) ++
    omitEmpty (d.broadcastType == "") "broadcast_type" (.str d.broadcastType) ++
    omitEmpty (!d.transient) "transient" (.bool d.transient))

def fields : List (JsonField StreamMessageMetadata) :=
  [.string "exclude_socket" fun text d => { d with excludeSocket := text },
   .string "broadcast_type" fun text d => { d with broadcastType := text },
   .bool "transient" fun flag d => { d with transient := flag }]

end StreamMessageMetadata

namespace StreamMessage

/-- `Offset` and `Epoch` have no tag: they are written under their Go names, empty or not. -/
def json (m : StreamMessage) : Json :=
  .obj ([("stream", .str m.stream), ("data", .str m.data)] ++
    (m.metadata.map fun d => ("meta", d.json)).toList ++
    [("Offset", .num (numeral m.offset)), ("Epoch", .str m.epoch)])

def zero : StreamMessage := { stream := "", data := "" }

def fields : List (JsonField StreamMessage) :=
  [.string "stream" fun text m => { m with stream := text },
   .string "data" fun text m => { m with data := text },
   .pointer "meta" StreamMessage.metadata (fun d m => { m with metadata := d }) {}
    (unmarshal StreamMessageMetadata.fields),
   .uint64 "Offset" fun n m => { m with offset := n },
   .string "Epoch" fun text m => { m with epoch := text }]

def unmarshal (j : Json) : Option StreamMessage := Lib.unmarshal fields zero j

end StreamMessage

structure RemoteCommandMessage where
  command : String := ""
  payload : Option Json := none

namespace RemoteCommandMessage

def json (c : RemoteCommandMessage) : Json :=
  .obj (omitEmpty (c.command == "") "command" (.str c.command) ++
    (c.payload.map fun value => ("payload", value)).toList)

def fields : List (JsonField RemoteCommandMessage) :=
  [.string "command" fun text c => { c with command := text },
   .raw "payload" fun value c => { c with payload := some value }]

def unmarshal (j : Json) : Option RemoteCommandMessage := Lib.unmarshal fields {} j

end RemoteCommandMessage

/-- A slice of pointers, some of which may be `nil`. -/
abbrev Batch := List (Option StreamMessage)

namespace Batch

def element : Json → Option (Option StreamMessage)
  | .null => some none
  | value => (StreamMessage.unmarshal value).map some

def unmarshal : Json → Option Batch
  | .null => some []
  | .arr items => items.mapM element
  | _ => none

def json (batch : Batch) : Json :=
  .arr (batch.map fun m => (m.map StreamMessage.json).getD .null)

end Batch

inductive PubSubMessage where
  | message (m : StreamMessage)
  | batch (ms : Batch)
  | command (c : RemoteCommandMessage)

/-- How a call of `PubSubMessageFromJSON` ends. -/
inductive Decoded where
  | returns (msg : PubSubMessage)
  | fails
  | panics

/-- The last attempt. -/
def commandFromJSON (raw : String) : Decoded :=
  match (Json.parse raw).bind RemoteCommandMessage.unmarshal with
  | some c => .returns (.command c)
  | none => .fails

/-- The second attempt. The first element of a batch may be `nil`, and its stream is read. -/
def batchFromJSON (raw : String) : Decoded :=
  match (Json.parse raw).bind Batch.unmarshal with
  | some (none :: _) => .panics
  | some (some m :: ms) =>
    if m.stream ≠ "" then .returns (.batch (some m :: ms)) else commandFromJSON raw
  | some [] | none => commandFromJSON raw

def pubSubMessageFromJSON (raw : String) : Decoded :=
  match (Json.parse raw).bind StreamMessage.unmarshal with
  | some m => if m.stream ≠ "" then .returns (.message m) else batchFromJSON raw
  | none => batchFromJSON raw

end AnyCable.Source
