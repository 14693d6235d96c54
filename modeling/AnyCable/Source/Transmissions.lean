import AnyCable.Lib.Untyped
import AnyCable.Source.Structs

/-!
# Transmissions over an event stream

Source: `sse/encoder.go:83-91`, `common/common.go:227-231,492-506,588-591`. A transmission is the
JSON text of a message that another part of the server has made. The SSE encoder reads it as a
`Reply`, whatever it is, and encodes the reply. An element of `restored_ids` that is `null` is read
as the empty string, which it is in a new slice.
-/

set_option autoImplicit false

namespace AnyCable.Source
open AnyCable.Lib

variable (floats : Floats)

namespace Encoders

/-- A field of type `interface{}`. A number that does not fit is an error. -/
def untypedField {S : Type} (name : String) (put : Value → S → S) : JsonField S where
  name
  set value s :=
    if value.inRange floats then some (put (Value.ofJson (value.reencode floats)) s) else none

def stringItem : Json → Option String
  | .str s => some s
  | .null => some ""
  | _ => none

/-- A field of type `[]string`. -/
def stringsField {S : Type} (name : String) (put : List String → S → S) : JsonField S where
  name
  set value s := match value with
    | .arr items => (items.mapM stringItem).map fun texts => put texts s
    | .null => some (put [] s)
    | _ => none

end Encoders

open Encoders

def PresenceEvent.fields : List (JsonField PresenceEvent) :=
  [.string "type" fun text p => { p with type := text },
   untypedField floats "info" fun body p => { p with info := body },
   .string "id" fun text p => { p with id := text }]

namespace Reply

def fields : List (JsonField Reply) :=
  [.string "type" fun text r => { r with type := text },
   .string "identifier" fun text r => { r with identifier := text },
   untypedField floats "message" fun body r => { r with message := body },
   .pointer "presence" Reply.presence (fun p r => { r with presence := p }) { id := "" }
    (unmarshal (PresenceEvent.fields floats)),
   .string "reason" fun text r => { r with reason := text },
   .bool "reconnect" fun flag r => { r with reconnect := flag },
   .string "stream_id" fun text r => { r with streamId := text },
   .string "epoch" fun text r => { r with epoch := text },
   .uint64 "offset" fun n r => { r with offset := n },
   .string "sid" fun text r => { r with sid := text },
   .bool "restored" fun flag r => { r with restored := flag },
   stringsField "restored_ids" fun texts r => { r with restoredIds := texts }]

def unmarshal (j : Json) : Option Reply := Lib.unmarshal (fields floats) {} j

end Reply

namespace Encoders

/-- `EncodeTransmission`; the text of a decoding error is left to `unmarshalError`. -/
def Sse.encodeTransmission (unmarshalError : String → String) (e : Sse) (raw : String) :
    Except String (Option SentFrame) :=
  match (Json.parse raw).bind (Reply.unmarshal floats) with
  | none => .error (unmarshalError raw)
  | some msg => e.encode (.reply msg)

/-- The function `DisconnectionMessage`. -/
def disconnectionMessage (reason : String) (reconnect : Bool) : String :=
  (DisconnectMessage.json ⟨"disconnect", reason, reconnect⟩).text

end Encoders

end AnyCable.Source
