import AnyCable.Lib.Unmarshal
import AnyCable.Lib.Untyped
import AnyCable.Source.Common

/-!
# The options of a presence request

Source: `node/node.go:720-731`, `broker/broker.go:29-47`. The data of the command is untyped. It is
encoded, and the text is to be decoded over the default options; but that stands under `err != nil`,
so that it is done only when there is no text. `presenceOptions` is what the code does,
`optionsFrom` what the data says.
-/

set_option autoImplicit false

namespace AnyCable.Source
open AnyCable.Lib

structure PresenceInfoOptions where
  returnRecords : Bool
  deriving DecidableEq, Repr

namespace PresenceInfoOptions

/-- `NewPresenceInfoOptions`. -/
def new : PresenceInfoOptions := ⟨true⟩

def fields : List (JsonField PresenceInfoOptions) :=
  [.bool "return_records" fun flag o => { o with returnRecords := flag }]

/-- `json.Unmarshal` with the error ignored: a field of the wrong kind is passed over, and what is
no object changes nothing. -/
def fill (o : PresenceInfoOptions) : Json → PresenceInfoOptions
  | .obj entries => entries.foldl (fun o entry => (assign fields o entry).getD o) o
  | _ => o

/-- `WithPresenceInfoOptions` applied to options; a `nil` pointer changes nothing. -/
def withOptions (opts : Option PresenceInfoOptions) (o : PresenceInfoOptions) :
    PresenceInfoOptions :=
  opts.getD o

end PresenceInfoOptions

/-- `json.Marshal` of an untyped value. -/
def Value.marshal (v : Value) : Except String String := .ok v.json.text

/-- `json.Unmarshal` into the pointer to the options: `null` makes it `nil`. -/
def decodeOptions (buf : String) (o : PresenceInfoOptions) : Option PresenceInfoOptions :=
  match Json.parse buf with
  | some .null => none
  | some j => some (o.fill j)
  | none => some o

/-- The options that `Node.Presence` gives to the broker. -/
def presenceOptions (data : Value) : Option PresenceInfoOptions :=
  let options := PresenceInfoOptions.new
  if !data.isNil then
    match data.marshal with
    -- the text of a failed encoding is empty
    | .error _ => decodeOptions "" options
    | .ok _ => some options
  else some options

/-- The options that the data stands for, over the defaults. -/
def optionsFrom (data : Value) : PresenceInfoOptions :=
  match data.marshal with
  | .error _ => .new
  | .ok buf => .withOptions (decodeOptions buf .new) .new

/-- Encoding does not fail, so the defaults are what the broker gets. -/
theorem presenceOptions_eq (data : Value) :
    PresenceInfoOptions.withOptions (presenceOptions data) .new = .new := by
  cases data <;> rfl

/-- Decoding, encoding and decoding again is filling in the options once. -/
theorem optionsFrom_ofJson (floats : Floats) (j : Json) :
    optionsFrom (.ofJson (j.reencode floats)) =
      PresenceInfoOptions.new.fill (j.reencode floats) := by
  have decoded (k : Json) (valid : k.valid = true) :
      PresenceInfoOptions.withOptions (decodeOptions k.text .new) .new =
        PresenceInfoOptions.new.fill k := by
    rw [decodeOptions, Json.parse_text valid]
    cases k <;> rfl
  rw [optionsFrom, Value.marshal, Value.json_ofJson]
  exact decoded _ (Json.valid_reencode floats j)

end AnyCable.Source
