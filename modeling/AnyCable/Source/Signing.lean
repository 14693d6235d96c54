import AnyCable.Lib.Untyped
import AnyCable.Source.StreamsController

/-!
# Signed messages

Source: `utils/message_verifier.go:24-62,86-96`. `Generate` signs the base64 of a JSON text, and
`Verified` returns what is behind a signature as an untyped value. `MessageVerifier.verified` has
the syntax of the text only, which is enough for the controllers: they look for a string. Here the
value is decoded as well, where a number can be too large for a `float64`.

Writing to a hash does not fail, and neither does the encoding of a JSON value.
-/

set_option autoImplicit false

namespace AnyCable.Source.Streams
open AnyCable.Lib

/-- What signing takes from the standard library. -/
structure SigningLibrary extends Library where
  /-- `base64.StdEncoding.EncodeToString` of the bytes of a text. -/
  encodeToString : String → String
  floats : Floats
  /-- The error of `json.Unmarshal` for a number that does not fit. -/
  rangeError : Json → String

namespace MessageVerifier

variable (lib : SigningLibrary)

def sign (m : MessageVerifier) (payload : String) : String := lib.hmac m.key payload

def generate (m : MessageVerifier) (payload : Json) : String :=
  let encoded := lib.encodeToString payload.text
  encoded ++ "--" ++ sign lib m encoded

/-- The second half of `json.Unmarshal` into an `interface{}`. -/
def decodeValue (j : Json) : Except String Json :=
  if j.inRange lib.floats then .ok (j.reencode lib.floats) else .error (lib.rangeError j)

/-- `Verified`, with the value by what it is encoded as. -/
def verifiedValue (m : Option MessageVerifier) (msg : String) : Option (Except String Json) :=
  (verified lib.toLibrary m msg).map fun res => res.bind (decodeValue lib)

end MessageVerifier

end AnyCable.Source.Streams
