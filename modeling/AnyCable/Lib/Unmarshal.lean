import AnyCable.Lib.JsonParse

/-!
# JSON values as structs

How Go's `json.Unmarshal` fills a struct. The fields of the object are taken in order; a name is
looked for as it is and then without regard to case, an unknown one is passed over, and a later
field of the same name overwrites an earlier one. `null` leaves a string, a flag or a number as it
is, clears a pointer and is kept by a raw value. A value of the wrong kind makes the call fail: the
source never looks at what has been filled in by then.
-/

set_option autoImplicit false

namespace AnyCable.Lib

/-- A letter as names are compared. The long s and the Kelvin sign are the only characters outside
ASCII that fold to a letter of ASCII; the names of the fields have no others. -/
def foldChar (c : Char) : Char :=
  if 'a' ≤ c ∧ c ≤ 'z' then Char.ofNat (c.toNat - 32)
  else if c = '\u017f' then 'S'
  else if c = '\u212a' then 'K'
  else c

def foldName (name : String) : List Char := name.toList.map foldChar

/-- A field of a struct: what a value does to it, unless it is of the wrong kind. -/
structure JsonField (S : Type) where
  name : String
  set : Json → S → Option S

namespace JsonField

variable {S T : Type}

def string (name : String) (put : String → S → S) : JsonField S where
  name
  set value s := match value with
    | .str text => some (put text s)
    | .null => some s
    | _ => none

def bool (name : String) (put : Bool → S → S) : JsonField S where
  name
  set value s := match value with
    | .bool flag => some (put flag s)
    | .null => some s
    | _ => none

/-- `strconv.ParseUint` in base 10, with 64 bits. -/
def parseUint (text : List Char) : Option Nat :=
  let n := Nat.ofDigitChars 10 text 0
  if isDigits text ∧ n < 2 ^ 64 then some n else none

def uint64 (name : String) (put : Nat → S → S) : JsonField S where
  name
  set value s := match value with
    | .num numeral => (parseUint numeral.digits).map fun n => put n s
    | .null => some s
    | _ => none

/-- A `json.RawMessage`. -/
def raw (name : String) (put : Json → S → S) : JsonField S where
  name
  set value s := some (put value s)

/-- A pointer to a struct. One that is set already is filled further. -/
def pointer (name : String) (get : S → Option T) (put : Option T → S → S) (zero : T)
    (decode : T → Json → Option T) : JsonField S where
  name
  set value s := match value with
    | .null => some (put none s)
    | value => (decode ((get s).getD zero) value).map fun t => put (some t) s

/-- The field that a name of the object stands for. -/
def find (fields : List (JsonField S)) (key : String) : Option (JsonField S) :=
  (fields.find? fun f => f.name == key).or
    (fields.find? fun f => foldName f.name == foldName key)

end JsonField

variable {S : Type}

def assign (fields : List (JsonField S)) (s : S) (entry : String × Json) : Option S :=
  match JsonField.find fields entry.1 with
  | some f => f.set entry.2 s
  | none => some s

def unmarshal (fields : List (JsonField S)) (s : S) : Json → Option S
  | .null => some s
  | .obj entries => entries.foldlM (assign fields) s
  | _ => none

theorem parseUint_toDigits {n : Nat} (small : n < 2 ^ 64) :
    JsonField.parseUint (Nat.toDigits 10 n) = some n := by
  have value : Nat.ofDigitChars 10 (Nat.toDigits 10 n) 0 = n :=
    Nat.ofDigitChars_toDigits (by decide) (Nat.le_refl 10)
  simp only [JsonField.parseUint, value]
  rw [if_pos ⟨isDigits_toDigits n, small⟩]

end AnyCable.Lib
