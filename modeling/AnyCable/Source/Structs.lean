import AnyCable.Lib.Unmarshal
import AnyCable.Source.Encoders

/-!
# Structs written and read

What the texts of structs have in common: a field that is left out because it is empty is read as if
it had been written, and a struct whose parts are JSON is JSON.
-/

set_option autoImplicit false

namespace AnyCable.Source.Encoders
open AnyCable.Lib

section Fields

variable {S : Type} {fields : List (JsonField S)} {s after : S} {name : String} {value : Json}
  {rest : List (String × Json)}

theorem unmarshal_cons (read : assign fields s (name, value) = some after) :
    unmarshal fields s (.obj ((name, value) :: rest)) = unmarshal fields after (.obj rest) := by
  simp [unmarshal, read]

/-- A field with `omitempty` is read as if it had been written: its empty value changes nothing. -/
theorem unmarshal_omitEmpty {empty : Bool} (read : assign fields s (name, value) = some after)
    (same : empty = true → after = s) :
    unmarshal fields s (.obj (omitEmpty empty name value ++ rest)) =
      unmarshal fields after (.obj rest) := by
  unfold omitEmpty
  split
  next nothing => rw [List.nil_append, same nothing]
  · exact unmarshal_cons read

theorem validFields_omitEmpty (empty : Bool) (name : String) (ok : value.valid = true) :
    Json.validFields (omitEmpty empty name value) = true := by
  unfold omitEmpty
  split
  · rfl
  · simp [Json.validFields, ok]

theorem lookup_omitEmpty (empty : Bool) (written name : String) (value : Json) :
    (omitEmpty empty written value).lookup name =
      if name = written ∧ empty = false then some value else none := by
  unfold omitEmpty
  cases empty with
  | true => simp
  | false =>
    rw [if_neg (by decide), List.lookup_cons]
    by_cases same : name = written
    · simp [same]
    · have other : (name == written) = false := beq_eq_false_iff_ne.mpr same
      simp [same, other]

end Fields

section Reply

variable {r : Reply}

theorem valid_event {p : PresenceEvent} (ok : p.info.json.valid = true) : p.json.valid = true := by
  have type : (Json.str p.type).valid = true := rfl
  simp [PresenceEvent.json, Json.valid, Json.validFields_append, validFields_omitEmpty _ _ type,
    validFields_omitEmpty _ _ ok, Json.validFields]

theorem valid_reply (message : r.message.json.valid = true)
    (presence : ∀ p ∈ r.presence, p.info.json.valid = true) : r.json.valid = true := by
  have text (s : String) : (Json.str s).valid = true := rfl
  have flag (b : Bool) : (Json.bool b).valid = true := rfl
  have offset : (Json.num (numeral r.offset)).valid = true := isNumber_toDigits r.offset
  have ids : (Json.arr (r.restoredIds.map .str)).valid = true := by
    rw [Json.valid, Json.validItems_eq_all]
    simp [Json.valid]
  have event : Json.validFields (r.presence.map fun p => ("presence", p.json)).toList = true := by
    cases shape : r.presence with
    | none => rfl
    | some p => simp [Json.validFields, valid_event (presence p shape)]
  simp [Reply.json, Json.valid, Json.validFields_append, validFields_omitEmpty _ _ (text _),
    validFields_omitEmpty _ _ (flag _), validFields_omitEmpty _ _ offset,
    validFields_omitEmpty _ _ ids, validFields_omitEmpty _ _ message, event]

end Reply

end AnyCable.Source.Encoders
