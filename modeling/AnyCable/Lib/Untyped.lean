import AnyCable.Lib.Decimal
import Mathlib.Data.List.Sort
import Mathlib.Data.String.Basic

/-!
# Values without a type

What becomes of a JSON text that Go decodes into an `interface{}` and encodes again. An object is a
map in between: of several fields with one name the last is kept, and the names are written in their
order (`mapFields`). A number is a `float64` in between; `Floats` is what reading and printing it
make of the number's text. A number that does not fit is replaced by `null`, and reported.

`JsonValue` is the value that a text denotes: numbers by their value, objects by what each name
stands for. It survives exactly if the numbers do (`value_reencode_iff`).
-/

set_option autoImplicit false

namespace AnyCable.Lib

/-! ### The fields of a map -/

section Fields

variable {α β : Type}

/-- The fields that no later one of the same name overwrites. -/
def survivors : List (String × α) → List (String × α)
  | [] => []
  | p :: rest => if p.1 ∈ rest.map Prod.fst then survivors rest else p :: survivors rest

/-- The fields of a map as they are written. -/
def mapFields (fields : List (String × α)) : List (String × α) :=
  (survivors fields).insertionSort fun p q => p.1 ≤ q.1

/-- A function applied to the value of a field. -/
def onValue (f : α → β) (p : String × α) : String × β := (p.1, f p.2)

theorem names_onValue (f : α → β) (fields : List (String × α)) :
    (fields.map (onValue f)).map Prod.fst = fields.map Prod.fst := by
  rw [List.map_map]
  rfl

theorem survivors_map (f : α → β) (fields : List (String × α)) :
    survivors (fields.map (onValue f)) = (survivors fields).map (onValue f) := by
  induction fields with
  | nil => rfl
  | cons p rest ih =>
    have name : (onValue f p).1 = p.1 := rfl
    rw [List.map_cons, survivors, survivors, names_onValue, name, ih]
    by_cases later : p.1 ∈ rest.map Prod.fst
    · rw [if_pos later, if_pos later]
    · rw [if_neg later, if_neg later, List.map_cons]

theorem mapFields_map (f : α → β) (fields : List (String × α)) :
    mapFields (fields.map (onValue f)) = (mapFields fields).map (onValue f) := by
  rw [mapFields, mapFields, survivors_map]
  symm
  apply List.map_insertionSort
  intro p _ q _
  rfl

theorem survivors_subset (fields : List (String × α)) : survivors fields ⊆ fields := by
  induction fields with
  | nil => simp [survivors]
  | cons p rest ih =>
    rw [survivors]
    split
    · exact fun q member => List.mem_cons_of_mem p (ih member)
    · exact List.cons_subset_cons p ih

/-- Every name is left once. -/
theorem nodup_survivors (fields : List (String × α)) :
    ((survivors fields).map Prod.fst).Nodup := by
  induction fields with
  | nil => simp [survivors]
  | cons p rest ih =>
    rw [survivors]
    split
    · exact ih
    next last =>
      rw [List.map_cons, List.nodup_cons]
      refine ⟨fun member => last ?_, ih⟩
      obtain ⟨q, kept, same⟩ := List.mem_map.mp member
      exact List.mem_map.mpr ⟨q, survivors_subset rest kept, same⟩

theorem survivors_of_nodup {fields : List (String × α)}
    (once : (fields.map Prod.fst).Nodup) : survivors fields = fields := by
  induction fields with
  | nil => rfl
  | cons p rest ih =>
    rw [List.map_cons, List.nodup_cons] at once
    rw [survivors, if_neg once.1, ih once.2]

theorem mem_mapFields {fields : List (String × α)} {p : String × α} :
    p ∈ mapFields fields ↔ p ∈ survivors fields :=
  List.mem_insertionSort _

/-- A map that is written and read again is written the same. -/
theorem mapFields_mapFields (fields : List (String × α)) :
    mapFields (mapFields fields) = mapFields fields := by
  have sorted : (mapFields fields).Pairwise fun p q => p.1 ≤ q.1 :=
    have : Std.Total fun p q : String × α => p.1 ≤ q.1 := ⟨fun p q => le_total p.1 q.1⟩
    have : IsTrans (String × α) fun p q => p.1 ≤ q.1 := ⟨fun _ _ _ => le_trans⟩
    List.pairwise_insertionSort _ _
  have once : ((mapFields fields).map Prod.fst).Nodup :=
    ((List.perm_insertionSort _ _).map Prod.fst).nodup_iff.mpr (nodup_survivors fields)
  rw [mapFields, survivors_of_nodup once]
  exact sorted.insertionSort_eq

end Fields

/-- What `strconv.ParseFloat` and the printing of a `float64` by `encoding/json` make of a number:
nothing if it does not fit. -/
structure Floats where
  reprint : Numeral → Option Numeral
  number : ∀ n m, reprint n = some m → isNumber m.digits = true

namespace Json

variable (floats : Floats)

mutual

/-- The value after decoding and encoding. -/
def reencode : Json → Json
  | .num n =>
    match floats.reprint n with
    | some m => .num m
    | none => .null
  | .arr items => .arr (reencodeItems items)
  | .obj fields => .obj (mapFields (reencodeFields fields))
  | .null => .null
  | .bool b => .bool b
  | .str s => .str s

def reencodeItems : List Json → List Json
  | [] => []
  | item :: items => reencode item :: reencodeItems items

def reencodeFields : List (String × Json) → List (String × Json)
  | [] => []
  | (name, value) :: fields => (name, reencode value) :: reencodeFields fields

end

mutual

/-- Every number fits. -/
def inRange : Json → Bool
  | .num n => (floats.reprint n).isSome
  | .arr items => inRangeItems items
  | .obj fields => inRangeFields fields
  | .null | .bool _ | .str _ => true

def inRangeItems : List Json → Bool
  | [] => true
  | item :: items => inRange item && inRangeItems items

def inRangeFields : List (String × Json) → Bool
  | [] => true
  | (_, value) :: fields => inRange value && inRangeFields fields

end

theorem reencodeItems_eq (items : List Json) :
    reencodeItems floats items = items.map (reencode floats) := by
  induction items with
  | nil => rfl
  | cons item items ih => rw [reencodeItems, ih, List.map_cons]

theorem reencodeFields_eq (fields : List (String × Json)) :
    reencodeFields floats fields = fields.map (onValue (reencode floats)) := by
  induction fields with
  | nil => rfl
  | cons field fields ih => rw [reencodeFields, ih, List.map_cons, onValue]

theorem validFields_iff (fields : List (String × Json)) :
    validFields fields = true ↔ ∀ p ∈ fields, p.2.valid = true := by
  induction fields with
  | nil => simp [validFields]
  | cons field fields ih => simp [validFields, ih]

mutual

/-- What is encoded again is a text of the grammar. -/
theorem valid_reencode : ∀ j : Json, (reencode floats j).valid = true
  | .null | .bool _ | .str _ => by simp [reencode, valid]
  | .num n => by
    rw [reencode]
    cases printed : floats.reprint n with
    | none => rfl
    | some m => exact floats.number n m printed
  | .arr items => by
    rw [reencode, valid]
    exact validItems_reencode items
  | .obj fields => by
    rw [reencode, valid, validFields_iff]
    intro p kept
    have listed := survivors_subset _ (mem_mapFields.mp kept)
    exact (validFields_iff _).mp (validFields_reencode fields) p listed

theorem validItems_reencode : ∀ items : List Json,
    validItems (reencodeItems floats items) = true
  | [] => rfl
  | item :: items => by
    rw [reencodeItems, validItems, valid_reencode item, validItems_reencode items]
    rfl

theorem validFields_reencode : ∀ fields : List (String × Json),
    validFields (reencodeFields floats fields) = true
  | [] => rfl
  | (name, field) :: fields => by
    rw [reencodeFields, validFields, valid_reencode field, validFields_reencode fields]
    rfl

end

/-- What a variable of type `interface{}` holds after a text has been decoded into it and the error
has been ignored, as it is encoded: nothing if the text is no JSON or is a number that does not
fit. -/
def untyped (text : String) : Option Json :=
  match parse text with
  | none => none
  | some (.num n) => (floats.reprint n).map .num
  | some j => some (reencode floats j)

end Json

/-! ### What a text denotes -/

/-- The fields of an object are in the order of their names, and each name occurs once. -/
inductive JsonValue where
  | null
  | bool (value : Bool)
  | num (value : ℚ)
  | str (text : String)
  | arr (items : List JsonValue)
  | obj (fields : List (String × JsonValue))

namespace Json

mutual

def value : Json → JsonValue
  | .null => .null
  | .bool b => .bool b
  | .num n => .num n.value
  | .str s => .str s
  | .arr items => .arr (itemValues items)
  | .obj fields => .obj (mapFields (fieldValues fields))

def itemValues : List Json → List JsonValue
  | [] => []
  | item :: items => value item :: itemValues items

def fieldValues : List (String × Json) → List (String × JsonValue)
  | [] => []
  | (name, field) :: fields => (name, value field) :: fieldValues fields

end

theorem itemValues_eq (items : List Json) : itemValues items = items.map value := by
  induction items with
  | nil => rfl
  | cons item items ih => rw [itemValues, ih, List.map_cons]

theorem fieldValues_eq (fields : List (String × Json)) :
    fieldValues fields = fields.map (onValue value) := by
  induction fields with
  | nil => rfl
  | cons field fields ih => rw [fieldValues, ih, List.map_cons, onValue]

section Exact

variable (floats : Floats)

mutual

/-- Every number that is kept has the same value afterwards. -/
def Exact : Json → Prop
  | .num n => ∃ m, floats.reprint n = some m ∧ m.value = n.value
  | .arr items => ExactItems items
  | .obj fields => ExactFields fields
  | .null | .bool _ | .str _ => True

def ExactItems : List Json → Prop
  | [] => True
  | item :: items => Exact item ∧ ExactItems items

def ExactFields : List (String × Json) → Prop
  | [] => True
  | (name, field) :: fields =>
    (name ∉ fields.map Prod.fst → Exact field) ∧ ExactFields fields

end

/-- The value of an object that is encoded again: that of its fields, each encoded again. -/
theorem value_reencode_obj (fields : List (String × Json)) :
    value (reencode floats (.obj fields)) =
      .obj ((mapFields fields).map (onValue fun field => value (reencode floats field))) := by
  have both : (onValue value ∘ onValue (reencode floats) : String × Json → String × JsonValue) =
      onValue fun field => value (reencode floats field) := rfl
  rw [reencode, value, fieldValues_eq, reencodeFields_eq, mapFields_map, mapFields_mapFields,
    mapFields_map, List.map_map, both]

theorem value_obj (fields : List (String × Json)) :
    value (.obj fields) = .obj ((mapFields fields).map (onValue value)) := by
  rw [value, fieldValues_eq, mapFields_map]

mutual

theorem value_reencode_iff : ∀ j : Json, value (reencode floats j) = value j ↔ Exact floats j
  | .null | .bool _ | .str _ => by simp [reencode, Exact]
  | .num n => by
    rw [reencode, Exact]
    cases floats.reprint n with
    | none => simp [value]
    | some m => simp [value]
  | .arr items => by
    rw [reencode, value, value, Exact, JsonValue.arr.injEq, reencodeItems_eq, itemValues_eq,
      itemValues_eq, List.map_map, List.map_inj_left]
    exact items_reencode_iff items
  | .obj fields => by
    rw [value_reencode_obj, value_obj, Exact, JsonValue.obj.injEq, List.map_inj_left,
      ← fields_reencode_iff fields]
    constructor
    · intro same p kept
      exact (Prod.mk.inj (same p (mem_mapFields.mpr kept))).2
    · intro same p kept
      rw [onValue, onValue, same p (mem_mapFields.mp kept)]

theorem items_reencode_iff : ∀ items : List Json,
    (∀ item ∈ items, (value ∘ reencode floats) item = value item) ↔ ExactItems floats items
  | [] => by simp [ExactItems]
  | item :: items => by
    rw [List.forall_mem_cons, ExactItems, ← items_reencode_iff items, ← value_reencode_iff item]
    rfl

theorem fields_reencode_iff : ∀ fields : List (String × Json),
    (∀ p ∈ survivors fields, value (reencode floats p.2) = value p.2) ↔
      ExactFields floats fields
  | [] => by simp [survivors, ExactFields]
  | (name, field) :: fields => by
    rw [survivors, ExactFields, ← fields_reencode_iff fields, ← value_reencode_iff field]
    by_cases later : name ∈ fields.map Prod.fst
    · rw [if_pos later]
      exact (and_iff_right fun last => absurd later last).symm
    · rw [if_neg later, List.forall_mem_cons]
      exact and_congr_left' ⟨fun same _ => same, fun same => same later⟩

end

end Exact

end Json

end AnyCable.Lib
