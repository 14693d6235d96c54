import AnyCable.Lib.Json
import Mathlib.Data.List.TakeWhile
import Mathlib.Data.List.Forall2

/-!
# Reading JSON texts

The grammar that Go's `encoding/json` accepts, on characters: blanks between the parts, the short
escapes, UTF-16 escapes with surrogate pairs (half a pair reads as the replacement character), and
numbers by their text. Control characters inside strings are refused. The limit on the nesting depth
is left out.

`parse_text` is the round trip: every value whose numbers are JSON numbers is read back from the
text that `json.Marshal` writes.
-/

set_option autoImplicit false

namespace AnyCable.Lib

/-! ### Numbers -/

/-- A character that a number may have. -/
def isNumeric (c : Char) : Bool := c.isDigit || c ∈ ['+', '-', '.', 'e', 'E']

/-- One digit or more. -/
def isDigits (text : List Char) : Bool := !text.isEmpty && text.all Char.isDigit

theorem isDigits_iff {text : List Char} :
    isDigits text = true ↔ text ≠ [] ∧ ∀ c ∈ text, c.isDigit = true := by
  simp [isDigits]

theorem isDigits_toDigits (n : Nat) : isDigits (Nat.toDigits 10 n) = true :=
  isDigits_iff.mpr
    ⟨Nat.toDigits_ne_nil, fun _ => Nat.isDigit_of_mem_toDigits (by decide) (by decide)⟩

def isExponent : List Char → Bool
  | [] => true
  | c :: '+' :: text => (c == 'e' || c == 'E') && isDigits text
  | c :: '-' :: text => (c == 'e' || c == 'E') && isDigits text
  | c :: text => (c == 'e' || c == 'E') && isDigits text

def isFraction : List Char → Bool
  | '.' :: text =>
    isDigits (text.takeWhile Char.isDigit) && isExponent (text.dropWhile Char.isDigit)
  | text => isExponent text

/-- A number without its sign. A leading zero stands alone. -/
def isUnsigned (text : List Char) : Bool :=
  let whole := text.takeWhile Char.isDigit
  isDigits whole && (whole == ['0'] || whole.head? != some '0') &&
    isFraction (text.dropWhile Char.isDigit)

def isNumber : List Char → Bool
  | '-' :: text => isUnsigned text
  | text => isUnsigned text

theorem isNumber_ne_nil {text : List Char} (number : isNumber text = true) : text ≠ [] := by
  rintro rfl
  cases number

theorem toDigits_head {n : Nat} (pos : 0 < n) : (Nat.toDigits 10 n).head? ≠ some '0' := by
  induction n using Nat.strongRecOn with
  | ind n ih =>
    by_cases small : n < 10
    · have nonzero : ∀ d < 10, 0 < d → Nat.digitChar d ≠ '0' := by decide
      rw [Nat.toDigits_of_lt_base small]
      simpa using nonzero n small pos
    · rw [Nat.toDigits_of_base_le (by decide) (by omega),
        List.head?_append_of_ne_nil _ Nat.toDigits_ne_nil]
      exact ih (n / 10) (by omega) (by omega)

/-- The digits of a natural number are a number. -/
theorem isNumber_toDigits (n : Nat) : isNumber (Nat.toDigits 10 n) = true := by
  have digits : ∀ c ∈ Nat.toDigits 10 n, c.isDigit = true :=
    fun c => Nat.isDigit_of_mem_toDigits (by decide) (by decide)
  have whole : (Nat.toDigits 10 n).takeWhile Char.isDigit = Nat.toDigits 10 n :=
    List.takeWhile_eq_self_iff.mpr digits
  have nothing : (Nat.toDigits 10 n).dropWhile Char.isDigit = [] :=
    List.dropWhile_eq_nil_iff.mpr digits
  have zero : Nat.toDigits 10 n = ['0'] ∨ (Nat.toDigits 10 n).head? ≠ some '0' := by
    rcases Nat.eq_zero_or_pos n with rfl | pos
    · exact Or.inl rfl
    · exact Or.inr (toDigits_head pos)
  have unsigned : isUnsigned (Nat.toDigits 10 n) = true := by
    simp only [isUnsigned, whole, nothing, isDigits_toDigits, isFraction, isExponent,
      Bool.true_and, Bool.and_true, Bool.or_eq_true, beq_iff_eq, bne_iff_ne]
    exact zero
  unfold isNumber
  split
  next rest shape => exact absurd (digits '-' (by simp [shape])) (by decide)
  · exact unsigned

/-! ### Strings -/

/-- What a string is written with: a character, or a UTF-16 unit in hexadecimal digits. -/
inductive Piece where
  | char (c : Char)
  | unit (n : Nat)

def hexValue (c : Char) : Option Nat :=
  if '0' ≤ c ∧ c ≤ '9' then some (c.toNat - 48)
  else if 'a' ≤ c ∧ c ≤ 'f' then some (c.toNat - 87)
  else if 'A' ≤ c ∧ c ≤ 'F' then some (c.toNat - 55)
  else none

def hexUnit (a b c d : Char) : Option Nat := do
  return (← hexValue a) * 4096 + (← hexValue b) * 256 + (← hexValue c) * 16 + (← hexValue d)

/-- The character behind a backslash. -/
def shortEscape (c : Char) : Option Char :=
  if c = '\x22' ∨ c = '\x5c' ∨ c = '/' then some c
  else if c = 'b' then some '\x08'
  else if c = 'f' then some '\x0c'
  else if c = 'n' then some '\n'
  else if c = 'r' then some '\r'
  else if c = 't' then some '\t'
  else none

def push (piece : Piece) (read : Option (List Piece × List Char)) :
    Option (List Piece × List Char) :=
  read.map fun p => (piece :: p.1, p.2)

/-- The pieces up to the closing quote, and what follows it. -/
def readPieces : List Char → Option (List Piece × List Char)
  | [] => none
  | c :: text =>
    if c = '\x22' then some ([], text)
    else if c = '\x5c' then
      match text with
      | 'u' :: a :: b :: c :: d :: text => do push (.unit (← hexUnit a b c d)) (readPieces text)
      | e :: text => do push (.char (← shortEscape e)) (readPieces text)
      | [] => none
    else if c.toNat < 32 then none
    else push (.char c) (readPieces text)

def isHigh (n : Nat) : Bool := 0xd800 ≤ n && n < 0xdc00

def isLow (n : Nat) : Bool := 0xdc00 ≤ n && n < 0xe000

/-- A unit on its own. -/
def unitChar (n : Nat) : Char := if isHigh n || isLow n then '\ufffd' else Char.ofNat n

def assemble : List Piece → List Char
  | [] => []
  | .char c :: rest => c :: assemble rest
  | .unit h :: .unit l :: rest =>
    if isHigh h && isLow l then
      Char.ofNat (0x10000 + (h - 0xd800) * 0x400 + (l - 0xdc00)) :: assemble rest
    else unitChar h :: assemble (.unit l :: rest)
  | .unit n :: rest => unitChar n :: assemble rest

def readString (text : List Char) : Option (String × List Char) := do
  let (pieces, after) ← readPieces text
  return (String.ofList (assemble pieces), after)

/-- A piece that stands for a character on its own. -/
inductive Stands : Piece → Char → Prop where
  | char (c : Char) : Stands (.char c) c
  | unit (c : Char) : Stands (.unit c.toNat) c

theorem not_surrogate (c : Char) : isHigh c.toNat = false ∧ isLow c.toNat = false := by
  have valid := c.valid
  simp only [UInt32.isValidChar, Nat.isValidChar] at valid
  unfold isHigh isLow Char.toNat
  simp only [Bool.and_eq_false_iff, decide_eq_false_iff_not]
  omega

theorem unitChar_toNat (c : Char) : unitChar c.toNat = c := by
  rw [unitChar, (not_surrogate c).1, (not_surrogate c).2]
  exact Char.ofNat_toNat c

theorem assemble_unit (c : Char) {pieces : List Piece} {text : List Char}
    (stand : List.Forall₂ Stands pieces text) :
    assemble (.unit c.toNat :: pieces) = c :: assemble pieces := by
  cases stand with
  | nil => simp [assemble, unitChar_toNat]
  | cons second _ =>
    cases second with
    | char d => simp [assemble, unitChar_toNat]
    | unit d => simp [assemble, not_surrogate, unitChar_toNat]

theorem assemble_eq {pieces : List Piece} {text : List Char}
    (stand : List.Forall₂ Stands pieces text) : assemble pieces = text := by
  induction stand with
  | nil => rfl
  | cons first rest ih =>
    cases first with
    | char => rw [assemble, ih]
    | unit => rw [assemble_unit _ rest, ih]

theorem hexUnit_hexDigits {n : Nat} (small : n < 65536) {a b c d : Char}
    (digits : hexDigits n = [a, b, c, d]) : hexUnit a b c d = some n := by
  have value : ∀ k < 16, hexValue (Nat.digitChar k) = some k := by decide
  have digit (k : Nat) : hexValue (Nat.digitChar (k % 16)) = some (k % 16) :=
    value _ (Nat.mod_lt _ (by omega))
  cases digits
  rw [hexUnit, digit, digit, digit, digit]
  simp only [pure, Option.bind_eq_bind, Option.bind_some, Option.some.injEq]
  omega

theorem readPieces_short {e c : Char} (short : shortEscape e = some c) (rest : List Char) :
    readPieces ('\x5c' :: e :: rest) = push (.char c) (readPieces rest) := by
  have other : e ≠ 'u' := by
    rintro rfl
    cases short
  simp [readPieces, short, other]

theorem readPieces_unit {a b c d : Char} {n : Nat} (read : hexUnit a b c d = some n)
    (rest : List Char) :
    readPieces ('\x5c' :: 'u' :: a :: b :: c :: d :: rest) = push (.unit n) (readPieces rest) := by
  simp [readPieces, read]

theorem readPieces_escapeChar (c : Char) (rest : List Char) :
    ∃ piece, Stands piece c ∧ readPieces (escapeChar c ++ rest) = push piece (readPieces rest) := by
  fun_cases escapeChar c with
  | case1 same | case2 _ same | case3 _ _ same | case4 _ _ _ same | case5 _ _ _ _ same
  | case6 _ _ _ _ _ same | case7 _ _ _ _ _ _ same =>
    exact ⟨_, .char c, readPieces_short (by rw [same]; rfl) rest⟩
  | case8 _ _ _ _ _ _ _ special =>
    have small : c.toNat < 65536 := by
      rcases special with low | rfl | rfl | rfl | rfl | rfl
      · omega
      all_goals decide
    exact ⟨_, .unit c, readPieces_unit (hexUnit_hexDigits small rfl) rest⟩
  | case9 quote backslash _ _ _ _ _ plain =>
    rw [not_or] at plain
    refine ⟨_, .char c, ?_⟩
    rw [List.cons_append, List.nil_append, readPieces.eq_def]
    simp [quote, backslash, plain.1]

theorem readPieces_quote (text rest : List Char) :
    ∃ pieces, List.Forall₂ Stands pieces text ∧
      readPieces (text.flatMap escapeChar ++ '\x22' :: rest) = some (pieces, rest) := by
  induction text with
  | nil =>
    refine ⟨[], .nil, ?_⟩
    rw [List.flatMap_nil, List.nil_append, readPieces.eq_def]
    rfl
  | cons c text ih =>
    obtain ⟨pieces, stand, read⟩ := ih
    obtain ⟨piece, first, escaped⟩ :=
      readPieces_escapeChar c (text.flatMap escapeChar ++ '\x22' :: rest)
    refine ⟨piece :: pieces, .cons first stand, ?_⟩
    rw [List.flatMap_cons, List.append_assoc, escaped, read]
    rfl

theorem readString_quote (text : String) (rest : List Char) :
    readString (text.toList.flatMap escapeChar ++ '\x22' :: rest) = some (text, rest) := by
  obtain ⟨pieces, stand, read⟩ := readPieces_quote text.toList rest
  simp [readString, read, assemble_eq stand]

/-! ### Values -/

namespace Json

def isBlank (c : Char) : Bool := c == ' ' || c == '\t' || c == '\r' || c == '\n'

def skip (text : List Char) : List Char := text.dropWhile isBlank

theorem all_takeWhile_isNumeric (text : List Char) :
    (text.takeWhile isNumeric).all (fun c => c.isDigit || c ∈ ['+', '-', '.', 'e', 'E']) = true :=
  List.all_eq_true.mpr fun _ inside => List.mem_takeWhile_imp (p := isNumeric) inside

def readNumber (text : List Char) : Option (Json × List Char) :=
  if isNumber (text.takeWhile isNumeric) then
    some (.num ⟨text.takeWhile isNumeric, all_takeWhile_isNumeric text⟩, text.dropWhile isNumeric)
  else none

mutual

/-- A value at the start of a text, and what follows it. -/
def readValue : Nat → List Char → Option (Json × List Char)
  | 0, _ => none
  | _ + 1, 'n' :: 'u' :: 'l' :: 'l' :: rest => some (.null, rest)
  | _ + 1, 't' :: 'r' :: 'u' :: 'e' :: rest => some (.bool true, rest)
  | _ + 1, 'f' :: 'a' :: 'l' :: 's' :: 'e' :: rest => some (.bool false, rest)
  | _ + 1, '\x22' :: rest => (readString rest).map fun p => (.str p.1, p.2)
  | fuel + 1, '[' :: rest =>
    match skip rest with
    | ']' :: rest => some (.arr [], rest)
    | rest => (readItems fuel rest).map fun p => (.arr p.1, p.2)
  | fuel + 1, '\x7b' :: rest =>
    match skip rest with
    | '\x7d' :: rest => some (.obj [], rest)
    | rest => (readFields fuel rest).map fun p => (.obj p.1, p.2)
  | _ + 1, text => readNumber text

/-- The items of an array, from the start of one up to the closing bracket. -/
def readItems : Nat → List Char → Option (List Json × List Char)
  | 0, _ => none
  | fuel + 1, text => do
    let (item, rest) ← readValue fuel text
    match skip rest with
    | ',' :: rest => (readItems fuel (skip rest)).map fun p => (item :: p.1, p.2)
    | ']' :: rest => some ([item], rest)
    | _ => none

/-- The fields of an object, from the start of one up to the closing brace. -/
def readFields : Nat → List Char → Option (List (String × Json) × List Char)
  | 0, _ => none
  | fuel + 1, '\x22' :: text => do
    let (name, rest) ← readString text
    match skip rest with
    | ':' :: rest =>
      let (value, rest) ← readValue fuel (skip rest)
      match skip rest with
      | ',' :: rest => (readFields fuel (skip rest)).map fun p => ((name, value) :: p.1, p.2)
      | '\x7d' :: rest => some ([(name, value)], rest)
      | _ => none
    | _ => none
  | _ + 1, _ => none

end

/-- A text that is one value. -/
def parse (text : String) : Option Json := do
  let (j, rest) ← readValue (2 * text.length + 1) (skip text.toList)
  if skip rest = [] then return j else none

/-! ### The round trip -/

mutual

/-- All numbers are numbers of the grammar. -/
def valid : Json → Bool
  | .num numeral => isNumber numeral.digits
  | .arr items => validItems items
  | .obj fields => validFields fields
  | .null | .bool _ | .str _ => true

def validItems : List Json → Bool
  | [] => true
  | item :: items => item.valid && validItems items

def validFields : List (String × Json) → Bool
  | [] => true
  | (_, value) :: fields => value.valid && validFields fields

end

theorem validFields_append (a b : List (String × Json)) :
    validFields (a ++ b) = (validFields a && validFields b) := by
  induction a with
  | nil => rfl
  | cons field a ih => rw [List.cons_append, validFields, validFields, ih, Bool.and_assoc]

theorem validItems_eq_all (items : List Json) : validItems items = items.all valid := by
  induction items with
  | nil => rfl
  | cons item items ih => rw [validItems, List.all_cons, ih]

/-- What follows is not part of a number. -/
def Stops (rest : List Char) : Prop := ∀ c ∈ rest.head?, isNumeric c = false

theorem stops_cons {c : Char} (outside : isNumeric c = false) (rest : List Char) :
    Stops (c :: rest) := by
  intro d first
  cases first
  exact outside

theorem readNumber_digits {numeral : Numeral} (number : isNumber numeral.digits = true)
    {rest : List Char} (stops : Stops rest) :
    readNumber (numeral.digits ++ rest) = some (.num numeral, rest) := by
  have numeric : ∀ c ∈ numeral.digits, isNumeric c = true := List.all_eq_true.mp numeral.numeric
  have after : rest.takeWhile isNumeric = [] ∧ rest.dropWhile isNumeric = rest := by
    cases rest with
    | nil => exact ⟨rfl, rfl⟩
    | cons c rest =>
      have out := stops c rfl
      exact ⟨List.takeWhile_cons_of_neg (by simp [out]), List.dropWhile_cons_of_neg (by simp [out])⟩
  have taken : (numeral.digits ++ rest).takeWhile isNumeric = numeral.digits := by
    rw [List.takeWhile_append_of_pos numeric, after.1, List.append_nil]
  have dropped : (numeral.digits ++ rest).dropWhile isNumeric = rest := by
    rw [List.dropWhile_append_of_pos numeric, after.2]
  simp [readNumber, taken, dropped, number]

theorem numeral_head {numeral : Numeral} (number : isNumber numeral.digits = true) :
    ∃ c text, numeral.digits = c :: text ∧ isNumeric c = true := by
  obtain ⟨c, text, shape⟩ := List.exists_cons_of_ne_nil (isNumber_ne_nil number)
  exact ⟨c, text, shape, List.all_eq_true.mp numeral.numeric c (by simp [shape])⟩

/-- How the text of a value starts: not with a blank or a closing bracket. -/
theorem chars_head {j : Json} (ok : j.valid = true) :
    ∃ c text, j.chars = c :: text ∧ isBlank c = false ∧ c ≠ ']' := by
  cases j with
  | null => exact ⟨_, _, rfl, rfl, by decide⟩
  | bool value => cases value <;> exact ⟨_, _, rfl, rfl, by decide⟩
  | str text => exact ⟨_, _, rfl, rfl, by decide⟩
  | arr items => exact ⟨_, _, rfl, rfl, by decide⟩
  | obj fields => exact ⟨_, _, rfl, rfl, by decide⟩
  | num numeral =>
    obtain ⟨c, text, shape, numeric⟩ := numeral_head ok
    refine ⟨c, text, shape, ?_, ?_⟩
    · by_contra blank
      simp only [isBlank, Bool.not_eq_false, Bool.or_eq_true, beq_iff_eq] at blank
      rcases blank with ((rfl | rfl) | rfl) | rfl
      all_goals cases numeric
    · rintro rfl
      cases numeric

theorem skip_of_head {c : Char} (head : isBlank c = false) (text : List Char) :
    skip (c :: text) = c :: text :=
  List.dropWhile_cons_of_neg (by simp [head])

theorem skip_chars {j : Json} (ok : j.valid = true) (rest : List Char) :
    skip (j.chars ++ rest) = j.chars ++ rest := by
  obtain ⟨c, text, shape, head, -⟩ := chars_head ok
  rw [shape, List.cons_append, skip_of_head head]

theorem readValue_num {fuel : Nat} {numeral : Numeral} (number : isNumber numeral.digits = true)
    (rest : List Char) :
    readValue (fuel + 1) (numeral.digits ++ rest) = readNumber (numeral.digits ++ rest) := by
  obtain ⟨c, text, shape, numeric⟩ := numeral_head number
  have other (d : Char) (outside : isNumeric d = false) : c ≠ d := by
    rintro rfl
    cases numeric.symm.trans outside
  rw [shape, List.cons_append]
  generalize text ++ rest = tail
  rw [readValue.eq_def]
  split
  case h_1 zero => cases zero
  case h_8 => rfl
  all_goals
    rename_i same
    exact absurd (List.cons.inj same).1 (other _ rfl)

/-- The text of items, from the first one on. -/
theorem items_texts_cons {item : Json} (items : List Json) (ok : item.valid = true)
    (rest : List Char) :
    ∃ c text, [','].intercalate (itemTexts (item :: items)) ++ rest = c :: text ∧
      isBlank c = false ∧ c ≠ ']' := by
  obtain ⟨c, text, shape, blank, bracket⟩ := chars_head ok
  cases items with
  | nil => exact ⟨c, text ++ rest, by simp [itemTexts, shape], blank, bracket⟩
  | cons next items =>
    rw [itemTexts, itemTexts, intercalate_cons_cons, shape]
    exact ⟨c, _, rfl, blank, bracket⟩

theorem fields_texts_cons (name : String) (value : Json) (fields : List (String × Json))
    (rest : List Char) :
    ∃ text, [','].intercalate (fieldTexts ((name, value) :: fields)) ++ rest = '\x22' :: text := by
  cases fields with
  | nil => exact ⟨_, by simp only [fieldTexts, List.intercalate_singleton, quote]; rfl⟩
  | cons next fields =>
    rw [fieldTexts, fieldTexts, intercalate_cons_cons]
    exact ⟨_, rfl⟩

mutual

theorem readValue_chars : ∀ j : Json, j.valid = true → ∀ (fuel : Nat) (rest : List Char),
    Stops rest → 2 * (j.chars ++ rest).length + 1 ≤ fuel →
    readValue fuel (j.chars ++ rest) = some (j, rest)
  | _, _, 0, _, _, enough => absurd enough (by omega)
  | .null, _, fuel + 1, rest, _, _ => rfl
  | .bool true, _, fuel + 1, rest, _, _ => rfl
  | .bool false, _, fuel + 1, rest, _, _ => rfl
  | .num numeral, ok, fuel + 1, rest, stops, _ =>
    (readValue_num ok rest).trans (readNumber_digits ok stops)
  | .str text, _, fuel + 1, rest, _, _ => by
    have read := readString_quote text rest
    simp [chars, quote, readValue, read]
  | .arr items, ok, fuel + 1, rest, _, enough => by
    have inner := readItems_texts items ok fuel rest
    simp only [chars, List.cons_append, List.append_assoc, List.nil_append, readValue]
    simp only [chars, List.cons_append, List.append_assoc, List.nil_append,
      List.length_cons] at enough
    cases items with
    | nil => simp [itemTexts, skip_of_head (show isBlank ']' = false from rfl)]
    | cons item items =>
      rw [valid, validItems, Bool.and_eq_true] at ok
      obtain ⟨c, text, shape, blank, bracket⟩ := items_texts_cons items ok.1 (']' :: rest)
      rw [shape] at inner enough ⊢
      rw [skip_of_head blank]
      simp [bracket, inner (by simp) (by simp at enough ⊢; omega)]
  | .obj fields, ok, fuel + 1, rest, _, enough => by
    have inner := readFields_texts fields ok fuel rest
    simp only [chars, List.cons_append, List.append_assoc, List.nil_append, readValue]
    simp only [chars, List.cons_append, List.append_assoc, List.nil_append,
      List.length_cons] at enough
    cases fields with
    | nil => simp [fieldTexts, skip_of_head (show isBlank '\x7d' = false from rfl)]
    | cons field fields =>
      obtain ⟨text, shape⟩ := fields_texts_cons field.1 field.2 fields ('\x7d' :: rest)
      rw [shape] at inner enough ⊢
      rw [skip_of_head rfl]
      simp [inner (by simp) (by simp at enough ⊢; omega)]

theorem readItems_texts : ∀ items : List Json, validItems items = true →
    ∀ (fuel : Nat) (rest : List Char), items ≠ [] →
    2 * ([','].intercalate (itemTexts items) ++ ']' :: rest).length + 2 ≤ fuel →
    readItems fuel ([','].intercalate (itemTexts items) ++ ']' :: rest) = some (items, rest)
  | [], _, _, _, nonempty, _ => absurd rfl nonempty
  | _, _, 0, _, _, enough => absurd enough (by omega)
  | item :: items, ok, fuel + 1, rest, _, enough => by
    rw [validItems, Bool.and_eq_true] at ok
    have first := readValue_chars item ok.1 fuel
    have later := readItems_texts items ok.2 fuel rest
    cases items with
    | nil =>
      simp only [itemTexts, List.intercalate_singleton] at enough ⊢
      rw [readItems, first (']' :: rest) (stops_cons rfl rest) (by omega)]
      simp [skip_of_head (show isBlank ']' = false from rfl)]
    | cons next items =>
      rw [itemTexts, itemTexts, intercalate_cons_cons, List.append_assoc, List.cons_append,
        ← itemTexts] at enough ⊢
      rw [validItems, Bool.and_eq_true] at ok
      obtain ⟨c, text, shape, blank, -⟩ := items_texts_cons items ok.2.1 (']' :: rest)
      rw [readItems, first _ (stops_cons rfl _) (by omega)]
      rw [List.length_append, List.length_cons] at enough
      rw [shape] at later enough ⊢
      simp [skip_of_head (show isBlank ',' = false from rfl), skip_of_head blank,
        later (by simp) (by omega)]

theorem readFields_texts : ∀ fields : List (String × Json), validFields fields = true →
    ∀ (fuel : Nat) (rest : List Char), fields ≠ [] →
    2 * ([','].intercalate (fieldTexts fields) ++ '\x7d' :: rest).length + 2 ≤ fuel →
    readFields fuel ([','].intercalate (fieldTexts fields) ++ '\x7d' :: rest) = some (fields, rest)
  | [], _, _, _, nonempty, _ => absurd rfl nonempty
  | _, _, 0, _, _, enough => absurd enough (by omega)
  | (name, value) :: fields, ok, fuel + 1, rest, _, enough => by
    rw [validFields, Bool.and_eq_true] at ok
    have first := readValue_chars value ok.1 fuel
    have later := readFields_texts fields ok.2 fuel rest
    cases fields with
    | nil =>
      simp only [fieldTexts, List.intercalate_singleton, quote, List.cons_append, List.append_assoc,
        List.nil_append, List.length_cons, List.length_append] at enough ⊢
      rw [readFields, readString_quote]
      have value_read := first ('\x7d' :: rest) (stops_cons rfl rest)
        (by rw [List.length_append, List.length_cons]; omega)
      simp [skip_of_head (show isBlank ':' = false from rfl), skip_chars ok.1, value_read,
        skip_of_head (show isBlank '\x7d' = false from rfl)]
    | cons next fields =>
      obtain ⟨text, shape⟩ := fields_texts_cons next.1 next.2 fields ('\x7d' :: rest)
      rw [fieldTexts, fieldTexts, intercalate_cons_cons, ← fieldTexts] at enough ⊢
      simp only [quote, List.cons_append, List.append_assoc, List.nil_append] at enough ⊢
      rw [shape] at later enough ⊢
      simp only [List.length_cons, List.length_append] at enough
      rw [readFields, readString_quote]
      have value_read := first (',' :: '\x22' :: text) (stops_cons rfl _)
        (by simp only [List.length_append, List.length_cons]; omega)
      simp [skip_of_head (show isBlank ':' = false from rfl), skip_chars ok.1, value_read,
        skip_of_head (show isBlank ',' = false from rfl),
        skip_of_head (show isBlank '\x22' = false from rfl),
        later (by simp) (by simp only [List.length_cons]; omega)]

end

/-- Every value is read back from its text. -/
theorem parse_text {j : Json} (ok : j.valid = true) : parse j.text = some j := by
  have read := readValue_chars j ok (2 * j.chars.length + 1) [] nofun (by simp)
  have start := skip_chars ok []
  rw [List.append_nil] at read start
  have done : skip [] = [] := rfl
  simp [parse, text, start, read, done]

end Json

example :
    (Json.parse " \x7b \x22a\x22 : [1, \x22\x5cu003c\x5cud83d\x5cude00\x22] \x7d").map Json.text =
      some "\x7b\x22a\x22:[1,\x22\x5cu003c😀\x22]\x7d" := by decide +kernel

end AnyCable.Lib
