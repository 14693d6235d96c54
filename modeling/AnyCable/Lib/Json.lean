import AnyCable.Lib.Lines

/-!
# JSON texts

The texts that Go's `json.Marshal` writes: without blanks, with `<`, `>`, `&` and the line and
paragraph separators escaped inside strings. The fields of an object stand in the order they are
written in: that of a struct, or of the sorted keys of a map. A number is given by its text.

A text has no control characters (`Json.chars_printable`), hence no line breaks, and is longer than
the texts of its parts (`Json.length_field_lt`).
-/

set_option autoImplicit false

namespace AnyCable.Lib

/-- The text of a JSON number. -/
structure Numeral where
  digits : List Char
  numeric : digits.all (fun c => c.isDigit || c ∈ ['+', '-', '.', 'e', 'E']) = true

inductive Json where
  | null
  | bool (value : Bool)
  | num (numeral : Numeral)
  | str (text : String)
  | arr (items : List Json)
  | obj (fields : List (String × Json))

/-- The four hexadecimal digits of a character. -/
def hexDigits (n : Nat) : List Char :=
  [Nat.digitChar (n / 4096 % 16), Nat.digitChar (n / 256 % 16), Nat.digitChar (n / 16 % 16),
   Nat.digitChar (n % 16)]

/-- A character inside a string. -/
def escapeChar (c : Char) : List Char :=
  if c = '\x22' then ['\x5c', '\x22']
  else if c = '\x5c' then ['\x5c', '\x5c']
  else if c = '\x08' then ['\x5c', 'b']
  else if c = '\x0c' then ['\x5c', 'f']
  else if c = '\n' then ['\x5c', 'n']
  else if c = '\r' then ['\x5c', 'r']
  else if c = '\t' then ['\x5c', 't']
  else if c.toNat < 32 ∨ c = '<' ∨ c = '>' ∨ c = '&' ∨ c = '\u2028' ∨ c = '\u2029' then
    '\x5c' :: 'u' :: hexDigits c.toNat
  else [c]

def quote (text : List Char) : List Char := '\x22' :: (text.flatMap escapeChar ++ ['\x22'])

/-- A text without the control characters below U+0020. -/
def Printable (text : List Char) : Prop := ∀ c ∈ text, 32 ≤ c.toNat

section Texts

variable {a b : List Char}

theorem printable_append : Printable (a ++ b) ↔ Printable a ∧ Printable b :=
  List.forall_mem_append

theorem printable_cons {c : Char} : Printable (c :: a) ↔ 32 ≤ c.toNat ∧ Printable a :=
  List.forall_mem_cons

theorem Printable.oneLine (clean : Printable a) : OneLine a := by
  rw [oneLine_iff]
  exact ⟨fun inside => absurd (clean _ inside) (by decide),
    fun inside => absurd (clean _ inside) (by decide)⟩

theorem printable_hexDigits (n : Nat) : Printable (hexDigits n) := by
  have digit : ∀ d < 16, 32 ≤ (Nat.digitChar d).toNat := by decide
  intro c inside
  simp only [hexDigits, List.mem_cons, List.not_mem_nil, or_false] at inside
  rcases inside with rfl | rfl | rfl | rfl
  all_goals exact digit _ (Nat.mod_lt _ (by omega))

theorem printable_escapeChar (c : Char) : Printable (escapeChar c) := by
  fun_cases escapeChar c with
  | case1 | case2 | case3 | case4 | case5 | case6 | case7 => simp [Printable]
  | case8 =>
    rw [printable_cons, printable_cons]
    exact ⟨by decide, by decide, printable_hexDigits _⟩
  | case9 _ _ _ _ _ _ _ plain =>
    rw [not_or] at plain
    simpa [Printable] using plain.1

theorem printable_quote (text : List Char) : Printable (quote text) := by
  rw [quote, printable_cons, printable_append]
  refine ⟨by decide, ?_, by simp [Printable]⟩
  intro c inside
  obtain ⟨source, -, escaped⟩ := List.mem_flatMap.mp inside
  exact printable_escapeChar source c escaped

theorem length_escapeChar_pos (c : Char) : 1 ≤ (escapeChar c).length := by
  fun_cases escapeChar c <;> simp

theorem length_lt_quote (text : List Char) : text.length < (quote text).length := by
  have inner : text.length ≤ (text.flatMap escapeChar).length := by
    induction text with
    | nil => simp
    | cons c text ih =>
      have one := length_escapeChar_pos c
      rw [List.flatMap_cons, List.length_append, List.length_cons]
      omega
  rw [quote, List.length_cons, List.length_append]
  omega

theorem printable_intercalate {ts : List (List Char)} (clean : ∀ t ∈ ts, Printable t) :
    Printable ([','].intercalate ts) := by
  intro c inside
  rcases mem_intercalate inside with rfl | ⟨t, listed, within⟩
  · decide
  · exact clean t listed c within

end Texts

namespace Numeral

theorem printable (numeral : Numeral) : Printable numeral.digits := by
  intro c inside
  have part := List.all_eq_true.mp numeral.numeric c inside
  rw [Bool.or_eq_true] at part
  rcases part with digit | sign
  · rw [Char.isDigit, Bool.and_eq_true, decide_eq_true_eq, decide_eq_true_eq] at digit
    have above : (48 : UInt32) ≤ c.val := digit.1
    have inNat := UInt32.le_iff_toNat_le.mp above
    exact le_trans (by decide) inNat
  · simp only [List.mem_cons, List.not_mem_nil, or_false, decide_eq_true_eq] at sign
    rcases sign with rfl | rfl | rfl | rfl | rfl
    all_goals decide

end Numeral

namespace Json

mutual

def chars : Json → List Char
  | .null => ['n', 'u', 'l', 'l']
  | .bool true => ['t', 'r', 'u', 'e']
  | .bool false => ['f', 'a', 'l', 's', 'e']
  | .num numeral => numeral.digits
  | .str text => quote text.toList
  | .arr items => '[' :: ([','].intercalate (itemTexts items) ++ [']'])
  | .obj fields => '\x7b' :: ([','].intercalate (fieldTexts fields) ++ ['\x7d'])

def itemTexts : List Json → List (List Char)
  | [] => []
  | item :: items => item.chars :: itemTexts items

def fieldTexts : List (String × Json) → List (List Char)
  | [] => []
  | (name, value) :: fields => (quote name.toList ++ ':' :: value.chars) :: fieldTexts fields

end

def text (j : Json) : String := String.ofList j.chars

mutual

theorem chars_printable : ∀ j : Json, Printable j.chars
  | .null => by simp [chars, Printable]
  | .bool true => by simp [chars, Printable]
  | .bool false => by simp [chars, Printable]
  | .num numeral => numeral.printable
  | .str text => printable_quote text.toList
  | .arr items => by
    rw [chars, printable_cons, printable_append]
    exact ⟨by decide, printable_intercalate (itemTexts_printable items), by simp [Printable]⟩
  | .obj fields => by
    rw [chars, printable_cons, printable_append]
    exact ⟨by decide, printable_intercalate (fieldTexts_printable fields), by simp [Printable]⟩

theorem itemTexts_printable : ∀ items : List Json, ∀ t ∈ itemTexts items, Printable t
  | [] => by simp [itemTexts]
  | item :: items => by
    rw [itemTexts, List.forall_mem_cons]
    exact ⟨chars_printable item, itemTexts_printable items⟩

theorem fieldTexts_printable :
    ∀ fields : List (String × Json), ∀ t ∈ fieldTexts fields, Printable t
  | [] => by simp [fieldTexts]
  | (name, value) :: fields => by
    rw [fieldTexts, List.forall_mem_cons, printable_append, printable_cons]
    exact ⟨⟨printable_quote _, by decide, chars_printable value⟩, fieldTexts_printable fields⟩

end

/-- A text is one line. -/
theorem chars_oneLine (j : Json) : OneLine j.chars := (chars_printable j).oneLine

theorem mem_fieldTexts {name : String} {value : Json} {fields : List (String × Json)}
    (member : (name, value) ∈ fields) :
    quote name.toList ++ ':' :: value.chars ∈ fieldTexts fields := by
  induction fields with
  | nil => cases member
  | cons field fields ih =>
    rw [fieldTexts]
    rcases List.mem_cons.mp member with rfl | later
    · exact List.mem_cons_self
    · exact List.mem_cons_of_mem _ (ih later)

/-- An object is longer than any of its values. -/
theorem length_field_lt (name : String) {value : Json} {fields : List (String × Json)}
    (member : (name, value) ∈ fields) : value.chars.length < (obj fields).chars.length := by
  have field := length_le_intercalate ',' (mem_fieldTexts member)
  rw [List.length_append, List.length_cons] at field
  rw [chars, List.length_cons, List.length_append]
  omega

end Json

example : (Json.obj [("a", .arr [.null, .bool true]), ("b", .str "x\n<")]).text =
    "\x7b\x22a\x22:[null,true],\x22b\x22:\x22x\x5cn\x5cu003c\x22\x7d" := by decide

end AnyCable.Lib
