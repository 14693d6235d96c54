import AnyCable.Lib.JsonParse

/-!
# Strings put into JSON texts as they are

A text that is written between quotes without being escaped is read back as a string exactly if it
is `Plain`: no quote, no backslash and no control character. An escape takes more characters than it
stands for, and a quote ends the string early, so any other text comes out shorter than it went in.

`objectText` is an object whose last field is such a string (`parse_objectText_iff`).
-/

set_option autoImplicit false

namespace AnyCable.Lib

/-- A character that stands for itself in a JSON string. -/
def isPlain (c : Char) : Bool := c ≠ '\x22' ∧ c ≠ '\x5c' ∧ 32 ≤ c.toNat

def Plain (text : List Char) : Prop := ∀ c ∈ text, isPlain c = true

instance (text : List Char) : Decidable (Plain text) := List.decidableBAll _ text

theorem plain_cons {c : Char} {text : List Char} :
    Plain (c :: text) ↔ isPlain c = true ∧ Plain text :=
  List.forall_mem_cons

/-! ### Strings -/

theorem readPieces_plain {text : List Char} (plain : Plain text) (rest : List Char) :
    readPieces (text ++ '\x22' :: rest) = some (text.map .char, rest) := by
  induction text with
  | nil =>
    rw [List.nil_append, readPieces.eq_def]
    rfl
  | cons c text ih =>
    obtain ⟨head, tail⟩ := plain_cons.mp plain
    simp only [isPlain, Bool.decide_and, Bool.and_eq_true, decide_eq_true_eq] at head
    have control : ¬ c.toNat < 32 := by omega
    rw [List.cons_append, readPieces.eq_def]
    simp [head.1, head.2.1, control, ih tail, push]

theorem assemble_chars (text : List Char) : assemble (text.map .char) = text := by
  induction text with
  | nil => rfl
  | cons c text ih => rw [List.map_cons, assemble, ih]

theorem readString_plain {text : List Char} (plain : Plain text) (rest : List Char) :
    readString (text ++ '\x22' :: rest) = some (String.ofList text, rest) := by
  simp [readString, readPieces_plain plain, assemble_chars]

/-- A pair of units stands for one character. -/
theorem length_assemble (pieces : List Piece) : (assemble pieces).length ≤ pieces.length := by
  fun_induction assemble pieces with
  | case1 => simp
  | case2 c rest ih => simpa using ih
  | case3 h l rest pair ih => simp at ih ⊢; omega
  | case4 h l rest single ih => simpa using ih
  | case5 n rest other ih => simpa using ih

theorem push_eq_some {piece : Piece} {read : Option (List Piece × List Char)}
    {pieces : List Piece} {rest : List Char} (pushed : push piece read = some (pieces, rest)) :
    ∃ tail, read = some (tail, rest) ∧ pieces = piece :: tail := by
  simp only [push, Option.map_eq_some_iff] at pushed
  obtain ⟨⟨tail, after⟩, found, same⟩ := pushed
  cases same
  exact ⟨tail, found, rfl⟩

/-- Reading uses up a character for each piece at least, and the quote. If it uses no more, the
pieces are plain characters. -/
theorem readPieces_length {text rest : List Char} {pieces : List Piece}
    (read : readPieces text = some (pieces, rest)) :
    pieces.length + rest.length + 1 ≤ text.length ∧
      (pieces.length + rest.length + 1 = text.length →
        ∃ chars, Plain chars ∧ text = chars ++ '\x22' :: rest) := by
  fun_induction readPieces text generalizing pieces rest with
  | case1 => cases read
  | case2 text =>
    cases read
    refine ⟨by simp, fun _ => ⟨[], ?_, rfl⟩⟩
    intro c member
    cases member
  | case3 quote a b c d text ih =>
    obtain ⟨n, -, pushed⟩ := Option.bind_eq_some_iff.mp read
    obtain ⟨tail, found, rfl⟩ := push_eq_some pushed
    have shorter := (ih found).1
    simp only [List.length_cons]
    exact ⟨by omega, fun tight => by omega⟩
  | case4 quote e text other ih =>
    obtain ⟨c, -, pushed⟩ := Option.bind_eq_some_iff.mp read
    obtain ⟨tail, found, rfl⟩ := push_eq_some pushed
    have shorter := (ih found).1
    simp only [List.length_cons]
    exact ⟨by omega, fun tight => by omega⟩
  | case5 => cases read
  | case6 => cases read
  | case7 c text quote backslash control ih =>
    obtain ⟨tail, found, rfl⟩ := push_eq_some read
    obtain ⟨shorter, shape⟩ := ih found
    simp only [List.length_cons]
    refine ⟨by omega, fun tight => ?_⟩
    obtain ⟨chars, plain, rfl⟩ := shape (by omega)
    refine ⟨c :: chars, plain_cons.mpr ⟨?_, plain⟩, rfl⟩
    simp only [isPlain, decide_eq_true_eq]
    exact ⟨quote, backslash, Nat.le_of_not_lt control⟩

/-- A text that comes back from between its quotes, with something left behind them. -/
theorem plain_of_readString {text after rest : List Char} (one : after.length = 1)
    (read : readString (text ++ '\x22' :: after) = some (String.ofList text, rest))
    (more : rest ≠ []) : Plain text := by
  obtain ⟨⟨pieces, left⟩, found, same⟩ := Option.bind_eq_some_iff.mp read
  simp only [Option.pure_def, Option.some.injEq, Prod.mk.injEq, String.ofList_inj] at same
  obtain ⟨assembled, rfl⟩ := same
  obtain ⟨shorter, shape⟩ := readPieces_length found
  have pairs := length_assemble pieces
  have left := List.length_pos_iff.mpr more
  simp only [List.length_append, List.length_cons] at shorter shape
  rw [assembled] at pairs
  obtain ⟨chars, plain, split⟩ := shape (by omega)
  have lengths : text.length = chars.length := by
    have total := congrArg List.length split
    simp only [List.length_append, List.length_cons] at total
    omega
  rw [(List.append_inj split lengths).1]
  exact plain

/-! ### Objects -/

namespace Json

/-- The fields of an object, the last of them a string that is not escaped. -/
def fieldsText (fields : List (String × Json)) (name : String) (text : List Char) : List Char :=
  match fields with
  | [] => quote name.toList ++ ':' :: '\x22' :: (text ++ ['\x22'])
  | (first, value) :: fields =>
    quote first.toList ++ ':' :: (value.chars ++ ',' :: fieldsText fields name text)

def objectText (fields : List (String × Json)) (name : String) (text : List Char) : List Char :=
  '\x7b' :: (fieldsText fields name text ++ ['\x7d'])

theorem fieldsText_head (fields : List (String × Json)) (name : String) (text : List Char) :
    ∃ rest, fieldsText fields name text = '\x22' :: rest := by
  cases fields with
  | nil => exact ⟨_, rfl⟩
  | cons field fields => exact ⟨_, rfl⟩

/-- One field of an object. -/
theorem readFields_succ {name : String} {rest : List Char} (fuel : Nat) :
    readFields (fuel + 1) (quote name.toList ++ ':' :: rest) =
      (readValue fuel (skip rest)).bind fun p =>
        match skip p.2 with
        | ',' :: rest => (readFields fuel (skip rest)).map fun q => ((name, p.1) :: q.1, q.2)
        | '\x7d' :: rest => some ([(name, p.1)], rest)
        | _ => none := by
  simp only [quote, List.cons_append, List.append_assoc, List.nil_append]
  rw [readFields, readString_quote]
  -- the colon is no blank
  rfl

theorem fieldsText_nil (name : String) (text : List Char) :
    fieldsText [] name text ++ ['\x7d'] =
      quote name.toList ++ ':' :: '\x22' :: (text ++ '\x22' :: ['\x7d']) := by
  simp [fieldsText]

/-- A field is read, and the rest of the fields after it. -/
theorem readFields_cons {field : String × Json} (ok : field.2.valid = true)
    (fields : List (String × Json)) (name : String) (text : List Char) {fuel : Nat}
    (enough : 2 * (fieldsText (field :: fields) name text ++ ['\x7d']).length + 2 ≤ fuel + 1) :
    readFields (fuel + 1) (fieldsText (field :: fields) name text ++ ['\x7d']) =
      (readFields fuel (fieldsText fields name text ++ ['\x7d'])).map
        fun q => (field :: q.1, q.2) := by
  obtain ⟨rest, head⟩ := fieldsText_head fields name text
  simp only [fieldsText, List.append_assoc, List.cons_append, List.length_append,
    List.length_cons] at enough ⊢
  have first := readValue_chars field.2 ok fuel
    (',' :: (fieldsText fields name text ++ ['\x7d'])) (stops_cons rfl _)
    (by simp only [List.length_append, List.length_cons]; omega)
  rw [readFields_succ, skip_chars ok, first, Option.bind_some]
  simp only [skip_of_head (show isBlank ',' = false from rfl)]
  rw [head, List.cons_append, skip_of_head (show isBlank '\x22' = false from rfl)]

/-- Induction on the fields before the last one. -/
theorem readFields_of_plain {fields : List (String × Json)} (ok : validFields fields = true)
    (name : String) {text : List Char} (plain : Plain text) {fuel : Nat}
    (enough : 2 * (fieldsText fields name text ++ ['\x7d']).length + 2 ≤ fuel) :
    readFields fuel (fieldsText fields name text ++ ['\x7d']) =
      some (fields ++ [(name, .str (String.ofList text))], []) := by
  induction fields generalizing fuel with
  | nil =>
    obtain ⟨less, rfl⟩ : ∃ less, fuel = less + 2 := ⟨fuel - 2, by omega⟩
    rw [fieldsText_nil, readFields_succ, skip_of_head (show isBlank '\x22' = false from rfl),
      readValue, readString_plain plain]
    simp [skip_of_head (show isBlank '\x7d' = false from rfl)]
  | cons field fields ih =>
    rw [validFields, Bool.and_eq_true] at ok
    obtain ⟨less, rfl⟩ : ∃ less, fuel = less + 1 := ⟨fuel - 1, by omega⟩
    rw [readFields_cons ok.1 fields name text enough, ih ok.2 ?_]
    · rfl
    · simp only [fieldsText, List.length_append, List.length_cons] at enough ⊢
      omega

/-- A last field that is read as it was written. -/
theorem plain_of_readFields {fields : List (String × Json)} (ok : validFields fields = true)
    {name : String} {text rest : List Char} {fuel : Nat}
    (enough : 2 * (fieldsText fields name text ++ ['\x7d']).length + 2 ≤ fuel)
    (read : readFields fuel (fieldsText fields name text ++ ['\x7d']) =
      some (fields ++ [(name, .str (String.ofList text))], rest)) : Plain text := by
  induction fields generalizing fuel with
  | nil =>
    obtain ⟨less, rfl⟩ : ∃ less, fuel = less + 2 := ⟨fuel - 2, by omega⟩
    rw [fieldsText_nil, readFields_succ, skip_of_head (show isBlank '\x22' = false from rfl),
      readValue] at read
    obtain ⟨⟨value, left⟩, found, ended⟩ := Option.bind_eq_some_iff.mp read
    obtain ⟨⟨string, after⟩, string_read, same⟩ := Option.map_eq_some_iff.mp found
    cases same
    have more : after ≠ [] := by
      rintro rfl
      cases ended
    -- whatever follows the string, it is the one that was asked for
    split at ended
    · obtain ⟨others, -, same⟩ := Option.map_eq_some_iff.mp ended
      simp only [List.nil_append, Prod.mk.injEq, List.cons.injEq, Json.str.injEq,
        true_and] at same
      rw [same.1.1] at string_read
      exact plain_of_readString rfl string_read more
    · simp only [List.nil_append, Option.some.injEq, Prod.mk.injEq, List.cons.injEq,
        Json.str.injEq, true_and, and_true] at ended
      rw [ended.1] at string_read
      exact plain_of_readString rfl string_read more
    · cases ended
  | cons field fields ih =>
    rw [validFields, Bool.and_eq_true] at ok
    obtain ⟨less, rfl⟩ : ∃ less, fuel = less + 1 := ⟨fuel - 1, by omega⟩
    rw [readFields_cons ok.1 fields name text enough] at read
    obtain ⟨⟨others, left⟩, found, same⟩ := Option.map_eq_some_iff.mp read
    simp only [List.cons_append, Prod.mk.injEq, List.cons.injEq, true_and] at same
    obtain ⟨rfl, rfl⟩ := same
    refine ih ok.2 ?_ found
    simp only [fieldsText, List.length_append, List.length_cons] at enough ⊢
    omega

theorem readValue_objectText (fields : List (String × Json)) (name : String) (text : List Char)
    (fuel : Nat) :
    readValue (fuel + 1) (objectText fields name text) =
      (readFields fuel (fieldsText fields name text ++ ['\x7d'])).map
        fun p => (.obj p.1, p.2) := by
  obtain ⟨rest, head⟩ := fieldsText_head fields name text
  rw [objectText, readValue, head, List.cons_append,
    skip_of_head (show isBlank '\x22' = false from rfl)]
  rfl

/-- The object is read as it was meant exactly if the string is plain. -/
theorem parse_objectText_iff {fields : List (String × Json)} (ok : validFields fields = true)
    (name : String) (text : List Char) :
    parse (String.ofList (objectText fields name text)) =
        some (.obj (fields ++ [(name, .str (String.ofList text))])) ↔ Plain text := by
  have start : skip (objectText fields name text) = objectText fields name text :=
    skip_of_head rfl _
  have enough : 2 * (fieldsText fields name text ++ ['\x7d']).length + 2 ≤
      2 * (objectText fields name text).length := by
    simp only [objectText, List.length_cons]
    omega
  simp only [parse, String.toList_ofList, String.length_ofList, start, readValue_objectText]
  constructor
  · intro parsed
    obtain ⟨⟨object, rest⟩, found, whole⟩ := Option.bind_eq_some_iff.mp parsed
    obtain ⟨⟨read, left⟩, inner, same⟩ := Option.map_eq_some_iff.mp found
    cases same
    simp only [Option.pure_def, Option.ite_none_right_eq_some, Option.some.injEq,
      Json.obj.injEq] at whole
    obtain ⟨-, rfl⟩ := whole
    exact plain_of_readFields ok enough inner
  · intro plain
    rw [readFields_of_plain ok name plain enough]
    rfl

end Json

end AnyCable.Lib
