import AnyCable.Lib.Lines

/-!
# Event streams

How a client reads a stream of server-sent events. A line is a field: its name up to the first
colon, its value after it without one leading blank. Data fields of one block are joined by line
feeds; a blank line ends the block, which is an event if it has a data field. Other fields, and
comments, whose name is empty, are skipped. A name is absent from an event of the default type.

`Event.text` writes an event as one line per field. It is read back exactly when the values are one
line each (`parse_text_iff`), and then the events of a longer stream are those written
(`parse_stream`).
-/

set_option autoImplicit false

namespace AnyCable.Lib

structure Event where
  type : List Char := []
  data : List Char
  id : Option (List Char) := none
  retry : Option (List Char) := none
  deriving DecidableEq, Repr

namespace EventStream

/-- What has been read of the event since the last blank line. -/
structure Block where
  type : List Char := []
  data : List (List Char) := []
  id : Option (List Char) := none
  retry : Option (List Char) := none

def fieldValue : List Char → List Char
  | ':' :: ' ' :: value => value
  | ':' :: value => value
  | _ => []

/-- Name and value of a line. -/
def splitField (line : List Char) : List Char × List Char :=
  (line.takeWhile (· != ':'), fieldValue (line.dropWhile (· != ':')))

def Block.addField (b : Block) (name value : List Char) : Block :=
  if name = "event".toList then { b with type := value }
  else if name = "data".toList then { b with data := b.data ++ [value] }
  else if name = "id".toList then { b with id := some value }
  else if name = "retry".toList then
    -- A reconnection time that is no number is ignored.
    if value.all Char.isDigit then { b with retry := some value } else b
  else b

def Block.add (b : Block) (line : List Char) : Block :=
  b.addField (splitField line).1 (splitField line).2

def Block.dispatch (b : Block) : List Event :=
  if b.data = [] then []
  else [{ type := b.type, data := ['\n'].intercalate b.data, id := b.id, retry := b.retry }]

def events (b : Block) : List (List Char) → List Event
  | [] => []
  | [] :: rest => b.dispatch ++ events {} rest
  | line :: rest => events (b.add line) rest

/-- The events of a stream. -/
def parse (text : List Char) : List Event := events {} (lines text)

/-- A line of a field. -/
def fieldLine (name value : List Char) : List Char := name ++ ':' :: ' ' :: value

theorem splitField_fieldLine {name : List Char} (plain : ':' ∉ name) (value : List Char) :
    splitField (fieldLine name value) = (name, value) := by
  have other : ∀ c ∈ name, (c != ':') = true := by
    intro c inside
    rw [bne_iff_ne]
    rintro rfl
    exact plain inside
  rw [splitField, fieldLine, List.takeWhile_append_of_pos other,
    List.dropWhile_append_of_pos other]
  simp [fieldValue]

theorem add_fieldLine (b : Block) {name : List Char} (plain : ':' ∉ name) (value : List Char) :
    b.add (fieldLine name value) = b.addField name value := by
  rw [Block.add, splitField_fieldLine plain]

theorem fieldLine_ne_nil (name value : List Char) : fieldLine name value ≠ [] := by
  simp [fieldLine]

theorem events_cons {line : List Char} (full : line ≠ []) (b : Block)
    (rest : List (List Char)) : events b (line :: rest) = events (b.add line) rest := by
  cases line with
  | nil => exact absurd rfl full
  | cons c line => rfl

/-- A block ends at the first blank line. -/
theorem events_block {ls : List (List Char)} (full : ∀ l ∈ ls, l ≠ []) (b : Block)
    (rest : List (List Char)) :
    events b (ls ++ [] :: rest) = (ls.foldl Block.add b).dispatch ++ events {} rest := by
  induction ls generalizing b with
  | nil => rfl
  | cons line ls ih =>
    rw [List.forall_mem_cons] at full
    rw [List.cons_append, events_cons full.1, List.foldl_cons, ih full.2]

section Content

variable {b : Block} {line : List Char} {ls : List (List Char)} {e : Event}

/-- Nothing in the block has a line end, and its reconnection time is a number. -/
structure Block.Clean (b : Block) : Prop where
  type : OneLine b.type
  data : ∀ value ∈ b.data, OneLine value
  id : ∀ value ∈ b.id, OneLine value
  retry : ∀ value ∈ b.retry, value.all Char.isDigit = true

theorem fieldValue_sublist (text : List Char) : (fieldValue text).Sublist text := by
  fun_cases fieldValue text <;> simp

theorem value_sublist (line : List Char) : (splitField line).2.Sublist line :=
  (fieldValue_sublist _).trans (List.dropWhile_sublist _)

theorem Block.Clean.addField (clean : b.Clean) {value : List Char} (one : OneLine value)
    (name : List Char) : (b.addField name value).Clean := by
  fun_cases Block.addField b name value with
  | case1 => exact ⟨one, clean.data, clean.id, clean.retry⟩
  | case2 =>
    refine ⟨clean.type, ?_, clean.id, clean.retry⟩
    intro other member
    rcases List.mem_append.mp member with before | added
    · exact clean.data other before
    · rwa [List.mem_singleton.mp added]
  | case3 =>
    refine ⟨clean.type, clean.data, ?_, clean.retry⟩
    intro other member
    rwa [← Option.mem_some_iff.mp member]
  | case4 _ _ _ _ digits =>
    refine ⟨clean.type, clean.data, clean.id, ?_⟩
    intro other member
    rwa [← Option.mem_some_iff.mp member]
  | case5 => exact clean
  | case6 => exact clean

theorem Block.Clean.add (clean : b.Clean) (one : OneLine line) : (b.add line).Clean :=
  clean.addField (fun c inside => one c ((value_sublist line).subset inside)) _

theorem clean_empty : ({} : Block).Clean :=
  ⟨oneLine_nil, by simp, by simp, by simp⟩

/-- What an event can hold: its type and its id are one line, its data has no carriage return. -/
structure Legible (e : Event) : Prop where
  type : OneLine e.type
  data : '\r' ∉ e.data
  id : ∀ value ∈ e.id, OneLine value
  retry : ∀ value ∈ e.retry, value.all Char.isDigit = true

theorem Block.Clean.dispatch (clean : b.Clean) (member : e ∈ b.dispatch) : Legible e := by
  rw [Block.dispatch] at member
  split at member
  · cases member
  · rw [List.mem_singleton] at member
    subst member
    refine ⟨clean.type, ?_, clean.id, clean.retry⟩
    intro inside
    rcases mem_intercalate inside with same | ⟨value, listed, within⟩
    · exact absurd same (by decide)
    · exact (oneLine_iff.mp (clean.data value listed)).2 within

theorem legible_of_mem_events (clean : b.Clean) (one : ∀ l ∈ ls, OneLine l)
    (member : e ∈ events b ls) : Legible e := by
  induction ls generalizing b with
  | nil => cases member
  | cons line ls ih =>
    rw [List.forall_mem_cons] at one
    cases line with
    | nil =>
      rcases List.mem_append.mp member with now | later
      · exact clean.dispatch now
      · exact ih clean_empty one.2 later
    | cons c line => exact ih (clean.add one.1) one.2 member

theorem legible_of_mem_parse {text : List Char} (member : e ∈ parse text) : Legible e :=
  legible_of_mem_events clean_empty (fun _ listed => oneLine_of_mem_lines listed) member

end Content

section Length

variable {b : Block} {line : List Char} {ls : List (List Char)} {e : Event}

/-- The characters that data fields take in the joined data, with a line feed after each. -/
def extent (values : List (List Char)) : Nat := (values.map fun value => value.length + 1).sum

/-- What a line adds to the data. -/
def share (line : List Char) : Nat :=
  if (splitField line).1 = "data".toList then (splitField line).2.length + 1 else 0

theorem extent_add (b : Block) (line : List Char) :
    extent (b.add line).data = extent b.data + share line := by
  rw [share, Block.add]
  fun_cases Block.addField b (splitField line).1 (splitField line).2 with
  | case1 named =>
    rw [named]
    rfl
  | case2 _ named =>
    rw [if_pos named]
    simp [extent]
  | case3 _ other _ => rw [if_neg other, Nat.add_zero]
  | case4 _ other _ _ _ => rw [if_neg other, Nat.add_zero]
  | case5 _ other _ _ _ => rw [if_neg other, Nat.add_zero]
  | case6 _ other _ _ => rw [if_neg other, Nat.add_zero]

theorem fieldValue_length (text : List Char) : (fieldValue text).length ≤ text.length :=
  (fieldValue_sublist text).length_le

/-- A line that is data has its name besides the value. -/
theorem share_le (line : List Char) : share line ≤ line.length := by
  rw [share]
  split
  case isFalse => exact Nat.zero_le _
  case isTrue named =>
    have parts : (line.takeWhile (· != ':')).length + (line.dropWhile (· != ':')).length =
        line.length := by
      rw [← List.length_append, List.takeWhile_append_dropWhile]
    have name : (line.takeWhile (· != ':')).length = 4 := congrArg List.length named
    have value : (splitField line).2.length ≤ (line.dropWhile (· != ':')).length :=
      fieldValue_length _
    omega

theorem length_le_extent (member : e ∈ b.dispatch) : e.data.length + 1 = extent b.data := by
  rw [Block.dispatch] at member
  split at member
  case isTrue => cases member
  case isFalse full =>
    rw [List.mem_singleton] at member
    rw [member]
    exact length_intercalate full

/-- The data of an event comes from the data fields read. -/
theorem length_le_shares (member : e ∈ events b ls) :
    e.data.length + 1 ≤ extent b.data + (ls.map share).sum := by
  induction ls generalizing b with
  | nil => cases member
  | cons line ls ih =>
    rw [List.map_cons, List.sum_cons]
    cases line with
    | nil =>
      rcases List.mem_append.mp member with now | later
      · have size := length_le_extent now
        omega
      · have size : e.data.length + 1 ≤ extent [] + (ls.map share).sum := ih later
        have none : extent [] = 0 := rfl
        omega
    | cons c line =>
      have size := ih member
      rw [extent_add] at size
      omega

theorem shares_le (ls : List (List Char)) :
    (ls.map share).sum ≤ (ls.map List.length).sum :=
  List.sum_le_sum fun line _ => share_le line

end Length

end EventStream

namespace Event
open EventStream

/-- The fields after the data. -/
def trailer (e : Event) : List (List Char) :=
  (e.id.map (fieldLine "id".toList)).toList ++ (e.retry.map (fieldLine "retry".toList)).toList

def header (e : Event) : List (List Char) :=
  if e.type = [] then [] else [fieldLine "event".toList e.type]

/-- The fields of an event as they are written. -/
def fieldLines (e : Event) : List (List Char) :=
  e.header ++ fieldLine "data".toList e.data :: e.trailer

/-- An event as one line per field, without the line end of the last one. -/
def text (e : Event) : List Char := ['\n'].intercalate e.fieldLines

/-- A further line for a field that may be absent. -/
def optionalLine (name : List Char) (value : Option (List Char)) : List Char :=
  value.elim [] fun v => '\n' :: fieldLine name v

/-- The fields one after the other. -/
theorem text_eq (e : Event) :
    e.text = (if e.type = [] then [] else fieldLine "event".toList e.type ++ ['\n']) ++
      fieldLine "data".toList e.data ++ optionalLine "id".toList e.id ++
      optionalLine "retry".toList e.retry := by
  obtain ⟨type, data, id, retry⟩ := e
  cases id <;> cases retry <;> by_cases named : type = [] <;>
    simp [text, fieldLines, header, trailer, optionalLine, named, List.intercalate]

/-- The values of the fields are one line each, and the reconnection time is a number. -/
structure Flat (e : Event) : Prop where
  type : OneLine e.type
  data : OneLine e.data
  id : ∀ value ∈ e.id, OneLine value
  retry : ∀ value ∈ e.retry, value.all Char.isDigit = true

theorem flat_iff {e : Event} : e.Flat ↔ Legible e ∧ OneLine e.data := by
  constructor
  · intro flat
    exact ⟨⟨flat.type, (oneLine_iff.mp flat.data).2, flat.id, flat.retry⟩, flat.data⟩
  · intro ⟨legible, one⟩
    exact ⟨legible.type, one, legible.id, legible.retry⟩

end Event

namespace EventStream
open Event

variable {e : Event}

theorem oneLine_fieldLine {name value : List Char} (named : OneLine name) (one : OneLine value) :
    OneLine (fieldLine name value) := by
  rw [fieldLine, oneLine_append, OneLine, OneLine, List.forall_mem_cons, List.forall_mem_cons]
  exact ⟨named, by decide, by decide, one⟩

theorem oneLine_of_digits {value : List Char} (digits : value.all Char.isDigit = true) :
    OneLine value := by
  rw [List.all_eq_true] at digits
  rw [oneLine_iff]
  exact ⟨fun inside => absurd (digits _ inside) (by decide),
    fun inside => absurd (digits _ inside) (by decide)⟩

/-- The fields around the data are one line each. -/
theorem oneLine_header (legible : Legible e) : ∀ l ∈ e.header, OneLine l := by
  rw [header]
  split
  · simp
  · rw [List.forall_mem_singleton]
    exact oneLine_fieldLine (by decide) legible.type

theorem oneLine_trailer (legible : Legible e) : ∀ l ∈ e.trailer, OneLine l := by
  rw [trailer, List.forall_mem_append]
  constructor
  · intro l member
    obtain ⟨value, present, rfl⟩ := Option.map_eq_some_iff.mp (Option.mem_toList.mp member)
    exact oneLine_fieldLine (by decide) (legible.id value present)
  · intro l member
    obtain ⟨value, present, rfl⟩ := Option.map_eq_some_iff.mp (Option.mem_toList.mp member)
    exact oneLine_fieldLine (by decide) (oneLine_of_digits (legible.retry value present))

theorem flatMap_pieces {ls : List (List Char)} (one : ∀ l ∈ ls, OneLine l) :
    ls.flatMap pieces = ls := by
  induction ls with
  | nil => rfl
  | cons l ls ih =>
    rw [List.forall_mem_cons] at one
    rw [List.flatMap_cons, pieces_oneLine one.1, ih one.2]
    rfl

/-- The lines of a written event: only its data can take several. -/
theorem lines_text (legible : Legible e) (rest : List Char) :
    lines (e.text ++ '\n' :: rest) =
      e.header ++ extendFirst (fieldLine "data".toList []) (pieces e.data) ++ e.trailer ++
        lines rest := by
  have dataLine : fieldLine "data".toList e.data = fieldLine "data".toList [] ++ e.data := by
    simp [fieldLine]
  have plainData : '\r' ∉ fieldLine "data".toList e.data := by
    rw [dataLine, List.mem_append, not_or]
    exact ⟨by decide, legible.data⟩
  have plain : ∀ l ∈ e.fieldLines, '\r' ∉ l := by
    rw [fieldLines, List.forall_mem_append, List.forall_mem_cons]
    exact ⟨fun l member => (oneLine_iff.mp (oneLine_header legible l member)).2, plainData,
      fun l member => (oneLine_iff.mp (oneLine_trailer legible l member)).2⟩
  rw [text, lines_intercalate (by simp [fieldLines]) plain, fieldLines, List.flatMap_append,
    List.flatMap_cons, flatMap_pieces (oneLine_header legible),
    flatMap_pieces (oneLine_trailer legible), dataLine, pieces_append (by decide)]
  simp only [List.append_assoc]

theorem fields_read (flat : e.Flat) : (e.fieldLines.foldl Block.add {}).dispatch = [e] := by
  obtain ⟨type, data, id, retry⟩ := e
  have digits := flat.retry
  cases id <;> cases retry <;> by_cases named : type = [] <;>
    simp_all [fieldLines, header, trailer, add_fieldLine, Block.addField, Block.dispatch,
      List.intercalate]

theorem fieldLines_ne_nil (e : Event) : ∀ l ∈ e.fieldLines, l ≠ [] := by
  intro l member
  rw [fieldLines, header, trailer] at member
  rcases List.mem_append.mp member with before | rest
  · split at before
    · cases before
    · rw [List.mem_singleton.mp before]
      exact fieldLine_ne_nil _ _
  · rcases List.mem_cons.mp rest with rfl | after
    · exact fieldLine_ne_nil _ _
    · rcases List.mem_append.mp after with present | present
      all_goals
        obtain ⟨value, -, rfl⟩ := Option.map_eq_some_iff.mp (Option.mem_toList.mp present)
        exact fieldLine_ne_nil _ _

theorem lines_blank (rest : List Char) : lines ('\n' :: rest) = [] :: lines rest :=
  lines_line oneLine_nil rest

/-- An event whose values are one line each is read back, before whatever follows. -/
theorem parse_text_append (flat : e.Flat) (rest : List Char) :
    parse (e.text ++ '\n' :: '\n' :: rest) = e :: parse rest := by
  have asWritten : e.header ++ extendFirst (fieldLine "data".toList []) [e.data] ++ e.trailer =
      e.fieldLines := by
    simp [fieldLines, extendFirst, fieldLine]
  rw [parse, lines_text (flat_iff.mp flat).1, pieces_oneLine flat.data, lines_blank, asWritten,
    events_block (fieldLines_ne_nil e), fields_read flat]
  rfl

theorem shares_header (e : Event) : (e.header.map share).sum = 0 := by
  rw [header]
  split
  · rfl
  · simp [share, splitField_fieldLine]

theorem shares_trailer (e : Event) : (e.trailer.map share).sum = 0 := by
  rw [trailer]
  cases e.id <;> cases e.retry <;> simp [share, splitField_fieldLine]

/-- Data over several lines loses characters: the names of no fields stand before them. -/
theorem oneLine_of_read (legible : Legible e) (read : e ∈ parse (e.text ++ ['\n', '\n'])) :
    OneLine e.data := by
  obtain ⟨first, others, shape⟩ := List.exists_cons_of_ne_nil (pieces_ne_nil e.data)
  cases others with
  | nil => exact oneLine_of_pieces_singleton legible.data shape
  | cons second others =>
    have total := length_pieces legible.data
    have size := length_le_shares read
    have start : share (fieldLine "data".toList [] ++ first) = first.length + 1 := by
      have whole : fieldLine "data".toList [] ++ first = fieldLine "data".toList first := by
        simp [fieldLine]
      rw [whole, share, splitField_fieldLine (by decide), if_pos rfl]
    have middle := shares_le (second :: others)
    have fewer : ((second :: others).map List.length).sum <
        ((second :: others).map fun piece => piece.length + 1).sum :=
      List.sum_lt_sum_of_ne_nil (by simp) _ _ fun piece _ => Nat.lt_succ_self piece.length
    have last : ((lines ['\n']).map share).sum = 0 := by decide
    rw [lines_text legible, shape, extendFirst, List.map_append, List.map_append, List.map_append,
      List.sum_append, List.sum_append, List.sum_append, shares_header, shares_trailer, last,
      List.map_cons, List.sum_cons, start] at size
    rw [shape, List.map_cons, List.sum_cons] at total
    have none : extent ({} : Block).data = 0 := rfl
    omega

/-- An event is read back as written exactly if its values are one line each. -/
theorem parse_text_iff : parse (e.text ++ ['\n', '\n']) = [e] ↔ e.Flat := by
  constructor
  · intro read
    have member : e ∈ parse (e.text ++ ['\n', '\n']) := by
      rw [read]
      exact List.mem_singleton_self e
    have legible := legible_of_mem_parse member
    exact flat_iff.mpr ⟨legible, oneLine_of_read legible member⟩
  · intro flat
    exact parse_text_append flat []

/-- The events of a stream are those written to it. -/
theorem parse_stream {es : List Event} (flat : ∀ e ∈ es, e.Flat) :
    parse (es.flatMap fun e => e.text ++ ['\n', '\n']) = es := by
  induction es with
  | nil => rfl
  | cons e es ih =>
    rw [List.forall_mem_cons] at flat
    rw [List.flatMap_cons, List.append_assoc, List.cons_append, List.cons_append, List.nil_append,
      parse_text_append flat.1, ih flat.2]

end EventStream

end AnyCable.Lib
