import Mathlib.Algebra.GroupWithZero.Nat
import Mathlib.Algebra.Order.BigOperators.Group.List
import Mathlib.Algebra.Order.Group.Nat

/-!
# Texts and their lines

A text is a list of characters. A line ends with a line feed, a carriage return, or both in this
order; `pieces` are the parts between the line ends, so there is always one, and the last piece is
what no line end follows.
-/

set_option autoImplicit false

namespace AnyCable.Lib

section Join

variable {sep c : Char} {t : List Char} {ts : List (List Char)}

theorem intercalate_cons_cons (sep : Char) (t u : List Char) (ts : List (List Char)) :
    [sep].intercalate (t :: u :: ts) = t ++ sep :: [sep].intercalate (u :: ts) := by
  simp [List.intercalate]

theorem mem_intercalate (member : c ∈ [sep].intercalate ts) : c = sep ∨ ∃ t ∈ ts, c ∈ t := by
  induction ts with
  | nil => simp [List.intercalate] at member
  | cons t ts ih =>
    cases ts with
    | nil => exact Or.inr ⟨t, by simp, by simpa [List.intercalate] using member⟩
    | cons u ts =>
      rw [intercalate_cons_cons, List.mem_append, List.mem_cons] at member
      rcases member with first | rfl | later
      · exact Or.inr ⟨t, by simp, first⟩
      · exact Or.inl rfl
      · exact (ih later).imp_right fun ⟨t', listed, inside⟩ =>
          ⟨t', List.mem_cons_of_mem _ listed, inside⟩

/-- Between two texts there is one separator. -/
theorem length_intercalate (some : ts ≠ []) :
    ([sep].intercalate ts).length + 1 = (ts.map fun t => t.length + 1).sum := by
  induction ts with
  | nil => exact absurd rfl some
  | cons t ts ih =>
    cases ts with
    | nil => simp [List.intercalate]
    | cons u ts =>
      have rest := ih (by simp)
      rw [intercalate_cons_cons, List.length_append, List.length_cons, List.map_cons,
        List.sum_cons, ← rest]
      omega

theorem length_le_intercalate (sep : Char) (member : t ∈ ts) :
    t.length ≤ ([sep].intercalate ts).length := by
  have total : ([sep].intercalate ts).length + 1 = (ts.map fun t => t.length + 1).sum :=
    length_intercalate (List.ne_nil_of_mem member)
  have part : t.length + 1 ≤ (ts.map fun t => t.length + 1).sum :=
    List.le_sum_of_mem (List.mem_map.mpr ⟨t, member, rfl⟩)
  omega

end Join

/-- A character that ends a line. -/
def isLineBreak (c : Char) : Bool := c == '\n' || c == '\r'

/-- A text without line ends. -/
def OneLine (text : List Char) : Prop := ∀ c ∈ text, isLineBreak c = false

instance (text : List Char) : Decidable (OneLine text) :=
  List.decidableBAll (fun c => isLineBreak c = false) text

theorem isLineBreak_of_ne {c : Char} (notFeed : c ≠ '\n') (notReturn : c ≠ '\r') :
    isLineBreak c = false := by
  simp [isLineBreak, notFeed, notReturn]

/-- Put a text in front of the first piece. -/
def extendFirst (text : List Char) : List (List Char) → List (List Char)
  | [] => [text]
  | piece :: pieces => (text ++ piece) :: pieces

/-- The parts between the line ends. -/
def pieces : List Char → List (List Char)
  | [] => [[]]
  | '\r' :: '\n' :: rest => [] :: pieces rest
  | c :: rest => if isLineBreak c then [] :: pieces rest else extendFirst [c] (pieces rest)

/-- The lines of a text that have ended. -/
def lines (text : List Char) : List (List Char) := (pieces text).dropLast

section Pieces

variable {text rest : List Char} {c : Char}

theorem oneLine_nil : OneLine [] := by simp [OneLine]

theorem oneLine_iff : OneLine text ↔ '\n' ∉ text ∧ '\r' ∉ text := by
  constructor
  · intro one
    exact ⟨fun inside => absurd (one _ inside) (by decide),
      fun inside => absurd (one _ inside) (by decide)⟩
  · intro ⟨noFeed, noReturn⟩ c inside
    exact isLineBreak_of_ne (fun same => noFeed (same ▸ inside))
      (fun same => noReturn (same ▸ inside))

theorem oneLine_append {a b : List Char} : OneLine (a ++ b) ↔ OneLine a ∧ OneLine b :=
  List.forall_mem_append

theorem pieces_ne_nil (text : List Char) : pieces text ≠ [] := by
  fun_cases pieces text with
  | case1 => simp
  | case2 => simp
  | case3 => simp
  | case4 c rest _ _ =>
    cases pieces rest <;> simp [extendFirst]

theorem pieces_cons (plain : isLineBreak c = false) :
    pieces (c :: rest) = extendFirst [c] (pieces rest) := by
  rw [pieces]
  · rw [plain, if_neg Bool.false_ne_true]
  · rintro tail rfl
    cases plain

theorem extendFirst_extendFirst (a b : List Char) (ps : List (List Char)) :
    extendFirst a (extendFirst b ps) = extendFirst (a ++ b) ps := by
  cases ps <;> simp [extendFirst]

/-- A text without line ends belongs to the first piece. -/
theorem pieces_append (one : OneLine text) (rest : List Char) :
    pieces (text ++ rest) = extendFirst text (pieces rest) := by
  induction text with
  | nil =>
    obtain ⟨first, others, shape⟩ := List.exists_cons_of_ne_nil (pieces_ne_nil rest)
    simp [shape, extendFirst]
  | cons c text ih =>
    obtain ⟨plain, one⟩ := List.forall_mem_cons.mp one
    rw [List.cons_append, pieces_cons plain, ih one, extendFirst_extendFirst]
    rfl

theorem pieces_newline (rest : List Char) : pieces ('\n' :: rest) = [] :: pieces rest := by
  rw [pieces]
  · rfl
  · simp

/-- The first line. -/
theorem lines_line (one : OneLine text) (rest : List Char) :
    lines (text ++ '\n' :: rest) = text :: lines rest := by
  rw [lines, pieces_append one, pieces_newline, extendFirst, List.append_nil,
    List.dropLast_cons_of_ne_nil (pieces_ne_nil rest)]
  rfl

theorem oneLine_of_mem_pieces {piece : List Char} (member : piece ∈ pieces text) :
    OneLine piece := by
  induction text using pieces.induct generalizing piece with
  | case1 =>
    rw [pieces, List.mem_singleton] at member
    rw [member]
    exact oneLine_nil
  | case2 rest ih =>
    rw [pieces, List.mem_cons] at member
    rcases member with rfl | later
    · exact oneLine_nil
    · exact ih later
  | case3 c rest other isBreak ih =>
    rw [pieces, if_pos isBreak, List.mem_cons] at member
    · rcases member with rfl | later
      · exact oneLine_nil
      · exact ih later
    · exact other
  | case4 c rest other plain ih =>
    rw [pieces_cons (by simpa using plain)] at member
    obtain ⟨first, others, shape⟩ := List.exists_cons_of_ne_nil (pieces_ne_nil rest)
    rw [shape, extendFirst, List.mem_cons] at member
    rcases member with rfl | later
    · refine oneLine_append.mpr ⟨by simpa [OneLine] using plain, ih ?_⟩
      simp [shape]
    · exact ih (by simp [shape, later])

theorem oneLine_of_mem_lines {line : List Char} (member : line ∈ lines text) : OneLine line :=
  oneLine_of_mem_pieces (List.dropLast_subset _ member)

/-- Without carriage returns, a text is its pieces joined by line feeds. -/
theorem pieces_append_newline (plain : '\r' ∉ text) (rest : List Char) :
    pieces (text ++ '\n' :: rest) = pieces text ++ pieces rest := by
  induction text with
  | nil => exact pieces_newline rest
  | cons c text ih =>
    rw [List.mem_cons, not_or] at plain
    obtain ⟨other, plain⟩ := plain
    rw [List.cons_append]
    by_cases feed : c = '\n'
    · rw [feed, pieces_newline, pieces_newline, ih plain]
      rfl
    · have within : isLineBreak c = false := isLineBreak_of_ne feed (Ne.symm other)
      obtain ⟨first, others, shape⟩ := List.exists_cons_of_ne_nil (pieces_ne_nil text)
      rw [pieces_cons within, pieces_cons within, ih plain, shape]
      rfl

theorem length_pieces (plain : '\r' ∉ text) :
    ((pieces text).map fun piece => piece.length + 1).sum = text.length + 1 := by
  induction text with
  | nil => rfl
  | cons c text ih =>
    rw [List.mem_cons, not_or] at plain
    obtain ⟨other, plain⟩ := plain
    by_cases feed : c = '\n'
    · rw [feed, pieces_newline, List.map_cons, List.sum_cons, ih plain, List.length_cons,
        List.length_nil]
      omega
    · have within : isLineBreak c = false := isLineBreak_of_ne feed (Ne.symm other)
      obtain ⟨first, others, shape⟩ := List.exists_cons_of_ne_nil (pieces_ne_nil text)
      have before := ih plain
      rw [shape, List.map_cons, List.sum_cons] at before
      rw [pieces_cons within, shape, extendFirst, List.map_cons, List.sum_cons,
        List.length_append, List.length_cons, List.length_nil, List.length_cons]
      omega

/-- A text that is one piece is one line. -/
theorem oneLine_of_pieces_singleton {piece : List Char} (plain : '\r' ∉ text)
    (single : pieces text = [piece]) : OneLine text := by
  induction text generalizing piece with
  | nil => exact oneLine_nil
  | cons c text ih =>
    rw [List.mem_cons, not_or] at plain
    obtain ⟨other, plain⟩ := plain
    obtain ⟨first, others, shape⟩ := List.exists_cons_of_ne_nil (pieces_ne_nil text)
    by_cases feed : c = '\n'
    · rw [feed, pieces_newline, shape] at single
      simp at single
    · have within : isLineBreak c = false := isLineBreak_of_ne feed (Ne.symm other)
      rw [pieces_cons within, shape, extendFirst, List.cons.injEq] at single
      exact List.forall_mem_cons.mpr ⟨within, ih plain (shape.trans (by rw [single.2]))⟩

theorem pieces_oneLine (one : OneLine text) : pieces text = [text] := by
  have whole := pieces_append one []
  rw [List.append_nil] at whole
  rw [whole, pieces, extendFirst, List.append_nil]

/-- Texts joined by line feeds, with one more at the end. -/
theorem lines_intercalate {ts : List (List Char)} (some : ts ≠ []) (plain : ∀ t ∈ ts, '\r' ∉ t)
    (rest : List Char) :
    lines (['\n'].intercalate ts ++ '\n' :: rest) = ts.flatMap pieces ++ lines rest := by
  have split : ∀ t tail, '\r' ∉ t → lines (t ++ '\n' :: tail) = pieces t ++ lines tail := by
    intro t tail plain
    rw [lines, pieces_append_newline plain, List.dropLast_append_of_ne_nil (pieces_ne_nil tail)]
    rfl
  induction ts with
  | nil => exact absurd rfl some
  | cons t ts ih =>
    rw [List.forall_mem_cons] at plain
    cases ts with
    | nil => simpa [List.intercalate] using split t rest plain.1
    | cons u ts =>
      rw [intercalate_cons_cons, List.append_assoc, List.cons_append, split _ _ plain.1,
        ih (by simp) plain.2]
      simp only [List.flatMap_cons, List.append_assoc]

end Pieces

end AnyCable.Lib
