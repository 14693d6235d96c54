import AnyCable.Lib.JsonParse

/-!
# Taking texts apart

Functions of Go's `strconv` and `strings`. `parseInt` is what is accepted as a signed number in base
10 with 64 bits: a sign or none, then digits only, within the range; `Atoi` and `ParseInt` agree on
it where an `int` has 64 bits. `splitN` cuts a text at the first separators, into a given number of
parts at most, so that the last part may have separators in it.
-/

set_option autoImplicit false

namespace AnyCable.Lib

/-- The number that digits stand for, if there are any and nothing else. -/
def parseDigits (text : List Char) : Option Nat :=
  if isDigits text then some (Nat.ofDigitChars 10 text 0) else none

def parseInt (text : List Char) : Option Int :=
  match text with
  | '-' :: digits => do
    let n ← parseDigits digits
    if n ≤ 2 ^ 63 then some (-(n : Int)) else none
  | '+' :: digits | digits => do
    let n ← parseDigits digits
    if n < 2 ^ 63 then some (n : Int) else none

example : (parseInt "-300".toList, parseInt "+7".toList, parseInt "".toList,
    parseInt "1_0".toList, parseInt "9223372036854775808".toList) =
    (some (-300), some 7, none, none, none) := by decide

section SplitN

variable (sep : Char)

/-- A text up to the first separator, and what comes after it. -/
def cut : List Char → Option (List Char × List Char)
  | [] => none
  | c :: rest => if c = sep then some ([], rest) else (cut rest).map fun p => (c :: p.1, p.2)

def splitN : Nat → List Char → List (List Char)
  | 0, _ => []
  | 1, text => [text]
  | n + 2, text =>
    match cut sep text with
    | none => [text]
    | some (part, rest) => part :: splitN (n + 1) rest

variable {sep}

theorem cut_append {part : List Char} (free : sep ∉ part) (rest : List Char) :
    cut sep (part ++ sep :: rest) = some (part, rest) := by
  induction part with
  | nil => simp [cut]
  | cons c part ih =>
    obtain ⟨other, free⟩ := not_or.mp (List.mem_cons.not.mp free)
    simp [cut, Ne.symm other, ih free]

/-- A text with two separators has three parts, the first two without a separator. -/
theorem three_parts {text : List Char} (two : 2 ≤ text.count sep) :
    ∃ a b c, text = a ++ sep :: (b ++ sep :: c) ∧ sep ∉ a ∧ sep ∉ b := by
  obtain ⟨a, rest, rfl, freeA⟩ :=
    List.eq_append_cons_of_mem (List.count_pos_iff.mp (by omega : 0 < text.count sep))
  rw [List.count_append, List.count_cons_self, List.count_eq_zero_of_not_mem freeA] at two
  obtain ⟨b, c, rfl, freeB⟩ :=
    List.eq_append_cons_of_mem (List.count_pos_iff.mp (by omega : 0 < rest.count sep))
  exact ⟨a, b, c, rfl, freeA, freeB⟩

theorem splitN_three {a b : List Char} (freeA : sep ∉ a) (freeB : sep ∉ b) (c : List Char) :
    splitN sep 3 (a ++ sep :: (b ++ sep :: c)) = [a, b, c] := by
  simp [splitN, cut_append freeA, cut_append freeB]

end SplitN

end AnyCable.Lib
