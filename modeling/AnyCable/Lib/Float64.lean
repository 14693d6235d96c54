import AnyCable.Lib.Untyped
import Mathlib.Data.List.DropRight

/-!
# Numbers as `float64`

What Go's `strconv.ParseFloat` makes of a number and how `encoding/json` prints the result. A
magnitude is counted in units of `2^-1074`, the smallest that there is. Reading rounds to the
nearest, and to an even mantissa between two; printing takes the fewest digits that are read back as
the same number, and of those the nearest.

Exponents of more than five digits are cut by `ParseFloat`. With fewer than ten thousand digits
before them nothing depends on it.
-/

set_option autoImplicit false

namespace AnyCable.Lib.Float64

/-! ### Reading -/

/-- The natural number next to a fraction. -/
def nearest (num den : Nat) : Nat :=
  let below := num / den
  let part := num % den
  if 2 * part < den ∨ (2 * part = den ∧ below % 2 = 0) then below else below + 1

/-- A fraction as a magnitude: the mantissa has 53 bits. -/
def magnitude (num den : Nat) : Option Nat :=
  let units := num * 2 ^ 1074
  let step := 2 ^ ((units / den).log2 + 1 - 53)
  let n := nearest units (den * step) * step
  if n < 2 ^ 2098 then some n else none

/-- The magnitude of a decimal. Exponents far out of range are not computed with. -/
def ofDecimal (d : Decimal) : Option Nat :=
  if d.mantissa = 0 then some 0
  else if d.exponent > 400 then none
  else if d.exponent + (Nat.toDigits 10 d.mantissa).length < -400 then some 0
  else if d.exponent < 0 then magnitude d.mantissa (10 ^ d.exponent.natAbs)
  else magnitude (d.mantissa * 10 ^ d.exponent.natAbs) 1

/-! ### Printing -/

/-- The exponent of a magnitude in scientific form. -/
def scale (n : Nat) : Int := (Nat.toDigits 10 (n * 10 ^ 400 / 2 ^ 1074)).length - 401

/-- The decimals of so many digits on both sides of a magnitude, the nearer one first. -/
def candidates (n digits : Nat) : List Decimal :=
  let exponent := scale n + 1 - digits
  let (num, den) :=
    if exponent < 0 then (n * 10 ^ exponent.natAbs, 2 ^ 1074)
    else (n, 2 ^ 1074 * 10 ^ exponent.natAbs)
  let near := nearest num den
  let far := if near = num / den then near + 1 else num / den
  [{ mantissa := near, exponent }, { mantissa := far, exponent }]

/-- The shortest decimal that is read as the magnitude. Seventeen digits are enough; the exact value
stands for more. -/
def shortest (n : Nat) : Decimal :=
  let tries := (List.range 17).flatMap fun digits => candidates n (digits + 1)
  (tries.find? fun d => ofDecimal d = some n).getD
    { mantissa := n * 5 ^ 1074, exponent := -1074 }

/-- The parts of a number's text. -/
structure Layout where
  whole : List Char
  fraction : List Char := []
  exponent : Option Int := none

def exponentText : Option Int → List Char
  | none => []
  | some e => 'e' :: (if e < 0 then '-' else '+') :: Nat.toDigits 10 e.natAbs

def Layout.text (l : Layout) : List Char :=
  l.whole ++ ((if l.fraction.isEmpty then [] else '.' :: l.fraction) ++ exponentText l.exponent)

def zeros (n : Nat) : List Char := List.replicate n '0'

/-- Digits with the point after so many of them. -/
def fixed (digits : List Char) (point : Int) : Layout :=
  if point ≤ 0 then { whole := ['0'], fraction := zeros point.natAbs ++ digits }
  else
    { whole := (digits ++ zeros (point.natAbs - digits.length)).take point.natAbs
      fraction := digits.drop point.natAbs }

/-- Digits with the point after the first. -/
def scientific (first : Char) (digits : List Char) (exponent : Int) : Layout where
  whole := [first]
  fraction := digits
  exponent := some exponent

/-- The digits of a number but for the zeros at its end. -/
def significant (n : Nat) : List Char :=
  (Nat.toDigits 10 n).rdropWhile (· == '0')

/-- A decimal with an exponent or without. -/
def layout (d : Decimal) (exponential : Bool) : Layout :=
  let point := d.exponent + (Nat.toDigits 10 d.mantissa).length
  match significant d.mantissa with
  | [] => { whole := ['0'] }
  | first :: digits =>
    if exponential then scientific first digits (point - 1) else fixed (first :: digits) point

/-- Magnitudes below `1e-6` and from `1e21` on are printed with an exponent. -/
def exponential (n : Nat) : Bool :=
  (magnitude 1 (10 ^ 6)).any (n < ·) || 10 ^ 21 * 2 ^ 1074 ≤ n

/-! ### What is printed is a number -/

/-- The layouts of numbers. -/
structure Layout.Sound (l : Layout) : Prop where
  whole : isDigits l.whole = true
  lead : l.whole = ['0'] ∨ l.whole.head? ≠ some '0'
  fraction : ∀ c ∈ l.fraction, c.isDigit = true

theorem isExponent_exponentText (e : Option Int) : isExponent (exponentText e) = true := by
  cases e with
  | none => rfl
  | some e =>
    rw [exponentText]
    split
    · simp [isExponent, isDigits_toDigits]
    · simp [isExponent, isDigits_toDigits]

/-- Digits are read up to the first character that is none. -/
theorem span_digits {digits rest : List Char} (all : ∀ c ∈ digits, c.isDigit = true)
    (stop : ∀ c ∈ rest.head?, c.isDigit = false) :
    (digits ++ rest).takeWhile Char.isDigit = digits ∧
      (digits ++ rest).dropWhile Char.isDigit = rest := by
  have none : rest.takeWhile Char.isDigit = [] ∧ rest.dropWhile Char.isDigit = rest := by
    cases rest with
    | nil => exact ⟨rfl, rfl⟩
    | cons c rest =>
      have outside := stop c rfl
      simp [outside]
  rw [List.takeWhile_append_of_pos all, List.dropWhile_append_of_pos all, none.1, none.2,
    List.append_nil]
  exact ⟨rfl, rfl⟩

theorem head_exponentText (e : Option Int) :
    ∀ c ∈ (exponentText e).head?, c.isDigit = false := by
  cases e with
  | none => simp [exponentText]
  | some e =>
    simp only [exponentText, List.head?_cons, Option.mem_some_iff, forall_eq']
    decide

theorem isFraction_text {fraction : List Char} (digits : ∀ c ∈ fraction, c.isDigit = true)
    (e : Option Int) :
    isFraction ((if fraction.isEmpty then [] else '.' :: fraction) ++ exponentText e) = true := by
  cases fraction with
  | nil =>
    rw [List.isEmpty_nil, if_pos rfl, List.nil_append]
    cases e with
    | none => rfl
    | some e => exact isExponent_exponentText (some e)
  | cons c fraction =>
    obtain ⟨taken, left⟩ := span_digits digits (head_exponentText e)
    rw [List.isEmpty_cons, if_neg (by decide), List.cons_append, isFraction, taken, left,
      isExponent_exponentText, Bool.and_true]
    exact isDigits_iff.mpr ⟨by simp, digits⟩

namespace Layout

variable {l : Layout}

theorem Sound.isUnsigned_text (sound : l.Sound) : isUnsigned l.text = true := by
  have digits := isDigits_iff.mp sound.whole
  have stop : ∀ c ∈ ((if l.fraction.isEmpty then [] else '.' :: l.fraction) ++
      exponentText l.exponent).head?, c.isDigit = false := by
    split
    · exact head_exponentText l.exponent
    · simp only [List.cons_append, List.head?_cons, Option.mem_some_iff, forall_eq']
      decide
  obtain ⟨taken, left⟩ := span_digits digits.2 stop
  simp only [isUnsigned, text, taken, left, sound.whole, isFraction_text sound.fraction,
    Bool.true_and, Bool.and_true, Bool.or_eq_true, beq_iff_eq, bne_iff_ne]
  exact sound.lead

theorem Sound.numeric_text (sound : l.Sound) : ∀ c ∈ l.text, isNumeric c = true := by
  have digit {c : Char} (is : c.isDigit = true) : isNumeric c = true := by simp [isNumeric, is]
  have point : ∀ c ∈ (if l.fraction.isEmpty then [] else '.' :: l.fraction),
      isNumeric c = true := by
    split
    · simp
    · rw [List.forall_mem_cons]
      exact ⟨by decide, fun c inside => digit (sound.fraction c inside)⟩
  have exponent : ∀ c ∈ exponentText l.exponent, isNumeric c = true := by
    cases l.exponent with
    | none => simp [exponentText]
    | some e =>
      rw [exponentText, List.forall_mem_cons, List.forall_mem_cons]
      refine ⟨by decide, ?_, fun c inside => ?_⟩
      · split
        · decide
        · decide
      · exact digit ((isDigits_iff.mp (isDigits_toDigits e.natAbs)).2 c inside)
  rw [text, List.forall_mem_append, List.forall_mem_append]
  exact ⟨fun c inside => digit ((isDigits_iff.mp sound.whole).2 c inside), point, exponent⟩

end Layout

/-- The digits that are printed: no zero in front. -/
structure Leading (digits : List Char) : Prop where
  all : isDigits digits = true
  head : digits.head? ≠ some '0'

theorem sound_scientific {first : Char} {digits : List Char} (leading : Leading (first :: digits))
    (exponent : Int) : (scientific first digits exponent).Sound := by
  have all := (isDigits_iff.mp leading.all).2
  refine ⟨?_, .inr leading.head, fun c inside => all c (List.mem_cons_of_mem _ inside)⟩
  exact isDigits_iff.mpr ⟨by simp [scientific], by simpa [scientific] using all first (by simp)⟩

theorem sound_fixed {digits : List Char} (leading : Leading digits) (point : Int) :
    (fixed digits point).Sound := by
  obtain ⟨nonempty, all⟩ := isDigits_iff.mp leading.all
  have zero (n : Nat) : ∀ c ∈ zeros n, c.isDigit = true := by
    intro c inside
    rw [List.eq_of_mem_replicate inside]
    decide
  unfold fixed
  split
  · refine ⟨rfl, .inl rfl, ?_⟩
    rw [List.forall_mem_append]
    exact ⟨zero _, all⟩
  next positive =>
    obtain ⟨first, digits, rfl⟩ := List.exists_cons_of_ne_nil nonempty
    obtain ⟨n, size⟩ : ∃ n, point.natAbs = n + 1 := ⟨point.natAbs - 1, by omega⟩
    have both : ∀ c ∈ (first :: digits) ++ zeros (point.natAbs - (first :: digits).length),
        c.isDigit = true := by
      rw [List.forall_mem_append]
      exact ⟨all, zero _⟩
    refine ⟨isDigits_iff.mpr ⟨?_, fun c inside => both c (List.mem_of_mem_take inside)⟩, .inr ?_,
      fun c inside => all c (List.mem_of_mem_drop inside)⟩
    · simp [size]
    · simpa [size] using leading.head

theorem significant_zero : significant 0 = [] := by decide

theorem leading_significant {n : Nat} (pos : 0 < n) : Leading (significant n) := by
  have digits := (isDigits_iff.mp (isDigits_toDigits n)).2
  have start : significant n <+: Nat.toDigits 10 n := List.rdropWhile_prefix _ _
  have nonempty : significant n ≠ [] := by
    intro gone
    have allZero := List.rdropWhile_eq_nil_iff.mp gone
    obtain ⟨c, rest, shape⟩ := List.exists_cons_of_ne_nil (Nat.toDigits_ne_nil (b := 10) (n := n))
    have zero : c = '0' := beq_iff_eq.mp (allZero c (by simp [shape]))
    exact toDigits_head pos (by rw [shape, zero, List.head?_cons])
  obtain ⟨zeros, split⟩ := start
  refine ⟨isDigits_iff.mpr ⟨nonempty, fun c inside => digits c ?_⟩, ?_⟩
  · rw [← split]
    exact List.mem_append_left zeros inside
  · have head := toDigits_head pos
    rw [← split, List.head?_append_of_ne_nil _ nonempty] at head
    exact head

theorem sound_layout (d : Decimal) (exponential : Bool) : (layout d exponential).Sound := by
  unfold layout
  cases shape : significant d.mantissa with
  | nil => exact ⟨rfl, .inl rfl, by simp⟩
  | cons first digits =>
    have pos : 0 < d.mantissa := by
      apply Nat.pos_of_ne_zero
      intro zero
      simp [zero, significant_zero] at shape
    have leading := leading_significant pos
    rw [shape] at leading
    cases exponential with
    | true => exact sound_scientific leading _
    | false => exact sound_fixed leading _

/-! ### The library -/

/-- A magnitude with its sign, as `encoding/json` prints it. -/
def print (negative : Bool) (l : Layout) (sound : l.Sound) : Numeral where
  digits := if negative then '-' :: l.text else l.text
  numeric := by
    rw [List.all_eq_true]
    split
    · rw [List.forall_mem_cons]
      exact ⟨by decide, sound.numeric_text⟩
    · exact sound.numeric_text

theorem isNumber_print (negative : Bool) {l : Layout} (sound : l.Sound) :
    isNumber (print negative l sound).digits = true := by
  have unsigned := sound.isUnsigned_text
  cases negative with
  | true => exact unsigned
  | false =>
    show isNumber l.text = true
    unfold isNumber
    split
    next rest shape =>
      rw [shape] at unsigned
      exact absurd unsigned (by simp [isUnsigned, isDigits])
    · exact unsigned

/-- The numbers of Go. -/
def floats : Floats where
  reprint n :=
    (ofDecimal n.decimal).map fun m =>
      print n.decimal.negative (layout (shortest m) (exponential m)) (sound_layout _ _)
  number n m printed := by
    obtain ⟨k, -, rfl⟩ := Option.map_eq_some_iff.mp printed
    exact isNumber_print _ _

end AnyCable.Lib.Float64
