import Mathlib.Data.List.Basic

/-!
# Base64

The standard encoding with padding, as Go's `base64.StdEncoding` has it: line ends in the text are
passed over, and the bits of the last group that no byte takes are not looked at.
-/

set_option autoImplicit false

namespace AnyCable.Lib.Base64

/-- The characters of the alphabet, by their values. -/
def digit (n : Nat) : Char :=
  if n < 26 then Char.ofNat (n + 65)
  else if n < 52 then Char.ofNat (n + 71)
  else if n < 62 then Char.ofNat (n - 4)
  else if n = 62 then '+'
  else '/'

def value (c : Char) : Option Nat :=
  if 'A' ≤ c ∧ c ≤ 'Z' then some (c.toNat - 65)
  else if 'a' ≤ c ∧ c ≤ 'z' then some (c.toNat - 71)
  else if '0' ≤ c ∧ c ≤ '9' then some (c.toNat + 4)
  else if c = '+' then some 62
  else if c = '/' then some 63
  else none

theorem value_digit : ∀ n < 64, value (digit n) = some n := by decide

/-- A digit is no padding and no line end. -/
theorem digit_plain : ∀ n < 64, digit n ≠ '=' ∧ digit n ≠ '\r' ∧ digit n ≠ '\n' := by decide

/-- Three bytes make four digits. -/
def encode : List UInt8 → List Char
  | a :: b :: c :: rest =>
    digit (a.toNat / 4) :: digit (a.toNat % 4 * 16 + b.toNat / 16) ::
      digit (b.toNat % 16 * 4 + c.toNat / 64) :: digit (c.toNat % 64) :: encode rest
  | [a, b] =>
    [digit (a.toNat / 4), digit (a.toNat % 4 * 16 + b.toNat / 16), digit (b.toNat % 16 * 4), '=']
  | [a] => [digit (a.toNat / 4), digit (a.toNat % 4 * 16), '=', '=']
  | [] => []

/-- The bytes of a group. -/
def bytes (w x y z : Nat) : List UInt8 :=
  [UInt8.ofNat (w * 4 + x / 16), UInt8.ofNat (x % 16 * 16 + y / 4), UInt8.ofNat (y % 4 * 64 + z)]

def decodeGroups : List Char → Option (List UInt8)
  | w :: x :: y :: z :: rest =>
    if z = '=' ∧ rest = [] then
      if y = '=' then do return (bytes (← value w) (← value x) 0 0).take 1
      else do return (bytes (← value w) (← value x) (← value y) 0).take 2
    else do
      return bytes (← value w) (← value x) (← value y) (← value z) ++ (← decodeGroups rest)
  | [] => some []
  | _ => none

def decode (text : List Char) : Option (List UInt8) :=
  decodeGroups (text.filter fun c => c ≠ '\r' ∧ c ≠ '\n')

/-! ### Round trip -/

theorem bytes_digits (a b c : UInt8) :
    bytes (a.toNat / 4) (a.toNat % 4 * 16 + b.toNat / 16) (b.toNat % 16 * 4 + c.toNat / 64)
      (c.toNat % 64) = [a, b, c] := by
  have la := a.toNat_lt
  have lb := b.toNat_lt
  have lc := c.toNat_lt
  have first : a.toNat / 4 * 4 + (a.toNat % 4 * 16 + b.toNat / 16) / 16 = a.toNat := by omega
  have second : (a.toNat % 4 * 16 + b.toNat / 16) % 16 * 16 +
      (b.toNat % 16 * 4 + c.toNat / 64) / 4 = b.toNat := by omega
  have third : (b.toNat % 16 * 4 + c.toNat / 64) % 4 * 64 + c.toNat % 64 = c.toNat := by omega
  rw [bytes, first, second, third, UInt8.ofNat_toNat, UInt8.ofNat_toNat, UInt8.ofNat_toNat]

theorem decodeGroups_encode : ∀ data : List UInt8, decodeGroups (encode data) = some data
  | [] => rfl
  | [a] => by
    have la := a.toNat_lt
    have group := bytes_digits a 0 0
    simp only [UInt8.toNat_zero, Nat.zero_div, Nat.add_zero, Nat.zero_mod, Nat.zero_mul] at group
    rw [encode, decodeGroups, if_pos ⟨rfl, rfl⟩, if_pos rfl, value_digit _ (by omega),
      value_digit _ (by omega)]
    exact congrArg (fun bytes => some (bytes.take 1)) group
  | [a, b] => by
    have la := a.toNat_lt
    have lb := b.toNat_lt
    have group := bytes_digits a b 0
    simp only [UInt8.toNat_zero, Nat.zero_div, Nat.add_zero, Nat.zero_mod] at group
    rw [encode, decodeGroups, if_pos ⟨rfl, rfl⟩, if_neg (digit_plain _ (by omega)).1,
      value_digit _ (by omega), value_digit _ (by omega), value_digit _ (by omega)]
    exact congrArg (fun bytes => some (bytes.take 2)) group
  | a :: b :: c :: rest => by
    have la := a.toNat_lt
    have lb := b.toNat_lt
    have lc := c.toNat_lt
    rw [encode, decodeGroups, if_neg fun last => (digit_plain _ (by omega)).1 last.1,
      value_digit _ (by omega), value_digit _ (by omega), value_digit _ (by omega),
      value_digit _ (by omega), decodeGroups_encode rest]
    exact congrArg (fun bytes => some (bytes ++ rest)) (bytes_digits a b c)

theorem encode_plain : ∀ data : List UInt8, ∀ c ∈ encode data, c ≠ '\r' ∧ c ≠ '\n'
  | [] => by simp [encode]
  | [a] => by
    have la := a.toNat_lt
    simp [encode, digit_plain (a.toNat / 4) (by omega), digit_plain (a.toNat % 4 * 16) (by omega)]
  | [a, b] => by
    have la := a.toNat_lt
    have lb := b.toNat_lt
    simp [encode, digit_plain (a.toNat / 4) (by omega),
      digit_plain (a.toNat % 4 * 16 + b.toNat / 16) (by omega),
      digit_plain (b.toNat % 16 * 4) (by omega)]
  | a :: b :: c :: rest => by
    have la := a.toNat_lt
    have lb := b.toNat_lt
    have lc := c.toNat_lt
    simp only [encode, List.forall_mem_cons]
    exact ⟨(digit_plain _ (by omega)).2, (digit_plain _ (by omega)).2,
      (digit_plain _ (by omega)).2, (digit_plain _ (by omega)).2, encode_plain rest⟩

theorem decode_encode (data : List UInt8) : decode (encode data) = some data := by
  have same : (encode data).filter (fun c => c ≠ '\r' ∧ c ≠ '\n') = encode data :=
    List.filter_eq_self.mpr fun c inside => decide_eq_true (encode_plain data c inside)
  rw [decode, same, decodeGroups_encode]

/-! ### The alphabet -/

theorem mem_decodeGroups : ∀ {text : List Char} {data : List UInt8},
    decodeGroups text = some data → ∀ c ∈ text, c = '=' ∨ (value c).isSome = true
  | [], _, _ => by simp
  | [_], _, decoded | [_, _], _, decoded | [_, _, _], _, decoded => by cases decoded
  | w :: x :: y :: z :: rest, data, decoded => by
    have some_of {c : Char} {n : Nat} (read : value c = some n) : (value c).isSome = true := by
      rw [read, Option.isSome_some]
    rw [decodeGroups] at decoded
    simp only [List.forall_mem_cons]
    split at decoded
    next last =>
      split at decoded
      next padding =>
        simp only [Option.bind_eq_bind, Option.bind_eq_some_iff] at decoded
        obtain ⟨a, ha, b, hb, -⟩ := decoded
        exact ⟨.inr (some_of ha), .inr (some_of hb), .inl padding, .inl last.1, by simp [last.2]⟩
      · simp only [Option.bind_eq_bind, Option.bind_eq_some_iff] at decoded
        obtain ⟨a, ha, b, hb, c, hc, -⟩ := decoded
        exact ⟨.inr (some_of ha), .inr (some_of hb), .inr (some_of hc), .inl last.1,
          by simp [last.2]⟩
    · simp only [Option.bind_eq_bind, Option.bind_eq_some_iff] at decoded
      obtain ⟨a, ha, b, hb, c, hc, d, hd, more, hmore, -⟩ := decoded
      exact ⟨.inr (some_of ha), .inr (some_of hb), .inr (some_of hc), .inr (some_of hd),
        mem_decodeGroups hmore⟩

/-- A text with a hyphen is no base64. -/
theorem hyphen_notMem {text : List Char} {data : List UInt8} (decoded : decode text = some data) :
    '-' ∉ text := by
  intro inside
  have kept : '-' ∈ text.filter fun c => c ≠ '\r' ∧ c ≠ '\n' :=
    List.mem_filter.mpr ⟨inside, by decide⟩
  rcases mem_decodeGroups decoded '-' kept with padding | digit
  · exact absurd padding (by decide)
  · exact absurd digit (by decide)

end AnyCable.Lib.Base64
