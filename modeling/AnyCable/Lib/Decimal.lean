import AnyCable.Lib.JsonParse
import Mathlib.Data.Rat.Defs
import Mathlib.Algebra.Field.Rat

/-!
# The value of a number's text

A decimal is a mantissa and a power of 10. `Numeral.decimal` reads the text of a JSON number:
digits, a fraction, an exponent, of which the last two may be missing. Different texts may have one
value.
-/

set_option autoImplicit false

namespace AnyCable.Lib

structure Decimal where
  negative : Bool := false
  mantissa : Nat
  exponent : Int := 0
  deriving DecidableEq, Repr

namespace Decimal

def value (d : Decimal) : ℚ :=
  (if d.negative then -1 else 1) * d.mantissa * (10 : ℚ) ^ d.exponent

/-- The number after the letter of an exponent. -/
def readExponent : List Char → Int
  | [] => 0
  | _ :: '+' :: digits => Nat.ofDigitChars 10 digits 0
  | _ :: '-' :: digits => -(Nat.ofDigitChars 10 digits 0 : Int)
  | _ :: digits => Nat.ofDigitChars 10 digits 0

def readUnsigned (text : List Char) : Decimal :=
  let whole := text.takeWhile Char.isDigit
  match text.dropWhile Char.isDigit with
  | '.' :: rest =>
    let fraction := rest.takeWhile Char.isDigit
    { mantissa := Nat.ofDigitChars 10 (whole ++ fraction) 0
      exponent := readExponent (rest.dropWhile Char.isDigit) - fraction.length }
  | rest => { mantissa := Nat.ofDigitChars 10 whole 0, exponent := readExponent rest }

def read : List Char → Decimal
  | '-' :: text => { readUnsigned text with negative := true }
  | text => readUnsigned text

end Decimal

namespace Numeral

def decimal (n : Numeral) : Decimal := Decimal.read n.digits

def value (n : Numeral) : ℚ := n.decimal.value

end Numeral

example : Decimal.read "-12.50e-3".toList = ⟨true, 1250, -5⟩ := by decide

end AnyCable.Lib
