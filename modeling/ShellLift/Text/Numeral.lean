import ShellLift.Text.Basic

/-!
# Numerals

Decimal numerals whose digits may be grouped by single underscores, the number that such a numeral
stands for, and the plain numeral of a number.
-/

set_option autoImplicit false

namespace ShellLift.Text

/-- Digits, each of which may have one underscore before it. -/
def isDigitTail : Text → Bool
  | [] => true
  | '_' :: c :: rest => c.isDigit && isDigitTail rest
  | c :: rest => c.isDigit && isDigitTail rest

def isNumeral : Text → Bool
  | [] => false
  | c :: rest => c.isDigit && isDigitTail rest

def digits (text : Text) : Text := text.filter (· != '_')

/-- The number that digits stand for, most significant first, behind a number read so far. -/
def digitsValue (value : Nat) : Text → Nat
  | [] => value
  | c :: rest => digitsValue (value * 10 + (c.toNat - '0'.toNat)) rest

def numeralValue (text : Text) : Nat := digitsValue 0 (digits text)

def ofNat (n : Nat) : Text := Nat.toDigits 10 n

def ofInt (n : Int) : Text := if n < 0 then '-' :: ofNat n.natAbs else ofNat n.natAbs

def readInt? (text : Text) : Option Int :=
  match text with
  | '-' :: numeral => if isNumeral numeral then some (-(numeralValue numeral : Int)) else none
  | '+' :: numeral => if isNumeral numeral then some (numeralValue numeral) else none
  | numeral => if isNumeral numeral then some (numeralValue numeral) else none

end ShellLift.Text
