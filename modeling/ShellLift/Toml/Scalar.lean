import ShellLift.Text.Numeral
import ShellLift.Toml.Node
import ShellLift.Toml.Scan

/-!
# Scalars of a document

Strings in their four spellings, integers, floats, dates and times. A value outside of its range
is refused: an integer of more than 64 bits, a float that rounds to infinity, a date that no
calendar has.
-/

set_option autoImplicit false

namespace ShellLift.Toml

open Scan

/-! ## Strings -/

def isHexDigit (c : Char) : Bool :=
  c.isDigit || ('a' ≤ c && c ≤ 'f') || ('A' ≤ c && c ≤ 'F')

def hexValue (c : Char) : Nat :=
  if c.isDigit then c.toNat - '0'.toNat
  else if 'a' ≤ c then c.toNat - 'a'.toNat + 10
  else c.toNat - 'A'.toNat + 10

def valueInBase (base : Nat) (digits : Text) : Nat :=
  digits.foldl (fun value c => value * base + hexValue c) 0

def codePoint (count : Nat) : Scan Char := do
  let digits ← exactly isHexDigit count
  let code := valueInBase 16 digits
  if code.isValidChar then pure (Char.ofNat code) else failure

def escaped : Scan Char := do
  match ← one fun _ => true with
  | 'b' => pure '\x08'
  | 't' => pure '\t'
  | 'n' => pure '\n'
  | 'f' => pure '\x0c'
  | 'r' => pure '\r'
  | '"' => pure '"'
  | '\\' => pure '\\'
  | 'u' => codePoint 4
  | 'U' => codePoint 8
  | _ => failure

def isBasicChar (c : Char) : Bool := isCommentChar c && c != '"' && c != '\\'

def isLiteralChar (c : Char) : Bool := isCommentChar c && c != '\''

def basicPart? : Scan (Option Text) :=
  opt (run1 isBasicChar <|> (do piece ['\\']; let c ← escaped; pure [c]))

def basicString : Scan Text := do
  piece ['"']
  let parts ← many basicPart?
  piece ['"']
  pure parts.flatten

def literalString : Scan Text := do
  piece ['\'']
  let content ← run isLiteralChar
  piece ['\'']
  pure content

def escapedLineEnd : Scan Unit := do
  piece ['\\']
  blanks
  newline
  let _ ← many (opt ((do let _ ← run1 isBlank; pure ()) <|> newline))
  pure ()

def stringNewline : Scan Text := do
  newline
  pure ['\n']

/-- Takes one or two quotes that do not belong to the three at the end of a string. -/
def innerQuotes (quote : Char) : Scan Text := do
  let quotes := (← get).takeWhile (· == quote)
  if quotes.length = 1 ∨ quotes.length = 2 then
    piece quotes
    pure quotes
  else failure

/-- Takes the quotes at the end of a string over several lines, of which up to two before the
last three belong to the string. -/
def closingQuotes (quote : Char) : Scan Text := do
  let count := min 5 ((← get).takeWhile (· == quote)).length
  if count < 3 then failure
  else
    piece (List.replicate count quote)
    pure (List.replicate (count - 3) quote)

def multilineBasicPart? : Scan (Option Text) :=
  opt (run1 isBasicChar <|> stringNewline <|> innerQuotes '"' <|>
    (do escapedLineEnd; pure []) <|> (do piece ['\\']; let c ← escaped; pure [c]))

/-- Takes a string between three double quotes. A line end right behind the opening quotes does
not belong to it. -/
def multilineBasicString : Scan Text := do
  piece ['"', '"', '"']
  let _ ← opt newline
  let parts ← many multilineBasicPart?
  let last ← closingQuotes '"'
  pure (parts.flatten ++ last)

def multilineLiteralPart? : Scan (Option Text) :=
  opt (run1 isLiteralChar <|> stringNewline <|> innerQuotes '\'')

def multilineLiteralString : Scan Text := do
  piece ['\'', '\'', '\'']
  let _ ← opt newline
  let parts ← many multilineLiteralPart?
  let last ← closingQuotes '\''
  pure (parts.flatten ++ last)

def string : Scan Text :=
  multilineBasicString <|> basicString <|> multilineLiteralString <|> literalString

/-! ## Numbers -/

def sign : Scan Bool :=
  (do piece ['-']; pure true) <|> (do piece ['+']; pure false) <|> pure false

def nextDigit? (test : Char → Bool) : Scan (Option Char) :=
  opt (one test <|> (do piece ['_']; one test))

def digitGroups (test : Char → Bool) : Scan Text := do
  let first ← one test
  let others ← many (nextDigit? test)
  pure (first :: others)

/-- Takes the digits of a decimal integer, which has no leading zero. -/
def decimalDigits : Scan Text :=
  (do
    let first ← one fun c => c.isDigit && c != '0'
    let others ← many (nextDigit? Char.isDigit)
    pure (first :: others)) <|>
  (do
    piece ['0']
    pure ['0'])

def inRange (n : Int) : Bool := -9223372036854775808 ≤ n && n ≤ 9223372036854775807

def basedInteger (mark : Char) (base : Nat) (test : Char → Bool) : Scan Int := do
  piece ['0', mark]
  let digits ← digitGroups test
  pure (valueInBase base digits)

def integer : Scan Int := do
  let n ←
    basedInteger 'x' 16 isHexDigit <|>
    basedInteger 'o' 8 (fun c => '0' ≤ c && c ≤ '7') <|>
    basedInteger 'b' 2 (fun c => c == '0' || c == '1') <|>
    (do
      let negative ← sign
      let value : Int := valueInBase 10 (← decimalDigits)
      pure (if negative then -value else value))
  if inRange n then pure n else failure

/-- The least real number that rounds to infinity. -/
def infinityBound : Nat := Nat.pow 2 1024 - Nat.pow 2 970

def roundsToInfinity (digits : Text) (exponent : Int) : Bool :=
  let significant := digits.dropWhile (· == '0')
  let magnitude := significant.length + exponent
  if significant.isEmpty || magnitude < 300 then false
  else if 310 < magnitude then true
  else if 0 ≤ exponent then
    infinityBound ≤ valueInBase 10 significant * Nat.pow 10 exponent.toNat
  else infinityBound * Nat.pow 10 (-exponent).toNat ≤ valueInBase 10 significant

def exponent : Scan Int := do
  let _ ← one fun c => c == 'e' || c == 'E'
  let negative ← sign
  let value : Int := valueInBase 10 (← digitGroups Char.isDigit)
  pure (if negative then -value else value)

def fraction : Scan Text := do
  piece ['.']
  digitGroups Char.isDigit

def decimalFloat : Scan Unit := do
  let negative ← sign
  let whole ← decimalDigits
  let parts ← opt fraction
  let power ← opt exponent
  if parts.isNone ∧ power.isNone then failure
  else
    let behind := parts.getD []
    if !negative && roundsToInfinity (whole ++ behind) (power.getD 0 - behind.length) then failure
    else pure ()

def specialFloat : Scan Unit := do
  let _ ← sign
  piece "inf".toList <|> piece "nan".toList

/-! ## Dates and times -/

def field (count low high : Nat) : Scan Nat := do
  let digits ← exactly Char.isDigit count
  let value := valueInBase 10 digits
  if low ≤ value ∧ value ≤ high then pure value else failure

def daysInMonth (year month : Nat) : Nat :=
  if month = 2 then
    if year % 4 = 0 ∧ (year % 100 ≠ 0 ∨ year % 400 = 0) then 29 else 28
  else if month = 4 ∨ month = 6 ∨ month = 9 ∨ month = 11 then 30
  else 31

def date : Scan Unit := do
  let year ← field 4 0 9999
  piece ['-']
  let month ← field 2 1 12
  piece ['-']
  let day ← field 2 1 31
  if day ≤ daysInMonth year month then pure () else failure

def time : Scan Unit := do
  let _ ← field 2 0 23
  piece [':']
  let _ ← field 2 0 59
  piece [':']
  let _ ← field 2 0 60
  let _ ← opt (do piece ['.']; run1 Char.isDigit)
  pure ()

def timeOffset : Scan Unit :=
  (do
    let _ ← one fun c => c == 'Z' || c == 'z'
    pure ()) <|>
  (do
    let _ ← one fun c => c == '+' || c == '-'
    let _ ← field 2 0 23
    piece [':']
    let _ ← field 2 0 59
    pure ())

def timeOfDate : Scan Unit := do
  let _ ← one fun c => c == 'T' || c == 't' || c == ' '
  time
  let _ ← opt timeOffset
  pure ()

def datetime : Scan Unit :=
  (do
    date
    let _ ← opt timeOfDate
    pure ()) <|>
  time

/-! ## Scalars -/

def spelling (scan : Scan Unit) : Scan Text := do
  let before ← get
  scan
  pure (before.take (before.length - (← get).length))

def boolean : Scan Bool :=
  (do piece "true".toList; pure true) <|> (do piece "false".toList; pure false)

def scalar : Scan Scalar :=
  (.string <$> string) <|> (.boolean <$> boolean) <|> (.datetime <$> spelling datetime) <|>
    (.float <$> spelling (decimalFloat <|> specialFloat)) <|> (.integer <$> integer)

end ShellLift.Toml
