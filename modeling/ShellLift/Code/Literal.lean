import ShellLift.Text.Basic
import ShellLift.Text.Numeral

/-!
# Literals of emitted code

Which texts of a script can be written down in xonsh without asking zsh what they mean, and how a
text is written as a string literal or as a number.
-/

set_option autoImplicit false

namespace ShellLift.Code

/-! ## String literals -/

/-- The quote around a string literal: single, unless the text has single quotes only. -/
def literalQuote (text : Text) : Char :=
  if text.contains '\'' && !text.contains '"' then '"' else '\''

def hexByte (n : Nat) : Text := [Nat.digitChar (n / 16), Nat.digitChar (n % 16)]

def literalChar (quote c : Char) : Text :=
  if c = '\\' then ['\\', '\\']
  else if c = '\n' then ['\\', 'n']
  else if c = '\r' then ['\\', 'r']
  else if c = '\t' then ['\\', 't']
  else if c = quote then ['\\', c]
  else if c.toNat < 0x20 ∨ c.toNat = 0x7f then '\\' :: 'x' :: hexByte c.toNat
  else [c]

def literalBody (quote : Char) (text : Text) : Text := text.flatMap (literalChar quote)

def stringLiteral (text : Text) : Text :=
  literalQuote text :: literalBody (literalQuote text) text ++ [literalQuote text]

/-! ## Integer literals -/

/-- The numeral without underscores and leading zeros. -/
def integerLiteral (text : Text) : Text :=
  match (Text.digits text).dropWhile (· == '0') with
  | [] => ['0']
  | digits => digits

/-! ## Texts that mean the same on both sides -/

def isSimpleQuotedChar (c : Char) : Bool := Text.isWordChar c || c == '-' || c == '/'

def isSimpleQuoted (text : Text) : Bool := text.all isSimpleQuotedChar

/-- A plain word; one that starts with a tilde only if that is allowed. -/
def isSimpleLiteral (allowTilde : Bool) (text : Text) : Bool :=
  (allowTilde || text.head? != some '~') && !text.isEmpty && text.all Text.isPlainChar

def isFixedWord (word : Text) : Bool := !word.contains '\\' && isSimpleLiteral false word

/-- The text of a command that single spaces split into words that stand for themselves. -/
def isSplittable (text : Text) : Bool := (Text.pieces ' ' text).all isFixedWord

end ShellLift.Code
