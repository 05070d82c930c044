import ShellLift.Text.Numeral
import ShellLift.Text.Printable

/-!
# Values

A variable of the environment has a typed value. A child process sees the flat text of the value;
a text is read back as a value of a kind.
-/

set_option autoImplicit false

namespace ShellLift

inductive Value
  | text (content : Text)
  | flag (content : Bool)
  | number (content : Int64)
  /-- Set, but to nothing. -/
  | absent
  | paths (parts : List Text)
  /-- A value of another type, of which only the text is known. -/
  | foreign (content : Text)
deriving DecidableEq

namespace Value

inductive Kind
  | text
  | flag
  | number
  | absent
  | paths
deriving DecidableEq

def kind? : Value → Option Kind
  | text _ => some .text
  | flag _ => some .flag
  | number _ => some .number
  | absent => some .absent
  | paths _ => some .paths
  | foreign _ => none

/-- The text that a child process sees. -/
def flat : Value → Text
  | text content => content
  | flag true => "True".toList
  | flag false => "False".toList
  | number content => Text.ofInt content.toInt
  | absent => []
  | paths parts => List.intercalate [':'] parts
  | foreign content => content

def Kind.name : Kind → Text
  | text => "str".toList
  | flag => "bool".toList
  | number => "int".toList
  | absent => "None".toList
  | paths => "EnvPath".toList

def number? (n : Int) : Option Int64 :=
  if Int64.minValue.toInt ≤ n ∧ n ≤ Int64.maxValue.toInt then some (Int64.ofInt n) else none

def readFlag? (content : Text) : Option Bool :=
  if content = "True".toList ∨ content = "true".toList ∨ content = "1".toList then some true
  else if content = "False".toList ∨ content = "false".toList ∨ content = "0".toList then
    some false
  else none

/-- Reads a text as a value of a kind. A path list is never read from a text alone. -/
def Kind.read? (kind : Kind) (content : Text) : Option Value :=
  match kind with
  | text => some (.text content)
  | flag => (readFlag? content).map .flag
  | number => ((Text.readInt? content).bind number?).map .number
  | absent => if content.isEmpty then some .absent else none
  | paths => none

def Kind.complaint (kind : Kind) (content : Text) : Text :=
  Text.quoted content ++ " cannot be read as ".toList ++ kind.name

end Value

end ShellLift
