import ShellLift.Script.Location
import ShellLift.Text.Basic

/-!
# Expressions

What stands for a value in a script. Every expression is a piece of text in one of four forms,
and its span covers the marks of the form as well.
-/

set_option autoImplicit false

namespace ShellLift

inductive Quotation
  | single
  | double
deriving DecidableEq

namespace Quotation

def mark : Quotation → Char
  | single => '\''
  | double => '"'

def ofMark? (c : Char) : Option Quotation :=
  if c = '\'' then some single else if c = '"' then some double else none

end Quotation

namespace Expression

inductive Form
  | quoted (style : Quotation)
  /-- A command whose output is the value. -/
  | subcommand
  | literal
  /-- A command whose exit status is the value. -/
  | test
deriving DecidableEq

end Expression

/-- A marked piece of text. A quotation and a subcommand hold the text between their marks, a
test between double brackets keeps the brackets. -/
structure Expression where
  span : Span
  form : Expression.Form
  text : Text
deriving DecidableEq

end ShellLift
