import ShellLift.Script.Expression

/-!
# Statements

The four kinds of statement in the part of zsh that is read here. The body of a conditional or of
a function is a list of statements.
-/

set_option autoImplicit false

namespace ShellLift

inductive Binder
  | exported
  | localized
  | aliased
deriving DecidableEq

namespace Binder

def keyword : Binder → Text
  | exported => "export".toList
  | localized => "local".toList
  | aliased => "alias".toList

end Binder

inductive Callee
  /-- Named by the caller as known to the generated code. -/
  | extra
  | standard
  | declared
deriving DecidableEq

inductive Statement
  | assignment (span : Span) (kind : Option Binder) (target : Text)
      (value : Option Expression)
  | conditional (span : Span) (condition : Expression) (body : List Statement)
  | function (span : Span) (name : Text) (body : List Statement)
  | invocation (span : Span) (name : Text) (arguments : List Expression) (kind : Callee)

namespace Statement

def span : Statement → Span
  | assignment span .. => span
  | conditional span .. => span
  | function span .. => span
  | invocation span .. => span

inductive Kind
  | assignment
  | conditional
  | function
  | invocation
deriving DecidableEq

def kind : Statement → Kind
  | assignment .. => .assignment
  | conditional .. => .conditional
  | function .. => .function
  | invocation .. => .invocation

def Kind.noun : Kind → String
  | assignment => "assignment"
  | conditional => "conditional"
  | function => "function"
  | invocation => "invocation"

end Statement

end ShellLift
