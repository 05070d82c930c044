import ShellLift.Script.Statement
import ShellLift.Table
import ShellLift.Text.Basic

/-!
# Rules

The first word of a statement says how the statement is read. The rules start with the keywords
and the one builtin that every script knows; extra builtins and declared functions are registered
behind them. A registered name is a word and keeps its rule for good.
-/

set_option autoImplicit false

namespace ShellLift

inductive Rule
  | assignment (kind : Binder)
  | conditional
  | function
  | invocation (kind : Callee)
deriving DecidableEq

abbrev RuleTable := Table Rule

namespace RuleTable

def initial : RuleTable :=
  ⟨[(Binder.exported.keyword, .assignment .exported),
    (Binder.localized.keyword, .assignment .localized),
    (Binder.aliased.keyword, .assignment .aliased),
    ("if".toList, .conditional),
    ("function".toList, .function),
    ("echo".toList, .invocation .standard)]⟩

inductive Refusal
  | notWord
  | taken (rule : Rule)
deriving DecidableEq

def register (rules : RuleTable) (name : Text) (kind : Callee) :
    Except Refusal RuleTable :=
  if Text.isWord name then
    match rules.get? name with
    | some rule => .error (.taken rule)
    | none => .ok ⟨rules.entries ++ [(name, .invocation kind)]⟩
  else .error .notWord

def calleesOf (rules : RuleTable) (kind : Callee) : List Text :=
  (rules.entries.filter fun entry => entry.2 == .invocation kind).map Prod.fst

end RuleTable

/-- Words that start a statement of the full language but of no kind read here. -/
def unsupportedKeywords : List Text :=
  ["else".toList, "elif".toList, "for".toList, "while".toList, "until".toList, "case".toList,
   "select".toList, "repeat".toList, "coproc".toList]

def isUnsupportedKeyword (word : Text) : Bool := unsupportedKeywords.contains word

end ShellLift
