import ShellLift.Script.Statement
import ShellLift.Text.Printable

/-!
# Diagnostics

Whatever stops a script from being read or printed is one cause with, in most cases, a place. The
cause fixes both the kind of the diagnostic and its wording.
-/

set_option autoImplicit false

namespace ShellLift

namespace Diagnostic

inductive Cause
  | expectedOpening (token : Text)
  | unclosed (token : Text)
  | expectedQuote (style : Quotation)
  | unclosedQuote (style : Quotation)
  /-- A quotation that is not closed on its line, though a later line has its mark. -/
  | multilineQuote (style : Quotation)
  | expectedExpression
  /-- A comment mark right behind other text. -/
  | hashInWord
  | unreadableExpression (first : Char)
  | arithmetic
  | bareVariable
  | trailingText (rest : Text) (kind : Statement.Kind)
  | expectedStatement (found : Option Char)
  | unsupportedConstruct (word : Text)
  | expectedVariable (kind : Option Binder)
  | blankAfterEquals (target : Text)
  | expectedEquals
  /-- An unknown first word that no equals sign follows. -/
  | unexpectedAfterWord (found : Option Char) (word : Text)
  | expectedWord (expected found : Text)
  /-- The condition of a conditional has no end. -/
  | expectedSemicolon
  | unclosedConditional
  | unsupportedBranch (word : Text)
  | expectedFunctionName
  | nameTaken (name : Text)
  | expectedParameters (name : Text)
  | expectedBrace
  | unclosedFunction (name : Text)
  | unseparatedArgument (index : Nat) (name : Text)
  | invalidBuiltin (name : Text)
  | conflictingBuiltin (name : Text)
  | complexAliasName (name : Text)
  /-- A short name for something other than words. -/
  | aliasTarget
  | missingValue (kind : Option Binder) (target : Text)
  | unknownBuiltin (name : Text)
deriving DecidableEq

inductive Kind
  | unsupported
  | malformed
  /-- The statements have no counterpart in the target. -/
  | inexpressible
deriving DecidableEq

def Kind.label : Kind → String
  | unsupported => "Unsupported zsh subset: "
  | malformed => "Error parsing zsh subset: "
  | inexpressible => "Translation error: "

def Cause.kind : Cause → Kind
  | multilineQuote _ | arithmetic | bareVariable | unsupportedConstruct _ | unsupportedBranch _
  | nameTaken _ => .unsupported
  | invalidBuiltin _ | conflictingBuiltin _ | complexAliasName _ | aliasTarget | missingValue _ _
  | unknownBuiltin _ => .inexpressible
  | _ => .malformed

def plain (text : Text) : String := String.ofList text

def quote (text : Text) : String := String.ofList (Text.quoted text)

def keyword : Option Binder → String
  | some kind => plain kind.keyword
  | none => ""

def Cause.message : Cause → String
  | expectedOpening token => s!"Expected an opening `{plain token}`"
  | unclosed token => s!"Expected a matching closing `{plain token}`"
  | expectedQuote style => s!"Expected an opening quote `{style.mark}`"
  | unclosedQuote style => s!"Unable to find closing quote `{style.mark}`"
  | multilineQuote style =>
    s!"Multi-line strings are unsupported (opening quote `{style.mark}`)"
  | expectedExpression => "Expected an expression"
  | hashInWord => "Unexpected `#` inside a word"
  | unreadableExpression first => s!"Unable to parse expression starting with `{first}`"
  | arithmetic => "Arithmetic expansion is not supported"
  | bareVariable => "Raw $VAR is not supported (wrap it in quotes or $(...))"
  | trailingText rest kind => s!"Unexpected trailing text {quote rest} after {kind.noun}"
  | expectedStatement found => s!"Expected a statement, found `{plain found.toList}`"
  | unsupportedConstruct word => s!"Unsupported construct `{plain word}`"
  | expectedVariable kind => s!"Expected a variable name after `{keyword kind}`"
  | blankAfterEquals target => s!"Unexpected whitespace after `{plain target}=`"
  | expectedEquals => "Expected an `=`"
  | unexpectedAfterWord (some c) word => s!"Unexpected char `{c}` after {quote word}"
  | unexpectedAfterWord none word => s!"Unexpected char `end of line` after {quote word}"
  | expectedWord expected found => s!"Expected `{plain expected}`, but got {quote found}"
  | expectedSemicolon => "Expected a semicolon"
  | unclosedConditional => "Expected `fi` to close conditional"
  | unsupportedBranch word => s!"Unsupported conditional operation `{plain word}`"
  | expectedFunctionName => "Expected a name for the function"
  | nameTaken name => s!"Defining {quote name} conflicts with existing builtin/statement"
  | expectedParameters name =>
    s!"Expected opening parens () for function declaration {quote name}"
  | expectedBrace => "Expected opening brace"
  | unclosedFunction name => s!"Expected closing brace for function {quote name}"
  | unseparatedArgument index name =>
    s!"Expected whitespace after argument {index} of {quote name}"
  | invalidBuiltin name => s!"Invalid extra builtin name {quote name}"
  | conflictingBuiltin name => s!"The extra builtin {quote name} conflicts with a builtin"
  | complexAliasName name => s!"Alias name {quote name} is too complex"
  | aliasTarget => "Don't know how to translate alias target"
  | missingValue (some kind) target =>
    s!"`{plain kind.keyword}` of {quote target} has no value"
  | missingValue none target => s!"Assignment to {quote target} has no value"
  | unknownBuiltin name => s!"Not yet implemented: Builtin {plain name}"

end Diagnostic

structure Diagnostic where
  cause : Diagnostic.Cause
  place : Option Location
deriving DecidableEq

namespace Diagnostic

def located (cause : Cause) (location : Location) : Diagnostic := ⟨cause, some location⟩

def unplaced (cause : Cause) : Diagnostic := ⟨cause, none⟩

def display (diagnostic : Diagnostic) : String :=
  diagnostic.cause.kind.label ++ diagnostic.cause.message ++
    match diagnostic.place with
    | some location => " @ " ++ location.display
    | none => ""

end Diagnostic

end ShellLift
