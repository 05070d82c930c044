import ShellLift.Code.Literal
import ShellLift.Code.Settings
import ShellLift.Script.Diagnostic
import ShellLift.Script.Statement.Reader

/-!
# Emitted code

The xonsh code of a script is the code of its statements, one after the other. A value that only
zsh can work out becomes a call on the context `ctx`, and a body is indented by four spaces a
level. Code is emitted for a whole script or not at all.
-/

set_option autoImplicit false

namespace ShellLift

namespace Code

def call (callee : Text) (arguments : List Text) : Text :=
  callee ++ "(".toList ++ List.intercalate ", ".toList arguments ++ ")".toList

def contextCall (method : String) (arguments : List Text) : Text :=
  call ("ctx.".toList ++ method.toList) arguments

def listDisplay (items : List Text) : Text :=
  "[".toList ++ List.intercalate ", ".toList items ++ "]".toList

def indentation (level : Nat) : Text := List.replicate (4 * level) ' '

/-- Lines at a level; a body without lines does nothing. -/
def block (level : Nat) (lines : List Text) : List Text :=
  match lines with
  | [] => [indentation level ++ "pass".toList]
  | lines => lines.map (indentation level ++ ·)

def unlines (lines : List Text) : Text := List.intercalate ['\n'] lines

end Code

/-! ## Expressions -/

namespace Expression

/-- A plain word that a tilde starts, which has to be expanded. -/
def startsWithTilde (text : Text) : Bool := text.head? == some '~'

def code (expression : Expression) : Text :=
  match expression.form with
  | .literal =>
    if startsWithTilde expression.text then
      Code.contextCall "expand_literal" [Code.stringLiteral expression.text]
    else if Text.isNumeral expression.text then Code.integerLiteral expression.text
    else Code.stringLiteral expression.text
  | .quoted _ =>
    if Code.isSimpleQuoted expression.text then Code.stringLiteral expression.text
    else Code.contextCall "zsh_expand_quote" [Code.stringLiteral expression.text]
  | .subcommand => Code.contextCall "zsh" [Code.stringLiteral expression.text]
  | .test => Code.contextCall "zsh_test_command" [Code.stringLiteral expression.text]

/-- The code of an expression whose value has to be a string: a numeral stays text. -/
def stringCode (expression : Expression) : Text :=
  if expression.form = .literal ∧ !startsWithTilde expression.text then
    Code.stringLiteral expression.text
  else expression.code

end Expression

/-! ## Statements -/

namespace Statement

def aliasCode (value : Expression) : Except Diagnostic Text :=
  match value.form with
  | .literal => .ok (Code.listDisplay [value.stringCode])
  | .quoted _ =>
    if Code.isSplittable value.text then
      .ok (Code.listDisplay ((Text.pieces ' ' value.text).map Code.stringLiteral))
    else .ok (Code.contextCall "zsh_impl_complex_alias" [Code.stringLiteral value.text])
  | _ => .error (.located .aliasTarget value.span.start)

def assignmentCode (settings : Settings) (start : Location) (kind : Option Binder)
    (target : Text) (value : Option Expression) : Except Diagnostic Text :=
  match kind, value with
  | some .exported, none => .ok (Code.contextCall "export_var" [Code.stringLiteral target])
  | some .exported, some value =>
    if settings.keepsType target then
      .ok (Code.contextCall "assign_typed_var" [Code.stringLiteral target, value.stringCode])
    else .ok ("$".toList ++ target ++ " = ".toList ++ value.code)
  | some .aliased, some value =>
    if Code.isSimpleQuoted target then
      (aliasCode value).map fun code =>
        "aliases[".toList ++ Code.stringLiteral target ++ "] = ".toList ++ code
    else .error (.located (.complexAliasName target) start)
  | _, some value =>
    .ok (target ++ " = ".toList ++
      Code.contextCall "assign_local" [Code.stringLiteral target, value.code])
  | kind, none => .error (.located (.missingValue kind target) start)

def builtinNames : List (Text × Text) := [("echo".toList, "print".toList)]

def invocationCode (start : Location) (name : Text) (arguments : List Expression)
    (kind : Callee) : Except Diagnostic Text :=
  let codes := arguments.map Expression.code
  match kind with
  | .extra => .ok (Code.call name codes)
  | .standard =>
    match builtinNames.find? fun entry => entry.1 == name with
    | some (_, callee) => .ok (Code.call callee codes)
    | none => .error (.located (.unknownBuiltin name) start)
  | .declared => .ok (Code.call name (codes ++ ["parent_ctx=ctx".toList]))

mutual

def code (settings : Settings) : Statement → Except Diagnostic Text
  | assignment span kind target value => assignmentCode settings span.start kind target value
  | conditional _ condition body =>
    (bodyLines settings body).map fun lines =>
      Code.unlines (("if ".toList ++ condition.code ++ ":".toList) :: Code.block 1 lines)
  | function _ name body =>
    (bodyLines settings body).map fun lines =>
      Code.unlines
        (("def ".toList ++ name ++ "(*args, parent_ctx):".toList) ::
          (Code.indentation 1 ++ "with parent_ctx.begin_function(".toList ++
            Code.stringLiteral name ++ ", args) as ctx:".toList) ::
          Code.block 2 lines)
  | invocation span name arguments kind => invocationCode span.start name arguments kind

def bodyLines (settings : Settings) : List Statement → Except Diagnostic (List Text)
  | [] => .ok []
  | statement :: statements =>
    match code settings statement with
    | .error diagnostic => .error diagnostic
    | .ok text => (bodyLines settings statements).map (Text.lines text ++ ·)

end

end Statement

/-! ## Scripts -/

namespace Code

def ofStatements (settings : Settings) : List Statement → Except Diagnostic (List Text)
  | [] => .ok []
  | statement :: statements =>
    match statement.code settings with
    | .error diagnostic => .error diagnostic
    | .ok text => (ofStatements settings statements).map (text :: ·)

/-- Code that makes its own context. -/
def withPreamble (settings : Settings) (body : Text) : Text :=
  unlines
    (("from ".toList ++ settings.runtimeModule ++ " import init_context".toList) ::
      "with init_context() as ctx:".toList ::
      block 1 ((Text.lines body).filter fun line => !line.isEmpty))

def ofScript (settings : Settings) (statements : List Statement) : Except Diagnostic Text :=
  (ofStatements settings statements).map fun codes =>
    if settings.emitsPreamble then withPreamble settings (unlines codes) else unlines codes

end Code

def lift (settings : Settings) (source : Text) (builtins : List Text) :
    Except Diagnostic Text :=
  match parse source builtins with
  | .error diagnostic => .error diagnostic
  | .ok statements => Code.ofScript settings statements

end ShellLift
