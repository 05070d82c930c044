import ShellLift.Script.Expression.Reader
import ShellLift.Script.Rule

/-!
# Reading statements

A parser is a cursor with the rules known so far. Its step reads one statement together with the
semicolon or comment behind it; a declaration adds its name to the rules once its body is closed.
A step that fails leaves the cursor and the rules as they were when it failed.

Every loop runs within an allowance, which shrinks by one with each statement, each argument and
each level of nesting. An allowance above the size of what is ahead of the cursor never runs out.
-/

set_option autoImplicit false

namespace ShellLift

/-! ## Statements without a body -/

namespace Statement

def readAssigned (kind : Option Binder) (target : Text) : Reading (Option Expression) := do
  if ← Reading.eat "=".toList then
    if (← get).next?.any Text.isBlank then Reading.failHere (.blankAfterEquals target)
    else some <$> Expression.read .value
  else
    match kind with
    | some .exported => pure none
    | some _ => Reading.failHere .expectedEquals
    | none => Reading.failHere (.unexpectedAfterWord (← get).next? target)

def readAssignment (kind : Option Binder) : Reading Statement := do
  let start := (← get).location
  if kind.isSome then modify fun c => c.skipWord.skipSpaces
  let target ← Reading.takeWord
  if target.isEmpty then Reading.failHere (.expectedVariable kind)
  else
    modify Cursor.skipSpaces
    let value ← readAssigned kind target
    pure (.assignment ((← get).spanFrom start) kind target value)

/-- What may follow an argument: a blank, a semicolon or the end of the line. -/
def endsArgument (next : Option Char) : Bool := next.all fun c => Text.isBlank c || c == ';'

def readArgument? (name : Text) (count : Nat) : Reading (Option Expression) := do
  match ← Expression.read? .value with
  | none => pure none
  | some argument =>
    if endsArgument (← get).next? then pure (some argument)
    else Reading.failHere (.unseparatedArgument (count + 1) name)

def readArguments (name : Text) : (allowance count : Nat) → Reading (List Expression)
  | 0, _ => Reading.failHere .expectedExpression
  | allowance + 1, count => do
    match ← readArgument? name count with
    | none => pure []
    | some argument =>
      let others ← readArguments name allowance (count + 1)
      pure (argument :: others)

/-- Reads the name of a command and its arguments. The statement ends with its last argument. -/
def readInvocation (kind : Callee) (allowance : Nat) : Reading Statement := do
  let start := (← get).location
  let name ← Reading.takeWord
  let c ← get
  let arguments ← readArguments name allowance 0
  let stop := (arguments.getLast?.map fun argument => argument.span.stop).getD c.location
  pure (.invocation ⟨start, stop⟩ name arguments kind)

/-! ## Heads of statements with a body -/

def readCondition : Reading Expression := do
  Reading.expectWord "if".toList
  let condition ← Expression.read .command
  modify Cursor.skipSpaces
  if ← Reading.eat ";".toList then
    modify Cursor.skipIdle
    Reading.expectWord "then".toList
    pure condition
  else Reading.failHere .expectedSemicolon

def readSignature (rules : RuleTable) (start : Location) : Reading Text := do
  Reading.expectWord "function".toList
  modify Cursor.skipSpaces
  let name ← Reading.takeWord
  if name.isEmpty then Reading.failHere .expectedFunctionName
  else if rules.contains name then Reading.failAt start (.nameTaken name)
  else
    modify Cursor.skipSpaces
    let c ← get
    if c.parametersLength = 0 then Reading.failHere (.expectedParameters name)
    else
      set (c.move c.parametersLength).skipIdle
      if ← Reading.eat "\x7b".toList then pure name
      else Reading.failHere .expectedBrace

/-- Reads what may stand between a statement and the next one: blanks, and then a comment with a
blank before it, a semicolon, or the end of the line. -/
def readTerminator (kind : Kind) : Reading Unit := do
  let spaced := (← get).atSpace
  modify Cursor.skipSpaces
  let c ← get
  if spaced && c.atHash then set c.skipComment
  else if ← Reading.eat ";".toList then pure ()
  else if c.atLineEnd then pure ()
  else Reading.failHere (.trailingText (c.rest?.getD []) kind)

end Statement

/-! ## Bodies -/

inductive Body
  | conditional
  | function (name : Text)
deriving DecidableEq

namespace Body

def unclosed : Body → Diagnostic.Cause
  | conditional => .unclosedConditional
  | function name => .unclosedFunction name

/-- Reads the end of a body if it comes next, and says whether it did. A further branch of a
conditional is not supported. -/
def readEnd (body : Body) : Reading Bool := do
  match body with
  | conditional =>
    let c ← get
    if c.word = "else".toList ∨ c.word = "elif".toList then
      Reading.failHere (.unsupportedBranch c.word)
    else if c.word = "fi".toList then
      set c.skipWord
      pure true
    else pure false
  | function _ => Reading.eat "\x7d".toList

end Body

/-! ## The parser -/

structure Parser where
  cursor : Cursor
  rules : RuleTable
deriving DecidableEq

/-- A step that reads statements. It keeps what it did to the parser also when it fails. -/
abbrev Parsing := EStateM Diagnostic Parser

namespace Parser

def reading {α : Type} (step : Reading α) : Parsing α := fun parser =>
  match step parser.cursor with
  | .ok value cursor => .ok value { parser with cursor := cursor }
  | .error diagnostic cursor => .error diagnostic { parser with cursor := cursor }

def readBody (statement : Parsing (Option Statement)) (body : Body) (start : Location) :
    (allowance : Nat) → Parsing (List Statement)
  | 0 => reading (Reading.failAt start body.unclosed)
  | allowance + 1 => do
    reading (modify Cursor.skipIdle)
    if (← get).cursor.atEnd then reading (Reading.failAt start body.unclosed)
    else if ← reading body.readEnd then pure []
    else
      match ← statement with
      | some first =>
        let others ← readBody statement body start allowance
        pure (first :: others)
      | none => readBody statement body start allowance

def readConditional (statement : Parsing (Option Statement)) (allowance : Nat) :
    Parsing Statement := do
  let start := (← get).cursor.location
  let condition ← reading Statement.readCondition
  let body ← readBody statement .conditional start allowance
  pure (.conditional ((← get).cursor.spanFrom start) condition body)

def declare (name : Text) (start : Location) : Parsing Unit := do
  let parser ← get
  match parser.rules.register name .declared with
  | .ok rules => set { parser with rules := rules }
  | .error _ => throw (.located (.nameTaken name) start)

def readFunction (statement : Parsing (Option Statement)) (allowance : Nat) :
    Parsing Statement := do
  let parser ← get
  let start := parser.cursor.location
  let name ← reading (Statement.readSignature parser.rules start)
  let body ← readBody statement (.function name) start allowance
  let span := (← get).cursor.spanFrom start
  declare name start
  pure (.function span name body)

def readByRule (statement : Parsing (Option Statement)) (allowance : Nat) (word : Text) :
    Parsing Statement := do
  let parser ← get
  match parser.rules.get? word with
  | some (.assignment kind) => reading (Statement.readAssignment (some kind))
  | some .conditional => readConditional statement allowance
  | some .function => readFunction statement allowance
  | some (.invocation kind) => reading (Statement.readInvocation kind allowance)
  | none =>
    if isUnsupportedKeyword word then
      throw (.located (.unsupportedConstruct word) parser.cursor.location)
    else reading (Statement.readAssignment none)

/-- Reads one statement within an allowance; nothing at the end of the script. -/
def readStatement? : (allowance : Nat) → Parsing (Option Statement)
  | 0 => reading (Reading.failHere (.expectedStatement none))
  | allowance + 1 => do
    reading (modify Cursor.skipIdle)
    let c := (← get).cursor
    if c.atEnd then pure none
    else if c.word.isEmpty then reading (Reading.failHere (.expectedStatement c.next?))
    else
      let statement ← readByRule (readStatement? allowance) allowance c.word
      reading (Statement.readTerminator statement.kind)
      pure (some statement)

def statement? : Parsing (Option Statement) := fun parser =>
  readStatement? (parser.cursor.size + 1) parser

def readStatements : (allowance : Nat) → Parsing (List Statement)
  | 0 => reading (Reading.failHere (.expectedStatement none))
  | allowance + 1 => do
    match ← readStatement? (allowance + 1) with
    | some first =>
      let others ← readStatements allowance
      pure (first :: others)
    | none => pure []

def statements : Parsing (List Statement) := fun parser =>
  readStatements (parser.cursor.size + 1) parser

def registerBuiltins (rules : RuleTable) : List Text → Except Diagnostic RuleTable
  | [] => .ok rules
  | name :: names =>
    match rules.register name .extra with
    | .ok rules => registerBuiltins rules names
    | .error .notWord => .error (.unplaced (.invalidBuiltin name))
    | .error (.taken _) => .error (.unplaced (.conflictingBuiltin name))

def new (cursor : Cursor) (builtins : List Text) : Except Diagnostic Parser :=
  (registerBuiltins RuleTable.initial builtins).map (Parser.mk cursor)

def declared (parser : Parser) : List Text := parser.rules.calleesOf .declared

end Parser

def parse (source : Text) (builtins : List Text) : Except Diagnostic (List Statement) :=
  match Parser.new (.ofSource source) builtins with
  | .error diagnostic => .error diagnostic
  | .ok parser =>
    match Parser.statements parser with
    | .ok statements _ => .ok statements
    | .error diagnostic _ => .error diagnostic

end ShellLift
