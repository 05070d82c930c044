import ShellLift.Script.Delimited

/-!
# Reading expressions

An expression starts past blanks on the current line. The first characters decide its form, and
the position decides what unmarked text means: behind a keyword that takes a command it is the
command up to the next semicolon, elsewhere it has to be a plain word.
-/

set_option autoImplicit false

namespace ShellLift.Expression

inductive Position
  | command
  | value
deriving DecidableEq

def upTo (start : Location) (form : Form) (text : Text) : Reading Expression := do
  pure ⟨(← get).spanFrom start, form, text⟩

def readSubcommand (start : Location) : Reading Expression := do
  let c ← get
  if c.startsWith "((".toList then Reading.failAt start .arithmetic
  else if c.startsWith "(".toList then
    let command ← BracketPair.parentheses.read
    upTo start .subcommand command
  else Reading.failAt start .bareVariable

def readTest (start : Location) : Reading Expression := do
  let text ← BracketPair.doubleSquare.read
  upTo start .test text

def isCommandChar (c : Char) : Bool := c != ';'

/-- Reads command text up to a semicolon or the end of the line. Blanks at its end are no part of
the text; text of blanks alone is nothing. -/
def readCommand? (start : Location) : Reading (Option Expression) := do
  let c ← get
  let text := Text.trimEnd ((c.run? isCommandChar).getD [])
  set (c.skipWhile isCommandChar)
  if text.isEmpty then pure none
  else
    let expression ← upTo start .test text
    pure (some expression)

def readLiteral (start : Location) : Reading Expression := do
  let c ← get
  set (c.skipWhile Text.isPlainChar)
  upTo start .literal ((c.run? Text.isPlainChar).getD [])

def readQuoted (start : Location) (style : Quotation) : Reading Expression := do
  let inside ← style.read
  upTo start (.quoted style) inside

/--
Reads the expression of a value that starts with a given character. A comment mark ends the values
of a line if a blank stands before it.
-/
def readValue? (start : Location) (spaced : Bool) (first : Char) :
    Reading (Option Expression) := do
  if first = '#' then
    if spaced then
      modify Cursor.skipComment
      pure none
    else Reading.failAt start .hashInWord
  else if Text.isPlainChar first then some <$> readLiteral start
  else
    match Quotation.ofMark? first with
    | some style => some <$> readQuoted start style
    | none => Reading.failAt start (.unreadableExpression first)

/--
Reads an expression; nothing where the statement ends, which is at a semicolon, at the end of the
line, or at a comment.
-/
def read? (position : Position) : Reading (Option Expression) := do
  let spaced := (← get).atSpace
  modify Cursor.skipSpaces
  let c ← get
  let start := c.location
  match c.next? with
  | none => pure none
  | some first =>
    if first = '$' then
      set (c.move 1)
      some <$> readSubcommand start
    else if c.startsWith "[[".toList then some <$> readTest start
    else if first = ';' then pure none
    else
      match position with
      | .command => readCommand? start
      | .value => readValue? start spaced first

def read (position : Position) : Reading Expression := do
  let start := (← get).skipSpaces.location
  match ← read? position with
  | some expression => pure expression
  | none => Reading.failAt start .expectedExpression

end ShellLift.Expression
