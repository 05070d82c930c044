import ShellLift.Script.Diagnostic
import ShellLift.Text.Basic

/-!
# Cursor

A position in a script: how many lines are behind it, the part of its own line behind it, and all
that is ahead. A cursor only ever moves forward and always stands between two characters. When
nothing is ahead the script is at its end, which is a place of its own behind the end of the last
line. To come back to an earlier position it is enough to keep that cursor.
-/

set_option autoImplicit false

namespace ShellLift

structure Cursor where
  /-- Number of lines behind. -/
  row : Nat
  before : Text
  /-- The rest of the current line and the lines below it; nothing at the end of the script. -/
  ahead : List Text
deriving DecidableEq

namespace Cursor

/-! ## Looking -/

def ofLines (lines : List Text) : Cursor := ⟨0, [], lines⟩

def ofSource (source : Text) : Cursor := ofLines (Text.lines source)

def location (c : Cursor) : Location := ⟨c.row + 1, Text.byteSize c.before⟩

def spanFrom (c : Cursor) (start : Location) : Span := ⟨start, c.location⟩

/-- The rest of the current line; nothing at the end of the script. -/
def rest? (c : Cursor) : Option Text := c.ahead.head?

def next? (c : Cursor) : Option Char := c.rest?.bind List.head?

def currentLine? (c : Cursor) : Option Text := c.rest?.map (c.before ++ ·)

def atEnd (c : Cursor) : Bool := c.ahead.isEmpty

def atLineEnd (c : Cursor) : Bool := c.next?.isNone

def startsWith (c : Cursor) (piece : Text) : Bool :=
  match c.ahead with
  | [] => false
  | rest :: _ => piece.isPrefixOf rest

def atSpace (c : Cursor) : Bool := c.next?.any Text.isSpace

def atHash (c : Cursor) : Bool := c.next? == some '#'

/-- The word that comes next, which may be empty; nothing at the end of the script. -/
def word? (c : Cursor) : Option Text := c.rest?.map (List.takeWhile Text.isWordChar)

def word (c : Cursor) : Text := c.word?.getD []

def linesSize : List Text → Nat
  | [] => 0
  | line :: lines => line.length + 1 + linesSize lines

/-- A bound on the number of moves left: every character and every line end ahead is one. -/
def size (c : Cursor) : Nat := linesSize c.ahead

/-! ## Moving within a line -/

/-- Moves past characters, at most to the end of the current line. -/
def move (c : Cursor) (count : Nat) : Cursor :=
  match c.ahead with
  | [] => c
  | rest :: later => ⟨c.row, c.before ++ rest.take count, rest.drop count :: later⟩

def skipWhile (c : Cursor) (test : Char → Bool) : Cursor :=
  match c.ahead with
  | [] => c
  | rest :: later => ⟨c.row, c.before ++ rest.takeWhile test, rest.dropWhile test :: later⟩

def run? (c : Cursor) (test : Char → Bool) : Option Text := c.rest?.map (List.takeWhile test)

def skipSpaces (c : Cursor) : Cursor := c.skipWhile Text.isSpace

def skipWord (c : Cursor) : Cursor := c.skipWhile Text.isWordChar

def skipLineRest (c : Cursor) : Cursor := c.skipWhile fun _ => true

def skipComment (c : Cursor) : Cursor := if c.atHash then c.skipLineRest else c

def charsWithin : Nat → Text → Nat
  | _, [] => 0
  | bytes, c :: rest =>
    if c.utf8Size ≤ bytes then charsWithin (bytes - c.utf8Size) rest + 1 else 0

def moveBytes (c : Cursor) (bytes : Nat) : Cursor :=
  c.move (charsWithin bytes (c.rest?.getD []))

/-- The length of the parentheses around nothing but blanks at the start of a text, or zero. -/
def emptyParametersLength : Text → Nat
  | '(' :: rest =>
    match rest.dropWhile Text.isSpace with
    | ')' :: _ => (rest.takeWhile Text.isSpace).length + 2
    | _ => 0
  | _ => 0

def parametersLength (c : Cursor) : Nat := emptyParametersLength (c.rest?.getD [])

/-! ## Moving between lines -/

/-- Moves to the start of the next line, or to the end of the script behind the last one. -/
def nextLine (c : Cursor) : Cursor :=
  match c.ahead with
  | [] => c
  | _ :: later => ⟨c.row + 1, [], later⟩

def finish (c : Cursor) : Cursor := ⟨c.row + c.ahead.length, [], []⟩

def isIdle (line : Text) : Bool :=
  match line.dropWhile Text.isSpace with
  | [] => true
  | c :: _ => c == '#'

/-- The first position whose line has more than blanks and a comment left, past the blanks. -/
def skipIdleFrom (row : Nat) (before : Text) : List Text → Cursor
  | [] => ⟨row, before, []⟩
  | rest :: later =>
    if isIdle rest then skipIdleFrom (row + 1) [] later
    else ⟨row, before ++ rest.takeWhile Text.isSpace, rest.dropWhile Text.isSpace :: later⟩

def skipIdle (c : Cursor) : Cursor := skipIdleFrom c.row c.before c.ahead

end Cursor

/-- A step that reads from a cursor. It moves the cursor also when it fails. -/
abbrev Reading := EStateM Diagnostic Cursor

namespace Reading

def failHere {α : Type} (cause : Diagnostic.Cause) : Reading α := do
  throw (.located cause (← get).location)

def failAt {α : Type} (location : Location) (cause : Diagnostic.Cause) : Reading α :=
  throw (.located cause location)

def eat (piece : Text) : Reading Bool := do
  let c ← get
  if c.startsWith piece then
    set (c.move piece.length)
    pure true
  else pure false

def takeWord : Reading Text := do
  let c ← get
  set c.skipWord
  pure c.word

def expectWord (expected : Text) : Reading Unit := do
  modify Cursor.skipSpaces
  let start := (← get).location
  let found ← takeWord
  if found = expected then pure () else failAt start (.expectedWord expected found)

end Reading

end ShellLift
