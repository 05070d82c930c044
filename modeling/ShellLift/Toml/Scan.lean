import ShellLift.Text.Basic

/-!
# Scanning a document

A scan takes something off the front of a text or refuses. The loops of the grammar repeat one
scan until it has nothing to give; as it takes at least a character each time, the length of the
text is enough of an allowance.
-/

set_option autoImplicit false

namespace ShellLift.Toml

abbrev Scan := StateT Text Option

namespace Scan

variable {α : Type}

def peek : Scan (Option Char) := do pure (← get).head?

def one (test : Char → Bool) : Scan Char := do
  match ← get with
  | c :: rest =>
    if test c then
      set rest
      pure c
    else failure
  | [] => failure

def piece (expected : Text) : Scan Unit := do
  let text ← get
  if expected.isPrefixOf text then set (text.drop expected.length) else failure

def run (test : Char → Bool) : Scan Text := do
  let text ← get
  set (text.dropWhile test)
  pure (text.takeWhile test)

def run1 (test : Char → Bool) : Scan Text := do
  let found ← run test
  if found.isEmpty then failure else pure found

def exactly (test : Char → Bool) : Nat → Scan Text
  | 0 => pure []
  | count + 1 => do
    let c ← one test
    let others ← exactly test count
    pure (c :: others)

def opt (scan : Scan α) : Scan (Option α) := (some <$> scan) <|> pure none

/-- Repeats a scan within an allowance until it has nothing to give. -/
def manyWithin (scan : Scan (Option α)) : (allowance : Nat) → Scan (List α)
  | 0 => failure
  | allowance + 1 => do
    match ← scan with
    | none => pure []
    | some first =>
      let others ← manyWithin scan allowance
      pure (first :: others)

def many (scan : Scan (Option α)) : Scan (List α) := do
  manyWithin scan ((← get).length + 1)

/-! ## Blanks, comments and line ends -/

def isBlank (c : Char) : Bool := c == ' ' || c == '\t'

/-- A character of a comment: any but controls, of which only the tab is allowed. -/
def isCommentChar (c : Char) : Bool := c == '\t' || (0x20 ≤ c.toNat && c.toNat != 0x7f)

def blanks : Scan Unit := do
  let _ ← run isBlank
  pure ()

def newline : Scan Unit := piece ['\n'] <|> piece ['\r', '\n']

def comment : Scan Unit := do
  piece ['#']
  let _ ← run isCommentChar
  pure ()

def lineEnd : Scan Unit := do
  if (← get).isEmpty then pure () else newline

def lineTrail : Scan Unit := do
  blanks
  let _ ← opt comment
  lineEnd

def trivium? : Scan (Option Unit) :=
  opt ((do let _ ← run1 isBlank; pure ()) <|> newline <|> comment)

def trivia : Scan Unit := do
  let _ ← many trivium?
  pure ()

end Scan

end ShellLift.Toml
