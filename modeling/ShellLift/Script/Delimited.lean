import ShellLift.Script.Cursor

/-!
# Delimited spans

Two ways to mark a stretch of a script. A balanced span goes from an opening token to the closing
token of the same depth and may run over several lines. A quotation goes to the next mark that no
backslash escapes and stays on its line.
-/

set_option autoImplicit false

namespace ShellLift

/-! ## Balanced spans -/

structure BracketPair where
  opening : Text
  closing : Text
  multiline : Bool
  /-- The outer tokens belong to the text of the span. -/
  keepsOuter : Bool
deriving DecidableEq

namespace BracketPair

def parentheses : BracketPair := ⟨"(".toList, ")".toList, true, false⟩

def doubleSquare : BracketPair := ⟨"[[".toList, "]]".toList, false, true⟩

inductive Search
  /-- The span ends on the line, with this text before the closing token and this rest. -/
  | closed (inside rest : Text)
  /-- The line ends at this depth. -/
  | pending (depth : Nat)
deriving DecidableEq

def Search.cons (c : Char) : Search → Search
  | closed inside rest => closed (c :: inside) rest
  | pending depth => pending depth

/--
Searches one line for the closing token that leads from a depth above zero to zero. A token that
has been counted is passed as a whole: `skip` characters of it are left. Where both tokens match,
the closing one counts.
-/
def search (d : BracketPair) : (depth skip : Nat) → Text → Search
  | depth, _, [] => .pending depth
  | depth, skip + 1, c :: rest => (search d depth skip rest).cons c
  | depth, 0, c :: rest =>
    if d.closing.isPrefixOf (c :: rest) then
      if depth ≤ 1 then .closed [] ((c :: rest).drop d.closing.length)
      else (search d (depth - 1) (d.closing.length - 1) rest).cons c
    else if d.opening.isPrefixOf (c :: rest) then
      (search d (depth + 1) (d.opening.length - 1) rest).cons c
    else (search d depth 0 rest).cons c

/--
The text inside a span whose opening token is behind, and the cursor behind its closing token. A
line end inside the span counts as a line feed.
-/
def close? (d : BracketPair) (depth row : Nat) (before : Text) : List Text → Option (Text × Cursor)
  | [] => none
  | line :: later =>
    match d.search depth 0 line with
    | .closed inside rest => some (inside, ⟨row, before ++ inside ++ d.closing, rest :: later⟩)
    | .pending depth =>
      if d.multiline then
        (d.close? depth (row + 1) [] later).map fun (inside, stop) =>
          (line ++ '\n' :: inside, stop)
      else none

def wrap (d : BracketPair) (inside : Text) : Text :=
  if d.keepsOuter then d.opening ++ inside ++ d.closing else inside

/--
Reads a span. Without a closing token the cursor is at the end of the script if the span may run
over line ends, and else where it was.
-/
def read (d : BracketPair) : Reading Text := do
  let start ← get
  if start.startsWith d.opening then
    let opened := start.move d.opening.length
    match d.close? 1 opened.row opened.before opened.ahead with
    | some (inside, stop) =>
      set stop
      pure (d.wrap inside)
    | none =>
      set (if d.multiline then start.finish else start)
      Reading.failAt start.location (.unclosed d.closing)
  else Reading.failHere (.expectedOpening d.opening)

end BracketPair

/-! ## Quotations -/

namespace Quotation

/-- The run of backslashes right before a character has an odd length; `behind` is the text
before it, last character first. -/
def isEscaped (behind : Text) : Bool := (behind.takeWhile (· == '\\')).length % 2 == 1

def close? (style : Quotation) (behind : Text) : Text → Option (Text × Text)
  | [] => none
  | c :: rest =>
    if c = style.mark ∧ !isEscaped behind then some ([], rest)
    else (style.close? (c :: behind) rest).map fun (inside, after) => (c :: inside, after)

/-- Reads a quotation. The cursor stays where it was if the quotation has no end. -/
def read (style : Quotation) : Reading Text := do
  let start ← get
  match start.ahead with
  | (first :: line) :: later =>
    if first = style.mark then
      match style.close? [] line with
      | some (inside, _) =>
        set (start.move (inside.length + 2))
        pure inside
      | none =>
        if later.any (·.contains style.mark) then Reading.failHere (.multilineQuote style)
        else Reading.failHere (.unclosedQuote style)
    else Reading.failHere (.expectedQuote style)
  | _ => Reading.failHere (.expectedQuote style)

end Quotation

end ShellLift
