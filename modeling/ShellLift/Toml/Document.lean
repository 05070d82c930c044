import ShellLift.Toml.Scalar

/-!
# Documents

A document is a sequence of lines: pairs of a key and a value, headers of tables, comments and
blank lines. A key is given a value once, and no header is repeated that names a single table.
-/

set_option autoImplicit false

namespace ShellLift.Toml

open Scan

/-- Arrays, tables in braces and dotted keys go less deep than this. -/
def depthLimit : Nat := 80

/-! ## Keys -/

def isKeyChar (c : Char) : Bool := c.isAlphanum || c == '_' || c == '-'

def simpleKey : Scan Text := do
  blanks
  let key ← basicString <|> literalString <|> run1 isKeyChar
  blanks
  pure key

def nextKey? : Scan (Option Text) := do
  match ← opt (piece ['.']) with
  | none => pure none
  | some _ => some <$> simpleKey

def key : Scan (List Text × Text) := do
  let first ← simpleKey
  let others ← many nextKey?
  if depthLimit ≤ others.length + 1 then failure
  else pure ((first :: others).dropLast, (first :: others).getLast?.getD [])

/-! ## Values -/

def pair (value : Scan Node) : Scan ((List Text × Text) × Node) := do
  let key ← key
  piece ['=']
  blanks
  let node ← value
  blanks
  pure (key, node)

/-- Takes the items of an array behind the first one, each behind a comma. A comma may stand
before the end. -/
def nextItem? (value : Scan Node) : Scan (Option Node) := do
  trivia
  match ← peek with
  | some ',' =>
    piece [',']
    trivia
    match ← peek with
    | some ']' => pure none
    | _ => some <$> value
  | _ => pure none

def array (value : Scan Node) : Scan Node := do
  piece ['[']
  trivia
  match ← peek with
  | some ']' =>
    piece [']']
    pure (.array [])
  | _ =>
    let first ← value
    let others ← many (nextItem? value)
    piece [']']
    pure (.array (first :: others))

def nextPair? (value : Scan Node) : Scan (Option ((List Text × Text) × Node)) := do
  match ← opt (piece [',']) with
  | none => pure none
  | some _ => some <$> pair value

def entriesOfPairs : List ((List Text × Text) × Node) → Option Entries :=
  fun pairs => pairs.foldlM (fun entries (key, node) =>
    Entries.insertDotted true key.1 key.2 node entries) []

def inlineTable (value : Scan Node) : Scan Node := do
  piece ['\x7b']
  blanks
  match ← peek with
  | some '\x7d' =>
    piece ['\x7d']
    pure (.inlineTable [])
  | _ =>
    let first ← pair value
    let others ← many (nextPair? value)
    piece ['\x7d']
    match entriesOfPairs (first :: others) with
    | some entries => pure (.inlineTable entries)
    | none => failure

def value : (limit : Nat) → Scan Node
  | 0 => failure
  | limit + 1 => do
    match ← peek with
    | some '[' => if limit = 0 then failure else array (value limit)
    | some '\x7b' => if limit = 0 then failure else inlineTable (value limit)
    | _ => .scalar <$> scalar

/-! ## Lines -/

structure Draft where
  entries : Entries
  /-- The table that the next pairs belong to. -/
  path : List Text

def header (draft : Draft) : Scan Draft := do
  let repeated ← (do piece ['[', '[']; pure true) <|> (do piece ['[']; pure false)
  let (path, last) ← key
  if repeated then piece [']', ']'] else piece [']']
  lineTrail
  let change := if repeated then Entries.openElement last else Entries.openTable last
  match Entries.modifyAt change path draft.entries with
  | some entries => pure ⟨entries, path ++ [last]⟩
  | none => failure

def line (draft : Draft) : Scan Draft := do
  let (key, node) ← pair (value depthLimit)
  lineTrail
  match Entries.modifyAt (Entries.insertDotted true key.1 key.2 node) draft.path draft.entries with
  | some entries => pure ⟨entries, draft.path⟩
  | none => failure

def lines (draft : Draft) : (allowance : Nat) → Scan Draft
  | 0 => failure
  | allowance + 1 => do
    blanks
    match ← peek with
    | none => pure draft
    | some '#' =>
      comment
      lineEnd
      lines draft allowance
    | some '[' =>
      let draft ← header draft
      lines draft allowance
    | some c =>
      if c = '\n' ∨ c = '\r' then
        newline
        lines draft allowance
      else
        let draft ← line draft
        lines draft allowance

/-- The entries of a document. A byte order mark may stand before it. -/
def parse? (document : Text) : Option Entries :=
  let text := if document.head? = some '\ufeff' then document.drop 1 else document
  (lines ⟨[], []⟩ (text.length + 1) text).map fun (draft, _) => draft.entries

end ShellLift.Toml
