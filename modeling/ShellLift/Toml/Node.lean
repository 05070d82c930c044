import ShellLift.Text.Basic

/-!
# Nodes of a document

The values of a document and the tables that its headers and dotted keys make. How a table came to
be decides what may be added to it: a table of a header is complete, one that only lies on the way
to a header may still get a header of its own, and one of dotted keys takes further dotted keys.
-/

set_option autoImplicit false

namespace ShellLift.Toml

/-- Values without parts. Of floats and dates only the spelling is kept. -/
inductive Scalar
  | string (content : Text)
  | integer (content : Int)
  | float (spelling : Text)
  | boolean (content : Bool)
  | datetime (spelling : Text)
deriving DecidableEq

inductive Origin
  | header
  /-- On the way to the table of a header. -/
  | implied
  | dotted
deriving DecidableEq

inductive Node
  | scalar (content : Scalar)
  | array (items : List Node)
  /-- A table in braces, to which nothing can be added. -/
  | inlineTable (entries : List (Text × Node))
  | table (origin : Origin) (entries : List (Text × Node))
  | tables (elements : List (List (Text × Node)))

abbrev Entries := List (Text × Node)

namespace Entries

def get? (entries : Entries) (key : Text) : Option Node :=
  (entries.find? fun entry => entry.1 == key).map Prod.snd

def put (key : Text) (node : Node) : Entries → Entries
  | [] => [(key, node)]
  | entry :: entries =>
    if entry.1 = key then (key, node) :: entries else entry :: put key node entries

/--
Adds the value of a dotted key to a table. A key on the way may not be a value or a table with a
header of its own. The table that takes the value has to be `open`, which is a table that dotted
keys made, or the one they start from.
-/
def insertDotted (isOpen : Bool) : (path : List Text) → (key : Text) →
    Node → Entries → Option Entries
  | [], key, node, entries =>
    if isOpen && (entries.get? key).isNone then some (entries ++ [(key, node)]) else none
  | step :: path, key, node, entries =>
    match entries.get? step with
    | none =>
      (insertDotted true path key node []).map fun inner =>
        entries ++ [(step, .table .dotted inner)]
    | some (.table .header _) => none
    | some (.table origin inner) =>
      (insertDotted (origin == .dotted) path key node inner).map fun inner =>
        put step (.table origin inner) entries
    | some (.tables elements) =>
      match elements.getLast? with
      | none => none
      | some inner =>
        (insertDotted false path key node inner).map fun inner =>
          put step (.tables (elements.dropLast ++ [inner])) entries
    | some _ => none

/-- Changes the table at the end of a path of headers. Tables on the way that are not there are
made, and of the tables of a repeated header the last one counts. -/
def modifyAt (change : Entries → Option Entries) : (path : List Text) → Entries → Option Entries
  | [], entries => change entries
  | step :: path, entries =>
    match entries.get? step with
    | none =>
      (modifyAt change path []).map fun inner => entries ++ [(step, .table .implied inner)]
    | some (.table origin inner) =>
      (modifyAt change path inner).map fun inner => put step (.table origin inner) entries
    | some (.tables elements) =>
      match elements.getLast? with
      | none => none
      | some inner =>
        (modifyAt change path inner).map fun inner =>
          put step (.tables (elements.dropLast ++ [inner])) entries
    | some _ => none

def openTable (key : Text) (entries : Entries) : Option Entries :=
  match entries.get? key with
  | none => some (entries ++ [(key, .table .header [])])
  | some (.table .implied inner) => some (put key (.table .header inner) entries)
  | some _ => none

def openElement (key : Text) (entries : Entries) : Option Entries :=
  match entries.get? key with
  | none => some (entries ++ [(key, .tables [[]])])
  | some (.tables elements) => some (put key (.tables (elements ++ [[]])) entries)
  | some _ => none

end Entries

end ShellLift.Toml
