import ShellLift.Text.Basic

/-!
# Insertion-ordered tables

A table pairs names with values. Putting a new name in adds it at the end; putting in a name that
is there already changes its value and leaves it in its place.
-/

set_option autoImplicit false

namespace ShellLift

structure Table (α : Type) where
  entries : List (Text × α)
deriving DecidableEq

namespace Table

variable {α : Type}

def empty : Table α := ⟨[]⟩

def get? (table : Table α) (name : Text) : Option α :=
  (table.entries.find? fun entry => entry.1 == name).map Prod.snd

def contains (table : Table α) (name : Text) : Bool := (table.get? name).isSome

/-- Puts a value into a list of entries, in the place of the name or at the end. -/
def put (name : Text) (value : α) : List (Text × α) → List (Text × α)
  | [] => [(name, value)]
  | entry :: entries =>
    if entry.1 = name then (name, value) :: entries else entry :: put name value entries

def insert (table : Table α) (name : Text) (value : α) : Table α :=
  ⟨put name value table.entries⟩

def insertAll (table : Table α) (entries : List (Text × α)) : Table α :=
  entries.foldl (fun table entry => table.insert entry.1 entry.2) table

def ofList (entries : List (Text × α)) : Table α := empty.insertAll entries

def names (table : Table α) : List Text := table.entries.map Prod.fst

end Table

end ShellLift
