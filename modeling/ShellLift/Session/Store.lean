import ShellLift.Session.Failure
import ShellLift.Session.PathList
import ShellLift.Session.Value
import ShellLift.Table

/-!
# Store

The variables of the environment with their typed values, in the order in which they were first
set. Some names of a store may refuse to be read; they can be set and are seen by child processes
like any other.
-/

set_option autoImplicit false

namespace ShellLift

structure Store where
  bindings : Table Value
  /-- The names that cannot be read, each with the failure it gives. -/
  unreadable : Table Failure
deriving DecidableEq

namespace Store

def ofBindings (bindings : Table Value) : Store := ⟨bindings, .empty⟩

def read (store : Store) (name : Text) : Except Failure Value :=
  match store.unreadable.get? name with
  | some failure => .error failure
  | none =>
    match store.bindings.get? name with
    | some value => .ok value
    | none => .error (.undefined name)

def set (store : Store) (name : Text) (value : Value) : Store :=
  { store with bindings := store.bindings.insert name value }

/-- The flat text of an entry, unless its value is nothing. -/
def flatEntry? (entry : Text × Value) : Option (Text × Text) :=
  if entry.2 = .absent then none else some (entry.1, entry.2.flat)

def flat (store : Store) : Table Text := ⟨store.bindings.entries.filterMap flatEntry?⟩

/-- The value of a variable that was inherited as text: a path list if its name says so. -/
def inheritedValue (name content : Text) : Value :=
  if "PATH".toList.isSuffixOf name then .paths (PathList.nonemptyParts content)
  else .text content

def ofInherited (environment : List (Text × Text)) : Store :=
  ofBindings (.ofList (environment.map fun entry => (entry.1, inheritedValue entry.1 entry.2)))

end Store

end ShellLift
