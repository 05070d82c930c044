import ShellLift.Session.Failure

/-!
# Path lists

A change of a path list is given by its old and its new text. Only additions around the old text
are understood: what the new text has before it goes in front of the list, what it has behind it
goes to the end.
-/

set_option autoImplicit false

namespace ShellLift.PathList

/-- The parts of a text between colons; none for the empty text. -/
def parts (text : Text) : List Text := if text.isEmpty then [] else Text.pieces ':' text

def dropLastEmpty (parts : List Text) : List Text :=
  if parts.getLast? = some [] then parts.dropLast else parts

def dropFirstEmpty : List Text → List Text
  | [] :: parts => parts
  | parts => parts

/-- Adds to the list of a variable what its new text has around the old one. -/
def splice (name : Text) (target : List Text) (old new : Text) : Except Failure (List Text) :=
  match Text.cut? old new with
  | none => .error (.pathTooComplicated name old new)
  | some (front, back) =>
    .ok (dropLastEmpty (parts front) ++ target ++ dropFirstEmpty (parts back))

def nonemptyParts (text : Text) : List Text :=
  (Text.pieces ':' text).filter fun part => !part.isEmpty

end ShellLift.PathList
