import ShellLift.Text.Numeral
import ShellLift.Text.Printable

/-!
# Failures

What can go wrong while emitted code runs.
-/

set_option autoImplicit false

namespace ShellLift

inductive Failure
  | invalidCommand (command reason : Text)
  /-- The command ran and did not succeed; without a status a signal ended it. -/
  | unsuccessful (command : Text) (status : Option Int)
  /-- The old value of a path list is no part of the new one. -/
  | pathTooComplicated (name old new : Text)
  | undefined (name : Text)
  | unavailable (reason : Text)
deriving DecidableEq

namespace Failure

def ending : Option Int → Text
  | some status => " (exit code ".toList ++ Text.ofInt status ++ ")".toList
  | none => " (killed by signal)".toList

def message : Failure → Text
  | invalidCommand command reason =>
    "Invalid `zsh` command ".toList ++ Text.quoted command ++ ": ".toList ++ reason
  | unsuccessful command status =>
    "Failed to execute ".toList ++ Text.quoted command ++ ending status
  | pathTooComplicated name old new =>
    "Changes between old and new $".toList ++ name ++ " are too complicated: ".toList ++
      Text.quoted old ++ " -> ".toList ++ Text.quoted new
  | undefined name => "Undefined environment variable: ".toList ++ name
  | unavailable reason => "failed to run zsh: ".toList ++ reason

end Failure

end ShellLift
