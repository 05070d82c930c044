import ShellLift.Session.Failure
import ShellLift.Table
import ShellLift.Text.Basic

/-!
# Shells

A shell checks the text of a command and runs it. It may have a state of its own, which stays
what it has become when a step fails.
-/

set_option autoImplicit false

namespace ShellLift

structure CommandResult where
  /-- The exit status; nothing if a signal ended the command. -/
  status : Option Int
  text : Text
deriving DecidableEq

namespace CommandResult

def success (output : CommandResult) : Bool := output.status == some 0

end CommandResult

structure Shell (σ : Type) where
  /-- Reads a command without running it. -/
  check : (command : Text) → EStateM Failure σ Unit
  run : (command : Text) → (environment : Table Text) → (positional : List Text) →
    EStateM Failure σ CommandResult

structure ProcessOutput where
  status : Option Int
  output : Text
  errors : Text
deriving DecidableEq

/-- Starts a process with arguments and waits for its end. Without an environment of its own the
process inherits one. A process that cannot be started leaves a reason. -/
abbrev Launcher (σ : Type) :=
  (arguments : List Text) → (environment : Option (Table Text)) → EStateM Text σ ProcessOutput

namespace Shell

variable {σ : Type}

def launch (launcher : Launcher σ) (arguments : List Text) (environment : Option (Table Text)) :
    EStateM Failure σ ProcessOutput := fun state =>
  match launcher arguments environment state with
  | .ok output state => .ok output state
  | .error reason state => .error (.unavailable reason) state

def ofLauncher (launcher : Launcher σ) : Shell σ where
  check command := do
    let output ← launch launcher ["--no-exec".toList, "-c".toList, command] none
    if output.status = some 0 then pure ()
    else throw (.invalidCommand command (Text.trim output.errors))
  run command environment positional := do
    let output ← launch launcher ("-c".toList :: command :: positional) (some environment)
    pure ⟨output.status, output.output⟩

end Shell

end ShellLift
