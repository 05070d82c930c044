import ShellLift.CommandLine

/-!
# Program

Reads the arguments and the files they name, and prints what comes of them.
-/

set_option autoImplicit false

open ShellLift
open ShellLift.CommandLine

def readTextFile (path : Text) : IO (Except FileFault Text) := do
  try
    let bytes ← IO.FS.readBinFile (String.ofList path)
    match String.fromUTF8? bytes with
    | some content => pure (.ok content.toList)
    | none => pure (.error .notText)
  catch error =>
    match error with
    | .noFileOrDirectory .. => pure (.error .notFound)
    | .inappropriateType _ code details =>
      if code = 21 then pure (.error .isDirectory)
      else pure (.error (.other s!"{details} (os error {code})".toList))
    | error => pure (.error (.other error.toString.toList))

def main (arguments : List String) : IO UInt32 := do
  match parseArguments (arguments.map String.toList) with
  | .error .version =>
    IO.println (String.ofList versionText)
    pure 0
  | .error .help =>
    IO.println (String.ofList usageText)
    pure 0
  | .error .usage =>
    IO.eprintln (String.ofList usageText)
    pure 2
  | .ok options =>
    match ← options.run readTextFile with
    | .ok (some code) =>
      IO.println (String.ofList code)
      pure 0
    | .ok none => pure 0
    | .error problem =>
      IO.eprintln (String.ofList problem.message)
      pure 1
