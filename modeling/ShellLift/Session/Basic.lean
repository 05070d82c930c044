import ShellLift.Session.Shell
import ShellLift.Session.Store
import ShellLift.Text.Basic

/-!
# Sessions

What emitted code works on while it runs: the store, the short names, and one frame for each
function that is running. A frame has local variables and positional parameters; a local that it
does not have is looked up in the frame that called it. Commands go to a shell and change nothing
here, so an operation that fails leaves the session as it was.
-/

set_option autoImplicit false

namespace ShellLift

inductive Alias
  | fixed (words : List Text)
  /-- The text of a command, read anew each time. -/
  | command (body : Text)
deriving DecidableEq

namespace Alias

inductive Expansion
  | words (words : List Text)
  /-- The output of a command that ran, if it succeeded. -/
  | output (text : Option Text)
deriving DecidableEq

end Alias

structure Frame where
  locals : Table Text
  positional : List Text
deriving DecidableEq

structure Session where
  store : Store
  aliases : Table Alias
  frame : Frame
  /-- The frames of the callers, the nearest first. -/
  callers : List Frame
  /-- The home directory that the process was started with. -/
  home : Option Text
deriving DecidableEq

namespace Session

def start (store : Store) (home : Option Text) : Session :=
  ⟨store, .empty, ⟨.empty, []⟩, [], home⟩

/-! ## Frames -/

/-- The session in which a function starts to run. Its first parameter is its own name. -/
def enter (session : Session) (name : Text) (arguments : List Text) : Session :=
  { session with
    frame := ⟨.empty, name :: arguments⟩
    callers := session.frame :: session.callers }

def resume (caller ended : Session) : Session :=
  { ended with frame := caller.frame, callers := caller.callers }

/-- A local variable in the first of some frames that has it. -/
def lookup? (name : Text) : List Frame → Option Text
  | [] => none
  | frame :: frames =>
    match frame.locals.get? name with
    | some value => some value
    | none => lookup? name frames

def local? (session : Session) (name : Text) : Option Text :=
  lookup? name (session.frame :: session.callers)

/-- The locals of some frames in one table; those of the first frame count most. -/
def visible : List Frame → Table Text
  | [] => .empty
  | frame :: frames => (visible frames).insertAll frame.locals.entries

def setLocal (session : Session) (name value : Text) : Session :=
  { session with frame := { session.frame with locals := session.frame.locals.insert name value } }

/-! ## Commands -/

/-- The variables that every command sees in place of those of the store. -/
def fixedVariables : List (Text × Text) := [("SHELL".toList, "/bin/zsh".toList)]

def environment (session : Session) : Table Text :=
  (session.store.flat.insertAll fixedVariables).insertAll
    (visible (session.frame :: session.callers)).entries

def dropLineFeed (text : Text) : Text :=
  if text.getLast? = some '\n' then text.dropLast else text

variable {σ : Type}

/-- Runs a command and gives its output; a command without success gives nothing, or fails if it
has to succeed. -/
def capture (shell : Shell σ) (session : Session) (command : Text) (mustSucceed : Bool) :
    EStateM Failure σ (Option Text) := do
  shell.check command
  let output ← shell.run command session.environment session.frame.positional
  if output.success then pure (some (dropLineFeed output.text))
  else if mustSucceed then throw (.unsuccessful command output.status)
  else pure none

def succeeds (shell : Shell σ) (session : Session) (command : Text) : EStateM Failure σ Bool :=
  fun state =>
    match session.capture shell command true state with
    | .ok _ state => .ok true state
    | .error (.unsuccessful _ _) state => .ok false state
    | .error failure state => .error failure state

def echoCommand (text : Text) : Text := "echo \"".toList ++ text ++ "\"".toList

def expandQuotation (shell : Shell σ) (session : Session) (text : Text) :
    EStateM Failure σ (Option Text) :=
  session.capture shell (echoCommand text) false

/-- The home directory: the variable if it can be read, else that of the process. -/
def homeDirectory (session : Session) : Option Text :=
  match session.store.read "HOME".toList with
  | .ok value => some value.flat
  | .error _ => session.home

def expandTilde (session : Session) (text : Text) : Text :=
  match text with
  | '~' :: rest =>
    if rest.isEmpty ∨ rest.head? = some '/' then
      match session.homeDirectory with
      | some home => Text.dropEndWhile (· == '/') home ++ rest
      | none => text
    else text
  | text => text

/-! ## Variables -/

def setVariable (session : Session) (name : Text) (value : Value) : Session :=
  { session with store := session.store.set name value }

/-- Makes a name a variable of the environment: with the value of the local if there is one, with
its own value if it can be read, and else empty. -/
def exportVariable (session : Session) (name : Text) : Session :=
  match session.local? name with
  | some value => session.setVariable name (.text value)
  | none =>
    match session.store.read name with
    | .ok _ => session
    | .error _ => session.setVariable name (.text [])

def previous? (session : Session) (name : Text) : Except Failure (Option Value) :=
  match session.store.read name with
  | .ok value => .ok (some value)
  | .error (.undefined _) => .ok none
  | .error failure => .error failure

/-- The path list of a variable after a change of its text. The old text is what the shell prints
for the variable. -/
def splicePaths (shell : Shell σ) (session : Session) (name : Text) (parts : List Text)
    (content : Text) : EStateM Failure σ (List Text) := do
  let old ← session.capture shell (echoCommand ('$' :: name)) true
  match PathList.splice name parts (old.getD []) content with
  | .ok parts => pure parts
  | .error failure => throw failure

/-- The value that a text becomes for a variable with a previous value: one of the same kind if it
can be read so, and else a text. -/
def typedValue (shell : Shell σ) (session : Session) (name : Text) (previous : Option Value)
    (content : Text) : EStateM Failure σ Value :=
  match previous with
  | some (.paths parts) => Value.paths <$> splicePaths shell session name parts content
  | some value =>
    match value.kind? with
    | some kind => pure ((kind.read? content).getD (.text content))
    | none => pure (.text content)
  | none => pure (.text content)

def setTyped (shell : Shell σ) (session : Session) (name content : Text) :
    EStateM Failure σ Session := do
  match session.previous? name with
  | .error failure => throw failure
  | .ok previous =>
    let value ← typedValue shell session name previous content
    pure (session.setVariable name value)

/-! ## Short names -/

def defineAlias (session : Session) (name : Text) (meaning : Alias) : Session :=
  { session with aliases := session.aliases.insert name meaning }

def argumentText (arguments : List Text) : Text :=
  arguments.flatMap fun argument => ' ' :: Text.shellQuoted argument

def useAlias (shell : Shell σ) (session : Session) (name : Text) (arguments : List Text) :
    EStateM Failure σ Alias.Expansion :=
  match session.aliases.get? name with
  | some (.fixed words) => pure (.words (words ++ arguments))
  | some (.command body) =>
    Alias.Expansion.output <$> session.capture shell (body ++ argumentText arguments) false
  | none => throw (.undefined ("alias ".toList ++ name))

end Session

end ShellLift
