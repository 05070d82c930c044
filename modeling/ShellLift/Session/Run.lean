import ShellLift.Session.Basic

/-!
# Runs of a session

A run performs operations one after the other. An operation that fails does not end the run. A
call runs its body in a frame of its own, and the caller goes on with its own frame as it was.
-/

set_option autoImplicit false

namespace ShellLift

namespace Session

inductive Given
  | text (content : Text)
  | flag (content : Bool)
  | number (content : Int)
  | typed (content : Value)
deriving DecidableEq

def Given.recorded : Given → Text
  | text content => content
  | flag true => "true".toList
  | flag false => "false".toList
  | number content => Text.ofInt content
  | typed content => content.flat

inductive Operation
  | setLocal (name : Text) (value : Given)
  | readLocal (name : Text)
  | readPositional
  | capture (command : Text) (mustSucceed : Bool)
  | succeeds (command : Text)
  | expandQuotation (text : Text)
  | expandTilde (text : Text)
  | exportVariable (name : Text)
  | setTyped (name content : Text)
  | readVariable (name : Text)
  | readEnvironment
  | defineAlias (name : Text) (meaning : Alias)
  | readAlias (name : Text)
  | useAlias (name : Text) (arguments : List Text)
deriving DecidableEq

inductive Answer
  | done
  | given (value : Given)
  | text (content : Text)
  | optionalText (content : Option Text)
  | texts (contents : List Text)
  | flag (content : Bool)
  | value (content : Value)
  | environment (bindings : Table Text)
  | meaning (content : Option Alias)
  | expansion (content : Alias.Expansion)
deriving DecidableEq

variable {σ : Type}

def answer {α : Type} (session : Session) (wrap : α → Answer) (step : EStateM Failure σ α) :
    EStateM Failure σ (Answer × Session) := do
  let content ← step
  pure (wrap content, session)

def perform (shell : Shell σ) (session : Session) :
    Operation → EStateM Failure σ (Answer × Session)
  | .setLocal name value =>
    pure (.given value, session.setLocal name value.recorded)
  | .readLocal name => pure (.optionalText (session.local? name), session)
  | .readPositional => pure (.texts session.frame.positional, session)
  | .capture command mustSucceed =>
    session.answer .optionalText (session.capture shell command mustSucceed)
  | .succeeds command => session.answer .flag (session.succeeds shell command)
  | .expandQuotation text => session.answer .optionalText (session.expandQuotation shell text)
  | .expandTilde text => pure (.text (session.expandTilde text), session)
  | .exportVariable name => pure (.done, session.exportVariable name)
  | .setTyped name content => do
    let session ← session.setTyped shell name content
    pure (.done, session)
  | .readVariable name =>
    match session.store.read name with
    | .ok value => pure (.value value, session)
    | .error failure => throw failure
  | .readEnvironment => pure (.environment session.store.flat, session)
  | .defineAlias name meaning => pure (.done, session.defineAlias name meaning)
  | .readAlias name => pure (.meaning (session.aliases.get? name), session)
  | .useAlias name arguments =>
    session.answer .expansion (session.useAlias shell name arguments)

inductive Step
  | operation (operation : Operation)
  | call (name : Text) (arguments : List Text) (body : List Step)

/-- What a step leaves behind: of an operation its answer with the session and the state of the
shell after it, of a call what its body leaves behind. -/
inductive Event (σ : Type)
  | answered (result : Except Failure Answer) (session : Session) (state : σ)
  | returned (events : List (Event σ))

/-- Performs an operation, and keeps the session if it fails. -/
def attempt (shell : Shell σ) (session : Session) (state : σ) (operation : Operation) :
    Except Failure Answer × Session × σ :=
  match perform shell session operation state with
  | .ok (answer, session) state => (.ok answer, session, state)
  | .error failure state => (.error failure, session, state)

mutual

def runStep (shell : Shell σ) (session : Session) (state : σ) :
    Step → Event σ × Session × σ
  | .operation operation =>
    let (result, session, state) := attempt shell session state operation
    (.answered result session state, session, state)
  | .call name arguments body =>
    let (events, ended, state) := runSteps shell (session.enter name arguments) state body
    (.returned events, session.resume ended, state)

def runSteps (shell : Shell σ) (session : Session) (state : σ) :
    List Step → List (Event σ) × Session × σ
  | [] => ([], session, state)
  | step :: steps =>
    let (event, session, state) := runStep shell session state step
    let (events, session, state) := runSteps shell session state steps
    (event :: events, session, state)

end

end Session

end ShellLift
