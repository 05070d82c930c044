import Mathlib
import ShellLift.Proofs.Steps
import ShellLift.Session.Run

/-!
# Sessions in place

A session and its shell as one memory. A write takes effect at once and stays when a later step
fails; a call puts a frame on top, and its end takes away the frame that is then on top. Nothing
here is set back after a failure. `perform_run` says that nothing has to be: a failed operation
has not written, and an operation that succeeds leaves what it leaves on values.
-/

set_option autoImplicit false

namespace ShellLift.InPlace

open Step
open Session

variable {σ α β : Type}

structure Memory (σ : Type) where
  session : Session
  shell : σ

abbrev Acting (σ : Type) := EStateM Failure (Memory σ)

def look (view : Session → α) : Acting σ α := (fun memory => view memory.session) <$> get

def write (change : Session → Session) : Acting σ Unit :=
  modify fun memory => { memory with session := change memory.session }

def consult (step : EStateM Failure σ α) : Acting σ α := fun memory =>
  match step memory.shell with
  | .ok value shell => .ok value { memory with shell := shell }
  | .error failure shell => .error failure { memory with shell := shell }

/-! ## Operations -/

def capture (shell : Shell σ) (command : Text) (mustSucceed : Bool) : Acting σ (Option Text) := do
  consult (shell.check command)
  let environment ← look Session.environment
  let positional ← look fun session => session.frame.positional
  let output ← consult (shell.run command environment positional)
  if output.success then pure (some (dropLineFeed output.text))
  else if mustSucceed then throw (.unsuccessful command output.status)
  else pure none

def succeeds (shell : Shell σ) (command : Text) : Acting σ Bool := fun memory =>
  match capture shell command true memory with
  | .ok _ memory => .ok true memory
  | .error (.unsuccessful _ _) memory => .ok false memory
  | .error failure memory => .error failure memory

def exportVariable (name : Text) : Acting σ Unit := do
  match ← look fun session => session.local? name with
  | some value => write fun session => session.setVariable name (.text value)
  | none =>
    match ← look fun session => session.store.read name with
    | .ok _ => pure ()
    | .error _ => write fun session => session.setVariable name (.text [])

/-- Splices a path list part by part: the new parts go to its front one by one, the last of them
first, and then to its end. -/
def splice (name old new : Text) : EStateM Failure (List Text) Unit :=
  match Text.cut? old new with
  | none => throw (.pathTooComplicated name old new)
  | some (front, back) => do
    (PathList.dropLastEmpty (PathList.parts front)).reverse.forM fun part => modify (part :: ·)
    modify (· ++ PathList.dropFirstEmpty (PathList.parts back))

/-- The spliced path list of a variable. What is spliced is a copy. -/
def splicePaths (shell : Shell σ) (name : Text) (parts : List Text) (content : Text) :
    Acting σ (List Text) := do
  let old ← capture shell (echoCommand ('$' :: name)) true
  match splice name (old.getD []) content parts with
  | .ok _ target => pure target
  | .error failure _ => throw failure

def typedValue (shell : Shell σ) (name : Text) (previous : Option Value) (content : Text) :
    Acting σ Value :=
  match previous with
  | some (.paths parts) => Value.paths <$> splicePaths shell name parts content
  | some value =>
    match value.kind? with
    | some kind => pure ((kind.read? content).getD (.text content))
    | none => pure (.text content)
  | none => pure (.text content)

def setTyped (shell : Shell σ) (name content : Text) : Acting σ Unit := do
  match ← look fun session => session.previous? name with
  | .error failure => throw failure
  | .ok previous =>
    let value ← typedValue shell name previous content
    write fun session => session.setVariable name value

def useAlias (shell : Shell σ) (name : Text) (arguments : List Text) :
    Acting σ Alias.Expansion := do
  match ← look fun session => session.aliases.get? name with
  | some (.fixed words) => pure (.words (words ++ arguments))
  | some (.command body) =>
    Alias.Expansion.output <$> capture shell (body ++ argumentText arguments) false
  | none => throw (.undefined ("alias ".toList ++ name))

def perform (shell : Shell σ) : Operation → Acting σ Answer
  | .setLocal name value => do
    write fun session => session.setLocal name value.recorded
    pure (.given value)
  | .readLocal name => look fun session => .optionalText (session.local? name)
  | .readPositional => look fun session => .texts session.frame.positional
  | .capture command mustSucceed => .optionalText <$> capture shell command mustSucceed
  | .succeeds command => .flag <$> succeeds shell command
  | .expandQuotation text => .optionalText <$> capture shell (echoCommand text) false
  | .expandTilde text => look fun session => .text (session.expandTilde text)
  | .exportVariable name => do
    exportVariable name
    pure .done
  | .setTyped name content => do
    setTyped shell name content
    pure .done
  | .readVariable name => do
    match ← look fun session => session.store.read name with
    | .ok value => pure (.value value)
    | .error failure => throw failure
  | .readEnvironment => look fun session => .environment session.store.flat
  | .defineAlias name meaning => do
    write fun session => session.defineAlias name meaning
    pure .done
  | .readAlias name => look fun session => .meaning (session.aliases.get? name)
  | .useAlias name arguments => .expansion <$> useAlias shell name arguments

/-! ## Runs -/

def leave (session : Session) : Session :=
  match session.callers with
  | [] => session
  | caller :: callers => { session with frame := caller, callers := callers }

mutual

def act (shell : Shell σ) (memory : Memory σ) : Session.Step → Event σ × Memory σ
  | .operation operation =>
    match perform shell operation memory with
    | .ok answer last => (.answered (.ok answer) last.session last.shell, last)
    | .error failure last => (.answered (.error failure) last.session last.shell, last)
  | .call name arguments body =>
    let entered := { memory with session := memory.session.enter name arguments }
    let (events, last) := actAll shell entered body
    (.returned events, { last with session := leave last.session })

def actAll (shell : Shell σ) (memory : Memory σ) :
    List Session.Step → List (Event σ) × Memory σ
  | [] => ([], memory)
  | step :: steps =>
    let (event, memory) := act shell memory step
    let (events, memory) := actAll shell memory steps
    (event :: events, memory)

end

/-! ## What the operations come to -/

theorem look_bind_run (view : Session → α) (next : α → Acting σ β) (memory : Memory σ) :
    (look view >>= next) memory = next (view memory.session) memory := rfl

theorem consult_run (step : EStateM Failure σ α) (memory : Memory σ) :
    consult step memory =
      match step memory.shell with
      | .ok value shell => .ok value { memory with shell := shell }
      | .error failure shell => .error failure { memory with shell := shell } := rfl

/-- Steps of the shell in a row are one step of the shell, if what follows the first writes
nothing. -/
theorem consult_bind_run {step : EStateM Failure σ α} {next : α → EStateM Failure σ β}
    {rest : α → Acting σ β} {session : Session} {shell : σ}
    (same : ∀ value shell, rest value ⟨session, shell⟩ = consult (next value) ⟨session, shell⟩) :
    (consult step >>= rest) ⟨session, shell⟩ = consult (step >>= next) ⟨session, shell⟩ := by
  rw [bind_run, consult_run, consult_run, bind_run]
  cases step shell with
  | ok value shell => exact same value shell
  | error failure shell => rfl

theorem map_consult {step : EStateM Failure σ α} {acting : Acting σ α} {memory : Memory σ}
    (f : α → β) (same : acting memory = consult step memory) :
    (f <$> acting) memory = consult (f <$> step) memory := by
  rw [map_run, same]
  unfold consult
  rw [map_run]
  cases step memory.shell <;> rfl

theorem capture_run (shell : Shell σ) (command : Text) (mustSucceed : Bool) (memory : Memory σ) :
    capture shell command mustSucceed memory =
      consult (memory.session.capture shell command mustSucceed) memory := by
  obtain ⟨session, state⟩ := memory
  unfold capture Session.capture
  refine consult_bind_run fun _ state => ?_
  rw [look_bind_run, look_bind_run]
  refine consult_bind_run fun output state => ?_
  by_cases success : output.success = true
  · rw [if_pos success, if_pos success]
    rfl
  · rw [if_neg success, if_neg success]
    cases mustSucceed <;> rfl

theorem succeeds_run (shell : Shell σ) (command : Text) (memory : Memory σ) :
    succeeds shell command memory = consult (memory.session.succeeds shell command) memory := by
  unfold succeeds
  rw [capture_run]
  unfold consult Session.succeeds
  rcases memory.session.capture shell command true memory.shell with
    ⟨value, state⟩ | ⟨_ | _ | _ | _ | _, state⟩ <;> rfl

theorem exportVariable_run (name : Text) (memory : Memory σ) :
    exportVariable name memory =
      .ok () { memory with session := memory.session.exportVariable name } := by
  unfold exportVariable Session.exportVariable
  rw [look_bind_run]
  cases memory.session.local? name with
  | some value => rfl
  | none =>
      dsimp only
      rw [look_bind_run]
      cases memory.session.store.read name <;> rfl

theorem forM_cons_run (parts target : List Text) :
    (parts.forM fun part => (modify (part :: ·) : EStateM Failure (List Text) Unit)) target =
      .ok () (parts.reverse ++ target) := by
  induction parts generalizing target with
  | nil => rfl
  | cons part parts ih =>
      rw [List.forM_eq_forM, List.forM_cons, bind_run, modify_run, ← List.forM_eq_forM]
      simp only [ih, List.reverse_cons, List.append_assoc, List.cons_append, List.nil_append]

theorem splice_run (name old new : Text) (parts : List Text) :
    splice name old new parts =
      match PathList.splice name parts old new with
      | .ok target => .ok () target
      | .error failure => .error failure parts := by
  unfold splice PathList.splice
  rcases Text.cut? old new with _ | ⟨front, back⟩
  · rfl
  · simp only [bind_run, forM_cons_run, modify_run, List.reverse_reverse]

theorem splicePaths_run (shell : Shell σ) (name : Text) (parts : List Text) (content : Text)
    (memory : Memory σ) :
    splicePaths shell name parts content memory =
      consult (memory.session.splicePaths shell name parts content) memory := by
  unfold splicePaths Session.splicePaths
  rw [bind_run, capture_run, ← bind_run (consult _)]
  refine consult_bind_run fun old state => ?_
  rw [splice_run]
  cases PathList.splice name parts (old.getD []) content <;> rfl

theorem typedValue_run (shell : Shell σ) (name : Text) (previous : Option Value) (content : Text)
    (memory : Memory σ) :
    typedValue shell name previous content memory =
      consult (memory.session.typedValue shell name previous content) memory := by
  unfold typedValue Session.typedValue
  rcases previous with _ | _ | _ | _ | _ | parts | _
  case some.paths => exact map_consult _ (splicePaths_run shell name parts content memory)
  all_goals rfl

theorem useAlias_run (shell : Shell σ) (name : Text) (arguments : List Text) (memory : Memory σ) :
    useAlias shell name arguments memory =
      consult (memory.session.useAlias shell name arguments) memory := by
  unfold useAlias Session.useAlias
  rw [look_bind_run]
  rcases memory.session.aliases.get? name with _ | _ | body
  case some.command =>
    exact map_consult _ (capture_run shell (body ++ argumentText arguments) false memory)
  all_goals rfl

theorem setTyped_run (shell : Shell σ) (name content : Text) (memory : Memory σ) :
    setTyped shell name content memory =
      match memory.session.setTyped shell name content memory.shell with
      | .ok session shell => .ok () ⟨session, shell⟩
      | .error failure shell => .error failure ⟨memory.session, shell⟩ := by
  unfold setTyped Session.setTyped
  rw [look_bind_run]
  cases memory.session.previous? name with
  | error failure => rfl
  | ok previous =>
      dsimp only
      rw [bind_run, typedValue_run, consult_run, bind_run]
      cases memory.session.typedValue shell name previous content memory.shell <;> rfl

/-- What an operation on values leaves in the memory: its session if it succeeded, and the session
before it if not. -/
def settled (session : Session) : EStateM.Result Failure σ (Answer × Session) →
    EStateM.Result Failure (Memory σ) Answer
  | .ok (answer, after) shell => .ok answer ⟨after, shell⟩
  | .error failure shell => .error failure ⟨session, shell⟩

/-- An operation that only asks leaves the session. -/
theorem answer_run {step : EStateM Failure σ α} {acting : Acting σ α} {memory : Memory σ}
    (wrap : α → Answer) (same : acting memory = consult step memory) :
    (wrap <$> acting) memory =
      settled memory.session (memory.session.answer wrap step memory.shell) := by
  rw [map_run, same]
  unfold consult Session.answer
  rw [bind_run]
  cases step memory.shell <;> rfl

theorem perform_run (shell : Shell σ) (operation : Operation) (memory : Memory σ) :
    perform shell operation memory =
      settled memory.session (memory.session.perform shell operation memory.shell) := by
  cases operation with
  | setLocal name value => rfl
  | readLocal name => rfl
  | readPositional => rfl
  | capture command mustSucceed => exact answer_run _ (capture_run ..)
  | succeeds command => exact answer_run _ (succeeds_run ..)
  | expandQuotation text => exact answer_run _ (capture_run ..)
  | expandTilde text => rfl
  | exportVariable name =>
      show (exportVariable name >>= fun _ => pure Answer.done) memory = _
      rw [bind_run, exportVariable_run]
      rfl
  | setTyped name content =>
      show (setTyped shell name content >>= fun _ => pure Answer.done) memory =
        settled memory.session ((memory.session.setTyped shell name content >>=
          fun session => pure (Answer.done, session)) memory.shell)
      rw [bind_run, setTyped_run, bind_run]
      cases memory.session.setTyped shell name content memory.shell <;> rfl
  | readVariable name =>
      unfold perform Session.perform
      dsimp only
      rw [look_bind_run]
      cases memory.session.store.read name <;> rfl
  | readEnvironment => rfl
  | defineAlias name meaning => rfl
  | readAlias name => rfl
  | useAlias name arguments => exact answer_run _ (useAlias_run ..)

end ShellLift.InPlace
