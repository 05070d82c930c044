import Mathlib
import ShellLift.Proofs.Steps
import ShellLift.Session.Run

/-!
# What a run asks of its shell

Five operations hand a command to the shell, each in its own way. All of them come to the same two
calls: the command is checked, and if the check passes it runs with the environment and the
parameters of the frame that asked. A shell that lists its calls shows this for every run at every
depth. Three of the operations take a command as it is, and they differ only in what they make of
its end.
-/

set_option autoImplicit false

namespace ShellLift

open Step

/-- The failures that a shell has of its own: it refuses a command, or it cannot be run. -/
def Failure.ofShell : Failure → Bool
  | .invalidCommand _ _ | .unavailable _ => true
  | .unsuccessful _ _ | .pathTooComplicated _ _ _ | .undefined _ => false

namespace Step

variable {ε σ α β : Type}

theorem bind_of_error {step : EStateM ε σ α} {next : α → EStateM ε σ β} {state last : σ}
    {failure : ε} (failed : step state = .error failure last) :
    (step >>= next) state = .error failure last := by
  rw [bind_run, failed]

theorem map_of_error {step : EStateM ε σ α} {f : α → β} {state last : σ} {failure : ε}
    (failed : step state = .error failure last) : (f <$> step) state = .error failure last := by
  rw [map_run, failed]

end Step

namespace Shell

variable {σ α β : Type}

structure OwnFailures (shell : Shell σ) : Prop where
  check : ∀ command state failure last,
    shell.check command state = .error failure last → failure.ofShell = true
  run : ∀ command environment positional state failure last,
    shell.run command environment positional state = .error failure last → failure.ofShell = true

inductive Call
  | checked (command : Text) (refusal : Option Failure)
  | ran (command : Text) (environment : Table Text) (positional : List Text)
deriving DecidableEq

def refusal? : EStateM.Result Failure σ α → Option Failure
  | .ok _ _ => none
  | .error failure _ => some failure

def withCalls (calls : List Call) :
    EStateM.Result Failure σ α → EStateM.Result Failure (σ × List Call) α
  | .ok value state => .ok value (state, calls)
  | .error failure state => .error failure (state, calls)

/-- The shell that also lists its calls, in order. -/
def listing (shell : Shell σ) : Shell (σ × List Call) where
  check command := fun memory =>
    withCalls (memory.2 ++ [.checked command (refusal? (shell.check command memory.1))])
      (shell.check command memory.1)
  run command environment positional := fun memory =>
    withCalls (memory.2 ++ [.ran command environment positional])
      (shell.run command environment positional memory.1)

theorem listing_check (shell : Shell σ) (command : Text) (state : σ) (calls : List Call) :
    shell.listing.check command (state, calls) =
      withCalls (calls ++ [.checked command (refusal? (shell.check command state))])
        (shell.check command state) := rfl

theorem listing_run (shell : Shell σ) (command : Text) (environment : Table Text)
    (positional : List Text) (state : σ) (calls : List Call) :
    shell.listing.run command environment positional (state, calls) =
      withCalls (calls ++ [.ran command environment positional])
        (shell.run command environment positional state) := rfl

theorem map_withCalls {listed : EStateM Failure (σ × List Call) α} {step : EStateM Failure σ α}
    {memory : σ × List Call} {calls : List Call} (f : α → β)
    (same : listed memory = withCalls calls (step memory.1)) :
    (f <$> listed) memory = withCalls calls ((f <$> step) memory.1) := by
  rw [map_run, same, map_run]
  cases step memory.1 <;> rfl

/-- What follows a step and calls nothing leaves the list as it is. -/
theorem bind_withCalls {listed : EStateM Failure (σ × List Call) α} {step : EStateM Failure σ α}
    {memory : σ × List Call} {calls : List Call}
    {rest : α → EStateM Failure (σ × List Call) β} {next : α → EStateM Failure σ β}
    (same : listed memory = withCalls calls (step memory.1))
    (quiet : ∀ value state, rest value (state, calls) = withCalls calls (next value state)) :
    (listed >>= rest) memory = withCalls calls ((step >>= next) memory.1) := by
  rw [bind_run, same, bind_run]
  cases step memory.1 with
  | ok value state => exact quiet value state
  | error failure state => rfl

end Shell

namespace Session

open Shell

variable {σ : Type}

/-! ## What comes of a command -/

def verdict (command : Text) (mustSucceed : Bool) (output : CommandResult) :
    Except Failure (Option Text) :=
  if output.success then .ok (some (dropLineFeed output.text))
  else if mustSucceed then .error (.unsuccessful command output.status)
  else .ok none

def settle {α : Type} (result : Except Failure α) (state : σ) : EStateM.Result Failure σ α :=
  match result with
  | .ok value => .ok value state
  | .error failure => .error failure state

theorem withCalls_settle {α : Type} (result : Except Failure α) (state : σ) (calls : List Call) :
    withCalls calls (settle result state) = settle result (state, calls) := by
  cases result <;> rfl

theorem capture_eq_verdict (shell : Shell σ) (session : Session) (command : Text)
    (mustSucceed : Bool)
    (state : σ) :
    session.capture shell command mustSucceed state =
      match shell.check command state with
      | .error failure last => .error failure last
      | .ok _ checked =>
        match shell.run command session.environment session.frame.positional checked with
        | .error failure last => .error failure last
        | .ok output last => settle (verdict command mustSucceed output) last := by
  unfold capture
  rw [bind_run]
  cases shell.check command state with
  | error failure last => rfl
  | ok _ checked =>
      dsimp only
      rw [bind_run]
      cases shell.run command session.environment session.frame.positional checked with
      | error failure last => rfl
      | ok output last =>
          dsimp only
          rw [ite_run, ite_run, verdict]
          split
          · rfl
          · split <;> rfl

/-! ## The calls of an operation -/

def Operation.command? (session : Session) : Operation → Option Text
  | .capture command _ => some command
  | .succeeds command => some command
  | .expandQuotation text => some (echoCommand text)
  | .setTyped name _ =>
    match session.store.read name with
    | .ok (.paths _) => some (echoCommand ('$' :: name))
    | _ => none
  | .useAlias name arguments =>
    match session.aliases.get? name with
    | some (.command body) => some (body ++ argumentText arguments)
    | _ => none
  | _ => none

/-- The calls for a command: a check, and behind one that passes the run. -/
def callsFor (shell : Shell σ) (session : Session) (state : σ) (command : Text) : List Call :=
  match shell.check command state with
  | .ok _ _ => [.checked command none, .ran command session.environment session.frame.positional]
  | .error failure _ => [.checked command (some failure)]

def Operation.calls (shell : Shell σ) (session : Session) (state : σ) (operation : Operation) :
    List Call :=
  ((operation.command? session).map (session.callsFor shell state)).getD []

theorem Operation.calls_of_some (shell : Shell σ) {session : Session} {operation : Operation}
    {command : Text} (asks : operation.command? session = some command) (state : σ) :
    operation.calls shell session state = session.callsFor shell state command := by
  rw [calls, asks]
  rfl

theorem Operation.calls_of_none (shell : Shell σ) {session : Session} {operation : Operation}
    (quiet : operation.command? session = none) (state : σ) :
    operation.calls shell session state = [] := by
  rw [calls, quiet]
  rfl

theorem capture_listing (shell : Shell σ) (session : Session) (command : Text) (mustSucceed : Bool)
    (state : σ) (calls : List Call) :
    session.capture shell.listing command mustSucceed (state, calls) =
      withCalls (calls ++ session.callsFor shell state command)
        (session.capture shell command mustSucceed state) := by
  rw [capture_eq_verdict, listing_check, capture_eq_verdict, callsFor]
  cases shell.check command state with
  | error failure last => rfl
  | ok _ checked =>
      dsimp only [withCalls, refusal?]
      rw [listing_run, List.append_assoc, List.singleton_append]
      cases shell.run command session.environment session.frame.positional checked with
      | error failure last => rfl
      | ok output last => exact (withCalls_settle ..).symm

theorem succeeds_listing (shell : Shell σ) (session : Session) (command : Text) (state : σ)
    (calls : List Call) :
    session.succeeds shell.listing command (state, calls) =
      withCalls (calls ++ session.callsFor shell state command)
        (session.succeeds shell command state) := by
  unfold succeeds
  rw [capture_listing]
  rcases session.capture shell command true state with ⟨value, last⟩ | ⟨_ | _ | _ | _ | _, last⟩ <;>
    rfl

theorem splicePaths_listing (shell : Shell σ) (session : Session) (name : Text) (parts : List Text)
    (content : Text) (state : σ) (calls : List Call) :
    session.splicePaths shell.listing name parts content (state, calls) =
      withCalls (calls ++ session.callsFor shell state (echoCommand ('$' :: name)))
        (session.splicePaths shell name parts content state) := by
  refine bind_withCalls (capture_listing ..) fun old last => ?_
  cases PathList.splice name parts (old.getD []) content <;> rfl

theorem typedValue_listing (shell : Shell σ) (session : Session) (name : Text)
    {previous : Option Value} (plain : ∀ parts, previous ≠ some (.paths parts)) (content : Text)
    (state : σ) (calls : List Call) :
    session.typedValue shell.listing name previous content (state, calls) =
      withCalls calls (session.typedValue shell name previous content state) := by
  rcases previous with _ | _ | _ | _ | _ | parts | _
  case some.paths => exact absurd rfl (plain parts)
  all_goals rfl

theorem setTyped_listing (shell : Shell σ) (session : Session) (name content : Text) (state : σ)
    (calls : List Call) :
    session.setTyped shell.listing name content (state, calls) =
      withCalls (calls ++ (Operation.setTyped name content).calls shell session state)
        (session.setTyped shell name content state) := by
  unfold setTyped previous?
  cases held : session.store.read name with
  | error failure =>
      rw [Operation.calls_of_none shell (by simp [Operation.command?, held]), List.append_nil]
      cases failure <;> rfl
  | ok value =>
      by_cases plain : ∀ parts, some value ≠ some (.paths parts)
      · have quiet : (Operation.setTyped name content).command? session = none := by
          cases value <;> simp_all [Operation.command?]
        rw [Operation.calls_of_none shell quiet, List.append_nil]
        exact bind_withCalls (typedValue_listing shell session name plain ..) fun _ _ => rfl
      · obtain ⟨parts, rfl⟩ : ∃ parts, value = .paths parts := by simpa using plain
        have asks : (Operation.setTyped name content).command? session =
            some (echoCommand ('$' :: name)) := by
          simp [Operation.command?, held]
        rw [Operation.calls_of_some shell asks]
        exact bind_withCalls (map_withCalls _ (splicePaths_listing ..)) fun _ _ => rfl

theorem useAlias_listing (shell : Shell σ) (session : Session) (name : Text)
    (arguments : List Text) (state : σ) (calls : List Call) :
    session.useAlias shell.listing name arguments (state, calls) =
      withCalls (calls ++ (Operation.useAlias name arguments).calls shell session state)
        (session.useAlias shell name arguments state) := by
  unfold useAlias
  rcases held : session.aliases.get? name with _ | words | body
  · rw [Operation.calls_of_none shell (by simp [Operation.command?, held]), List.append_nil]
    rfl
  · rw [Operation.calls_of_none shell (by simp [Operation.command?, held]), List.append_nil]
    rfl
  · have asks : (Operation.useAlias name arguments).command? session =
        some (body ++ argumentText arguments) := by
      simp [Operation.command?, held]
    rw [Operation.calls_of_some shell asks]
    exact map_withCalls _ (capture_listing ..)

/-- The shell that lists its calls changes nothing else, and it lists those of the operation. -/
theorem perform_listing (shell : Shell σ) (session : Session) (operation : Operation) (state : σ)
    (calls : List Call) :
    session.perform shell.listing operation (state, calls) =
      withCalls (calls ++ operation.calls shell session state)
        (session.perform shell operation state) := by
  cases operation with
  | capture command mustSucceed => exact bind_withCalls (capture_listing ..) fun _ _ => rfl
  | succeeds command => exact bind_withCalls (succeeds_listing ..) fun _ _ => rfl
  | expandQuotation text => exact bind_withCalls (capture_listing ..) fun _ _ => rfl
  | setTyped name content => exact bind_withCalls (setTyped_listing ..) fun _ _ => rfl
  | useAlias name arguments => exact bind_withCalls (useAlias_listing ..) fun _ _ => rfl
  | readVariable name =>
      rw [Operation.calls_of_none shell rfl, List.append_nil]
      unfold perform
      dsimp only
      cases session.store.read name <;> rfl
  | _ =>
      rw [Operation.calls_of_none shell rfl, List.append_nil]
      rfl

theorem capture_refused {shell : Shell σ} {command : Text} {state last : σ} {failure : Failure}
    (refused : shell.check command state = .error failure last) (session : Session)
    (mustSucceed : Bool) :
    session.capture shell command mustSucceed state = .error failure last :=
  bind_of_error refused

theorem succeeds_refused {shell : Shell σ} (own : shell.OwnFailures) {command : Text}
    {state last : σ} {failure : Failure} (refused : shell.check command state = .error failure last)
    (session : Session) : session.succeeds shell command state = .error failure last := by
  have ofShell := own.check command state failure last refused
  unfold succeeds
  rw [capture_refused refused]
  cases failure with
  | unsuccessful command status => cases ofShell
  | _ => rfl

theorem setTyped_refused {shell : Shell σ} {session : Session} {name content command : Text}
    {state last : σ} {failure : Failure}
    (asks : (Operation.setTyped name content).command? session = some command)
    (refused : shell.check command state = .error failure last) :
    session.setTyped shell name content state = .error failure last := by
  unfold Operation.command? at asks
  dsimp only at asks
  split at asks
  · rename_i parts held
    cases asks
    unfold setTyped previous?
    rw [held]
    exact bind_of_error (map_of_error (bind_of_error (capture_refused refused session true)))
  · cases asks

theorem useAlias_refused {shell : Shell σ} {session : Session} {name command : Text}
    {arguments : List Text} {state last : σ} {failure : Failure}
    (asks : (Operation.useAlias name arguments).command? session = some command)
    (refused : shell.check command state = .error failure last) :
    session.useAlias shell name arguments state = .error failure last := by
  unfold Operation.command? at asks
  dsimp only at asks
  split at asks
  · rename_i body held
    cases asks
    unfold useAlias
    rw [held]
    exact map_of_error (capture_refused refused session false)
  · cases asks

/-- An operation fails as the check of its command does, whatever its way to the shell. -/
theorem perform_refused {shell : Shell σ} (own : shell.OwnFailures) {session : Session}
    {operation : Operation} {command : Text} {state last : σ} {failure : Failure}
    (asks : operation.command? session = some command)
    (refused : shell.check command state = .error failure last) :
    session.perform shell operation state = .error failure last := by
  cases operation with
  | capture _ mustSucceed =>
      cases asks
      exact bind_of_error (capture_refused refused session mustSucceed)
  | succeeds _ =>
      cases asks
      exact bind_of_error (succeeds_refused own refused session)
  | expandQuotation text =>
      cases asks
      exact bind_of_error (capture_refused refused session false)
  | setTyped name content => exact bind_of_error (setTyped_refused asks refused)
  | useAlias name arguments => exact bind_of_error (useAlias_refused asks refused)
  | _ => cases asks

/-! ## The calls of a run -/

/-- What an operation has to do with its calls. Without a command there are none. A command is
checked, and either the check fails, which is what the operation comes to, or the command runs with
the environment and the parameters of the frame. -/
def Operation.Consults (before : Session) (result : Except Failure Answer) (calls : List Call)
    (operation : Operation) : Prop :=
  match operation.command? before with
  | none => calls = []
  | some command =>
    (∃ failure, calls = [.checked command (some failure)] ∧ result = .error failure) ∨
      calls = [.checked command none, .ran command before.environment before.frame.positional]

theorem consults_attempt {shell : Shell σ} (own : shell.OwnFailures) (session : Session) (state : σ)
    (operation : Operation) :
    operation.Consults session (attempt shell session state operation).1
      (operation.calls shell session state) := by
  unfold Operation.Consults
  cases asks : operation.command? session with
  | none => exact Operation.calls_of_none shell asks state
  | some command =>
      rw [Operation.calls_of_some shell asks, callsFor]
      cases checked : shell.check command state with
      | ok _ last => exact .inr rfl
      | error failure last =>
          refine .inl ⟨failure, rfl, ?_⟩
          rw [attempt, perform_refused own asks checked]

theorem attempt_listing (shell : Shell σ) (session : Session) (state : σ) (calls : List Call)
    (operation : Operation) :
    attempt shell.listing session (state, calls) operation =
      ((attempt shell session state operation).1, (attempt shell session state operation).2.1,
        (attempt shell session state operation).2.2,
        calls ++ operation.calls shell session state) := by
  rw [attempt, perform_listing, attempt]
  rcases session.perform shell operation state with ⟨⟨answer, after⟩, last⟩ | ⟨failure, last⟩ <;>
    rfl

mutual

def Event.unlisted : Event (σ × List Call) → Event σ
  | .answered result session memory => .answered result session memory.1
  | .returned events => .returned (unlistedAll events)

def unlistedAll : List (Event (σ × List Call)) → List (Event σ)
  | [] => []
  | event :: events => event.unlisted :: unlistedAll events

end

mutual

def StepConsults (before : Session) : Step → Event σ → List Call → Session → Prop
  | .operation operation, .answered result recorded _, calls, after =>
    recorded = after ∧ operation.Consults before result calls
  | .call name arguments body, .returned events, calls, after =>
    ∃ ended, RunConsults (before.enter name arguments) body events calls ended ∧
      after = before.resume ended
  | _, _, _, _ => False

def RunConsults (before : Session) : List Step → List (Event σ) → List Call → Session → Prop
  | [], [], calls, after => calls = [] ∧ after = before
  | step :: steps, event :: events, calls, after =>
    ∃ front back middle, calls = front ++ back ∧ StepConsults before step event front middle ∧
      RunConsults middle steps events back after
  | _, _, _, _ => False

end

mutual

theorem runStep_listing {shell : Shell σ} (own : shell.OwnFailures) (session : Session) (state : σ)
    (calls : List Call) : (step : Step) →
    ∃ listed made,
      runStep shell.listing session (state, calls) step =
        (listed, (runStep shell session state step).2.1, (runStep shell session state step).2.2,
          calls ++ made) ∧
      listed.unlisted = (runStep shell session state step).1 ∧
      StepConsults session step (runStep shell session state step).1 made
        (runStep shell session state step).2.1
  | .operation operation => by
      have consults := consults_attempt own session state operation
      rw [runStep, runStep, attempt_listing]
      exact ⟨_, _, rfl, rfl, rfl, consults⟩
  | .call name arguments body => by
      obtain ⟨listed, made, ran, same, consults⟩ :=
        runSteps_listing own (session.enter name arguments) state calls body
      rw [runStep, runStep, ran]
      exact ⟨_, made, rfl, congrArg Event.returned same, _, consults, rfl⟩

theorem runSteps_listing {shell : Shell σ} (own : shell.OwnFailures) (session : Session) (state : σ)
    (calls : List Call) : (steps : List Step) →
    ∃ listed made,
      runSteps shell.listing session (state, calls) steps =
        (listed, (runSteps shell session state steps).2.1,
          (runSteps shell session state steps).2.2, calls ++ made) ∧
      unlistedAll listed = (runSteps shell session state steps).1 ∧
      RunConsults session steps (runSteps shell session state steps).1 made
        (runSteps shell session state steps).2.1
  | [] => by
      rw [runSteps, runSteps]
      exact ⟨[], [], by rw [List.append_nil], rfl, rfl, rfl⟩
  | step :: steps => by
      obtain ⟨event, front, ran, same, consults⟩ := runStep_listing own session state calls step
      obtain ⟨events, back, ran', same', consults'⟩ :=
        runSteps_listing own (runStep shell session state step).2.1
          (runStep shell session state step).2.2 (calls ++ front) steps
      rw [runSteps, runSteps, ran]
      dsimp only
      rw [ran', List.append_assoc]
      exact ⟨_, _, rfl, congrArg₂ List.cons same same', front, back, _, rfl, consults, consults'⟩

end

/-- Right before each run of a command stands a check of that command that passed. -/
def CheckedFirst (calls : List Call) : Prop :=
  ∀ front command environment positional back,
    calls = front ++ .ran command environment positional :: back →
      ∃ earlier, front = earlier ++ [.checked command none]

theorem CheckedFirst.nil : CheckedFirst [] := by
  intro front command environment positional back shape
  simp at shape

theorem CheckedFirst.refused (command : Text) (refusal : Option Failure) :
    CheckedFirst [.checked command refusal] := by
  intro front command' environment positional back shape
  rcases front with _ | ⟨call, _ | ⟨call', front⟩⟩ <;> simp at shape

theorem CheckedFirst.passed (command : Text) (environment : Table Text) (positional : List Text) :
    CheckedFirst [.checked command none, .ran command environment positional] := by
  intro front command' environment' positional' back shape
  rcases front with _ | ⟨call, _ | ⟨call', front⟩⟩
  · cases shape
  · cases shape
    exact ⟨[], rfl⟩
  · simp at shape

theorem CheckedFirst.append {front back : List Call} (first : CheckedFirst front)
    (second : CheckedFirst back) : CheckedFirst (front ++ back) := by
  intro left command environment positional right shape
  rcases List.append_eq_append_iff.mp shape with ⟨middle, rfl, inBack⟩ | ⟨middle, inFront, shape'⟩
  · obtain ⟨earlier, rfl⟩ := second middle command environment positional right inBack
    exact ⟨front ++ earlier, by rw [List.append_assoc]⟩
  · cases middle with
    | nil =>
        -- A run cannot be the first call of the second part.
        obtain ⟨earlier, impossible⟩ := second [] command environment positional right shape'.symm
        simp at impossible
    | cons call middle =>
        cases shape'
        exact first left command environment positional middle inFront

theorem Operation.Consults.checkedFirst {operation : Operation} {before : Session}
    {result : Except Failure Answer} {calls : List Call}
    (consults : operation.Consults before result calls) : CheckedFirst calls := by
  unfold Operation.Consults at consults
  cases asks : operation.command? before with
  | none =>
      rw [asks] at consults
      rw [consults]
      exact .nil
  | some command =>
      rw [asks] at consults
      rcases consults with ⟨failure, rfl, -⟩ | rfl
      · exact .refused command _
      · exact .passed command _ _

mutual

theorem StepConsults.checkedFirst {before after : Session} {event : Event σ} {calls : List Call} :
    (step : Step) → StepConsults before step event calls after → CheckedFirst calls
  | .operation operation => by
      intro consults
      cases event with
      | answered result recorded state =>
          rw [StepConsults] at consults
          exact consults.2.checkedFirst
      | returned events => simp [StepConsults] at consults
  | .call name arguments body => by
      intro consults
      cases event with
      | answered result recorded state => simp [StepConsults] at consults
      | returned events =>
          rw [StepConsults] at consults
          obtain ⟨ended, inside, -⟩ := consults
          exact RunConsults.checkedFirst body inside

theorem RunConsults.checkedFirst {before after : Session} {events : List (Event σ)}
    {calls : List Call} :
    (steps : List Step) → RunConsults before steps events calls after → CheckedFirst calls
  | [] => by
      intro consults
      cases events with
      | nil =>
          rw [RunConsults] at consults
          rw [consults.1]
          exact .nil
      | cons event events => simp [RunConsults] at consults
  | step :: steps => by
      intro consults
      cases events with
      | nil => simp [RunConsults] at consults
      | cons event events =>
          rw [RunConsults] at consults
          obtain ⟨front, back, middle, rfl, first, rest⟩ := consults
          exact (StepConsults.checkedFirst step first).append (RunConsults.checkedFirst steps rest)

end

/-! ## Three ways to run a command -/

def outcome {α : Type} : EStateM.Result Failure σ α → Except Failure α
  | .ok value _ => .ok value
  | .error failure _ => .error failure

/-- What the shell says to a command: how it ended, or why it did not run. -/
def reply (shell : Shell σ) (session : Session) (command : Text) (state : σ) :
    Except Failure CommandResult :=
  outcome ((do
    shell.check command
    shell.run command session.environment session.frame.positional) state)

/-- What is left of an output without one line feed at its end, if there is one. -/
def Chomped (output left : Text) : Prop :=
  output = left ++ ['\n'] ∨ output = left ∧ ¬ ['\n'] <:+ output

theorem chomped_dropLineFeed (output : Text) : Chomped output (dropLineFeed output) := by
  unfold dropLineFeed
  split
  · rename_i ends
    exact .inl (List.dropLast_append_getLast? _ ends).symm
  · rename_i other
    refine .inr ⟨rfl, ?_⟩
    rintro ⟨front, rfl⟩
    simp at other

theorem outcome_capture (shell : Shell σ) (session : Session) (command : Text) (mustSucceed : Bool)
    (state : σ) :
    outcome (session.capture shell command mustSucceed state) =
      session.reply shell command state >>= verdict command mustSucceed := by
  rw [capture_eq_verdict, reply, bind_run]
  cases shell.check command state with
  | error failure last => rfl
  | ok _ checked =>
      dsimp only
      cases shell.run command session.environment session.frame.positional checked with
      | error failure last => rfl
      | ok output last =>
          show outcome (settle (verdict command mustSucceed output) last) =
            verdict command mustSucceed output
          cases verdict command mustSucceed output <;> rfl

theorem outcome_succeeds (shell : Shell σ) (session : Session) (command : Text) (state : σ) :
    outcome (session.succeeds shell command state) =
      match outcome (session.capture shell command true state) with
      | .ok _ => .ok true
      | .error (.unsuccessful _ _) => .ok false
      | .error failure => .error failure := by
  unfold succeeds
  rcases session.capture shell command true state with ⟨value, last⟩ | ⟨_ | _ | _ | _ | _, last⟩ <;>
    rfl

theorem reply_ofShell {shell : Shell σ} (own : shell.OwnFailures) {session : Session}
    {command : Text} {state : σ} {failure : Failure}
    (failed : session.reply shell command state = .error failure) : failure.ofShell = true := by
  unfold reply at failed
  rw [bind_run] at failed
  cases checked : shell.check command state with
  | error refusal last =>
      rw [checked] at failed
      cases failed
      exact own.check command state failure last checked
  | ok _ middle =>
      rw [checked] at failed
      dsimp only at failed
      cases ran : shell.run command session.environment session.frame.positional middle with
      | error reason last =>
          rw [ran] at failed
          cases failed
          exact own.run command _ _ middle failure last ran
      | ok output last =>
          rw [ran] at failed
          cases failed

/-- What comes of a command when it has to succeed, when it need not, and when it is run for its
success, by what the shell says to it. -/
def Agreement (command : Text) (strict lenient : Except Failure (Option Text))
    (test : Except Failure Bool) : Except Failure CommandResult → Prop
  | .ok output =>
    if output.status = some 0 then
      ∃ left, Chomped output.text left ∧
        strict = .ok (some left) ∧ lenient = .ok (some left) ∧ test = .ok true
    else
      strict = .error (.unsuccessful command output.status) ∧ lenient = .ok none ∧ test = .ok false
  | .error failure =>
    (∀ ended status, failure ≠ .unsuccessful ended status) ∧
      strict = .error failure ∧ lenient = .error failure ∧ test = .error failure

theorem agreement_of_reply {shell : Shell σ} (own : shell.OwnFailures) (session : Session)
    (command : Text) {first second third : σ}
    (second_same : session.reply shell command second = session.reply shell command first)
    (third_same : session.reply shell command third = session.reply shell command first) :
    Agreement command (outcome (session.capture shell command true first))
      (outcome (session.capture shell command false second))
      (outcome (session.succeeds shell command third)) (session.reply shell command first) := by
  rw [outcome_succeeds, outcome_capture, outcome_capture, outcome_capture, second_same, third_same]
  cases said : session.reply shell command first with
  | ok output =>
      by_cases zero : output.status = some 0
      · have success : output.success = true := by simp [CommandResult.success, zero]
        have judged : ∀ mustSucceed, (Except.ok output >>= verdict command mustSucceed) =
            .ok (some (dropLineFeed output.text)) := fun mustSucceed => if_pos success
        rw [Agreement, if_pos zero, judged, judged]
        exact ⟨_, chomped_dropLineFeed output.text, rfl, rfl, rfl⟩
      · have failed : ¬ output.success = true := by simpa [CommandResult.success] using zero
        have judged : ∀ mustSucceed, (Except.ok output >>= verdict command mustSucceed) =
            if mustSucceed then .error (.unsuccessful command output.status) else .ok none :=
          fun mustSucceed => if_neg failed
        rw [Agreement, if_neg zero, judged, judged]
        exact ⟨rfl, rfl, rfl⟩
  | error failure =>
      have ofShell := reply_ofShell own said
      cases failure with
      | invalidCommand command reason => exact ⟨nofun, rfl, rfl, rfl⟩
      | unavailable reason => exact ⟨nofun, rfl, rfl, rfl⟩
      | _ => cases ofShell

/-- With every shell that has no failures but its own: in every run, from every session and at every
depth, a command runs right behind a check of it that passed, with the parameters of its frame, and
a check that fails is what its operation comes to. A command that has to succeed, one that need not,
and one that is run for its success come to the same but for the end of the command, if the shell
says the same to each. -/
theorem commands_checked_first (shell : Shell σ) (own : shell.OwnFailures) :
    (∀ (session : Session) (state : σ) (steps : List Step), ∃ events last final listed calls,
      runSteps shell session state steps = (events, last, final) ∧
      runSteps shell.listing session (state, []) steps = (listed, last, final, calls) ∧
      unlistedAll listed = events ∧
      RunConsults session steps events calls last ∧ CheckedFirst calls) ∧
    ∀ (session : Session) (command : Text) (first second third : σ),
      session.reply shell command second = session.reply shell command first →
      session.reply shell command third = session.reply shell command first →
      Agreement command (outcome (session.capture shell command true first))
        (outcome (session.capture shell command false second))
        (outcome (session.succeeds shell command third)) (session.reply shell command first) := by
  refine ⟨?_, fun session command _ _ _ => agreement_of_reply own session command⟩
  intro session state steps
  obtain ⟨listed, calls, ran, same, consults⟩ := runSteps_listing own session state [] steps
  exact ⟨_, _, _, listed, calls, rfl, ran, same, consults, RunConsults.checkedFirst steps consults⟩

def counting : Shell Nat where
  check command :=
    if "((".toList.isPrefixOf command then throw (.invalidCommand command "parse error".toList)
    else pure ()
  run command _ _ := do
    modify (· + 1)
    if command = "false".toList then pure ⟨some 1, []⟩ else pure ⟨some 0, "x\n\n".toList⟩

theorem counting_ownFailures : counting.OwnFailures where
  check command state failure last := by
    unfold counting
    dsimp only
    rw [ite_run]
    split
    · rintro ⟨⟩
      rfl
    · rintro ⟨⟩
  run command environment positional state failure last := by
    unfold counting
    dsimp only
    rw [bind_run, modify_run]
    dsimp only
    rw [ite_run]
    split <;> rintro ⟨⟩

def nestedCommands : List Step :=
  [.operation (.defineAlias "a".toList (.command "ls".toList)),
    .call "f".toList ["1".toList] [.operation (.useAlias "a".toList ["b".toList]),
      .operation (.succeeds "((1))".toList)],
    .operation (.capture "false".toList false)]

theorem commands_checked_first_nested :
    (∃ events last final listed,
      runSteps counting.listing (start (.ofBindings .empty) none) (0, []) nestedCommands =
        (listed, last, final,
          [.checked "ls 'b'".toList none,
            .ran "ls 'b'".toList ⟨[("SHELL".toList, "/bin/zsh".toList)]⟩ ["f".toList, "1".toList],
            .checked "((1))".toList
              (some (.invalidCommand "((1))".toList "parse error".toList)),
            .checked "false".toList none,
            .ran "false".toList ⟨[("SHELL".toList, "/bin/zsh".toList)]⟩ []]) ∧
      runSteps counting (start (.ofBindings .empty) none) 0 nestedCommands =
        (events, last, final)) ∧
    Agreement "false".toList
      (outcome (capture counting (start (.ofBindings .empty) none) "false".toList true 0))
      (outcome (capture counting (start (.ofBindings .empty) none) "false".toList false 1))
      (outcome (succeeds counting (start (.ofBindings .empty) none) "false".toList 2))
      (.ok ⟨some 1, []⟩) := by
  obtain ⟨runs, entries⟩ := commands_checked_first counting counting_ownFailures
  obtain ⟨events, last, final, listed, calls, ran, ran', -, -, -⟩ :=
    runs (start (.ofBindings .empty) none) 0 nestedCommands
  have made : (runSteps counting.listing (start (.ofBindings .empty) none) (0, [])
      nestedCommands).2.2.2 = calls := by rw [ran']
  refine ⟨⟨events, last, final, listed, ?_, ran⟩, entries _ _ 0 1 2 rfl rfl⟩
  rw [ran', ← made]
  rfl

end Session

end ShellLift
