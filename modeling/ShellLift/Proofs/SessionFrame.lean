import Mathlib
import ShellLift.Proofs.Environment
import ShellLift.Proofs.InPlace

/-!
# What the steps of a run change

Each operation has one place to write to, and it writes there only when it succeeds. A call leaves
the frames of its callers as they were. `RunFramed` says this of every step of a run, at every
depth, and every run has it, also in place.
-/

set_option autoImplicit false

namespace ShellLift

open Step

namespace Table

variable {α : Type}

/-- The second table has one value more or one value changed. All else is in it as it was, and in
the same order. -/
structure Puts (name : Text) (value : α) (before after : Table α) : Prop where
  value : after.get? name = some value
  others : after.entries.filter (fun entry => entry.1 ≠ name) =
    before.entries.filter fun entry => entry.1 ≠ name
  names : after.names = if name ∈ before.names then before.names else before.names ++ [name]

theorem filter_put (name : Text) (value : α) (entries : List (Text × α)) :
    (put name value entries).filter (fun entry => entry.1 ≠ name) =
      entries.filter fun entry => entry.1 ≠ name := by
  induction entries with
  | nil => simp [put]
  | cons entry entries ih =>
      rw [put]
      by_cases same : entry.1 = name
      · simp [same]
      · rw [if_neg same, List.filter_cons, List.filter_cons, ih]

theorem map_put (name : Text) (value : α) (entries : List (Text × α)) :
    (put name value entries).map Prod.fst =
      if name ∈ entries.map Prod.fst then entries.map Prod.fst
      else entries.map Prod.fst ++ [name] := by
  induction entries with
  | nil => simp [put]
  | cons entry entries ih =>
      rw [put]
      by_cases same : entry.1 = name
      · simp [same]
      · rw [if_neg same, List.map_cons, ih]
        by_cases member : name ∈ entries.map Prod.fst
        · rw [if_pos member, List.map_cons, if_pos (List.mem_cons_of_mem _ member)]
        · have absent : name ∉ entry.1 :: entries.map Prod.fst := by
            simpa [Ne.symm same] using member
          rw [if_neg member, List.map_cons, if_neg absent, List.cons_append]

theorem puts_insert (table : Table α) (name : Text) (value : α) :
    Puts name value table (table.insert name value) where
  value := get?_insert_self table name value
  others := filter_put name value table.entries
  names := map_put name value table.entries

end Table

namespace Session

variable {σ : Type}

/-! ## Operations -/

def Stores (name : Text) (value : Value) (before after : Session) : Prop :=
  ∃ bindings, before.store.bindings.Puts name value bindings ∧
    after = { before with store := { before.store with bindings := bindings } }

theorem stores_setVariable (session : Session) (name : Text) (value : Value) :
    Stores name value session (session.setVariable name value) :=
  ⟨_, Table.puts_insert session.store.bindings name value, rfl⟩

def Operation.Effect (before after : Session) : Operation → Prop
  | .setLocal name value =>
    ∃ locals, before.frame.locals.Puts name value.recorded locals ∧
      after = { before with frame := { before.frame with locals := locals } }
  | .exportVariable name =>
    Stores name (.text ((before.local? name).getD [])) before after ∨
      after = before ∧ before.local? name = none ∧ ∃ value, before.store.read name = .ok value
  | .setTyped name _ => ∃ value, Stores name value before after
  | .defineAlias name meaning =>
    ∃ aliases, before.aliases.Puts name meaning aliases ∧ after = { before with aliases := aliases }
  | _ => after = before

theorem effect_exportVariable (session : Session) (name : Text) :
    (Operation.exportVariable name).Effect session (session.exportVariable name) := by
  unfold exportVariable
  show Stores name (.text ((session.local? name).getD [])) session _ ∨ _
  cases session.local? name with
  | some value => exact .inl (stores_setVariable ..)
  | none =>
      cases session.store.read name with
      | ok value => exact .inr ⟨rfl, rfl, value, rfl⟩
      | error failure => exact .inl (stores_setVariable ..)

theorem stores_of_setTyped {shell : Shell σ} {before after : Session} {name content : Text}
    {state last : σ} (ran : before.setTyped shell name content state = .ok after last) :
    ∃ value, Stores name value before after := by
  unfold setTyped at ran
  cases known : before.previous? name with
  | error failure =>
      rw [known] at ran
      cases ran
  | ok previous =>
      rw [known] at ran
      obtain ⟨value, middle, -, written⟩ := bind_eq_ok.mp ran
      cases written
      exact ⟨value, stores_setVariable ..⟩

theorem unchanged_of_answer {α : Type} {before after : Session} {wrap : α → Answer}
    {step : EStateM Failure σ α} {answer : Answer} {state last : σ}
    (ran : before.answer wrap step state = .ok (answer, after) last) : after = before := by
  obtain ⟨content, middle, -, answered⟩ := bind_eq_ok.mp ran
  cases answered
  rfl

theorem effect_of_perform {shell : Shell σ} {before after : Session} {operation : Operation}
    {answer : Answer} {state last : σ}
    (ran : before.perform shell operation state = .ok (answer, after) last) :
    operation.Effect before after := by
  cases operation with
  | setLocal name value =>
      cases ran
      exact ⟨_, Table.puts_insert before.frame.locals name value.recorded, rfl⟩
  | exportVariable name =>
      cases ran
      exact effect_exportVariable before name
  | setTyped name content =>
      obtain ⟨written, middle, stored, answered⟩ := bind_eq_ok.mp ran
      cases answered
      exact stores_of_setTyped stored
  | defineAlias name meaning =>
      cases ran
      exact ⟨_, Table.puts_insert before.aliases name meaning, rfl⟩
  | readVariable name =>
      unfold perform at ran
      cases held : before.store.read name with
      | ok value =>
          simp only [held] at ran
          cases ran
          rfl
      | error failure =>
          simp only [held] at ran
          cases ran
  | capture command mustSucceed => exact unchanged_of_answer ran
  | succeeds command => exact unchanged_of_answer ran
  | expandQuotation text => exact unchanged_of_answer ran
  | useAlias name arguments => exact unchanged_of_answer ran
  | readLocal name => cases ran; rfl
  | readPositional => cases ran; rfl
  | expandTilde text => cases ran; rfl
  | readEnvironment => cases ran; rfl
  | readAlias name => cases ran; rfl

/-! ## Calls and runs -/

/-- The frames of the running function and of its callers are as they were, and so is what a
lookup finds from each of them on. -/
structure Restored (before after : Session) : Prop where
  frame : after.frame = before.frame
  callers : after.callers = before.callers
  lookups : ∀ depth name, lookup? name ((after.frame :: after.callers).drop depth) =
    lookup? name ((before.frame :: before.callers).drop depth)

theorem restored_resume (caller ended : Session) : Restored caller (caller.resume ended) :=
  ⟨rfl, rfl, fun _ _ => rfl⟩

mutual

/-- A step changes what it may: an operation that fails nothing, an operation that succeeds its
one place, and a call what the operations in its body change in the store and the short names. -/
def StepFramed (before : Session) : Step → Event σ → Session → Prop
  | .operation operation, .answered (.ok _) recorded _, after =>
    recorded = after ∧ operation.Effect before after
  | .operation _, .answered (.error _) recorded _, after => recorded = after ∧ after = before
  -- A function that gives up at a failed operation has the body up to that operation.
  | .call name arguments body, .returned events, after =>
    Restored before after ∧ ∃ ended, RunFramed (before.enter name arguments) body events ended ∧
      after.store = ended.store ∧ after.aliases = ended.aliases
  | _, _, _ => False

def RunFramed (before : Session) : List Step → List (Event σ) → Session → Prop
  | [], [], after => after = before
  | step :: steps, event :: events, after =>
    ∃ middle, StepFramed before step event middle ∧ RunFramed middle steps events after
  | _, _, _ => False

end

mutual

theorem stepFramed_runStep (shell : Shell σ) (session : Session) (state : σ) : (step : Step) →
    StepFramed session step (runStep shell session state step).1
      (runStep shell session state step).2.1
  | .operation operation => by
      rw [runStep, attempt]
      cases ran : session.perform shell operation state with
      | ok found last =>
          obtain ⟨answer, after⟩ := found
          exact ⟨rfl, effect_of_perform ran⟩
      | error failure last => exact ⟨rfl, rfl⟩
  | .call name arguments body => by
      have inside := runFramed_runSteps shell (session.enter name arguments) state body
      rw [runStep]
      exact ⟨restored_resume .., _, inside, rfl, rfl⟩

theorem runFramed_runSteps (shell : Shell σ) (session : Session) (state : σ) :
    (steps : List Step) →
    RunFramed session steps (runSteps shell session state steps).1
      (runSteps shell session state steps).2.1
  | [] => by
      rw [runSteps]
      rfl
  | step :: steps => by
      have first := stepFramed_runStep shell session state step
      have rest := runFramed_runSteps shell (runStep shell session state step).2.1
        (runStep shell session state step).2.2 steps
      rw [runSteps]
      exact ⟨_, first, rest⟩

end

/-! ## Runs in place -/

def Kept (before after : Session) : Prop :=
  after.callers = before.callers ∧ after.frame.positional = before.frame.positional

theorem Operation.Effect.kept {operation : Operation} {before after : Session}
    (effect : operation.Effect before after) : Kept before after := by
  cases operation with
  | setLocal name value =>
      obtain ⟨locals, -, rfl⟩ := effect
      exact ⟨rfl, rfl⟩
  | exportVariable name =>
      obtain ⟨bindings, -, rfl⟩ | ⟨rfl, -⟩ := effect
      · exact ⟨rfl, rfl⟩
      · exact ⟨rfl, rfl⟩
  | setTyped name content =>
      obtain ⟨value, bindings, -, rfl⟩ := effect
      exact ⟨rfl, rfl⟩
  | defineAlias name meaning =>
      obtain ⟨aliases, -, rfl⟩ := effect
      exact ⟨rfl, rfl⟩
  | _ =>
      cases effect
      exact ⟨rfl, rfl⟩

theorem StepFramed.kept {before after : Session} {step : Step} {event : Event σ}
    (framed : StepFramed before step event after) : Kept before after := by
  cases step with
  | operation operation =>
      rcases event with ⟨failure | answer, recorded, state⟩ | events
      · rw [StepFramed] at framed
        obtain ⟨-, rfl⟩ := framed
        exact ⟨rfl, rfl⟩
      · rw [StepFramed] at framed
        exact framed.2.kept
      · simp [StepFramed] at framed
  | call name arguments body =>
      rcases event with _ | events
      · simp [StepFramed] at framed
      · rw [StepFramed] at framed
        obtain ⟨restored, -⟩ := framed
        exact ⟨restored.callers, by rw [restored.frame]⟩

theorem RunFramed.kept {before after : Session} {steps : List Step} {events : List (Event σ)}
    (framed : RunFramed before steps events after) : Kept before after := by
  induction steps generalizing before events with
  | nil =>
      cases events with
      | nil =>
          rw [RunFramed] at framed
          rw [framed]
          exact ⟨rfl, rfl⟩
      | cons event events => simp [RunFramed] at framed
  | cons step steps ih =>
      cases events with
      | nil => simp [RunFramed] at framed
      | cons event events =>
          rw [RunFramed] at framed
          obtain ⟨middle, first, rest⟩ := framed
          exact ⟨(ih rest).1.trans first.kept.1, (ih rest).2.trans first.kept.2⟩

end Session

namespace InPlace

open Session

variable {σ : Type}

/-- The frame on top at the end of a body is that of the call, so its caller goes on. -/
theorem leave_eq_resume {caller ended : Session} {name : Text} {arguments : List Text}
    (kept : Kept (caller.enter name arguments) ended) : leave ended = caller.resume ended := by
  obtain ⟨callers, -⟩ := kept
  unfold leave resume
  rw [callers]
  rfl

mutual

theorem act_run (shell : Shell σ) (session : Session) (state : σ) : (step : Session.Step) →
    act shell ⟨session, state⟩ step =
      ((runStep shell session state step).1, ⟨(runStep shell session state step).2.1,
        (runStep shell session state step).2.2⟩)
  | .operation operation => by
      rw [act, perform_run, runStep, attempt]
      rcases session.perform shell operation state with ⟨⟨answer, after⟩, last⟩ | ⟨failure, last⟩
      · rfl
      · rfl
  | .call name arguments body => by
      have inside := actAll_run shell (session.enter name arguments) state body
      have kept := (runFramed_runSteps shell (session.enter name arguments) state body).kept
      rw [act, runStep]
      dsimp only
      rw [inside]
      dsimp only
      rw [leave_eq_resume kept]

theorem actAll_run (shell : Shell σ) (session : Session) (state : σ) :
    (steps : List Session.Step) →
    actAll shell ⟨session, state⟩ steps =
      ((runSteps shell session state steps).1, ⟨(runSteps shell session state steps).2.1,
        (runSteps shell session state steps).2.2⟩)
  | [] => by rw [actAll, runSteps]
  | step :: steps => by
      have first := act_run shell session state step
      have rest := actAll_run shell (runStep shell session state step).2.1
        (runStep shell session state step).2.2 steps
      rw [actAll, runSteps, first]
      dsimp only
      rw [rest]

end

/-- Every run, with every shell and from every session, comes in place to what it comes to on
values. Each of its steps at every depth changes what it may and no more, and at its end the
callers and the parameters are as they were. -/
theorem run_framed (shell : Shell σ) (session : Session) (state : σ) (steps : List Session.Step) :
    ∃ events last final,
      actAll shell ⟨session, state⟩ steps = (events, ⟨last, final⟩) ∧
      runSteps shell session state steps = (events, last, final) ∧
      RunFramed session steps events last ∧
      last.callers = session.callers ∧ last.frame.positional = session.frame.positional := by
  have framed := runFramed_runSteps shell session state steps
  exact ⟨_, _, _, actAll_run shell session state steps, rfl, framed, framed.kept⟩

end InPlace

end ShellLift
