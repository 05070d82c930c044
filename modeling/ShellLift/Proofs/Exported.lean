import Mathlib
import ShellLift.Proofs.CommandEnvironment

/-!
# Exported variables

An export copies a local into the store, or makes a variable that was not there. Where the export
is made a command goes on to see what it saw, since a local counts more than the store. The scopes
further out that have no such local see the copy, as long as nothing else sets the variable, and
also when the function that made the export is done.
-/

set_option autoImplicit false

namespace ShellLift

open Step
open InPlace (leave)

theorem Table.Puts.get?_of_ne {α : Type} {name other : Text} {value : α} {before after : Table α}
    (puts : Puts other value before after) (differs : other ≠ name) :
    after.get? name = before.get? name := by
  have kept : ∀ table : Table α, table.get? name =
      (⟨table.entries.filter fun entry => entry.1 ≠ other⟩ : Table α).get? name := by
    intro table
    unfold get?
    rw [List.find?_filter]
    congr 2
    funext entry
    by_cases same : entry.1 = name
    · simp [same, Ne.symm differs]
    · simp [same]
  rw [kept after, puts.others, ← kept before]

namespace Session

variable {σ : Type}

/-! ## The scope of the export -/

theorem seen?_of_bound {session : Session} {name value : Text} (free : session.local? name = none)
    (notFixed : name ≠ "SHELL".toList)
    (bound : session.store.bindings.get? name = some (.text value)) :
    session.seen? name = some value := by
  simp only [seen?, free, if_neg notFixed, bound]
  rfl

/-- What the store has for a name does not show behind a local or a fixed variable. -/
theorem seen?_of_covered {before after : Session} {name : Text}
    (locals : after.local? name = before.local? name)
    (covered : before.local? name ≠ none ∨ name = "SHELL".toList) :
    after.seen? name = before.seen? name := by
  cases found : before.local? name with
  | some value => simp only [seen?, locals, found]
  | none =>
      have fixed := covered.resolve_left fun taken => taken found
      simp only [seen?, locals, found, if_pos fixed]

theorem seen?_setText (session : Session) (name value other : Text) :
    (session.setVariable name (.text value)).seen? other =
      if other = name ∧ session.local? name = none ∧ name ≠ "SHELL".toList then some value
      else session.seen? other := by
  by_cases same : other = name
  · subst same
    by_cases shows : session.local? other = none ∧ other ≠ "SHELL".toList
    · rw [if_pos ⟨rfl, shows⟩]
      exact seen?_of_bound shows.1 shows.2 (Table.get?_insert_self session.store.bindings other _)
    · rw [if_neg fun all => shows all.2]
      refine seen?_of_covered rfl ?_
      by_cases free : session.local? other = none
      · exact .inr (not_not.mp fun notFixed => shows ⟨free, notFixed⟩)
      · exact .inl free
  · have kept : (session.setVariable name (.text value)).store.bindings.get? other =
        session.store.bindings.get? other := Table.get?_insert_of_ne _ _ (Ne.symm same)
    have locals : (session.setVariable name (.text value)).local? other =
        session.local? other := rfl
    rw [if_neg fun all => same all.1]
    simp only [seen?, locals, kept]

theorem environment_exportVariable {session : Session} (tidy : Tidy session) {name : Text}
    (readable : session.store.unreadable.get? name = none) (other : Text) :
    (session.exportVariable name).environment.get? other =
      if other = name ∧ session.local? name = none ∧ session.store.bindings.get? name = none ∧
          name ≠ "SHELL".toList then some []
      else session.environment.get? other := by
  have tidy' : Tidy (session.exportVariable name) := (effect_exportVariable session name).tidy tidy
  rw [environment_get?_eq tidy', environment_get?_eq tidy]
  unfold exportVariable
  cases found : session.local? name with
  | some value =>
      dsimp only
      rw [seen?_setText, found]
      simp
  | none =>
      cases held : session.store.read name with
      | ok value =>
          have bound := (Store.read_eq_ok.mp held).2
          simp [bound]
      | error failure =>
          have unbound : session.store.bindings.get? name = none := by
            cases bound : session.store.bindings.get? name with
            | none => rfl
            | some value =>
                rw [Store.read_eq_ok.mpr ⟨readable, bound⟩] at held
                cases held
          dsimp only
          rw [seen?_setText, found, unbound]
          simp

/-! ## The scopes further out -/

theorem iterate_leave_store (session : Session) (depth : Nat) :
    (leave^[depth] session).store = session.store := by
  induction depth generalizing session with
  | zero => rfl
  | succ depth ih =>
      rw [Function.iterate_succ_apply, ih]
      obtain ⟨store, aliases, frame, _ | ⟨caller, callers⟩, home⟩ := session <;> rfl

theorem bound_exportVariable {session : Session} {name value : Text}
    (found : session.local? name = some value) :
    (session.exportVariable name).store.bindings.get? name = some (.text value) := by
  rw [exportVariable, found]
  exact Table.get?_insert_self session.store.bindings name (.text value)

theorem seen_from_outside {session : Session} {name value : Text}
    (bound : session.store.bindings.get? name = some (.text value))
    (notFixed : name ≠ "SHELL".toList) (depth : Nat)
    (free : (leave^[depth] session).local? name = none) :
    (leave^[depth] session).environment.get? name = some value := by
  have bound' : (leave^[depth] session).store.bindings.get? name = some (.text value) := by
    rw [iterate_leave_store, bound]
  apply environment_get?_of_bound bound' (by simp) free
  intro entry member
  obtain rfl := List.mem_singleton.mp member
  exact Ne.symm notFixed

/-! ## The end of the function -/

mutual

def Step.operations : Step → List Operation
  | .operation operation => [operation]
  | .call _ _ body => operationsOf body

def operationsOf : List Step → List Operation
  | [] => []
  | step :: steps => step.operations ++ operationsOf steps

end

/-- The variable of the store that an operation may set. -/
def Operation.target? : Operation → Option Text
  | .exportVariable name => some name
  | .setTyped name _ => some name
  | _ => none

/-- An operation leaves every variable of the store as it is but the one that it may set. -/
theorem Operation.Effect.get?_of_ne {operation : Operation} {before after : Session} {name : Text}
    (effect : operation.Effect before after) (spares : operation.target? ≠ some name) :
    after.store.bindings.get? name = before.store.bindings.get? name := by
  have stores : ∀ {other value}, other ≠ name → Stores other value before after →
      after.store.bindings.get? name = before.store.bindings.get? name := by
    rintro other value differs ⟨bindings, puts, rfl⟩
    exact puts.get?_of_ne differs
  cases operation with
  | exportVariable other =>
      rcases effect with written | ⟨rfl, -⟩
      · exact stores (fun same => spares (congrArg some same)) written
      · rfl
  | setTyped other content =>
      obtain ⟨value, written⟩ := effect
      exact stores (fun same => spares (congrArg some same)) written
  | setLocal other value =>
      obtain ⟨locals, -, rfl⟩ := effect
      rfl
  | defineAlias other meaning =>
      obtain ⟨aliases, -, rfl⟩ := effect
      rfl
  | _ =>
      cases effect
      rfl

mutual

theorem runStep_get?_of_spared (shell : Shell σ) {name : Text} (session : Session) (state : σ) :
    (step : Step) → (∀ operation ∈ step.operations, operation.target? ≠ some name) →
    (runStep shell session state step).2.1.store.bindings.get? name =
      session.store.bindings.get? name
  | .operation operation => by
      intro spared
      rw [runStep, attempt]
      cases ran : session.perform shell operation state with
      | ok found last =>
          obtain ⟨answer, after⟩ := found
          apply (effect_of_perform ran).get?_of_ne
          exact spared operation (by simp [Step.operations])
      | error failure last => rfl
  | .call callee arguments body => by
      intro spared
      rw [Step.operations] at spared
      rw [runStep]
      exact runSteps_get?_of_spared shell (session.enter callee arguments) state body spared

theorem runSteps_get?_of_spared (shell : Shell σ) {name : Text} (session : Session) (state : σ) :
    (steps : List Step) → (∀ operation ∈ operationsOf steps, operation.target? ≠ some name) →
    (runSteps shell session state steps).2.1.store.bindings.get? name =
      session.store.bindings.get? name
  | [] => by
      intro _
      rw [runSteps]
  | step :: steps => by
      intro spared
      rw [operationsOf, List.forall_mem_append] at spared
      rw [runSteps]
      exact (runSteps_get?_of_spared shell _ _ steps spared.2).trans
        (runStep_get?_of_spared shell session state step spared.1)

end

theorem runSteps_append (shell : Shell σ) (session : Session) (state : σ)
    (front back : List Step) :
    (runSteps shell session state (front ++ back)).2 =
      (runSteps shell (runSteps shell session state front).2.1
        (runSteps shell session state front).2.2 back).2 := by
  induction front generalizing session state with
  | nil => rw [List.nil_append, runSteps]
  | cons step front ih => rw [List.cons_append, runSteps, runSteps, ih]

/-- The variable still has its exported value when the function is done. -/
theorem bound_after_call (shell : Shell σ) (state : σ) (caller : Session) (callee : Text)
    (arguments : List Text) (body rest : List Step) {name value : Text}
    (found : (runSteps shell (caller.enter callee arguments) state body).2.1.local? name =
      some value)
    (spared : ∀ operation ∈ operationsOf rest, operation.target? ≠ some name) :
    (runStep shell caller state (.call callee arguments
      (body ++ .operation (.exportVariable name) :: rest))).2.1.store.bindings.get? name =
      some (.text value) := by
  rw [runStep]
  show (runSteps shell _ state _).2.1.store.bindings.get? name = _
  rw [runSteps_append, runSteps]
  exact (runSteps_get?_of_spared shell _ _ rest spared).trans (bound_exportVariable found)

/-- A command sees after an export what it saw before it from the same scope, but for a variable
that was neither a local nor in the store, which is now empty. An exported local is what it sees
from every scope of the chain without a local of that name, at once and when the function is done.
What follows the export in the function may do anything but set the variable. -/
theorem export_observed (name : Text) :
    (∀ session : Session, Tidy session → session.store.unreadable.get? name = none → ∀ other,
      (session.exportVariable name).environment.get? other =
        if other = name ∧ session.local? name = none ∧ session.store.bindings.get? name = none ∧
            name ≠ "SHELL".toList then some []
        else session.environment.get? other) ∧
    (name ≠ "SHELL".toList → ∀ value,
      (∀ session : Session, session.local? name = some value → ∀ depth,
        (leave^[depth] (session.exportVariable name)).local? name = none →
        (leave^[depth] (session.exportVariable name)).environment.get? name = some value) ∧
      ∀ (shell : Shell σ) (state : σ) (caller : Session) (callee : Text) (arguments : List Text)
        (body rest : List Step),
        (runSteps shell (caller.enter callee arguments) state body).2.1.local? name = some value →
        (∀ operation ∈ operationsOf rest, operation.target? ≠ some name) →
        ∀ returned, returned = (runStep shell caller state (.call callee arguments
          (body ++ .operation (.exportVariable name) :: rest))).2.1 →
        ∀ depth, (leave^[depth] returned).local? name = none →
          (leave^[depth] returned).environment.get? name = some value) := by
  refine ⟨fun session tidy readable => environment_exportVariable tidy readable, ?_⟩
  intro notFixed value
  constructor
  · intro session found depth free
    exact seen_from_outside (bound_exportVariable found) notFixed depth free
  · rintro shell state caller callee arguments body rest found spared _ rfl depth free
    exact seen_from_outside (bound_after_call shell state caller callee arguments body rest found
      spared) notFixed depth free

/-- A function with a local has called another function; the store has the variable too. -/
def nestedLocal : Session :=
  (((start (.ofBindings ⟨[("A".toList, .number 0)]⟩) none).enter "f".toList []).setLocal
    "A".toList "1".toList).enter "g".toList []

theorem tidy_nestedLocal : Tidy nestedLocal := ⟨by decide, by decide⟩

theorem export_observed_nested :
    -- From the inner function the local is seen, from outside of both the store.
    nestedLocal.environment.get? "A".toList = some "1".toList ∧
    (leave^[2] nestedLocal).environment.get? "A".toList = some "0".toList ∧
    (nestedLocal.exportVariable "A".toList).environment.get? "A".toList = some "1".toList ∧
    (leave^[2] (nestedLocal.exportVariable "A".toList)).environment.get? "A".toList =
      some "1".toList ∧
    (nestedLocal.exportVariable "B".toList).environment.get? "B".toList = some [] ∧
    (runStep silent (start (.ofBindings ⟨[("A".toList, .number 0)]⟩) none) ()
      (.call "f".toList [] [.operation (.setLocal "A".toList (.flag true)),
        .operation (.exportVariable "A".toList),
        .operation (.setLocal "A".toList (.number 7))])).2.1.environment.get? "A".toList =
      some "true".toList := by
  obtain ⟨same, seen⟩ := @export_observed Unit "A".toList
  obtain ⟨emptied, -⟩ := @export_observed Unit "B".toList
  refine ⟨by decide, by decide, ?_, ?_, ?_, ?_⟩
  · rw [same nestedLocal tidy_nestedLocal (by decide)]
    decide
  · exact (seen (by decide) "1".toList).1 nestedLocal (by decide) 2 (by decide)
  · rw [emptied nestedLocal tidy_nestedLocal (by decide)]
    decide
  · exact (seen (by decide) "true".toList).2 silent ()
      (start (.ofBindings ⟨[("A".toList, .number 0)]⟩) none) "f".toList []
      [.operation (.setLocal "A".toList (.flag true))]
      [.operation (.setLocal "A".toList (.number 7))] (by decide) (by decide) _ rfl 0 (by decide)

end Session

end ShellLift
