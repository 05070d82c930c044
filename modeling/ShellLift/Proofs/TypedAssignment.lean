import Mathlib
import ShellLift.Proofs.Numeral
import ShellLift.Proofs.PathAssignment
import ShellLift.Proofs.SessionFrame

/-!
# Assignments that keep the kind of a value

An assignment gives a text, and the kind of the value before it decides what the text becomes. Here
is what that means for one assignment, for a run of them, for a text that is the value's own, and
for a variable that cannot be read.
-/

set_option autoImplicit false

namespace ShellLift

open Step

/-! ## Values -/

namespace Value

theorem Kind.kind?_of_read? {kind : Kind} {content : Text} {value : Value}
    (read : kind.read? content = some value) : value.kind? = some kind := by
  cases kind with
  | text =>
      cases read
      rfl
  | flag =>
      obtain ⟨flag, -, rfl⟩ := Option.map_eq_some_iff.mp read
      rfl
  | number =>
      obtain ⟨number, -, rfl⟩ := Option.map_eq_some_iff.mp read
      rfl
  | absent =>
      rw [read?] at read
      split at read
      · cases read
        rfl
      · cases read
  | paths => cases read

theorem number?_toInt (n : Int64) : number? n.toInt = some n := by
  rw [number?, if_pos ⟨n.minValue_le_toInt, n.toInt_le⟩, Int64.ofInt_toInt]

/-- The flat text of a value is read back as the value. -/
theorem Kind.read?_flat {kind : Kind} {value : Value} (known : value.kind? = some kind)
    (plain : kind ≠ .paths) : kind.read? value.flat = some value := by
  cases value with
  | text content =>
      cases known
      rfl
  | flag content =>
      cases known
      cases content <;> decide
  | number content =>
      cases known
      rw [flat, read?, Text.readInt?_ofInt, Option.bind_some, number?_toInt, Option.map_some]
  | absent =>
      cases known
      rfl
  | paths parts =>
      cases known
      exact absurd rfl plain
  | foreign content => cases known

def reread (content : Text) (previous : Option Value) : Value :=
  ((previous.bind kind?).bind fun kind => kind.read? content).getD (.text content)

theorem reread_of_read? {content : Text} {previous : Option Value} {kind : Kind} {value : Value}
    (known : previous.bind kind? = some kind) (read : kind.read? content = some value) :
    reread content previous = value := by
  rw [reread, known, Option.bind_some, read, Option.getD_some]

/-- A text is read in the kind of the value before it, or stays a text. -/
theorem reread_cases (content : Text) (previous : Option Value) :
    (∃ kind, previous.bind kind? = some kind ∧
        kind.read? content = some (reread content previous)) ∨
      reread content previous = .text content := by
  cases known : previous.bind kind? with
  | none =>
      right
      rw [reread, known]
      rfl
  | some kind =>
      cases read : kind.read? content with
      | none =>
          right
          rw [reread, known, Option.bind_some, read]
          rfl
      | some value =>
          left
          rw [reread_of_read? known read]
          exact ⟨kind, rfl, read⟩

theorem kind?_reread (content : Text) (previous : Option Value) :
    (reread content previous).kind? = previous.bind kind? ∨
      (reread content previous).kind? = some .text := by
  rcases reread_cases content previous with ⟨kind, known, read⟩ | demoted
  · left
    rw [Kind.kind?_of_read? read, known]
  · right
    rw [demoted]
    rfl

theorem reread_ne_paths (content : Text) (previous : Option Value) (parts : List Text) :
    reread content previous ≠ .paths parts := by
  intro same
  rcases reread_cases content previous with ⟨kind, -, read⟩ | demoted
  · rw [same] at read
    cases Kind.kind?_of_read? read
    cases read
  · rw [same] at demoted
    cases demoted

theorem reread_reread (content : Text) (previous : Option Value) :
    reread content (some (reread content previous)) = reread content previous := by
  rcases reread_cases content previous with ⟨kind, known, read⟩ | demoted
  · exact reread_of_read? (Kind.kind?_of_read? read) read
  · rw [demoted]
    rfl

/-- How the value of a variable may go on: with its kind or as a text, and a path list with its
parts side by side in a path list. -/
structure Keeps (before after : Option Value) : Prop where
  kind : after.bind kind? = before.bind kind? ∨ after.bind kind? = some .text
  text : before.bind kind? = some .text → after.bind kind? = some .text
  paths : ∀ parts, before = some (.paths parts) →
    ∃ grown, after = some (.paths grown) ∧ parts <:+: grown

namespace Keeps

theorem refl (value : Option Value) : Keeps value value where
  kind := .inl rfl
  text := id
  paths := fun parts same => ⟨parts, same, List.infix_refl parts⟩

theorem trans {first second third : Option Value} (before : Keeps first second)
    (after : Keeps second third) : Keeps first third where
  kind := by
    rcases before.kind with same | demoted
    · rw [← same]
      exact after.kind
    · exact .inr (after.text demoted)
  text := fun known => after.text (before.text known)
  paths := by
    intro parts held
    obtain ⟨grown, found, inside⟩ := before.paths parts held
    obtain ⟨last, found', inside'⟩ := after.paths grown found
    exact ⟨last, found', inside.trans inside'⟩

theorem of_reread {content : Text} {previous : Option Value}
    (plain : ∀ parts, previous ≠ some (.paths parts)) :
    Keeps previous (some (reread content previous)) where
  kind := kind?_reread content previous
  text := by
    intro known
    rcases kind?_reread content previous with same | demoted
    · exact same.trans known
    · exact demoted
  paths := fun parts held => absurd held (plain parts)

end Keeps

end Value

namespace PathList

theorem infix_of_splice {name old new : Text} {target grown : List Text}
    (spliced : splice name target old new = .ok grown) : target <:+: grown := by
  rw [splice] at spliced
  split at spliced
  · cases spliced
  · cases spliced
    exact List.infix_append ..

end PathList

/-! ## One assignment -/

theorem Store.read_of_readable {store : Store} (readable : store.unreadable = .empty)
    (name : Text) :
    store.read name =
      match store.bindings.get? name with
      | some value => .ok value
      | none => .error (.undefined name) := by
  rw [read, readable]
  rfl

namespace Session

variable {σ : Type}

theorem previous?_of_readable {session : Session} (readable : session.store.unreadable = .empty)
    (name : Text) : session.previous? name = .ok (session.store.bindings.get? name) := by
  rw [previous?, Store.read_of_readable readable]
  cases session.store.bindings.get? name <;> rfl

theorem typedValue_run_of_plain (shell : Shell σ) (session : Session) (name content : Text)
    {previous : Option Value} (state : σ) (plain : ∀ parts, previous ≠ some (.paths parts)) :
    session.typedValue shell name previous content state =
      .ok (Value.reread content previous) state := by
  cases previous with
  | none => rfl
  | some value =>
      cases value with
      | paths parts => exact absurd rfl (plain parts)
      | _ => rfl

theorem setTyped_run_of_plain {shell : Shell σ} {session : Session} {name content : Text}
    {previous : Option Value} {state : σ} (known : session.previous? name = .ok previous)
    (plain : ∀ parts, previous ≠ some (.paths parts)) :
    session.setTyped shell name content state =
      .ok (session.setVariable name (Value.reread content previous)) state := by
  unfold setTyped
  rw [known]
  dsimp only
  rw [bind_run, typedValue_run_of_plain shell session name content state plain]
  rfl

theorem setVariable_store_eq_iff {session : Session} {name : Text} {value : Value} :
    (session.setVariable name value).store = session.store ↔
      session.store.bindings.get? name = some value := by
  rw [← Table.insert_eq_self_iff]
  constructor
  · intro same
    exact congrArg Store.bindings same
  · intro same
    rw [setVariable, Store.set, same]

theorem setVariable_eq_self {session : Session} {name : Text} {value : Value}
    (held : session.store.bindings.get? name = some value) :
    session.setVariable name value = session := by
  have same : (session.setVariable name value).store = session.store :=
    setVariable_store_eq_iff.mpr held
  unfold setVariable at same ⊢
  dsimp only at same
  rw [same]

theorem perform_setTyped_run (shell : Shell σ) (session : Session) (name content : Text)
    (state : σ) :
    session.perform shell (.setTyped name content) state =
      match session.setTyped shell name content state with
      | .ok next last => .ok (.done, next) last
      | .error failure last => .error failure last := by
  unfold perform
  dsimp only
  rw [bind_run]
  cases session.setTyped shell name content state <;> rfl

theorem attempt_of_setTyped {shell : Shell σ} {session next : Session} {name content : Text}
    {state last : σ} (ran : session.setTyped shell name content state = .ok next last) :
    attempt shell session state (.setTyped name content) = (.ok .done, next, last) := by
  rw [attempt, perform_setTyped_run, ran]

/-- An assignment to a variable that has no path list succeeds without the shell, makes a text of
what had no kind, and changes nothing when it is repeated. -/
theorem attempt_plain (shell : Shell σ) {session : Session}
    (readable : session.store.unreadable = .empty) {name : Text} (content : Text) (state : σ)
    (plain : ∀ parts, session.store.read name ≠ .ok (.paths parts)) :
    ∃ next, attempt shell session state (.setTyped name content) = (.ok .done, next, state) ∧
      (∀ later, attempt shell next later (.setTyped name content) = (.ok .done, next, later)) ∧
      ((session.store.bindings.get? name).bind Value.kind? = none →
        next.store.read name = .ok (.text content)) := by
  have known := previous?_of_readable readable name
  have plain' : ∀ parts, session.store.bindings.get? name ≠ some (.paths parts) := by
    intro parts held
    apply plain parts
    rw [Store.read_of_readable readable, held]
  generalize session.store.bindings.get? name = previous at known plain'
  let value := Value.reread content previous
  let next := session.setVariable name value
  have readable' : next.store.unreadable = .empty := readable
  have held : next.store.bindings.get? name = some value :=
    Table.get?_insert_self session.store.bindings name value
  have known' : next.previous? name = .ok (some value) := by
    rw [previous?_of_readable readable', held]
  refine ⟨next, attempt_of_setTyped (setTyped_run_of_plain known plain'), ?_, ?_⟩
  · intro later
    have plain'' : ∀ parts, some value ≠ some (.paths parts) := by
      intro parts same
      exact Value.reread_ne_paths content previous parts (Option.some.inj same)
    apply attempt_of_setTyped
    rw [setTyped_run_of_plain known' plain'', Value.reread_reread, setVariable_eq_self held]
  · intro unknown
    have demoted : value = .text content := by
      show Value.reread content previous = _
      rw [Value.reread, unknown]
      rfl
    rw [Store.read_of_readable readable', held, demoted]

theorem splicePaths_infix {shell : Shell σ} {session : Session} {name content : Text}
    {parts grown : List Text} {state last : σ}
    (ran : session.splicePaths shell name parts content state = .ok grown last) :
    parts <:+: grown := by
  obtain ⟨old, middle, -, spliced⟩ := bind_eq_ok.mp ran
  cases found : PathList.splice name parts (old.getD []) content with
  | error failure =>
      rw [found] at spliced
      cases spliced
  | ok target =>
      rw [found] at spliced
      cases spliced
      exact PathList.infix_of_splice found

/-- What an assignment that succeeds has stored. -/
theorem setTyped_cases {shell : Shell σ} {before after : Session} {name content : Text}
    {state last : σ} (ran : before.setTyped shell name content state = .ok after last) :
    ∃ previous value, before.previous? name = .ok previous ∧
      after = before.setVariable name value ∧ Value.Keeps previous (some value) := by
  cases known : before.previous? name with
  | error failure =>
      unfold setTyped at ran
      rw [known] at ran
      cases ran
  | ok previous =>
      by_cases plain : ∀ parts, previous ≠ some (.paths parts)
      · rw [setTyped_run_of_plain known plain] at ran
        cases ran
        exact ⟨previous, _, rfl, rfl, .of_reread plain⟩
      · obtain ⟨parts, rfl⟩ : ∃ parts, previous = some (.paths parts) := by
          simpa using plain
        unfold setTyped at ran
        rw [known] at ran
        obtain ⟨value, middle, computed, stored⟩ := bind_eq_ok.mp ran
        obtain ⟨grown, spliced, rfl⟩ := map_eq_ok.mp computed
        cases stored
        refine ⟨_, .paths grown, rfl, rfl, .inl rfl, nofun, ?_⟩
        intro held same
        cases same
        exact ⟨grown, rfl, splicePaths_infix spliced⟩

end Session

/-! ## Runs -/

structure Store.Keeps (before after : Store) : Prop where
  unreadable : after.unreadable = before.unreadable
  values : ∀ name, Value.Keeps (before.bindings.get? name) (after.bindings.get? name)

namespace Store.Keeps

theorem refl (store : Store) : Store.Keeps store store := ⟨rfl, fun _ => .refl _⟩

theorem trans {first second third : Store} (before : Store.Keeps first second)
    (after : Store.Keeps second third) : Store.Keeps first third :=
  ⟨after.unreadable.trans before.unreadable,
    fun name => (before.values name).trans (after.values name)⟩

end Store.Keeps

namespace Session

variable {σ : Type}

theorem keeps_of_setTyped {shell : Shell σ} {before after : Session} {name content : Text}
    {state last : σ} (readable : before.store.unreadable = .empty)
    (ran : before.setTyped shell name content state = .ok after last) :
    Store.Keeps before.store after.store := by
  obtain ⟨previous, value, known, rfl, keeps⟩ := setTyped_cases ran
  rw [previous?_of_readable readable] at known
  cases known
  refine ⟨rfl, fun other => ?_⟩
  by_cases same : name = other
  · subst same
    show Value.Keeps _ ((before.store.bindings.insert name value).get? name)
    rw [Table.get?_insert_self]
    exact keeps
  · show Value.Keeps _ ((before.store.bindings.insert name value).get? other)
    rw [Table.get?_insert_of_ne _ _ same]
    exact .refl _

theorem keeps_of_perform {shell : Shell σ} {before after : Session} {operation : Operation}
    {answer : Answer} {state last : σ} (readable : before.store.unreadable = .empty)
    (unexported : ∀ name, operation ≠ .exportVariable name)
    (ran : before.perform shell operation state = .ok (answer, after) last) :
    Store.Keeps before.store after.store := by
  have effect := effect_of_perform ran
  cases operation with
  | exportVariable name => exact absurd rfl (unexported name)
  | setTyped name content =>
      obtain ⟨written, middle, stored, answered⟩ := bind_eq_ok.mp ran
      cases answered
      exact keeps_of_setTyped readable stored
  | setLocal name value =>
      obtain ⟨locals, -, rfl⟩ := effect
      exact .refl _
  | defineAlias name meaning =>
      obtain ⟨aliases, -, rfl⟩ := effect
      exact .refl _
  | _ =>
      cases effect
      exact .refl _

mutual

def Step.exports : Step → Bool
  | .operation (.exportVariable _) => true
  | .operation _ => false
  | .call _ _ body => exportsAny body

def exportsAny : List Step → Bool
  | [] => false
  | step :: steps => step.exports || exportsAny steps

end

mutual

/-- The stores that the operations of a step leave behind, at every depth and in order. -/
def Event.stores : Event σ → List Store
  | .answered _ session _ => [session.store]
  | .returned events => storesOf events

def storesOf : List (Event σ) → List Store
  | [] => []
  | event :: events => event.stores ++ storesOf events

end

/-- Two stretches that meet in one point, with a relation that goes through it. -/
theorem pairwise_through {α : Type} {r : α → α → Prop} {front back : List α} {middle : α}
    (left : (front ++ [middle]).Pairwise r) (right : (middle :: back).Pairwise r)
    (trans : ∀ a b c : α, r a b → r b c → r a c) : (front ++ back).Pairwise r := by
  obtain ⟨inFront, -, toMiddle⟩ := List.pairwise_append.mp left
  obtain ⟨fromMiddle, behind⟩ := List.pairwise_cons.mp right
  refine List.pairwise_append.mpr ⟨inFront, behind, ?_⟩
  intro a before b after
  exact trans a middle b (toMiddle a before middle (List.mem_singleton_self _)) (fromMiddle b after)

theorem unexported_of_exports {operation : Operation}
    (unexported : (Step.operation operation).exports = false) (name : Text) :
    operation ≠ .exportVariable name := by
  rintro rfl
  simp [Step.exports] at unexported

mutual

theorem pairwise_runStep (shell : Shell σ) (session : Session) (state : σ)
    (readable : session.store.unreadable = .empty) : (step : Step) → step.exports = false →
    (session.store :: (runStep shell session state step).1.stores ++
      [(runStep shell session state step).2.1.store]).Pairwise Store.Keeps
  | .operation operation => by
      intro unexported
      have keeps : Store.Keeps session.store
          (runStep shell session state (.operation operation)).2.1.store := by
        rw [runStep, attempt]
        cases ran : session.perform shell operation state with
        | ok found last =>
            obtain ⟨answer, after⟩ := found
            exact keeps_of_perform readable (unexported_of_exports unexported) ran
        | error failure last => exact .refl _
      have recorded : (runStep shell session state (.operation operation)).1.stores =
          [(runStep shell session state (.operation operation)).2.1.store] := by
        rw [runStep]
        rfl
      rw [recorded]
      simp [keeps, Store.Keeps.refl]
  | .call name arguments body => by
      intro unexported
      rw [Step.exports] at unexported
      have inside := pairwise_runSteps shell (session.enter name arguments) state readable body
        unexported
      rw [runStep]
      exact inside

theorem pairwise_runSteps (shell : Shell σ) (session : Session) (state : σ)
    (readable : session.store.unreadable = .empty) : (steps : List Step) →
    exportsAny steps = false →
    (session.store :: storesOf (runSteps shell session state steps).1 ++
      [(runSteps shell session state steps).2.1.store]).Pairwise Store.Keeps
  | [] => by
      intro _
      rw [runSteps, storesOf]
      simp [Store.Keeps.refl]
  | step :: steps => by
      intro unexported
      rw [exportsAny, Bool.or_eq_false_iff] at unexported
      have first := pairwise_runStep shell session state readable step unexported.1
      -- The store between the step and the others is readable because the step keeps it so.
      have between := (List.pairwise_cons.mp first).1 _
        (List.mem_append_right _ (List.mem_singleton_self _))
      have rest := pairwise_runSteps shell (runStep shell session state step).2.1
        (runStep shell session state step).2.2 (between.unreadable.trans readable)
          steps unexported.2
      rw [runSteps, storesOf, ← List.cons_append, List.append_assoc]
      exact pairwise_through first rest fun _ _ _ => Store.Keeps.trans

end

/-- In every run without exports, with every shell and from every session whose store can be read, a
variable goes on at every later point with its kind or as a text, and a path list goes on around its
parts. At every point and in every frame an assignment to a variable that has no path list succeeds,
makes a text of what had no kind, and changes nothing when it is repeated. -/
theorem run_keeps_kinds (shell : Shell σ) (session : Session) (state : σ) (steps : List Step)
    (readable : session.store.unreadable = .empty) (unexported : exportsAny steps = false) :
    ∃ events last final, runSteps shell session state steps = (events, last, final) ∧
      (session.store :: storesOf events ++ [last.store]).Pairwise (fun before after =>
        ∀ name, Value.Keeps (before.bindings.get? name) (after.bindings.get? name)) ∧
      ∀ caller : Session, caller.store ∈ session.store :: storesOf events ++ [last.store] →
        ∀ (name content : Text) (now : σ),
          (∀ parts, caller.store.read name ≠ .ok (.paths parts)) →
          ∃ next, attempt shell caller now (.setTyped name content) = (.ok .done, next, now) ∧
            (∀ later,
              attempt shell next later (.setTyped name content) = (.ok .done, next, later)) ∧
            ((caller.store.bindings.get? name).bind Value.kind? = none →
              next.store.read name = .ok (.text content)) := by
  have keeps := pairwise_runSteps shell session state readable steps unexported
  refine ⟨_, _, _, rfl, keeps.imp Store.Keeps.values, ?_⟩
  intro caller member name content now plain
  have readable' : caller.store.unreadable = .empty := by
    rcases List.mem_cons.mp member with same | later
    · rw [same]
      exact readable
    · exact ((List.pairwise_cons.mp keeps).1 _ later).unreadable.trans readable
  exact attempt_plain shell readable' content now plain

def mixed : Session :=
  start (.ofBindings ⟨[("P".toList, .paths ["/bin".toList]), ("N".toList, .number 1)]⟩) none

def mixedAssignments : List Step :=
  [.operation (.setTyped "P".toList "/a:/bin".toList),
    .call "f".toList [] [.operation (.setTyped "P".toList "/c".toList),
      .operation (.setTyped "N".toList "x".toList)]]

theorem run_keeps_kinds_mixed :
    ∃ events last final,
      runSteps (printer "P".toList) mixed () mixedAssignments = (events, last, final) ∧
      (∃ grown, last.store.bindings.get? "P".toList = some (.paths grown) ∧
        ["/bin".toList] <:+: grown) ∧
      ((last.store.bindings.get? "N".toList).bind Value.kind? = some .number ∨
        (last.store.bindings.get? "N".toList).bind Value.kind? = some .text) := by
  obtain ⟨events, last, final, ran, keeps, -⟩ :=
    run_keeps_kinds (printer "P".toList) mixed () mixedAssignments rfl rfl
  have whole := (List.pairwise_cons.mp keeps).1 last.store
    (List.mem_append_right _ (List.mem_singleton_self _))
  exact ⟨events, last, final, ran, (whole "P".toList).paths _ rfl, (whole "N".toList).kind⟩

/-! ## The value's own text -/

theorem setTyped_flat_of_plain {shell : Shell σ} {session : Session} {name : Text} {value : Value}
    {kind : Value.Kind} (state : σ) (held : session.store.read name = .ok value)
    (known : value.kind? = some kind) (plain : kind ≠ .paths) :
    session.setTyped shell name value.flat state = .ok session state := by
  have previous : session.previous? name = .ok (some value) := by
    rw [previous?, held]
  have noPaths : ∀ parts, some value ≠ some (.paths parts) := by
    intro parts same
    cases same
    cases known
    exact plain rfl
  have same : Value.reread value.flat (some value) = value :=
    Value.reread_of_read? known (Value.Kind.read?_flat known plain)
  rw [setTyped_run_of_plain previous noPaths, same,
    setVariable_eq_self (Store.read_eq_ok.mp held).2]

theorem setTyped_flat_of_paths {shell : Shell σ} {session : Session} {name : Text}
    {parts : List Text} {state after : σ} (held : session.store.read name = .ok (.paths parts))
    (free : session.local? name = none) (notFixed : name ≠ "SHELL".toList)
    (prints : Prints shell session name state after) :
    session.setTyped shell name (Value.paths parts).flat state = .ok session after := by
  have others : ∀ entry ∈ fixedVariables, entry.1 ≠ name := by
    intro entry member
    obtain rfl := List.mem_singleton.mp member
    exact notFixed.symm
  have captured := prints.capture
  rw [environment_get? held (by simp) free others, Option.getD_some] at captured
  -- The old text is the new one, so nothing stands before or behind it.
  have spliced : PathList.splice name parts (Value.paths parts).flat (Value.paths parts).flat =
      .ok parts := by
    rw [PathList.splice, Text.cut?_self]
    exact congrArg Except.ok (List.append_nil _)
  rw [setTyped_paths_run _ held captured, spliced]
  dsimp only
  rw [setVariable_eq_self (Store.read_eq_ok.mp held).2]

/-- To assign the flat text of its own value to a variable changes nothing, whatever the value is,
unless its type is not known. A path list takes the shell for it, which prints the variable as it
is. -/
theorem setTyped_flat (shell : Shell σ) (session : Session) (name : Text) (value : Value)
    (state after : σ) (held : session.store.read name = .ok value) (known : value.kind? ≠ none)
    (answered : if value.kind? = some .paths then
        session.local? name = none ∧ name ≠ "SHELL".toList ∧
          Prints shell session name state after
      else after = state) :
    session.setTyped shell name value.flat state = .ok session after := by
  obtain ⟨kind, kindOf⟩ := Option.ne_none_iff_exists'.mp known
  by_cases paths : kind = .paths
  · subst paths
    obtain ⟨parts, rfl⟩ : ∃ parts, value = .paths parts := by
      cases value with
      | paths parts => exact ⟨parts, rfl⟩
      | _ => cases kindOf
    obtain ⟨free, notFixed, prints⟩ := answered
    exact setTyped_flat_of_paths held free notFixed prints
  · rw [if_neg (by simpa [kindOf] using paths)] at answered
    subst answered
    exact setTyped_flat_of_plain after held kindOf paths

/-- The least number, and a path list with empty parts at both ends. -/
theorem setTyped_flat_extreme :
    setTyped (printer "P".toList)
        (start (.ofBindings ⟨[("N".toList, .number Int64.minValue)]⟩) none)
        "N".toList (Value.number Int64.minValue).flat () =
      .ok (start (.ofBindings ⟨[("N".toList, .number Int64.minValue)]⟩) none) () ∧
    setTyped (printer "P".toList)
        (start (.ofBindings ⟨[("P".toList, .paths [[], "/bin".toList, []])]⟩) none)
        "P".toList ":/bin:".toList () =
      .ok (start (.ofBindings ⟨[("P".toList, .paths [[], "/bin".toList, []])]⟩) none) () :=
  ⟨setTyped_flat (printer "P".toList) _ _ _ () () rfl (by decide) rfl,
    setTyped_flat (printer "P".toList) _ "P".toList (.paths [[], "/bin".toList, []]) () () rfl
      (by decide) ⟨rfl, by decide, (), rfl, rfl⟩⟩

/-! ## Reads that fail -/

/-- A variable without a local that cannot be read, for another reason than that it is not set, is
left alone by an assignment, which fails as the read does. An export puts the empty text in its
place, so it leaves the store as it was exactly if the empty text was there. -/
theorem failedRead_kept_iff (shell : Shell σ) (session : Session) (name content : Text)
    (failure : Failure) (state : σ) (free : session.local? name = none)
    (failed : session.store.read name = .error failure)
    (other : ∀ missing, failure ≠ .undefined missing) :
    InPlace.perform shell (.setTyped name content) ⟨session, state⟩ =
        .error failure ⟨session, state⟩ ∧
    InPlace.perform shell (.exportVariable name) ⟨session, state⟩ =
        .ok .done ⟨session.exportVariable name, state⟩ ∧
    (session.exportVariable name).store.flat.get? name = some [] ∧
    ((session.exportVariable name).store = session.store ↔
      session.store.bindings.get? name = some (.text [])) := by
  have emptied : session.exportVariable name = session.setVariable name (.text []) := by
    rw [exportVariable, free, failed]
  have unknown : session.previous? name = .error failure := by
    rw [previous?, failed]
    cases failure with
    | undefined missing => exact absurd rfl (other missing)
    | _ => rfl
  have refused : session.setTyped shell name content state = .error failure state := by
    unfold setTyped
    rw [unknown]
    rfl
  refine ⟨?_, ?_, ?_, ?_⟩
  · rw [InPlace.perform_run]
    dsimp only
    rw [perform_setTyped_run, refused]
    rfl
  · rw [InPlace.perform_run]
    rfl
  · rw [emptied]
    exact Store.flat_get?_set session.store name (by simp)
  · rw [emptied]
    exact setVariable_store_eq_iff

def guarded : Session :=
  start ⟨⟨[("A".toList, .text "x".toList)]⟩,
    ⟨[("A".toList, .unsuccessful "get A".toList none)]⟩⟩ none

theorem failedRead_kept_iff_overwritten :
    InPlace.perform (printer "A".toList) (.setTyped "A".toList "y".toList) ⟨guarded, ()⟩ =
        .error (.unsuccessful "get A".toList none) ⟨guarded, ()⟩ ∧
    guarded.store.flat.get? "A".toList = some "x".toList ∧
    (guarded.exportVariable "A".toList).store.flat.get? "A".toList = some [] ∧
    (guarded.exportVariable "A".toList).store ≠ guarded.store := by
  obtain ⟨refused, -, emptied, kept⟩ := failedRead_kept_iff (printer "A".toList) guarded
    "A".toList "y".toList (.unsuccessful "get A".toList none) () rfl rfl nofun
  refine ⟨refused, by decide, emptied, ?_⟩
  intro same
  exact absurd (kept.mp same) (by decide)

end Session

end ShellLift
