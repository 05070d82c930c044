import Mathlib
import ShellLift.Proofs.Environment
import ShellLift.Proofs.SessionFrame
import ShellLift.Proofs.ShellCalls

/-!
# The environment of a command

A local variable can be found in two ways: by a lookup from frame to frame, and in the one table
into which all frames are merged. Both find the local of the innermost frame that has one, since no
table of a session that can come about has a name twice. What a command is handed follows: the
local, else the fixed variable, else what the store holds.
-/

set_option autoImplicit false

namespace ShellLift

open Step

namespace Table

variable {α : Type}

def Distinct (table : Table α) : Prop := table.names.Nodup

instance (table : Table α) : Decidable table.Distinct :=
  inferInstanceAs (Decidable table.names.Nodup)

theorem Puts.distinct {name : Text} {value : α} {before after : Table α}
    (puts : Puts name value before after) (distinct : before.Distinct) : after.Distinct := by
  unfold Distinct
  rw [puts.names]
  split
  · exact distinct
  · rename_i absent
    exact List.nodup_append_comm.mp (List.nodup_cons.mpr ⟨absent, distinct⟩)

theorem Distinct.insert {table : Table α} (distinct : table.Distinct) (name : Text) (value : α) :
    (table.insert name value).Distinct :=
  (puts_insert table name value).distinct distinct

theorem Distinct.insertAll {table : Table α} (distinct : table.Distinct)
    (entries : List (Text × α)) : (table.insertAll entries).Distinct := by
  induction entries generalizing table with
  | nil => exact distinct
  | cons entry entries ih => exact ih (distinct.insert entry.1 entry.2)

/-- Entries that have each name once count more than those of the table they go into. -/
theorem get?_insertAll (table : Table α) (name : Text) {entries : List (Text × α)}
    (distinct : (⟨entries⟩ : Table α).Distinct) :
    (table.insertAll entries).get? name =
      ((⟨entries⟩ : Table α).get? name).or (table.get? name) := by
  induction entries generalizing table with
  | nil => rfl
  | cons entry entries ih =>
      obtain ⟨fresh, distinct⟩ := List.nodup_cons.mp distinct
      show ((table.insert entry.1 entry.2).insertAll entries).get? name = _
      rw [get?_cons]
      by_cases same : entry.1 = name
      · -- The name is not among the entries that follow, so they leave the value as it is.
        have free : ∀ other ∈ entries, other.1 ≠ name := by
          intro other member again
          exact fresh (List.mem_map.mpr ⟨other, member, again.trans same.symm⟩)
        rw [get?_insertAll_of_free _ free, if_pos same, ← same, get?_insert_self, Option.some_or]
      · rw [if_neg same, ih _ distinct, get?_insert_of_ne _ _ same]

theorem Distinct.get?_of_mem {table : Table α} (distinct : table.Distinct) {entry : Text × α}
    (member : entry ∈ table.entries) : table.get? entry.1 = some entry.2 := by
  obtain ⟨entries⟩ := table
  induction entries with
  | nil => cases member
  | cons first entries ih =>
      obtain ⟨fresh, distinct⟩ := List.nodup_cons.mp distinct
      rw [get?_cons]
      rcases List.mem_cons.mp member with rfl | member
      · rw [if_pos rfl]
      · have differs : first.1 ≠ entry.1 := by
          intro same
          exact fresh (List.mem_map.mpr ⟨entry, member, same.symm⟩)
        rw [if_neg differs]
        exact ih distinct member

end Table

/-! ## Stores -/

namespace Store

theorem flat_get?_none {store : Store} {name : Text}
    (hidden : ∀ entry ∈ store.bindings.entries, entry.1 = name → entry.2 = .absent) :
    store.flat.get? name = none := by
  rw [Table.get?_eq_none_iff]
  intro shown member same
  obtain ⟨entry, held, kept⟩ := List.mem_filterMap.mp member
  unfold flatEntry? at kept
  split at kept
  · cases kept
  · rename_i present
    cases kept
    exact present (hidden entry held same)

/-- A child process sees a variable exactly if it is set to something. -/
theorem flat_get?_eq {store : Store} (distinct : store.bindings.Distinct) (name : Text) :
    store.flat.get? name =
      match store.bindings.get? name with
      | some .absent => none
      | some value => some value.flat
      | none => none := by
  cases found : store.bindings.get? name with
  | none =>
      apply flat_get?_none
      intro entry member same
      exact absurd same (Table.get?_eq_none_iff.mp found entry member)
  | some value =>
      by_cases absent : value = .absent
      · subst absent
        apply flat_get?_none
        intro entry member same
        subst same
        rw [distinct.get?_of_mem member] at found
        exact Option.some.inj found
      · rw [flat_get? found absent]
        cases value <;> simp_all

theorem names_sublist_of_flatEntries (entries : List (Text × Value)) :
    List.Sublist ((entries.filterMap flatEntry?).map Prod.fst) (entries.map Prod.fst) := by
  induction entries with
  | nil => exact List.Sublist.refl _
  | cons entry entries ih =>
      rw [List.filterMap_cons, flatEntry?]
      by_cases absent : entry.2 = .absent
      · rw [if_pos absent]
        exact ih.cons _
      · rw [if_neg absent]
        exact ih.cons_cons _

theorem flat_distinct {store : Store} (distinct : store.bindings.Distinct) :
    store.flat.Distinct :=
  distinct.sublist (names_sublist_of_flatEntries store.bindings.entries)

end Store

/-! ## Frames -/

namespace Session

/-- A lookup finds the local of the innermost frame that has one. -/
theorem lookup?_eq_some_iff {name value : Text} {frames : List Frame} :
    lookup? name frames = some value ↔
      ∃ inner frame outer, frames = inner ++ frame :: outer ∧
        frame.locals.get? name = some value ∧ ∀ other ∈ inner, other.locals.get? name = none := by
  induction frames with
  | nil => simp [lookup?]
  | cons first frames ih =>
      rw [lookup?]
      cases found : first.locals.get? name with
      | some held =>
          constructor
          · intro same
            cases same
            exact ⟨[], first, frames, rfl, found, by simp⟩
          · rintro ⟨inner, frame, outer, shape, has, free⟩
            cases inner with
            | nil =>
                cases shape
                rw [← found, has]
            | cons other inner =>
                cases shape
                rw [free first (List.mem_cons_self ..)] at found
                cases found
      | none =>
          dsimp only
          rw [ih]
          constructor
          · rintro ⟨inner, frame, outer, rfl, has, free⟩
            exact ⟨first :: inner, frame, outer, rfl, has, List.forall_mem_cons.mpr ⟨found, free⟩⟩
          · rintro ⟨inner, frame, outer, shape, has, free⟩
            cases inner with
            | nil =>
                cases shape
                rw [found] at has
                cases has
            | cons other inner =>
                cases shape
                exact ⟨inner, frame, outer, rfl, has, (List.forall_mem_cons.mp free).2⟩

theorem visible_get? {frames : List Frame} (distinct : ∀ frame ∈ frames, frame.locals.Distinct)
    (name : Text) : (visible frames).get? name = lookup? name frames := by
  induction frames with
  | nil => rfl
  | cons frame frames ih =>
      obtain ⟨first, others⟩ := List.forall_mem_cons.mp distinct
      rw [visible, lookup?, Table.get?_insertAll _ _ first, ih others]
      cases frame.locals.get? name <;> rfl

theorem visible_distinct (frames : List Frame) : (visible frames).Distinct := by
  induction frames with
  | nil => exact List.nodup_nil
  | cons frame frames ih => exact ih.insertAll frame.locals.entries

structure Tidy (session : Session) : Prop where
  store : session.store.bindings.Distinct
  frames : ∀ frame ∈ session.frame :: session.callers, frame.locals.Distinct

theorem Stores.tidy {name : Text} {value : Value} {before after : Session}
    (stores : Stores name value before after) (tidy : Tidy before) : Tidy after := by
  obtain ⟨bindings, puts, rfl⟩ := stores
  exact ⟨puts.distinct tidy.store, tidy.frames⟩

theorem Operation.Effect.tidy {operation : Operation} {before after : Session}
    (effect : operation.Effect before after) (tidy : Tidy before) : Tidy after := by
  cases operation with
  | setLocal name value =>
      obtain ⟨locals, puts, rfl⟩ := effect
      obtain ⟨first, others⟩ := List.forall_mem_cons.mp tidy.frames
      exact ⟨tidy.store, List.forall_mem_cons.mpr ⟨puts.distinct first, others⟩⟩
  | exportVariable name =>
      rcases effect with stores | ⟨rfl, -⟩
      · exact stores.tidy tidy
      · exact tidy
  | setTyped name content =>
      obtain ⟨value, stores⟩ := effect
      exact stores.tidy tidy
  | defineAlias name meaning =>
      obtain ⟨aliases, -, rfl⟩ := effect
      exact ⟨tidy.store, tidy.frames⟩
  | _ =>
      cases effect
      exact tidy

/-- The sessions that can come about: a start on a store, and from there any operations with any
shells, calls, and the ends of calls. -/
inductive Reached : Session → Prop
  | start (store : Store) (home : Option Text) (distinct : store.bindings.Distinct) :
      Reached (start store home)
  | perform {σ : Type} {shell : Shell σ} {before after : Session} {operation : Operation}
      {answer : Answer} {state last : σ} (reached : Reached before)
      (ran : before.perform shell operation state = .ok (answer, after) last) : Reached after
  | enter {session : Session} (reached : Reached session) (name : Text) (arguments : List Text) :
      Reached (session.enter name arguments)
  | resume {caller ended : Session} (reached : Reached caller) (inside : Reached ended) :
      Reached (caller.resume ended)

theorem Reached.tidy {session : Session} (reached : Reached session) : Tidy session := by
  induction reached with
  | start store home distinct =>
      exact ⟨distinct, List.forall_mem_singleton.mpr List.nodup_nil⟩
  | perform _ ran ih => exact (effect_of_perform ran).tidy ih
  | enter _ name arguments ih =>
      exact ⟨ih.store, List.forall_mem_cons.mpr ⟨List.nodup_nil, ih.frames⟩⟩
  | resume _ _ outside inside => exact ⟨inside.store, outside.frames⟩

theorem Reached.setLocal {σ : Type} {session : Session} (reached : Reached session)
    (shell : Shell σ) (state : σ) (name value : Text) : Reached (session.setLocal name value) := by
  have ran : session.perform shell (.setLocal name (.text value)) state =
      .ok (.given (.text value), session.setLocal name value) state := rfl
  exact .perform reached ran

/-! ## What a command is handed -/

def seen? (session : Session) (name : Text) : Option Text :=
  match session.local? name with
  | some value => some value
  | none =>
    if name = "SHELL".toList then some "/bin/zsh".toList
    else
      match session.store.bindings.get? name with
      | some .absent => none
      | some value => some value.flat
      | none => none

theorem fixedVariables_get? (name : Text) :
    (⟨fixedVariables⟩ : Table Text).get? name =
      if name = "SHELL".toList then some "/bin/zsh".toList else none := by
  unfold fixedVariables
  generalize "SHELL".toList = shell
  rw [Table.get?_cons]
  by_cases same : name = shell
  · rw [if_pos same.symm, if_pos same]
  · rw [if_neg (Ne.symm same), if_neg same]
    rfl

theorem environment_distinct {session : Session} (tidy : Tidy session) :
    session.environment.Distinct :=
  ((Store.flat_distinct tidy.store).insertAll fixedVariables).insertAll _

theorem environment_get?_eq {session : Session} (tidy : Tidy session) (name : Text) :
    session.environment.get? name = session.seen? name := by
  rw [environment, Table.get?_insertAll _ _ (visible_distinct _),
    Table.get?_insertAll _ _ (by decide), fixedVariables_get?, Store.flat_get?_eq tidy.store]
  show ((visible _).get? name).or _ = _
  rw [visible_get? tidy.frames, seen?, local?]
  cases lookup? name (session.frame :: session.callers) with
  | some value => rfl
  | none =>
      by_cases fixed : name = "SHELL".toList
      · simp only [if_pos fixed]
        rfl
      · simp only [if_neg fixed]
        rfl

end Session

namespace Shell

variable {σ α : Type}

def noting (handed : List (Table Text)) :
    EStateM.Result Failure σ α → EStateM.Result Failure (σ × List (Table Text)) α
  | .ok value state => .ok value (state, handed)
  | .error failure state => .error failure (state, handed)

/-- The shell that also records the environments it is handed, in order. -/
def recording (shell : Shell σ) : Shell (σ × List (Table Text)) where
  check command := fun memory => noting memory.2 (shell.check command memory.1)
  run command environment positional := fun memory =>
    noting (memory.2 ++ [environment]) (shell.run command environment positional memory.1)

theorem recording_check (shell : Shell σ) (command : Text) (state : σ)
    (handed : List (Table Text)) :
    shell.recording.check command (state, handed) = noting handed (shell.check command state) := rfl

theorem recording_run (shell : Shell σ) (command : Text) (environment : Table Text)
    (positional : List Text) (state : σ) (handed : List (Table Text)) :
    shell.recording.run command environment positional (state, handed) =
      noting (handed ++ [environment]) (shell.run command environment positional state) := rfl

end Shell

namespace Session

open Shell

variable {σ : Type}

theorem capture_recording (shell : Shell σ) (session : Session) (command : Text)
    (mustSucceed : Bool) (state : σ) (handed : List (Table Text)) :
    session.capture shell.recording command mustSucceed (state, handed) =
      match shell.check command state with
      | .ok _ _ =>
        noting (handed ++ [session.environment]) (session.capture shell command mustSucceed state)
      | .error failure last => .error failure (last, handed) := by
  rw [capture_eq_verdict, recording_check, capture_eq_verdict]
  cases shell.check command state with
  | error failure last => rfl
  | ok _ checked =>
      dsimp only [noting]
      rw [recording_run]
      cases shell.run command session.environment session.frame.positional checked with
      | error failure last => rfl
      | ok output last =>
          dsimp only [noting]
          cases verdict command mustSucceed output <;> rfl

/-- In every session that can come about, a command that the shell does not refuse is handed one
environment, in which each name stands for what a command sees of it. The merged locals and the
lookup from frame to frame agree, and both give the local of the innermost frame. -/
theorem handed_environment (shell : Shell σ) (session : Session) (reached : Reached session)
    (command : Text) (mustSucceed : Bool) (state : σ) (handed : List (Table Text)) :
    (match shell.check command state with
      | .ok _ _ => ∃ environment : Table Text,
          session.capture shell.recording command mustSucceed (state, handed) =
            noting (handed ++ [environment]) (session.capture shell command mustSucceed state) ∧
          environment.Distinct ∧ ∀ name, environment.get? name = session.seen? name
      | .error failure last =>
          session.capture shell.recording command mustSucceed (state, handed) =
            .error failure (last, handed)) ∧
    ∀ name, (visible (session.frame :: session.callers)).get? name = session.local? name ∧
      ∀ value, session.local? name = some value ↔
        ∃ inner frame outer, session.frame :: session.callers = inner ++ frame :: outer ∧
          frame.locals.get? name = some value ∧
          ∀ other ∈ inner, other.locals.get? name = none := by
  have tidy := reached.tidy
  have captured := capture_recording shell session command mustSucceed state handed
  refine ⟨?_, fun name => ⟨visible_get? tidy.frames name, fun value => lookup?_eq_some_iff⟩⟩
  cases checked : shell.check command state with
  | ok _ last =>
      rw [checked] at captured
      exact ⟨session.environment, captured, environment_distinct tidy, environment_get?_eq tidy⟩
  | error failure last =>
      rw [checked] at captured
      exact captured

def silent : Shell Unit where
  check _ := pure ()
  run _ _ _ := pure ⟨some 0, ['\n']⟩

def shadowedStore : Store := .ofBindings ⟨[("A".toList, .text "0".toList), ("B".toList, .absent)]⟩

/-- A function with a local in front of one of its caller and of a variable of the store. -/
def shadowing : Session :=
  (((start shadowedStore none).setLocal "A".toList "1".toList).enter "f".toList []).setLocal
    "A".toList "2".toList

theorem reached_shadowing : Reached shadowing := by
  have started := Reached.start shadowedStore none (by decide)
  have assigned := started.setLocal silent () "A".toList "1".toList
  exact (assigned.enter "f".toList []).setLocal silent () "A".toList "2".toList

theorem handed_environment_shadowed :
    ∃ environment : Table Text,
      shadowing.capture silent.recording "true".toList false ((), []) =
        .ok (some []) ((), [environment]) ∧
      environment.get? "A".toList = some "2".toList ∧
      environment.get? "SHELL".toList = some "/bin/zsh".toList ∧
      environment.get? "B".toList = none := by
  obtain ⟨⟨environment, captured, -, seen⟩, -⟩ :=
    handed_environment silent shadowing reached_shadowing "true".toList false () []
  refine ⟨environment, captured, ?_, ?_, ?_⟩
  · rw [seen]
    decide
  · rw [seen]
    decide
  · rw [seen]
    decide

end Session

end ShellLift
