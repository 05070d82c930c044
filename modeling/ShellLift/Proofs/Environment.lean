import Mathlib
import ShellLift.Session.Basic

/-!
# What a command sees of a variable

A value put under one name leaves the other names as they are. So a command sees a variable of the
store as it is, unless a local or a fixed variable stands in its place.
-/

set_option autoImplicit false

namespace ShellLift

namespace Table

variable {α : Type} {name other : Text}

theorem get?_cons (entry : Text × α) (entries : List (Text × α)) (name : Text) :
    (⟨entry :: entries⟩ : Table α).get? name =
      if entry.1 = name then some entry.2 else (⟨entries⟩ : Table α).get? name := by
  unfold get?
  by_cases same : entry.1 = name
  · rw [if_pos same, List.find?_cons_of_pos (by simpa using same)]
    rfl
  · rw [if_neg same, List.find?_cons_of_neg (by simpa using same)]

theorem get?_eq_none_iff {table : Table α} :
    table.get? name = none ↔ ∀ entry ∈ table.entries, entry.1 ≠ name := by
  simp [get?]

theorem get?_insert_self (table : Table α) (name : Text) (value : α) :
    (table.insert name value).get? name = some value := by
  obtain ⟨entries⟩ := table
  show (⟨put name value entries⟩ : Table α).get? name = some value
  induction entries with
  | nil => rw [put, get?_cons, if_pos rfl]
  | cons entry entries ih =>
      rw [put]
      split
      · rw [get?_cons, if_pos rfl]
      · rename_i differs
        rw [get?_cons, if_neg differs, ih]

theorem get?_insert_of_ne (table : Table α) (value : α) (differs : other ≠ name) :
    (table.insert other value).get? name = table.get? name := by
  obtain ⟨entries⟩ := table
  show (⟨put other value entries⟩ : Table α).get? name = _
  induction entries with
  | nil => rw [put, get?_cons, if_neg differs]
  | cons entry entries ih =>
      rw [put]
      split
      · rename_i same
        rw [get?_cons, get?_cons, if_neg differs, if_neg (same ▸ differs)]
      · rw [get?_cons, get?_cons, ih]

theorem get?_insertAll_of_free (table : Table α) {entries : List (Text × α)}
    (free : ∀ entry ∈ entries, entry.1 ≠ name) :
    (table.insertAll entries).get? name = table.get? name := by
  induction entries generalizing table with
  | nil => rfl
  | cons entry entries ih =>
      have others := ih (table.insert entry.1 entry.2)
        fun other member => free other (List.mem_cons_of_mem _ member)
      have first := get?_insert_of_ne table entry.2 (free entry (List.mem_cons_self ..))
      exact others.trans first

/-- Putting a value in changes nothing exactly if the name has that value already. -/
theorem insert_eq_self_iff {table : Table α} {value : α} :
    table.insert name value = table ↔ table.get? name = some value := by
  constructor
  · intro same
    have found := get?_insert_self table name value
    rwa [same] at found
  · obtain ⟨entries⟩ := table
    intro found
    show (⟨put name value entries⟩ : Table α) = ⟨entries⟩
    congr 1
    induction entries with
    | nil => cases found
    | cons entry entries ih =>
        rw [get?_cons] at found
        rw [put]
        split at found
        · rename_i same
          cases found
          rw [if_pos same, ← same]
        · rename_i differs
          rw [if_neg differs, ih found]

end Table

namespace Store

theorem read_eq_ok {store : Store} {name : Text} {value : Value} :
    store.read name = .ok value ↔
      store.unreadable.get? name = none ∧ store.bindings.get? name = some value := by
  unfold read
  cases store.unreadable.get? name with
  | some failure => simp
  | none => cases store.bindings.get? name <;> simp

/-- A child process sees each variable that is set to something. -/
theorem flat_get? {store : Store} {name : Text} {value : Value}
    (found : store.bindings.get? name = some value) (present : value ≠ .absent) :
    store.flat.get? name = some value.flat := by
  obtain ⟨⟨entries⟩, unreadable⟩ := store
  show (⟨entries.filterMap flatEntry?⟩ : Table Text).get? name = some value.flat
  induction entries with
  | nil => cases found
  | cons entry entries ih =>
      rw [Table.get?_cons] at found
      split at found
      · rename_i same
        cases found
        rw [List.filterMap_cons, flatEntry?, if_neg present, Table.get?_cons, if_pos same]
      · rename_i differs
        have others := ih found
        rw [List.filterMap_cons, flatEntry?]
        -- An entry that is left out has another name, so the first entry of the name stays first.
        by_cases absent : entry.2 = .absent
        · rw [if_pos absent]
          exact others
        · rw [if_neg absent, Table.get?_cons, if_neg differs]
          exact others

theorem flat_get?_set (store : Store) (name : Text) {value : Value} (present : value ≠ .absent) :
    (store.set name value).flat.get? name = some value.flat := by
  have found : (store.set name value).bindings.get? name = some value :=
    Table.get?_insert_self store.bindings name value
  exact flat_get? found present

end Store

namespace Session

/-- A name that no frame has is not visible. -/
theorem visible_get?_none {name : Text} {frames : List Frame} (free : lookup? name frames = none) :
    (visible frames).get? name = none := by
  induction frames with
  | nil => rfl
  | cons frame frames ih =>
      rw [lookup?] at free
      cases first : frame.locals.get? name with
      | some value => simp [first] at free
      | none =>
          simp only [first] at free
          rw [visible, Table.get?_insertAll_of_free _ (Table.get?_eq_none_iff.mp first)]
          exact ih free

/-- A command sees a variable of the store that neither a local nor a fixed variable replaces. -/
theorem environment_get?_of_bound {session : Session} {name : Text} {value : Value}
    (bound : session.store.bindings.get? name = some value) (present : value ≠ .absent)
    (free : session.local? name = none) (notFixed : ∀ entry ∈ fixedVariables, entry.1 ≠ name) :
    session.environment.get? name = some value.flat := by
  have locals := Table.get?_eq_none_iff.mp (visible_get?_none free)
  rw [environment, Table.get?_insertAll_of_free _ locals, Table.get?_insertAll_of_free _ notFixed]
  exact Store.flat_get? bound present

theorem environment_get? {session : Session} {name : Text} {value : Value}
    (held : session.store.read name = .ok value) (present : value ≠ .absent)
    (free : session.local? name = none) (notFixed : ∀ entry ∈ fixedVariables, entry.1 ≠ name) :
    session.environment.get? name = some value.flat :=
  environment_get?_of_bound (Store.read_eq_ok.mp held).2 present free notFixed

end Session

end ShellLift
