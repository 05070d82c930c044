import ShellLift.Proofs.WellFormed

/-!
# The rules grow by declarations

A step for one statement only adds functions behind the rules there are, whether it succeeds or
fails. When it succeeds, the functions added are those that the statement declares, each one behind
the functions declared in its body.

A failed step can have declared functions as well: the body of a declaration is read to its end
before the name of the declaration is refused.
-/

set_option autoImplicit false

namespace ShellLift

open Step Cursor

/-! ## Rules with functions behind them -/

namespace RuleTable

/-- The rules after are the rules before and behind them functions with new names. -/
structure Grows (before : RuleTable) (names : List Text) (after : RuleTable) : Prop where
  entries : after.entries = before.entries ++ names.map fun name => (name, .invocation .declared)
  words : ∀ name ∈ names, Text.isWord name = true
  fresh : ∀ name ∈ names, before.contains name = false
  distinct : names.Nodup

theorem get?_append {α : Type} (front back : List (Text × α)) (name : Text) :
    Table.get? ⟨front ++ back⟩ name = (Table.get? ⟨front⟩ name).or (Table.get? ⟨back⟩ name) := by
  unfold Table.get?
  rw [List.find?_append, Option.map_or]

theorem get?_commands (names : List Text) (kind : Callee) (name : Text) :
    Table.get? ⟨names.map fun name => (name, Rule.invocation kind)⟩ name =
      if name ∈ names then some (.invocation kind) else none := by
  induction names with
  | nil => rfl
  | cons first others ih =>
      by_cases same : first = name
      · simp [Table.get?, same]
      · have differs : ¬ name = first := fun equal => same equal.symm
        simpa [Table.get?, same, differs] using ih

theorem foldl_withCommand_entries (builtins : List Text) (rules : RuleTable) :
    (builtins.foldl (fun rules name => rules.withCommand name .extra) rules).entries =
      rules.entries ++ builtins.map fun name => (name, .invocation .extra) := by
  induction builtins generalizing rules with
  | nil => exact (List.append_nil _).symm
  | cons name builtins ih =>
      rw [List.foldl_cons, ih, withCommand, List.append_assoc]
      rfl

theorem withBuiltins_entries (builtins : List Text) :
    (withBuiltins builtins).entries =
      initial.entries ++ builtins.map fun name => (name, .invocation .extra) :=
  foldl_withCommand_entries builtins initial

namespace Grows

variable {before middle after : RuleTable} {names others : List Text}

theorem get?_eq (grows : before.Grows names after) (name : Text) :
    after.get? name =
      (before.get? name).or (if name ∈ names then some (.invocation .declared) else none) := by
  obtain ⟨table⟩ := after
  obtain rfl : table = _ := grows.entries
  rw [get?_append, get?_commands]

/-- A name keeps the rule that it has. -/
theorem get?_of_some (grows : before.Grows names after) {name : Text} {rule : Rule}
    (known : before.get? name = some rule) : after.get? name = some rule := by
  rw [grows.get?_eq, known, Option.some_or]

theorem contains_iff (grows : before.Grows names after) (name : Text) :
    after.contains name = true ↔ before.contains name = true ∨ name ∈ names := by
  unfold Table.contains
  rw [grows.get?_eq]
  cases before.get? name with
  | some rule => simp
  | none => by_cases member : name ∈ names <;> simp [member]

theorem refl (rules : RuleTable) : rules.Grows [] rules := by
  refine ⟨(List.append_nil _).symm, ?_, ?_, List.nodup_nil⟩
  · intro name member
    cases member
  · intro name member
    cases member

theorem trans (first : before.Grows names middle) (second : middle.Grows others after) :
    before.Grows (names ++ others) after := by
  -- A name that comes later is new to the rules in between, and these have the earlier names.
  have later : ∀ name ∈ others, before.contains name = false ∧ name ∉ names := by
    intro name member
    have free := second.fresh name member
    rw [← Bool.not_eq_true, first.contains_iff] at free
    exact ⟨Bool.not_eq_true _ ▸ fun known => free (.inl known), fun known => free (.inr known)⟩
  refine ⟨?_, ?_, ?_, ?_⟩
  · rw [second.entries, first.entries, List.map_append, List.append_assoc]
  · intro name member
    rcases List.mem_append.mp member with early | late
    · exact first.words name early
    · exact second.words name late
  · intro name member
    rcases List.mem_append.mp member with early | late
    · exact first.fresh name early
    · exact (later name late).1
  · refine first.distinct.append second.distinct ?_
    intro name early late
    exact (later name late).2 early

theorem of_register {name : Text} (added : before.register name .declared = .ok after) :
    before.Grows [name] after := by
  obtain ⟨word, free, rfl⟩ := register_eq_ok.mp added
  refine ⟨rfl, ?_, ?_, List.nodup_singleton name⟩
  · intro other member
    rwa [List.mem_singleton.mp member]
  · intro other member
    rwa [List.mem_singleton.mp member]

theorem callees_eq (grows : before.Grows names after) :
    after.calleesOf .declared = before.calleesOf .declared ++ names := by
  have all : (names.map fun name => (name, Rule.invocation .declared)).filter
      (fun entry => entry.2 == .invocation .declared) =
        names.map fun name => (name, Rule.invocation .declared) := by
    apply List.filter_eq_self.mpr
    intro entry member
    obtain ⟨name, -, rfl⟩ := List.mem_map.mp member
    rfl
  rw [calleesOf, calleesOf, grows.entries, List.filter_append, List.map_append, all, List.map_map]
  congr 1
  exact List.map_id names

end Grows

end RuleTable

/-! ## The functions that statements declare -/

namespace Statement

mutual

/-- The names that a statement declares, those of a body in front of the one it belongs to. -/
def declarations : Statement → List Text
  | assignment .. => []
  | conditional _ _ body => declarationsAll body
  | function _ name body => declarationsAll body ++ [name]
  | invocation .. => []

def declarationsAll : List Statement → List Text
  | [] => []
  | statement :: others => declarations statement ++ declarationsAll others

end

end Statement

/-! ## What a step adds to the rules -/

namespace Parser

variable {α β : Type}

def Grown (rules : RuleTable) (names : α → List Text) : EStateM.Result Diagnostic Parser α → Prop
  | .ok value q => rules.Grows (names value) q.rules
  | .error _ q => ∃ others, rules.Grows others q.rules

theorem Grown.final {rules : RuleTable} {names : α → List Text}
    {result : EStateM.Result Diagnostic Parser α} (grown : Grown rules names result) :
    ∃ others, rules.Grows others (Step.final result).rules := by
  cases result with
  | ok value q => exact ⟨names value, grown⟩
  | error diagnostic q => exact grown

theorem Grown.after {before middle : RuleTable} {front : List Text} {names : α → List Text}
    {result : EStateM.Result Diagnostic Parser α} (grows : before.Grows front middle)
    (grown : Grown middle names result) :
    Grown before (fun value => front ++ names value) result := by
  cases result with
  | ok value q => exact grows.trans grown
  | error diagnostic q =>
      obtain ⟨others, grown⟩ := grown
      exact ⟨front ++ others, grows.trans grown⟩

theorem Grown.map {rules : RuleTable} {names : α → List Text} {names' : β → List Text}
    {step : Parsing α} {f : α → β} {p : Parser} (grown : Grown rules names (step p))
    (same : ∀ value, names' (f value) = names value) : Grown rules names' ((f <$> step) p) := by
  rw [map_run]
  cases run : step p with
  | ok value q =>
      rw [run] at grown
      rw [Grown, same]
      exact grown
  | error diagnostic q =>
      rw [run] at grown
      exact grown

/-- From every parser on, the step adds the names of its value to the rules. -/
def Declares (names : α → List Text) (step : Parsing α) : Prop :=
  ∀ p, Grown p.rules names (step p)

abbrev declaredBy (found : Option Statement) : List Text := Statement.declarationsAll found.toList

theorem declaredBy_some (statement : Statement) :
    declaredBy (some statement) = statement.declarations := by
  show statement.declarations ++ [] = _
  rw [List.append_nil]

theorem declares_reading {names : α → List Text} {step : Reading α}
    (none : ∀ c value d, step c = .ok value d → names value = []) :
    Declares names (reading step) := by
  intro p
  rw [reading_run]
  cases run : step p.cursor with
  | ok value c =>
      rw [Grown, none _ _ _ run]
      exact .refl _
  | error diagnostic c => exact ⟨[], .refl _⟩

theorem declares_readBody {statement : Parsing (Option Statement)}
    (declares : Declares declaredBy statement) (body : Body) (start : Location) (allowance : Nat) :
    Declares Statement.declarationsAll (readBody statement body start allowance) := by
  induction allowance with
  | zero =>
      apply declares_reading
      intro c value d failed
      cases failed
  | succ allowance ih =>
      intro p
      rw [readBody_run]
      split
      · exact ⟨[], .refl _⟩
      · rcases body.readEnd p.cursor.skipIdle with ⟨_ | _, c⟩ | ⟨diagnostic, c⟩
        · have first := declares ⟨c, p.rules⟩
          dsimp only
          rw [bind_run]
          rcases one : statement ⟨c, p.rules⟩ with ⟨_ | found, q⟩ | ⟨diagnostic, q⟩
          · rw [one] at first
            exact .after first (ih q)
          · rw [one] at first
            refine (Grown.after first (ih q)).map ?_
            intro others
            rw [declaredBy_some, Statement.declarationsAll]
          · rw [one] at first
            exact first
        · exact .refl _
        · exact ⟨[], .refl _⟩

theorem declares_readConditional {statement : Parsing (Option Statement)}
    (declares : Declares declaredBy statement) (allowance : Nat) :
    Declares Statement.declarations (readConditional statement allowance) := by
  intro p
  rw [readConditional_run]
  cases Statement.readCondition p.cursor with
  | error diagnostic c => exact ⟨[], .refl _⟩
  | ok condition c =>
      have within := declares_readBody declares .conditional p.cursor.location allowance
        ⟨c, p.rules⟩
      dsimp only
      cases run : readBody statement .conditional p.cursor.location allowance ⟨c, p.rules⟩ with
      | error diagnostic next =>
          rw [run] at within
          exact within
      | ok body next =>
          rw [run] at within
          exact within

/-- The name of a declaration comes behind the names that its body declares. -/
theorem declares_readFunction {statement : Parsing (Option Statement)}
    (declares : Declares declaredBy statement) (allowance : Nat) :
    Declares Statement.declarations (readFunction statement allowance) := by
  intro p
  rw [readFunction_run]
  cases Statement.readSignature p.rules p.cursor.location p.cursor with
  | error diagnostic c => exact ⟨[], .refl _⟩
  | ok name c =>
      have within :=
        declares_readBody declares (.function name) p.cursor.location allowance ⟨c, p.rules⟩
      dsimp only
      cases run : readBody statement (.function name) p.cursor.location allowance ⟨c, p.rules⟩ with
      | error diagnostic next =>
          rw [run] at within
          exact within
      | ok body next =>
          rw [run] at within
          dsimp only
          cases added : next.rules.register name .declared with
          | error refusal => exact ⟨_, within⟩
          | ok rules => exact within.trans (.of_register added)

theorem declares_readByRule {statement : Parsing (Option Statement)}
    (declares : Declares declaredBy statement) (allowance : Nat) (word : Text) :
    Declares Statement.declarations (readByRule statement allowance word) := by
  have assignment : ∀ kind,
      Declares Statement.declarations (reading (Statement.readAssignment kind)) := by
    intro kind
    apply declares_reading
    intro c statement d run
    obtain ⟨-, value, -, rfl⟩ := Statement.readAssignment_eq_ok.mp run
    rfl
  have invocation : ∀ kind,
      Declares Statement.declarations (reading (Statement.readInvocation kind allowance)) := by
    intro kind
    apply declares_reading
    intro c statement d run
    obtain ⟨arguments, stop, -, rfl⟩ := Statement.arguments_of_readInvocation run
    rfl
  intro p
  rw [readByRule_run]
  rcases p.rules.get? word with _ | kind | _ | _ | kind
  · dsimp only
    split
    · exact ⟨[], .refl _⟩
    · exact assignment none p
  · exact assignment (some kind) p
  · exact declares_readConditional declares allowance p
  · exact declares_readFunction declares allowance p
  · exact invocation kind p

theorem declares_readStatement? (allowance : Nat) :
    Declares declaredBy (readStatement? allowance) := by
  induction allowance with
  | zero =>
      apply declares_reading
      intro c value d failed
      cases failed
  | succ allowance ih =>
      intro p
      rw [readStatement?_run]
      split
      · exact .refl _
      · split
        · exact ⟨[], .refl _⟩
        · have ruled := declares_readByRule ih allowance p.cursor.skipIdle.word
            ⟨p.cursor.skipIdle, p.rules⟩
          cases run : readByRule (readStatement? allowance) allowance p.cursor.skipIdle.word
              ⟨p.cursor.skipIdle, p.rules⟩ with
          | error diagnostic next =>
              rw [run] at ruled
              exact ruled
          | ok statement next =>
              rw [run] at ruled
              dsimp only
              cases Statement.readTerminator statement.kind next.cursor with
              | error diagnostic c => exact ⟨_, ruled⟩
              | ok _ c =>
                  rw [Grown, declaredBy_some]
                  exact ruled

theorem declares_statement? : Declares declaredBy statement? :=
  fun p => declares_readStatement? (p.cursor.size + 1) p

theorem grows_of_statement? {p q : Parser} {found : Option Statement}
    (run : statement? p = .ok found q) :
    p.rules.Grows (declaredBy found) q.rules := by
  have grown := declares_statement? p
  rw [run] at grown
  exact grown

theorem grows_of_statements {p q : Parser} {tree : List Statement}
    (run : statements p = .ok tree q) :
    p.rules.Grows (Statement.declarationsAll tree) q.rules := by
  induction tree generalizing p with
  | nil => exact grows_of_statement? (statement?_of_statements_nil run)
  | cons first others ih =>
      obtain ⟨r, one, rest⟩ := statement?_of_statements_cons run
      have whole := (grows_of_statement? one).trans (ih rest)
      rwa [declaredBy_some] at whole

/-! ## One call after the other -/

/-- The parser after a number of calls for one statement, whatever each of them comes to. -/
def afterCalls (p : Parser) : (calls : Nat) → Parser
  | 0 => p
  | calls + 1 => final (statement? (p.afterCalls calls))

theorem grows_afterCalls (p : Parser) (before more : Nat) :
    ∃ names, (p.afterCalls before).rules.Grows names (p.afterCalls (before + more)).rules := by
  induction more with
  | zero => exact ⟨[], .refl _⟩
  | succ more ih =>
      obtain ⟨names, grown⟩ := ih
      obtain ⟨others, grown'⟩ := (declares_statement? (p.afterCalls (before + more))).final
      exact ⟨names ++ others, grown.trans grown'⟩

theorem declared_new {c : Cursor} {builtins : List Text} {p : Parser}
    (accepted : Parser.new c builtins = .ok p) : p.declared = [] := by
  obtain ⟨added, -⟩ := new_eq_ok.mp accepted
  have none : (builtins.map fun name => (name, Rule.invocation .extra)).filter
      (fun entry => entry.2 == .invocation .declared) = [] := by
    apply List.filter_eq_nil_iff.mpr
    intro entry member
    obtain ⟨name, -, rfl⟩ := List.mem_map.mp member
    exact Bool.false_ne_true
  have rules : p.rules = .withBuiltins builtins := registerBuiltins_eq added
  rw [declared, rules, RuleTable.calleesOf, RuleTable.withBuiltins_entries,
    List.filter_append, none,
    List.append_nil]
  rfl

/-- Every call for one statement leaves the rules there are in their places and only adds functions
behind them. A call that returns a statement adds what the statement declares, and so does a run
over the rest of the script; with a new parser these are all functions declared so far. -/
theorem rules_afterCalls (p : Parser) (before more : Nat) :
    (∃ names, (p.afterCalls before).rules.Grows names (p.afterCalls (before + more)).rules) ∧
      (∀ name rule, (p.afterCalls before).rules.get? name = some rule →
        (p.afterCalls (before + more)).rules.get? name = some rule) ∧
      (∀ statement q, statement? (p.afterCalls before) = .ok (some statement) q →
        q = p.afterCalls (before + 1) ∧
          (p.afterCalls before).rules.Grows statement.declarations q.rules) ∧
      (∀ tree q, statements (p.afterCalls before) = .ok tree q →
        (p.afterCalls before).rules.Grows (Statement.declarationsAll tree) q.rules ∧
          q.declared = (p.afterCalls before).declared ++ Statement.declarationsAll tree) ∧
      ∀ c builtins start tree q, Parser.new c builtins = .ok start →
        statements start = .ok tree q → q.declared = Statement.declarationsAll tree := by
  obtain ⟨names, grown⟩ := grows_afterCalls p before more
  refine ⟨⟨names, grown⟩, ?_, ?_, ?_, ?_⟩
  · intro name rule known
    exact grown.get?_of_some known
  · intro statement q run
    have grown := grows_of_statement? run
    rw [declaredBy_some] at grown
    refine ⟨?_, grown⟩
    rw [afterCalls, run]
    rfl
  · intro tree q run
    have grown := grows_of_statements run
    exact ⟨grown, grown.callees_eq⟩
  · intro c builtins start tree q accepted run
    have grown : q.declared = start.declared ++ _ := (grows_of_statements run).callees_eq
    rwa [declared_new accepted, List.nil_append] at grown

/-- The inner declaration stays when the outer one is refused, and the next call finds it. -/
theorem rules_afterCalls_refused :
    ∃ p, Parser.new (.ofLines ["function f() \x7b".toList, "function f() \x7b".toList,
        "\x7d".toList, "\x7d".toList, "f".toList]) [] = .ok p ∧
      (∃ q, statement? p = .error (.located (.nameTaken ['f']) ⟨1, 0⟩) q) ∧
      (p.afterCalls 1).declared = [['f']] ∧
      ∃ q, statement? (p.afterCalls 1) =
          .ok (some (.invocation ⟨⟨5, 0⟩, ⟨5, 1⟩⟩ ['f'] [] .declared)) q ∧
        q = p.afterCalls 2 ∧ (p.afterCalls 1).rules.Grows [] q.rules := by
  let p : Parser := ⟨.ofLines ["function f() \x7b".toList, "function f() \x7b".toList,
    "\x7d".toList, "\x7d".toList, "f".toList], RuleTable.initial⟩
  let declared : RuleTable := ⟨RuleTable.initial.entries ++ [(['f'], .invocation .declared)]⟩
  have refused : statement? p = .error (.located (.nameTaken ['f']) ⟨1, 0⟩)
      ⟨⟨3, ['\x7d'], [[], ['f']]⟩, declared⟩ := by
    cbv
  have once : p.afterCalls 1 = ⟨⟨3, ['\x7d'], [[], ['f']]⟩, declared⟩ := by
    rw [afterCalls, afterCalls, refused]
    rfl
  have called : statement? (p.afterCalls 1) =
      .ok (some (.invocation ⟨⟨5, 0⟩, ⟨5, 1⟩⟩ ['f'] [] .declared))
        ⟨⟨4, ['f'], [[]]⟩, declared⟩ := by
    rw [once]
    cbv
  obtain ⟨next, grown⟩ := (rules_afterCalls p 1 1).2.2.1 _ _ called
  exact ⟨p, rfl, ⟨_, refused⟩, by rw [once]; rfl, _, called, next, grown⟩

end Parser

end ShellLift
