import ShellLift.Proofs.Resolution

/-!
# Builtins that a script makes no use of

Two runs over the same script with different rules stay together as long as the rules agree on the
words that the script asks for. The names on which they differ are known to one side only, and a
statement finds them without a rule exactly if it takes them: as the target of an assignment without
a keyword, or as the name of a function. So extra builtins whose names a script does not take leave
what is read as it is.
-/

set_option autoImplicit false

namespace ShellLift

open Step Cursor

/-! ## Names that a script takes -/

namespace Statement

def takenName? : Statement → Option Text
  | assignment _ none target _ => some target
  | function _ name _ => some name
  | _ => none

def Leaves (apart : Text → Prop) (statements : List Statement) : Prop :=
  ∀ node ∈ nodesAll statements, ∀ name ∈ node.takenName?, ¬ apart name

variable {apart : Text → Prop} {statement : Statement} {others : List Statement}

theorem Leaves.of_cons (leaves : Leaves apart (statement :: others)) :
    Leaves apart [statement] ∧ Leaves apart others := by
  unfold Leaves at leaves ⊢
  rw [nodesAll, List.forall_mem_append] at leaves
  rw [nodesAll, nodesAll, List.append_nil]
  exact leaves

theorem Leaves.of_conditional {span : Span} {condition : Expression} {body : List Statement}
    (leaves : Leaves apart [.conditional span condition body]) : Leaves apart body := by
  unfold Leaves at leaves ⊢
  rw [nodesAll, nodes, nodesAll, List.append_nil, List.forall_mem_cons] at leaves
  exact leaves.2

theorem Leaves.of_function {span : Span} {name : Text} {body : List Statement}
    (leaves : Leaves apart [.function span name body]) : ¬ apart name ∧ Leaves apart body := by
  unfold Leaves at leaves ⊢
  rw [nodesAll, nodes, nodesAll, List.append_nil, List.forall_mem_cons] at leaves
  exact ⟨leaves.1 name rfl, leaves.2⟩

end Statement

/-! ## Rules that agree -/

namespace RuleTable

/-- The rules agree but on some names, of which those on the left know nothing. -/
def AgreesBut (apart : Text → Prop) (rules more : RuleTable) : Prop :=
  ∀ name, more.get? name = rules.get? name ∨ apart name ∧ rules.get? name = none

theorem get?_withCommand (rules : RuleTable) (name : Text) (kind : Callee) (other : Text) :
    (rules.withCommand name kind).get? other =
      (rules.get? other).or (if other = name then some (.invocation kind) else none) := by
  have last := get?_commands [name] kind other
  simp only [List.mem_singleton] at last
  rw [← last]
  exact get?_append rules.entries [(name, .invocation kind)] other

namespace AgreesBut

variable {apart : Text → Prop} {rules more : RuleTable} {name : Text}

theorem get?_of_some (agrees : rules.AgreesBut apart more) {rule : Rule}
    (known : rules.get? name = some rule) : more.get? name = some rule := by
  rcases agrees name with same | ⟨-, unknown⟩
  · rw [same, known]
  · rw [known] at unknown
    cases unknown

theorem get?_eq (agrees : rules.AgreesBut apart more) (shared : ¬ apart name) :
    more.get? name = rules.get? name := by
  rcases agrees name with same | ⟨differs, -⟩
  · exact same
  · exact absurd differs shared

theorem contains_eq (agrees : rules.AgreesBut apart more) (shared : ¬ apart name) :
    more.contains name = rules.contains name := by
  rw [Table.contains, Table.contains, agrees.get?_eq shared]

theorem withCommand (agrees : rules.AgreesBut apart more) (shared : ¬ apart name) (kind : Callee) :
    (rules.withCommand name kind).AgreesBut apart (more.withCommand name kind) := by
  intro other
  rw [get?_withCommand, get?_withCommand]
  rcases agrees other with same | ⟨differs, unknown⟩
  · exact .inl (by rw [same])
  · have new : ¬ other = name := by
      rintro rfl
      exact shared differs
    rw [if_neg new, Option.or_none, Option.or_none]
    exact .inr ⟨differs, unknown⟩

/-- A shared name can be registered on both sides or on none. -/
theorem register (agrees : rules.AgreesBut apart more) (shared : ¬ apart name) {kind : Callee}
    {added : RuleTable} (registered : rules.register name kind = .ok added) :
    ∃ added', more.register name kind = .ok added' ∧ added.AgreesBut apart added' := by
  obtain ⟨word, free, rfl⟩ := register_eq_ok.mp registered
  rw [← agrees.contains_eq shared] at free
  exact ⟨_, register_eq_ok.mpr ⟨word, free, rfl⟩, agrees.withCommand shared kind⟩

end AgreesBut

/-- More builtins agree with the fewer ones but on those that are new. -/
theorem agreesBut_withBuiltins {builtins more : List Text} {rules : RuleTable}
    (accepted : Parser.registerBuiltins initial more = .ok rules)
    (included : ∀ name ∈ builtins, name ∈ more) :
    (withBuiltins builtins).AgreesBut (fun name => name ∈ more ∧ name ∉ builtins)
      (withBuiltins more) := by
  intro name
  rw [get?_withBuiltins, get?_withBuiltins]
  by_cases old : name ∈ builtins
  · rw [if_pos old, if_pos (included name old)]
    exact .inl rfl
  · rw [if_neg old]
    by_cases new : name ∈ more
    · have free := Parser.free_of_registerBuiltins accepted new
      rw [Table.contains, Option.isSome_eq_false_iff, Option.isNone_iff_eq_none] at free
      rw [free]
      exact .inr ⟨⟨new, old⟩, rfl⟩
    · rw [if_neg new]
      exact .inl rfl

end RuleTable

/-! ## Two runs -/

variable {apart : Text → Prop}

theorem Statement.readSignature_with_rules {rules more : RuleTable} {start : Location}
    {c d : Cursor} {name : Text} (agrees : rules.AgreesBut apart more) (shared : ¬ apart name)
    (head : readSignature rules start c = .ok name d) :
    readSignature more start c = .ok name d := by
  obtain ⟨keyword, named, nonempty, free, signature⟩ := readSignature_eq_ok.mp head
  rw [← agrees.contains_eq shared] at free
  exact readSignature_eq_ok.mpr ⟨keyword, named, nonempty, free, signature⟩

namespace Parser

theorem Simple.with_rules {rules more : RuleTable} {c d : Cursor} {statement : Statement}
    (simple : Simple rules c statement d) (agrees : rules.AgreesBut apart more)
    (leaves : Statement.Leaves apart [statement]) : Simple more c statement d := by
  cases simple with
  | @assignment kind _ _ known supported run =>
      refine .assignment ?_ supported run
      cases kind with
      | some binder => exact agrees.get?_of_some known
      | none =>
          obtain ⟨-, value, -, rfl⟩ := Statement.readAssignment_eq_ok.mp run
          have shared : ¬ apart c.word := leaves _ (List.mem_cons_self ..) _ rfl
          rw [agrees.get?_eq shared, known]
  | invocation known run => exact .invocation (agrees.get?_of_some known) run

/-- A derivation holds with every table that agrees on the names the statements do not leave. -/
theorem Parsed.with_rules {place : Option Body} {p q : Parser} {read : List Statement}
    (parsed : Parsed place p read q) {rules : RuleTable} (agrees : p.rules.AgreesBut apart rules)
    (leaves : Statement.Leaves apart read) :
    ∃ last, Parsed place ⟨p.cursor, rules⟩ read ⟨q.cursor, last⟩ ∧
      q.rules.AgreesBut apart last := by
  induction parsed generalizing rules with
  | finish atEnd => exact ⟨rules, .finish atEnd, agrees⟩
  | close notEnd closes => exact ⟨rules, .close notEnd closes, agrees⟩
  | simple continues simple stop _ ih =>
      obtain ⟨here, later⟩ := leaves.of_cons
      obtain ⟨last, rest, agrees'⟩ := ih agrees later
      exact ⟨last, .simple continues (simple.with_rules agrees here) stop rest, agrees'⟩
  | @conditional place p inner q condition c e body others continues known head _ stop _
      ihBody ih =>
      obtain ⟨here, later⟩ := leaves.of_cons
      obtain ⟨middle, within, agreesBody⟩ := ihBody agrees here.of_conditional
      obtain ⟨last, rest, agrees'⟩ := ih agreesBody later
      refine ⟨last, ?_, agrees'⟩
      exact @Parsed.conditional place ⟨p.cursor, rules⟩ ⟨inner.cursor, middle⟩ _ _ _ _ _ _ continues
        (agrees.get?_of_some known) head within stop rest
  | @function place p inner q name c e table body others continues known head _ declared stop _
      ihBody ih =>
      obtain ⟨here, later⟩ := leaves.of_cons
      obtain ⟨shared, inside⟩ := here.of_function
      -- The name is asked for twice: in front of the body, and when it is registered behind it.
      obtain ⟨middle, within, agreesBody⟩ := ihBody agrees inside
      obtain ⟨added, declared', agreesRest⟩ := agreesBody.register shared declared
      obtain ⟨last, rest, agrees'⟩ := ih agreesRest later
      have head' := Statement.readSignature_with_rules agrees shared head
      refine ⟨last, ?_, agrees'⟩
      exact @Parsed.function place ⟨p.cursor, rules⟩ ⟨inner.cursor, middle⟩ _ _ _ _ _ _ _ continues
        (agrees.get?_of_some known) head' within declared' stop rest

end Parser

/-- A script is read to the same statements, places included, when there are more extra builtins, as
long as it takes none of the new names for itself. -/
theorem parse_of_more_builtins (source : Text) (builtins more : List Text) (tree : List Statement)
    (started : ∃ p, Parser.new (.ofSource source) more = .ok p)
    (included : ∀ name ∈ builtins, name ∈ more) (accepted : parse source builtins = .ok tree)
    (untaken : ∀ name ∈ more, name ∉ builtins →
      (∀ span value, Statement.assignment span none name value ∉ Statement.nodesAll tree) ∧
        ∀ span body, Statement.function span name body ∉ Statement.nodesAll tree) :
    parse source more = .ok tree := by
  obtain ⟨p, q, start, run⟩ := parse_eq_ok.mp accepted
  obtain ⟨p', start'⟩ := started
  obtain ⟨added, here⟩ := Parser.new_eq_ok.mp start
  obtain ⟨added', here'⟩ := Parser.new_eq_ok.mp start'
  have leaves : Statement.Leaves (fun name => name ∈ more ∧ name ∉ builtins) tree := by
    rintro node member name taken ⟨new, old⟩
    obtain ⟨noTarget, noFunction⟩ := untaken name new old
    unfold Statement.takenName? at taken
    split at taken
    · cases taken
      exact noTarget _ _ member
    · cases taken
      exact noFunction _ _ member
    · cases taken
  have rules : p.rules = .withBuiltins builtins := Parser.registerBuiltins_eq added
  have agrees := RuleTable.agreesBut_withBuiltins added' included
  rw [← rules] at agrees
  have parsed := Parser.statements_eq_ok_iff.mp run
  obtain ⟨last, again, -⟩ := parsed.with_rules agrees leaves
  have same : p' = ⟨p.cursor, .withBuiltins more⟩ := by
    obtain ⟨cursor, rules⟩ := p'
    rw [here]
    exact congrArg₂ Parser.mk here' (Parser.registerBuiltins_eq added')
  rw [← same] at again
  exact parse_eq_ok.mpr ⟨p', _, start', Parser.statements_eq_ok_iff.mpr again⟩

/-- The new builtin comes first; its name occurs as the target of an export and as an argument. -/
theorem parse_of_more_builtins_named :
    ∃ tree,
      parse "function f() \x7b x y; \x7d\nf; export y=x".toList [['x']] = .ok tree ∧
      parse "function f() \x7b x y; \x7d\nf; export y=x".toList [['y'], ['x']] = .ok tree := by
  have accepted :
      parse "function f() \x7b x y; \x7d\nf; export y=x".toList [['x']] = .ok
        [.function ⟨⟨1, 0⟩, ⟨1, 21⟩⟩ ['f']
          [.invocation ⟨⟨1, 15⟩, ⟨1, 18⟩⟩ ['x'] [⟨⟨⟨1, 17⟩, ⟨1, 18⟩⟩, .literal, ['y']⟩] .extra],
        .invocation ⟨⟨2, 0⟩, ⟨2, 1⟩⟩ ['f'] [] .declared,
        .assignment ⟨⟨2, 3⟩, ⟨2, 13⟩⟩ (some .exported) ['y']
          (some ⟨⟨⟨2, 12⟩, ⟨2, 13⟩⟩, .literal, ['x']⟩)] := by
    cbv
  refine ⟨_, accepted, parse_of_more_builtins _ [['x']] _ _ ⟨_, rfl⟩ (by simp) accepted ?_⟩
  intro name new old
  have named : name = ['y'] := by simpa [old] using new
  subst named
  simp [Statement.nodesAll, Statement.nodes]

end ShellLift
