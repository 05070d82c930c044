import ShellLift.Code.Emission
import ShellLift.Proofs.Offsets
import ShellLift.Proofs.WellFormed

/-!
# Scripts with a counterpart in the target

A script that is read has code unless it gives a short name to a command whose output or outcome
would be meant. The first such short name, in the order of the script, is where the code stops. All
other reasons for which a statement has no code are ruled out by well-formedness: only an export
has no value, a short name is a word, and each standard builtin has its counterpart.
-/

set_option autoImplicit false

namespace ShellLift

open Step Cursor

/-! ## Short names for commands -/

namespace Statement

/-- The expression behind the equals sign if the statement gives a short name to a command. -/
def commandAlias? : Statement → Option Expression
  | assignment _ (some .aliased) _ (some value) =>
    if value.form = .subcommand ∨ value.form = .test then some value else none
  | _ => none

theorem commandAlias?_eq_some {statement : Statement} {value : Expression} :
    statement.commandAlias? = some value ↔
      (value.form = .subcommand ∨ value.form = .test) ∧
        ∃ span target, statement = .assignment span (some .aliased) target (some value) := by
  unfold commandAlias?
  constructor
  · intro found
    split at found
    · split at found
      · rename_i command
        cases found
        exact ⟨command, _, _, rfl⟩
      · cases found
    · cases found
  · rintro ⟨command, span, target, rfl⟩
    exact if_pos command

def commandAliases (statements : List Statement) : List Expression :=
  (nodesAll statements).filterMap commandAlias?

theorem commandAliases_cons (statement : Statement) (others : List Statement) :
    commandAliases (statement :: others) = commandAliases [statement] ++ commandAliases others := by
  simp only [commandAliases, nodesAll, List.append_nil, List.filterMap_append]

theorem commandAliases_assignment (span : Span) (kind : Option Binder) (target : Text)
    (value : Option Expression) :
    commandAliases [.assignment span kind target value] =
      (commandAlias? (.assignment span kind target value)).toList := by
  rw [commandAliases, nodesAll, nodes, nodesAll, List.append_nil, List.filterMap_cons,
    List.filterMap_nil]
  cases commandAlias? (.assignment span kind target value) <;> rfl

theorem commandAliases_conditional (span : Span) (condition : Expression) (body : List Statement) :
    commandAliases [.conditional span condition body] = commandAliases body := by
  rw [commandAliases, nodesAll, nodes, nodesAll, List.append_nil, List.filterMap_cons_none rfl]
  rfl

theorem commandAliases_function (span : Span) (name : Text) (body : List Statement) :
    commandAliases [.function span name body] = commandAliases body := by
  rw [commandAliases, nodesAll, nodes, nodesAll, List.append_nil, List.filterMap_cons_none rfl]
  rfl

theorem commandAliases_invocation (span : Span) (name : Text) (arguments : List Expression)
    (kind : Callee) : commandAliases [.invocation span name arguments kind] = [] := rfl

def NamesCommand (statements : List Statement) (value : Expression) : Prop :=
  (value.form = .subcommand ∨ value.form = .test) ∧
    ∃ span target, assignment span (some .aliased) target (some value) ∈ nodesAll statements

theorem mem_commandAliases {statements : List Statement} {value : Expression} :
    value ∈ commandAliases statements ↔ NamesCommand statements value := by
  rw [commandAliases, List.mem_filterMap]
  constructor
  · rintro ⟨statement, member, named⟩
    obtain ⟨command, span, target, rfl⟩ := commandAlias?_eq_some.mp named
    exact ⟨command, span, target, member⟩
  · rintro ⟨command, span, target, member⟩
    exact ⟨_, member, commandAlias?_eq_some.mpr ⟨command, span, target, rfl⟩⟩

end Statement

/-! ## The first short name without code -/

/-- The result fails exactly if there are values, and then at the first of them. -/
def Reports {α : Type} (result : Except Diagnostic α) : List Expression → Prop
  | [] => ∃ value, result = .ok value
  | first :: _ => result = .error (.located .aliasTarget first.span.start)

theorem reports_map {α β : Type} {result : Except Diagnostic α} {values : List Expression}
    (f : α → β) : Reports (result.map f) values ↔ Reports result values := by
  cases values with
  | nil => cases result <;> simp [Reports, Except.map]
  | cons first others => cases result <;> simp [Reports, Except.map]

theorem reports_cons {settings : Settings} {statement : Statement} {others : List Statement}
    (one : Reports (statement.code settings) (Statement.commandAliases [statement]))
    (rest : Reports (Code.ofStatements settings others) (Statement.commandAliases others)) :
    Reports (Code.ofStatements settings (statement :: others))
      (Statement.commandAliases (statement :: others)) := by
  rw [Code.ofStatements, Statement.commandAliases_cons]
  cases front : Statement.commandAliases [statement] with
  | nil =>
      rw [front] at one
      obtain ⟨text, one⟩ := one
      rw [one]
      exact (reports_map _).mpr rest
  | cons first more =>
      rw [front] at one
      have failed : statement.code settings = .error (.located .aliasTarget first.span.start) := one
      rw [failed]
      rfl

theorem Statement.bodyLines_eq (settings : Settings) (statements : List Statement) :
    bodyLines settings statements =
      (Code.ofStatements settings statements).map fun codes => codes.flatMap Text.lines := by
  induction statements with
  | nil => rfl
  | cons statement others ih =>
      rw [bodyLines, Code.ofStatements]
      cases statement.code settings with
      | error diagnostic => rfl
      | ok text =>
          rw [ih]
          cases Code.ofStatements settings others <;> rfl

theorem Code.isSimpleQuoted_of_isWord {text : Text} (word : Text.isWord text = true) :
    isSimpleQuoted text = true := by
  apply List.all_eq_true.mpr
  intro x member
  have wordChar := (Text.isWord_iff.mp word).2 x member
  simp [isSimpleQuotedChar, wordChar]

theorem Statement.reports_assignment (settings : Settings) {span : Span} {kind : Option Binder}
    {target : Text} {value : Option Expression} (word : Text.isWord target = true)
    (valueless : value = none → kind = some .exported) :
    Reports (code settings (.assignment span kind target value))
      (commandAliases [.assignment span kind target value]) := by
  rw [code, commandAliases_assignment]
  cases value with
  | none =>
      cases valueless rfl
      exact ⟨_, rfl⟩
  | some value =>
      rcases kind with _ | _ | _ | _
      · exact ⟨_, rfl⟩
      · rw [assignmentCode]
        split
        · exact ⟨_, rfl⟩
        · exact ⟨_, rfl⟩
      · exact ⟨_, rfl⟩
      · rw [assignmentCode, if_pos (Code.isSimpleQuoted_of_isWord word), reports_map, aliasCode,
          commandAlias?]
        cases value.form with
        | literal => exact ⟨_, rfl⟩
        | quoted style =>
            show Reports (if _ then _ else _) []
            split
            · exact ⟨_, rfl⟩
            · exact ⟨_, rfl⟩
        | subcommand => rfl
        | test => rfl

/-! ## Standard builtins -/

namespace RuleTable

def Covered (rules : RuleTable) : Prop :=
  ∀ name, rules.get? name = some (.invocation .standard) →
    ∃ entry ∈ Statement.builtinNames, entry.1 = name

theorem covered_initial : Covered initial := by
  intro name found
  obtain ⟨entry, first, rule⟩ := Option.map_eq_some_iff.mp found
  have same : entry.1 = name := by simpa using List.find?_some first
  have member := List.mem_of_find?_eq_some first
  simp only [initial, List.mem_cons, List.not_mem_nil, or_false] at member
  rcases member with rfl | rfl | rfl | rfl | rfl | rfl
  · cases rule
  · cases rule
  · cases rule
  · cases rule
  · cases rule
  · exact ⟨_, List.mem_singleton_self _, same⟩

theorem Covered.withCommand {rules : RuleTable} (covered : rules.Covered) {kind : Callee}
    (other : kind ≠ .standard) (name : Text) : (rules.withCommand name kind).Covered := by
  intro command found
  apply covered
  unfold RuleTable.withCommand Table.get? at found
  rw [List.find?_append] at found
  cases known : rules.entries.find? fun entry => entry.1 == command with
  | some entry =>
      rw [known, Option.some_or] at found
      simpa [Table.get?, known] using found
  | none =>
      rw [known, Option.none_or, List.find?_singleton] at found
      split at found
      · cases found
        exact absurd rfl other
      · cases found

theorem Covered.foldl_withCommand {rules : RuleTable} (covered : rules.Covered)
    (builtins : List Text) :
    (builtins.foldl (fun rules name => rules.withCommand name .extra) rules).Covered := by
  induction builtins generalizing rules with
  | nil => exact covered
  | cons name builtins ih =>
      apply ih
      apply covered.withCommand
      decide

theorem covered_withBuiltins (builtins : List Text) : (withBuiltins builtins).Covered :=
  covered_initial.foldl_withCommand builtins

end RuleTable

theorem Statement.reports_invocation (settings : Settings) {rules : RuleTable} {span : Span}
    {name : Text} {arguments : List Expression} {kind : Callee} (covered : rules.Covered)
    (known : rules.get? name = some (.invocation kind)) :
    Reports (code settings (.invocation span name arguments kind))
      (commandAliases [.invocation span name arguments kind]) := by
  rw [code, commandAliases_invocation]
  unfold invocationCode
  cases kind with
  | extra => exact ⟨_, rfl⟩
  | declared => exact ⟨_, rfl⟩
  | standard =>
      obtain ⟨entry, member, same⟩ := covered name known
      cases found : builtinNames.find? fun entry => entry.1 == name with
      | some other => exact ⟨_, rfl⟩
      | none =>
          have differs := List.find?_eq_none.mp found entry member
          exact absurd same (by simpa using differs)

/-- The code of well-formed statements stops at the first command with a short name. -/
theorem WellFormed.reports {rules last : RuleTable} {statements : List Statement}
    (wellFormed : WellFormed rules statements last) (settings : Settings)
    (covered : rules.Covered) :
    Reports (Code.ofStatements settings statements) (Statement.commandAliases statements) ∧
      last.Covered := by
  have inside : ∀ body, Reports (Code.ofStatements settings body) (Statement.commandAliases body) →
      Reports (Statement.bodyLines settings body) (Statement.commandAliases body) := by
    intro body reports
    rw [Statement.bodyLines_eq]
    exact (reports_map _).mpr reports
  induction wellFormed with
  | nil => exact ⟨⟨[], rfl⟩, covered⟩
  | assignment word _ valueless _ _ ih =>
      obtain ⟨rest, covered'⟩ := ih covered
      exact ⟨reports_cons (Statement.reports_assignment settings word valueless) rest, covered'⟩
  | @conditional _ _ _ span condition body others _ _ _ _ ihBody ih =>
      obtain ⟨within, coveredBody⟩ := ihBody covered
      obtain ⟨rest, covered'⟩ := ih coveredBody
      refine ⟨reports_cons ?_ rest, covered'⟩
      rw [Statement.code, Statement.commandAliases_conditional, reports_map]
      exact inside body within
  | @function _ _ _ span name body others _ _ _ _ ihBody ih =>
      obtain ⟨within, coveredBody⟩ := ihBody covered
      obtain ⟨rest, covered'⟩ := ih (coveredBody.withCommand (by decide) name)
      refine ⟨reports_cons ?_ rest, covered'⟩
      rw [Statement.code, Statement.commandAliases_function, reports_map]
      exact inside body within
  | invocation _ known _ _ ih =>
      obtain ⟨rest, covered'⟩ := ih covered
      exact ⟨reports_cons (Statement.reports_invocation settings covered known) rest, covered'⟩

/-! ## The order of the script -/

/-- The values start one behind the other, between two places. -/
def Ascends : Location → List Expression → Location → Prop
  | start, [], stop => start ≤ stop
  | start, value :: values, stop => start ≤ value.span.start ∧ Ascends value.span.start values stop

theorem Ascends.of_le {start first stop : Location} {values : List Expression} (le : start ≤ first)
    (ascends : Ascends first values stop) : Ascends start values stop := by
  cases values with
  | nil => exact le_trans le ascends
  | cons value values => exact ⟨le_trans le ascends.1, ascends.2⟩

theorem Ascends.append {start middle stop : Location} {front back : List Expression}
    (first : Ascends start front middle) (second : Ascends middle back stop) :
    Ascends start (front ++ back) stop := by
  induction front generalizing start with
  | nil => exact second.of_le first
  | cons value front ih => exact ⟨first.1, ih first.2⟩

theorem Ascends.le_of_mem {start stop : Location} {values : List Expression}
    (ascends : Ascends start values stop) : ∀ value ∈ values, start ≤ value.span.start := by
  induction values generalizing start with
  | nil => exact fun value member => absurd member List.not_mem_nil
  | cons first values ih =>
      rw [List.forall_mem_cons]
      refine ⟨ascends.1, fun value member => ?_⟩
      exact le_trans ascends.1 (ih ascends.2 value member)

namespace Parser

theorem Simple.ascends {rules : RuleTable} {c d : Cursor} {statement : Statement}
    (simple : Simple rules c statement d) (clean : c.Clean) :
    Ascends c.location (Statement.commandAliases [statement]) d.location := by
  have whole := simple.follows.location_le
  cases simple with
  | @assignment kind _ _ _ _ run =>
      obtain ⟨-, value, -, rfl⟩ := Statement.readAssignment_eq_ok.mp run
      rw [Statement.commandAliases_assignment]
      cases named : Statement.commandAlias? (.assignment ⟨c.location, d.location⟩ kind
          (Statement.targetStart kind c).word value) with
      | none => exact whole
      | some command =>
          obtain ⟨-, span, target, same⟩ := Statement.commandAlias?_eq_some.mp named
          cases same
          obtain ⟨start, reached, lexed⟩ := Statement.lexed_of_readAssignment clean run
          obtain ⟨padding, passes, -⟩ := lexed.passes
          rw [Option.toList_some, Ascends, lexed.span]
          exact ⟨reached.location_le, passes.location_le⟩
  | @invocation kind _ _ _ run =>
      obtain ⟨arguments, stop, -, rfl⟩ := Statement.arguments_of_readInvocation run
      exact whole

/-- The order of the tree is the order of the script. -/
theorem Parsed.ascends {place : Option Body} {p q : Parser} {read : List Statement}
    (parsed : Parsed place p read q) (clean : p.cursor.Clean) :
    Ascends p.cursor.location (Statement.commandAliases read) q.cursor.location := by
  induction parsed with
  | finish _ => exact (follows_skipIdle _).location_le
  | @close body p d _ closes =>
      exact ((follows_skipIdle _).trans ((Forward.readEnd body).of_ok closes)).location_le
  | @simple place p q statement d e others continues read stop _ ih =>
      have clean' : p.cursor.skipIdle.Clean := (follows_skipIdle _).clean clean
      have stopped := (Forward.readTerminator statement.kind).of_ok stop
      rw [Statement.commandAliases_cons]
      have one := (read.ascends clean').of_le (follows_skipIdle _).location_le
      exact one.append ((ih ((read.follows.trans stopped).clean clean')).of_le stopped.location_le)
  | @conditional place p inner q condition c e body others _ _ head within stop _ ihBody ih =>
      have opened := (follows_skipIdle p.cursor).trans (Forward.readCondition.of_ok head)
      have stopped := (Forward.readTerminator .conditional).of_ok stop
      have cleanBody : c.Clean := opened.clean clean
      rw [Statement.commandAliases_cons, Statement.commandAliases_conditional]
      have one := (ihBody cleanBody).of_le opened.location_le
      exact one.append
        ((ih ((within.follows.trans stopped).clean cleanBody)).of_le stopped.location_le)
  | @function place p inner q name c e rules body others _ _ head within declared stop _
      ihBody ih =>
      have opened := (follows_skipIdle p.cursor).trans ((Forward.readSignature _ _).of_ok head)
      have stopped := (Forward.readTerminator .function).of_ok stop
      have cleanBody : c.Clean := opened.clean clean
      rw [Statement.commandAliases_cons, Statement.commandAliases_function]
      have one := (ihBody cleanBody).of_le opened.location_le
      exact one.append
        ((ih ((within.follows.trans stopped).clean cleanBody)).of_le stopped.location_le)

end Parser

theorem lift_eq_ok {settings : Settings} {source : Text} {builtins : List Text} {code : Text} :
    lift settings source builtins = .ok code ↔
      ∃ tree, parse source builtins = .ok tree ∧ Code.ofScript settings tree = .ok code := by
  rw [lift]
  cases parse source builtins <;> simp

theorem reports_lift (settings : Settings) {source : Text} {builtins : List Text}
    {tree : List Statement} (accepted : parse source builtins = .ok tree) :
    Reports (lift settings source builtins) (Statement.commandAliases tree) := by
  obtain ⟨p, q, parsed, clean, keyed, rules⟩ := Parser.parsed_of_parse accepted
  have covered : p.rules.Covered := rules ▸ RuleTable.covered_withBuiltins builtins
  rw [lift, accepted]
  exact (reports_map _).mpr ((parsed.wellFormed clean keyed).reports settings covered).1

/-- A script that is read has no code exactly if it gives a short name to a command, and then the
diagnostic is about the first of these in the order of the script. -/
theorem lift_error_iff_namesCommand (settings : Settings) (source : Text) (builtins : List Text)
    (tree : List Statement) (accepted : parse source builtins = .ok tree) :
    ((∃ diagnostic, lift settings source builtins = .error diagnostic) ↔
        ∃ value, Statement.NamesCommand tree value) ∧
      ∀ diagnostic, lift settings source builtins = .error diagnostic →
        diagnostic.cause.kind = .inexpressible ∧
          ∃ value, Statement.NamesCommand tree value ∧
            diagnostic = .located .aliasTarget value.span.start ∧
            ∀ other, Statement.NamesCommand tree other → value.span.start ≤ other.span.start := by
  have reports := reports_lift settings accepted
  obtain ⟨p, q, parsed, clean, -⟩ := Parser.parsed_of_parse accepted
  have ascends := parsed.ascends clean
  simp only [← Statement.mem_commandAliases]
  cases values : Statement.commandAliases tree with
  | nil =>
      rw [values] at reports
      obtain ⟨code, lifted⟩ := reports
      simp [lifted]
  | cons first others =>
      rw [values] at reports ascends
      have failed : lift settings source builtins =
          .error (.located .aliasTarget first.span.start) := reports
      refine ⟨⟨fun _ => ⟨first, List.mem_cons_self ..⟩, fun _ => ⟨_, failed⟩⟩, ?_⟩
      intro diagnostic lifted
      rw [failed] at lifted
      cases lifted
      refine ⟨rfl, first, List.mem_cons_self .., rfl, ?_⟩
      rw [List.forall_mem_cons]
      exact ⟨le_refl _, ascends.2.le_of_mem⟩

theorem lift_error_iff_namesCommand_declared :
    ∃ tree,
      parse ("alias a=x\nfunction f() \x7b alias b=$(y) ; \x7d\n".toList ++
        "alias c=[[ z ]]".toList) [] = .ok tree ∧
      lift .initial ("alias a=x\nfunction f() \x7b alias b=$(y) ; \x7d\n".toList ++
        "alias c=[[ z ]]".toList) [] = .error (.located .aliasTarget ⟨2, 23⟩) ∧
      ∃ value, Statement.NamesCommand tree value ∧
        Diagnostic.located .aliasTarget ⟨2, 23⟩ = .located .aliasTarget value.span.start ∧
        ∀ other, Statement.NamesCommand tree other → value.span.start ≤ other.span.start := by
  have accepted : parse ("alias a=x\nfunction f() \x7b alias b=$(y) ; \x7d\n".toList ++
      "alias c=[[ z ]]".toList) [] = .ok
        [.assignment ⟨⟨1, 0⟩, ⟨1, 9⟩⟩ (some .aliased) "a".toList
          (some ⟨⟨⟨1, 8⟩, ⟨1, 9⟩⟩, .literal, "x".toList⟩),
        .function ⟨⟨2, 0⟩, ⟨2, 31⟩⟩ "f".toList
          [.assignment ⟨⟨2, 15⟩, ⟨2, 27⟩⟩ (some .aliased) "b".toList
            (some ⟨⟨⟨2, 23⟩, ⟨2, 27⟩⟩, .subcommand, "y".toList⟩)],
        .assignment ⟨⟨3, 0⟩, ⟨3, 15⟩⟩ (some .aliased) "c".toList
          (some ⟨⟨⟨3, 8⟩, ⟨3, 15⟩⟩, .test, "[[ z ]]".toList⟩)] := by
    cbv
  have failed : lift .initial ("alias a=x\nfunction f() \x7b alias b=$(y) ; \x7d\n".toList ++
      "alias c=[[ z ]]".toList) [] = .error (.located .aliasTarget ⟨2, 23⟩) := by
    rw [lift, accepted]
    rfl
  exact ⟨_, accepted, failed,
    ((lift_error_iff_namesCommand .initial _ _ _ accepted).2 _ failed).2⟩

end ShellLift
