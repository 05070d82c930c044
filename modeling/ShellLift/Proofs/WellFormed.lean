import ShellLift.Proofs.Rendering

/-!
# Well-formed scripts

What holds of every statement that the parser returns, at any depth. `WellFormed rules statements
last` goes along the statements with the rules for first words: `rules` in front of the first of
them and `last` behind the last one, since a declaration registers its name behind its body.

The conditions on the texts of expressions are about the texts alone. Each is what the reader of
that form leaves behind.
-/

set_option autoImplicit false

namespace ShellLift

open Step Cursor

/-! ## Escaped marks -/

/-- The length of the run of backslashes at the end of a text. -/
def Text.backslashes (text : Text) : Nat := (text.reverse.takeWhile (· == '\\')).length

namespace Quotation

/-- Every mark in the text has an odd run of backslashes before it, and the text does not end in
such a run. -/
def Escapes (style : Quotation) (text : Text) : Prop :=
  (∀ front back, text = front ++ style.mark :: back → Odd (Text.backslashes front)) ∧
    ¬ Odd (Text.backslashes text)

theorem isEscaped_reverse (text : Text) :
    isEscaped text.reverse = true ↔ Odd (Text.backslashes text) := by
  rw [isEscaped, Text.backslashes, beq_iff_eq, Nat.odd_iff]

/-- A text is all that stands before the end of a quotation exactly if the marks in it are escaped
and the mark behind it is not. -/
theorem close?_append_iff (style : Quotation) (behind text rest : Text) :
    style.close? behind (text ++ style.mark :: rest) = some (text, rest) ↔
      (∀ front back, text = front ++ style.mark :: back →
        isEscaped (front.reverse ++ behind) = true) ∧
      isEscaped (text.reverse ++ behind) = false := by
  induction text generalizing behind with
  | nil =>
      rw [List.nil_append, close?]
      by_cases escaped : isEscaped behind = true
      · simp [escaped]
      · simp [escaped]
  | cons x text ih =>
      rw [List.cons_append, close?]
      have tail : ((x :: text).reverse ++ behind) = text.reverse ++ (x :: behind) := by simp
      rw [tail]
      by_cases marks : x = style.mark ∧ (!isEscaped behind) = true
      · rw [if_pos marks]
        constructor
        · intro found
          cases found
        · rintro ⟨escaped, -⟩
          have first := escaped [] text (by rw [marks.1, List.nil_append])
          have bare := marks.2
          rw [List.reverse_nil, List.nil_append] at first
          rw [first] at bare
          cases bare
      · rw [if_neg marks]
        constructor
        · intro found
          obtain ⟨⟨more, left⟩, closed, same⟩ := Option.map_eq_some_iff.mp found
          cases same
          obtain ⟨escaped, bare⟩ := (ih (x :: behind)).mp closed
          refine ⟨?_, bare⟩
          intro front back shape
          cases front with
          | nil =>
              obtain ⟨mark, -⟩ := List.cons.inj shape
              simpa [mark] using marks
          | cons y front =>
              obtain ⟨rfl, others⟩ := List.cons.inj shape
              simpa using escaped front back others
        · rintro ⟨escaped, bare⟩
          have closed := (ih (x :: behind)).mpr ⟨?_, bare⟩
          · rw [closed]
            rfl
          · intro front back shape
            simpa using escaped (x :: front) back (by rw [shape, List.cons_append])

theorem close?_mark_iff (style : Quotation) (text : Text) :
    style.close? [] (text ++ [style.mark]) = some (text, []) ↔ style.Escapes text := by
  rw [close?_append_iff, Escapes]
  simp only [List.append_nil, isEscaped_reverse, ← Bool.not_eq_true]

end Quotation

/-! ## Texts of expressions -/

namespace Expression

def IsTest (text : Text) : Prop :=
  (∃ inside, text = "[[".toList ++ inside ++ "]]".toList) ∧ '\n' ∉ text

structure IsCommand (text : Text) : Prop where
  nonempty : text ≠ []
  single : ';' ∉ text
  start : ∀ x, text.head? = some x → Text.isSpace x = false ∧ x ≠ '$'
  stop : ∀ x, text.getLast? = some x → Text.isBlank x = false
  bare : ¬ "[[".toList <+: text

def IsValue (expression : Expression) : Prop :=
  match expression.form with
  | .literal => expression.text ≠ [] ∧ ∀ x ∈ expression.text, Text.isPlainChar x = true
  | .quoted style => style.Escapes expression.text
  | .subcommand => balanced 0 expression.text = true ∧ expression.text.head? ≠ some '('
  | .test => IsTest expression.text

def IsCondition (expression : Expression) : Prop :=
  match expression.form with
  | .subcommand => balanced 0 expression.text = true ∧ expression.text.head? ≠ some '('
  | .test => IsTest expression.text ∨ IsCommand expression.text
  | _ => False

theorem isTest_of_bracketed {text : Text} (bracketed : BracketPair.Bracketed text) :
    IsTest text := by
  obtain ⟨inside, shape, noFeed, -⟩ := bracketed
  exact ⟨⟨inside, shape⟩, noFeed⟩

theorem isCommand_of_unmarked {text : Text} (unmarked : Unmarked text) : IsCommand text := by
  obtain ⟨x, rest, shape, solid, notDollar⟩ := unmarked.start
  refine ⟨?_, ?_, ?_, ?_, ?_⟩
  · rw [shape]
    exact List.cons_ne_nil _ _
  · intro semicolon
    exact absurd (unmarked.inside ';' semicolon).1 (by decide)
  · intro y first
    rw [shape, List.head?_cons] at first
    cases first
    exact ⟨solid, notDollar⟩
  · intro y last
    have trimmed : text.reverse.dropWhile Text.isBlank = text.reverse := by
      have reversed := congrArg List.reverse unmarked.trimmed
      rwa [Text.trimEnd, Text.dropEndWhile, List.reverse_reverse] at reversed
    have first := List.head?_dropWhile_not Text.isBlank text.reverse
    rw [trimmed, List.head?_reverse, last] at first
    simpa using first
  · intro brackets
    have bare := unmarked.bare
    rw [List.isPrefixOf_iff_prefix.mpr brackets] at bare
    cases bare

theorem isValue_of_readable {expression : Expression}
    (readable : Readable .value expression.form expression.text) : expression.IsValue := by
  obtain ⟨span, form, text⟩ := expression
  cases form with
  | literal => exact readable.2
  | quoted style => exact (style.close?_mark_iff text).mp readable.2.2
  | subcommand => exact readable
  | test =>
      rcases readable with bracketed | ⟨position, -⟩
      · exact isTest_of_bracketed bracketed
      · cases position

theorem isCondition_of_readable {expression : Expression}
    (readable : Readable .command expression.form expression.text) : expression.IsCondition := by
  obtain ⟨span, form, text⟩ := expression
  cases form with
  | literal => cases readable.1
  | quoted style => cases readable.1
  | subcommand => exact readable
  | test =>
      rcases readable with bracketed | ⟨-, unmarked⟩
      · exact .inl (isTest_of_bracketed bracketed)
      · exact .inr (isCommand_of_unmarked unmarked)

end Expression

/-! ## Rules -/

namespace RuleTable

def withCommand (rules : RuleTable) (name : Text) (kind : Callee) : RuleTable :=
  ⟨rules.entries ++ [(name, .invocation kind)]⟩

/-- The rules that a script starts with when it is given commands of its own. -/
def withBuiltins (builtins : List Text) : RuleTable :=
  builtins.foldl (fun rules name => rules.withCommand name .extra) initial

theorem register_eq_ok {rules added : RuleTable} {name : Text} {kind : Callee} :
    rules.register name kind = .ok added ↔
      Text.isWord name = true ∧ rules.contains name = false ∧
        added = rules.withCommand name kind := by
  unfold register
  by_cases word : Text.isWord name = true
  · rw [if_pos word]
    cases found : rules.get? name with
    | some rule => simp [Table.contains, found]
    | none => simp [Table.contains, found, word, withCommand, eq_comm]
  · simp [word]

end RuleTable

theorem Parser.registerBuiltins_eq {rules added : RuleTable} {builtins : List Text}
    (accepted : registerBuiltins rules builtins = .ok added) :
    added = builtins.foldl (fun rules name => rules.withCommand name .extra) rules := by
  induction builtins generalizing rules with
  | nil =>
      cases accepted
      rfl
  | cons name builtins ih =>
      rw [registerBuiltins] at accepted
      cases first : rules.register name .extra with
      | error refusal =>
          rw [first] at accepted
          cases refusal <;> cases accepted
      | ok table =>
          rw [first] at accepted
          obtain ⟨-, -, rfl⟩ := RuleTable.register_eq_ok.mp first
          exact ih accepted

/-! ## Statements -/

def Statement.firstWord : Statement → Text
  | assignment _ (some binder) _ _ => binder.keyword
  | assignment _ none target _ => target
  | conditional .. => "if".toList
  | function .. => "function".toList
  | invocation _ name _ _ => name

def branchWords : List Text := ["fi".toList, "else".toList, "elif".toList]

/-- Statements one after the other, between the rules before them and behind them. -/
inductive WellFormed : RuleTable → List Statement → RuleTable → Prop
  | nil {rules : RuleTable} : WellFormed rules [] rules
  | assignment {rules last : RuleTable} {span : Span} {kind : Option Binder} {target : Text}
      {value : Option Expression} {others : List Statement} :
      Text.isWord target = true → (kind = none → rules.contains target = false) →
      (value = none → kind = some .exported) → (∀ expression ∈ value, expression.IsValue) →
      WellFormed rules others last →
      WellFormed rules (.assignment span kind target value :: others) last
  | conditional {rules inner last : RuleTable} {span : Span} {condition : Expression}
      {body others : List Statement} :
      condition.IsCondition → WellFormed rules body inner →
      (∀ statement ∈ body, statement.firstWord ∉ branchWords) → WellFormed inner others last →
      WellFormed rules (.conditional span condition body :: others) last
  | function {rules inner last : RuleTable} {span : Span} {name : Text}
      {body others : List Statement} :
      Text.isWord name = true → WellFormed rules body inner → inner.contains name = false →
      WellFormed (inner.withCommand name .declared) others last →
      WellFormed rules (.function span name body :: others) last
  | invocation {rules last : RuleTable} {span : Span} {name : Text}
      {arguments : List Expression} {kind : Callee} {others : List Statement} :
      Text.isWord name = true → rules.get? name = some (.invocation kind) →
      (∀ argument ∈ arguments, argument.IsValue) → WellFormed rules others last →
      WellFormed rules (.invocation span name arguments kind :: others) last

/-! ## Statements at any depth -/

namespace Statement

mutual

def nodes : Statement → List Statement
  | assignment span kind target value => [assignment span kind target value]
  | conditional span condition body => conditional span condition body :: nodesAll body
  | function span name body => function span name body :: nodesAll body
  | invocation span name arguments kind => [invocation span name arguments kind]

def nodesAll : List Statement → List Statement
  | [] => []
  | statement :: others => nodes statement ++ nodesAll others

end

def operands : Statement → List Expression
  | assignment _ _ _ value => value.toList
  | conditional _ condition _ => [condition]
  | function .. => []
  | invocation _ _ arguments _ => arguments

end Statement

theorem WellFormed.operands {rules last : RuleTable} {statements : List Statement}
    (wellFormed : WellFormed rules statements last) :
    ∀ node ∈ Statement.nodesAll statements, ∀ expression ∈ node.operands,
      expression.IsValue ∨ expression.IsCondition := by
  induction wellFormed with
  | nil => exact fun node member => absurd member List.not_mem_nil
  | assignment _ _ _ values _ ih =>
      rw [Statement.nodesAll, Statement.nodes, List.singleton_append, List.forall_mem_cons]
      refine ⟨fun expression member => .inl (values expression ?_), ih⟩
      exact Option.mem_toList.mp member
  | conditional condition _ _ _ ihBody ih =>
      rw [Statement.nodesAll, Statement.nodes, List.cons_append, List.forall_mem_cons,
        List.forall_mem_append]
      refine ⟨fun expression member => .inr ?_, ihBody, ih⟩
      rwa [List.mem_singleton.mp member]
  | function _ _ _ _ ihBody ih =>
      rw [Statement.nodesAll, Statement.nodes, List.cons_append, List.forall_mem_cons,
        List.forall_mem_append]
      exact ⟨fun expression member => absurd member List.not_mem_nil, ihBody, ih⟩
  | invocation _ _ values _ ih =>
      rw [Statement.nodesAll, Statement.nodes, List.singleton_append, List.forall_mem_cons]
      exact ⟨fun expression member => .inl (values expression member), ih⟩

/-! ## Scripts that are read -/

theorem Statement.lexed_of_readAssignment {kind : Option Binder} {c d : Cursor} {span : Span}
    {target : Text} {value : Expression} (clean : c.Clean)
    (run : readAssignment kind c = .ok (.assignment span kind target (some value)) d) :
    ∃ start, Follows c start ∧ Expression.Lexed .value value start d := by
  obtain ⟨-, found, assigned, same⟩ := readAssignment_eq_ok.mp run
  cases same
  obtain ⟨-, -, read⟩ := readAssigned_eq_ok.mp assigned
  have reached : Follows c ((targetStart kind c).skipWord.skipSpaces.move 1) :=
    (Forward.targetStart kind c).trans
      ((follows_skipWord _).trans ((follows_skipSpaces _).trans (follows_move _ 1)))
  exact ⟨_, reached.trans (follows_skipSpaces _), Expression.read_lexed (reached.clean clean) read⟩

namespace Parser

theorem Simple.wellFormed {rules last : RuleTable} {c d : Cursor} {statement : Statement}
    {others : List Statement} (simple : Simple rules c statement d) (clean : c.Clean)
    (word : c.word ≠ []) (rest : WellFormed rules others last) :
    WellFormed rules (statement :: others) last := by
  cases simple with
  | @assignment kind _ _ known _ run =>
      obtain ⟨named, value, assigned, rfl⟩ := Statement.readAssignment_eq_ok.mp run
      have value_eq := Statement.readAssigned_eq_ok.mp assigned
      refine .assignment (isWord_word named) ?_ ?_ ?_ rest
      · rintro rfl
        show (rules.get? c.word).isSome = false
        rw [known]
        rfl
      · rintro rfl
        exact value_eq.2.1
      · rintro expression rfl
        obtain ⟨start, -, lexed⟩ := Statement.lexed_of_readAssignment clean run
        exact Expression.isValue_of_readable lexed.readable
  | @invocation kind _ _ known run =>
      obtain ⟨arguments, stop, shape, rfl⟩ := Statement.arguments_of_readInvocation run
      have readable := shape.readable ((follows_skipWord c).clean clean)
      refine .invocation (isWord_word word) known ?_ rest
      intro argument member
      exact Expression.isValue_of_readable (readable argument member)

theorem Simple.firstWord_eq {rules : RuleTable} {c d : Cursor} {statement : Statement}
    (simple : Simple rules c statement d) (keyed : rules.Keyed) : statement.firstWord = c.word := by
  cases simple with
  | @assignment kind _ _ known _ run =>
      obtain ⟨-, value, -, rfl⟩ := Statement.readAssignment_eq_ok.mp run
      cases kind with
      | none => rfl
      | some binder => exact (keyed.eq_keyword known).symm
  | @invocation kind _ _ known run =>
      obtain ⟨arguments, stop, -, rfl⟩ := Statement.arguments_of_readInvocation run
      rfl

theorem Continues.not_branch {c : Cursor} (continues : Continues (some .conditional) c) :
    c.word ∉ branchWords := by
  have goesOn := continues.2 _ rfl
  rw [Body.readEnd_conditional_run] at goesOn
  intro branch
  simp only [branchWords, List.mem_cons, List.not_mem_nil, or_false] at branch
  rcases branch with closes | branches
  · rw [closes, if_neg (by decide), if_pos rfl] at goesOn
    cases goesOn
  · rw [if_pos branches] at goesOn
    cases goesOn

/-- The first words of the statements of a body do not close it. -/
theorem Parsed.not_branch {p q : Parser} {read : List Statement} {place : Option Body}
    (parsed : Parsed place p read q) (keyed : p.rules.Keyed) (inside : place = some .conditional) :
    ∀ statement ∈ read, statement.firstWord ∉ branchWords := by
  induction parsed with
  | finish _ => exact fun statement member => absurd member List.not_mem_nil
  | close _ _ => exact fun statement member => absurd member List.not_mem_nil
  | simple continues read _ _ ih =>
      subst inside
      rw [List.forall_mem_cons, read.firstWord_eq keyed]
      exact ⟨continues.not_branch, ih keyed rfl⟩
  | conditional _ _ _ body _ _ _ ih =>
      rw [List.forall_mem_cons]
      refine ⟨?_, ih (body.keyed keyed) inside⟩
      show "if".toList ∉ branchWords
      decide
  | function _ _ _ body declared _ _ _ ih =>
      rw [List.forall_mem_cons]
      refine ⟨?_, ih ((body.keyed keyed).register declared) inside⟩
      show "function".toList ∉ branchWords
      decide

theorem Parsed.wellFormed {place : Option Body} {p q : Parser} {read : List Statement}
    (parsed : Parsed place p read q) (clean : p.cursor.Clean) (keyed : p.rules.Keyed) :
    WellFormed p.rules read q.rules := by
  induction parsed with
  | finish _ => exact .nil
  | close _ _ => exact .nil
  | @simple place p q statement d e others continues read stop tail ih =>
      have clean' : p.cursor.skipIdle.Clean := (follows_skipIdle _).clean clean
      have behind := read.follows.trans ((Forward.readTerminator statement.kind).of_ok stop)
      exact read.wellFormed clean' continues.1 (ih (behind.clean clean') keyed)
  | @conditional place p inner q condition c e body others _ _ head within stop _ ihBody ih =>
      have clean' : p.cursor.skipIdle.Clean := (follows_skipIdle _).clean clean
      have cleanBody : c.Clean := (Forward.readCondition.of_ok head).clean clean'
      have behind := within.follows.trans ((Forward.readTerminator .conditional).of_ok stop)
      refine .conditional ?_ (ihBody cleanBody keyed) (within.not_branch keyed rfl)
        (ih (behind.clean cleanBody) (within.keyed keyed))
      exact Expression.isCondition_of_readable (readable_of_readCondition clean' head)
  | @function place p inner q name c e rules body others _ _ head within declared stop _
      ihBody ih =>
      have clean' : p.cursor.skipIdle.Clean := (follows_skipIdle _).clean clean
      have cleanBody : c.Clean := ((Forward.readSignature _ _).of_ok head).clean clean'
      have behind := within.follows.trans ((Forward.readTerminator .function).of_ok stop)
      obtain ⟨named, free, rfl⟩ := RuleTable.register_eq_ok.mp declared
      exact .function named (ihBody cleanBody keyed) free
        (ih (behind.clean cleanBody) ((within.keyed keyed).register declared))

theorem parsed_of_parse {source : Text} {builtins : List Text} {tree : List Statement}
    (accepted : parse source builtins = .ok tree) :
    ∃ p q, Parsed none p tree q ∧ p.cursor.Clean ∧ p.rules.Keyed ∧
      p.rules = .withBuiltins builtins := by
  obtain ⟨p, q, started, run⟩ := parse_eq_ok.mp accepted
  obtain ⟨keyed, here⟩ := keyed_new started
  refine ⟨p, q, statements_eq_ok_iff.mp run, here ▸ clean_ofSource source, keyed, ?_⟩
  exact registerBuiltins_eq (new_eq_ok.mp started).1

end Parser

/-- Every script that is read is well formed. -/
theorem wellFormed_of_parse (source : Text) (builtins : List Text) (tree : List Statement)
    (accepted : parse source builtins = .ok tree) :
    ∃ last, WellFormed (.withBuiltins builtins) tree last := by
  obtain ⟨p, q, parsed, clean, keyed, rules⟩ := Parser.parsed_of_parse accepted
  rw [← rules]
  exact ⟨q.rules, parsed.wellFormed clean keyed⟩

theorem wellFormed_of_parse_nested :
    ∃ tree, parse ("if grep -q x y; then\n  alias l='ls -l'\n".toList ++
        "  function g() \x7b local D=$(pwd -P) ; \x7d\nfi\n".toList ++
        "g \"a\\\"b\" [[ -e z ]]; export E".toList) ["h".toList] = .ok tree ∧
      tree.map Statement.firstWord = ["if".toList, "g".toList, "export".toList] ∧
      ∃ last, WellFormed (.withBuiltins ["h".toList]) tree last := by
  have accepted : parse ("if grep -q x y; then\n  alias l='ls -l'\n".toList ++
      "  function g() \x7b local D=$(pwd -P) ; \x7d\nfi\n".toList ++
      "g \"a\\\"b\" [[ -e z ]]; export E".toList) ["h".toList] = .ok
        [.conditional ⟨⟨1, 0⟩, ⟨4, 2⟩⟩ ⟨⟨⟨1, 3⟩, ⟨1, 14⟩⟩, .test, "grep -q x y".toList⟩
          [.assignment ⟨⟨2, 2⟩, ⟨2, 17⟩⟩ (some .aliased) "l".toList
            (some ⟨⟨⟨2, 10⟩, ⟨2, 17⟩⟩, .quoted .single, "ls -l".toList⟩),
          .function ⟨⟨3, 2⟩, ⟨3, 38⟩⟩ "g".toList
            [.assignment ⟨⟨3, 17⟩, ⟨3, 34⟩⟩ (some .localized) "D".toList
              (some ⟨⟨⟨3, 25⟩, ⟨3, 34⟩⟩, .subcommand, "pwd -P".toList⟩)]],
        .invocation ⟨⟨5, 0⟩, ⟨5, 19⟩⟩ "g".toList
          [⟨⟨⟨5, 2⟩, ⟨5, 8⟩⟩, .quoted .double, "a\\\"b".toList⟩,
            ⟨⟨⟨5, 9⟩, ⟨5, 19⟩⟩, .test, "[[ -e z ]]".toList⟩] .declared,
        .assignment ⟨⟨5, 21⟩, ⟨5, 29⟩⟩ (some .exported) "E".toList none] := by
    cbv
  exact ⟨_, accepted, rfl, wellFormed_of_parse _ _ _ accepted⟩

end ShellLift
