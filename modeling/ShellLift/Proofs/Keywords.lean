import ShellLift.Proofs.Resolution

/-!
# Keywords that are not supported

The words that start an unsupported construct are looked up among the rules like any other word, and
they are refused only where they have no rule. Nothing keeps an extra builtin or a function from
having such a name, and then a statement that starts with the word is a call. There is no other way
for such a statement to be read: the target of an assignment without a keyword is never one of these
words, because it has no rule.
-/

set_option autoImplicit false

namespace ShellLift

open Step Cursor

theorem not_unsupported_keyword (binder : Binder) :
    ¬ isUnsupportedKeyword binder.keyword = true := by
  cases binder <;> decide

theorem not_unsupported_standard {name : Text}
    (standard : name ∈ RuleTable.initial.calleesOf .standard) :
    ¬ isUnsupportedKeyword name = true := by
  obtain rfl : name = "echo".toList := List.mem_singleton.mp standard
  decide

namespace Statement

/-- The targets of assignments without a keyword are none of the unsupported words. -/
def Supported (nodes : List Statement) : Prop :=
  ∀ span target value, assignment span none target value ∈ nodes →
    ¬ isUnsupportedKeyword target = true

theorem Supported.append {front back : List Statement} (first : Supported front)
    (second : Supported back) : Supported (front ++ back) := by
  intro span target value member
  rcases List.mem_append.mp member with member | member
  · exact first span target value member
  · exact second span target value member

theorem Supported.cons {node : Statement} {nodes : List Statement}
    (other : ∀ span target value, node ≠ .assignment span none target value)
    (rest : Supported nodes) : Supported (node :: nodes) := by
  intro span target value member
  rcases List.mem_cons.mp member with same | member
  · exact absurd same.symm (other span target value)
  · exact rest span target value member

end Statement

namespace Parser

theorem Simple.supported {rules : RuleTable} {c d : Cursor} {statement : Statement}
    (simple : Simple rules c statement d) : Statement.Supported [statement] := by
  intro span target value member
  obtain same := List.mem_singleton.mp member
  cases simple with
  | assignment _ supported run =>
      obtain ⟨-, found, -, rfl⟩ := Statement.readAssignment_eq_ok.mp run
      cases same
      exact supported rfl
  | invocation _ run =>
      obtain ⟨arguments, stop, -, rfl⟩ := Statement.arguments_of_readInvocation run
      cases same

theorem Parsed.supported {place : Option Body} {p q : Parser} {read : List Statement}
    (parsed : Parsed place p read q) : Statement.Supported (Statement.nodesAll read) := by
  induction parsed with
  | finish _ => exact fun _ _ _ member => absurd member List.not_mem_nil
  | close _ _ => exact fun _ _ _ member => absurd member List.not_mem_nil
  | simple _ simple _ _ ih =>
      rw [Statement.nodesAll, simple.nodes_eq]
      exact simple.supported.append ih
  | conditional _ _ _ _ _ _ ihBody ih =>
      rw [Statement.nodesAll, Statement.nodes]
      exact .append (.cons (fun _ _ _ other => by cases other) ihBody) ih
  | function _ _ _ _ _ _ _ ihBody ih =>
      rw [Statement.nodesAll, Statement.nodes]
      exact .append (.cons (fun _ _ _ other => by cases other) ihBody) ih

/-- Where an unsupported word has no rule, the statement that it starts is refused. -/
theorem statement?_unsupported {p : Parser}
    (unsupported : isUnsupportedKeyword p.cursor.skipIdle.word = true)
    (free : p.rules.contains p.cursor.skipIdle.word = false) :
    statement? p = .error (.located (.unsupportedConstruct p.cursor.skipIdle.word)
      p.cursor.skipIdle.location) ⟨p.cursor.skipIdle, p.rules⟩ := by
  have word : p.cursor.skipIdle.word ≠ [] := by
    intro empty
    rw [empty] at unsupported
    exact absurd unsupported (by decide)
  have unknown : p.rules.get? p.cursor.skipIdle.word = none := by
    rwa [Table.contains, Option.isSome_eq_false_iff, Option.isNone_iff_eq_none] at free
  apply statement?_eq_error_of_readByRule word
  rw [readByRule_run]
  simp only [unknown, if_pos unsupported]

end Parser

/-- A statement of a script that is read starts with an unsupported word exactly if it is a call of
an extra builtin of that name, or of a function of that name that is declared before. Everywhere
else such a word is refused at its place. -/
theorem unsupported_firstWord_iff (source : Text) (builtins : List Text) (tree : List Statement)
    (accepted : parse source builtins = .ok tree) :
    (∀ node ∈ Statement.nodesAll tree,
      isUnsupportedKeyword node.firstWord = true ↔
        ∃ span name arguments kind, node = .invocation span name arguments kind ∧
          isUnsupportedKeyword name = true ∧
          (kind = .extra ∧ name ∈ builtins ∨
            kind = .declared ∧ ∃ place body,
              Statement.function place name body ∈ Statement.nodesAll tree ∧
                place.stop ≤ span.start)) ∧
      ∀ p : Parser, isUnsupportedKeyword p.cursor.skipIdle.word = true →
        p.rules.contains p.cursor.skipIdle.word = false →
        Parser.statement? p = .error (.located (.unsupportedConstruct p.cursor.skipIdle.word)
          p.cursor.skipIdle.location) ⟨p.cursor.skipIdle, p.rules⟩ := by
  obtain ⟨p, q, parsed, clean, keyed, rules⟩ := Parser.parsed_of_parse accepted
  have calls := parsed.callsFrom clean
  rw [rules] at calls
  refine ⟨?_, fun _ => Parser.statement?_unsupported⟩
  intro node member
  constructor
  · intro unsupported
    cases node with
    | assignment span kind target value =>
        cases kind with
        | some binder => exact absurd unsupported (not_unsupported_keyword binder)
        | none => exact absurd unsupported (parsed.supported span target value member)
    | conditional span condition body =>
        have supported : ¬ isUnsupportedKeyword "if".toList = true := by decide
        exact absurd unsupported supported
    | function span name body =>
        have supported : ¬ isUnsupportedKeyword "function".toList = true := by decide
        exact absurd unsupported supported
    | invocation span name arguments kind =>
        refine ⟨span, name, arguments, kind, rfl, unsupported, ?_⟩
        rcases calls span name arguments kind member with known | declared
        · rcases RuleTable.origin_of_get? known with ⟨-, standard⟩ | extra
          · exact absurd unsupported (not_unsupported_standard standard)
          · exact .inl extra
        · exact .inr declared
  · rintro ⟨span, name, arguments, kind, rfl, unsupported, -⟩
    exact unsupported

/-- A function and an extra builtin with the names of loops are called like any other. -/
theorem unsupported_firstWord_iff_loops :
    ∃ tree,
      parse "function for() \x7b\n\x7d\nfor x; while".toList ["while".toList] = .ok tree ∧
      ∃ node ∈ Statement.nodesAll tree, isUnsupportedKeyword node.firstWord = true ∧
        ∃ span name arguments kind, node = .invocation span name arguments kind ∧
          isUnsupportedKeyword name = true ∧
          (kind = .extra ∧ name ∈ ["while".toList] ∨
            kind = .declared ∧ ∃ place body,
              Statement.function place name body ∈ Statement.nodesAll tree ∧
                place.stop ≤ span.start) := by
  have accepted :
      parse "function for() \x7b\n\x7d\nfor x; while".toList ["while".toList] = .ok
        [.function ⟨⟨1, 0⟩, ⟨2, 1⟩⟩ "for".toList [],
        .invocation ⟨⟨3, 0⟩, ⟨3, 5⟩⟩ "for".toList [⟨⟨⟨3, 4⟩, ⟨3, 5⟩⟩, .literal, ['x']⟩] .declared,
        .invocation ⟨⟨3, 7⟩, ⟨3, 12⟩⟩ "while".toList [] .extra] := by
    cbv
  have call : Statement.invocation ⟨⟨3, 0⟩, ⟨3, 5⟩⟩ "for".toList
      [⟨⟨⟨3, 4⟩, ⟨3, 5⟩⟩, .literal, ['x']⟩] .declared ∈ Statement.nodesAll
        [.function ⟨⟨1, 0⟩, ⟨2, 1⟩⟩ "for".toList [],
        .invocation ⟨⟨3, 0⟩, ⟨3, 5⟩⟩ "for".toList [⟨⟨⟨3, 4⟩, ⟨3, 5⟩⟩, .literal, ['x']⟩] .declared,
        .invocation ⟨⟨3, 7⟩, ⟨3, 12⟩⟩ "while".toList [] .extra] := by
    simp [Statement.nodesAll, Statement.nodes]
  have unsupported : isUnsupportedKeyword "for".toList = true := by decide
  exact ⟨_, accepted, _, call, unsupported,
    ((unsupported_firstWord_iff _ _ _ accepted).1 _ call).mp unsupported⟩

end ShellLift
