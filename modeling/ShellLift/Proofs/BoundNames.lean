import ShellLift.Proofs.BlockStructure

/-!
# The names that emitted code binds

A variable that is not exported and a function become names of the target. Which names a text binds
is read off its lines, whatever it was emitted from: a word with an assignment of the context behind
it, and a function's header. The emitted code binds the variables and functions of the script, in
their order, and what the name of the preamble's module may bring along. Nothing is checked about
these names but that they are words, so the code keeps the names it relies on exactly if the script
leaves them alone.
-/

set_option autoImplicit false

namespace ShellLift

open Layout

/-! ## Reading the names off a text -/

namespace Code

def assigns : Text := " = ctx.assign_local(".toList

/-- The name in a function's header, from what stands behind the keyword. -/
def definedName? : Text → Option Text
  | ' ' :: signature =>
    let name := signature.takeWhile Text.isWordChar
    if name ≠ [] ∧ (signature.dropWhile Text.isWordChar).head? = some '(' then some name else none
  | _ => none

/-- The name that a line binds, from its first word and what stands behind it. -/
def boundBy? (word rest : Text) : Option Text :=
  if word ≠ [] ∧ assigns <+: rest then some word
  else if word = "def".toList then definedName? rest
  else none

def boundName? (line : Text) : Option Text :=
  boundBy? ((content line).takeWhile Text.isWordChar) ((content line).dropWhile Text.isWordChar)

def boundNames (text : Text) : List Text := (Text.lines text).filterMap boundName?

def reservedNames : List Text :=
  ["ctx".toList, "print".toList, "aliases".toList, "args".toList, "parent_ctx".toList]

/-- An identifier of the target that emitted code does not rely on. -/
structure Hygienic (name : Text) : Prop where
  word : Text.isWord name = true
  started : ∀ x ∈ name.head?, x.isDigit = false
  free : name ∉ reservedNames

theorem boundBy?_assigns {word : Text} (nonempty : word ≠ []) (rest : Text) :
    boundBy? word (assigns ++ rest) = some word := by
  rw [boundBy?, if_pos ⟨nonempty, List.prefix_append _ _⟩]

/-- Only what has a space behind its first word binds a name. -/
theorem boundBy?_of_head {rest : Text} (other : rest.head? ≠ some ' ') (word : Text) :
    boundBy? word rest = none := by
  have no_value : ¬ (word ≠ [] ∧ assigns <+: rest) := by
    rintro ⟨-, more, rfl⟩
    exact other rfl
  have no_name : definedName? rest = none := by
    unfold definedName?
    split
    · exact absurd rfl other
    · rfl
  rw [boundBy?, if_neg no_value, no_name, ite_self]

theorem not_assigns {y : Char} (other : y ≠ '=') (rest : Text) :
    ¬ assigns <+: ' ' :: y :: rest := by
  rintro ⟨more, same⟩
  have second : '=' = y := (List.cons.inj (List.cons.inj same).2).1
  exact other second.symm

theorem boundBy?_of_second {word : Text} (other : word ≠ "def".toList) {y : Char} (plain : y ≠ '=')
    (rest : Text) : boundBy? word (' ' :: y :: rest) = none := by
  rw [boundBy?, if_neg (fun value => not_assigns plain rest value.2), if_neg other]

theorem boundBy?_def {name : Text} (word : Text.isWord name = true) (rest : Text) :
    boundBy? "def".toList (' ' :: (name ++ '(' :: rest)) = some name := by
  obtain ⟨nonempty, chars⟩ := Text.isWord_iff.mp word
  have no_value : ¬ ("def".toList ≠ [] ∧ assigns <+: ' ' :: (name ++ '(' :: rest)) := by
    obtain ⟨first, others, rfl⟩ := List.exists_cons_of_ne_nil nonempty
    have plain : first ≠ '=' := by
      rintro rfl
      exact absurd (chars _ (List.mem_cons_self ..)) (by decide)
    exact fun value => not_assigns plain _ value.2
  obtain ⟨taken, left⟩ := takeWhile_append_stop chars (by decide : Text.isWordChar '(' = false) rest
  rw [boundBy?, if_neg no_value, if_pos rfl, definedName?, taken, left, if_pos ⟨nonempty, rfl⟩]

/-- A line is read from its first word on, at any level. -/
theorem boundName?_indentation {word rest : Text} (started : Started (word ++ rest))
    (chars : ∀ y ∈ word, Text.isWordChar y = true)
    (stops : ∀ x ∈ rest.head?, Text.isWordChar x = false) (level : Nat) :
    boundName? (indentation level ++ (word ++ rest)) = boundBy? word rest := by
  have split : (word ++ rest).takeWhile Text.isWordChar = word ∧
      (word ++ rest).dropWhile Text.isWordChar = rest := by
    cases rest with
    | nil =>
        rw [List.append_nil]
        exact ⟨List.takeWhile_eq_self_iff.mpr chars, List.dropWhile_eq_nil_iff.mpr chars⟩
    | cons x rest => exact takeWhile_append_stop chars (stops x rfl) rest
  rw [boundName?, (width_indentation started level).2, split.1, split.2]

/-- A line with no space behind its first word binds nothing. -/
theorem boundName?_none {word rest : Text} {x : Char} (started : Started (word ++ x :: rest))
    (chars : ∀ y ∈ word, Text.isWordChar y = true) (stops : Text.isWordChar x = false)
    (other : x ≠ ' ') (level : Nat) :
    boundName? (indentation level ++ (word ++ x :: rest)) = none := by
  rw [boundName?_indentation started chars (by simpa using stops)]
  exact boundBy?_of_head (by simpa using other) word

theorem boundName?_keyword {keyword : Text} (word : Text.isWord keyword = true) (rest : Text)
    (level : Nat) :
    boundName? (indentation level ++ (keyword ++ ' ' :: rest)) =
      boundBy? keyword (' ' :: rest) := by
  refine boundName?_indentation (started_of_isWord word _) (Text.isWord_iff.mp word).2 ?_ level
  intro x space
  cases space
  decide

theorem boundName?_of_isWord {name : Text} (word : Text.isWord name = true) {x : Char}
    (stops : Text.isWordChar x = false) (other : x ≠ ' ') (behind : Text) (level : Nat) :
    boundName? (indentation level ++ (name ++ x :: behind)) = none :=
  boundName?_none (started_of_isWord word _) (Text.isWord_iff.mp word).2 stops other level

theorem boundName?_contextCall (method : String) (arguments : List Text) (level : Nat) :
    boundName? (indentation level ++ contextCall method arguments) = none := by
  have receiver : "ctx.".toList = "ctx".toList ++ ['.'] := by decide
  have shape : contextCall method arguments =
      "ctx".toList ++ '.' :: call method.toList arguments := by
    rw [contextCall, call_eq, call_eq, receiver]
    simp only [List.append_assoc, List.cons_append, List.nil_append]
  rw [shape]
  exact boundName?_of_isWord (by decide) (by decide) (by decide) _ level

end Code

/-! ## Names of statements -/

namespace Statement

def binding? : Statement → Option Text
  | assignment _ (some .exported) _ _ => none
  | assignment _ (some .aliased) _ _ => none
  | assignment _ _ target _ => some target
  | conditional .. => none
  | function _ name _ => some name
  | invocation .. => none

/-- The names that statements bind, at any depth and in the order of the script. -/
def bindings (statements : List Statement) : List Text := (nodesAll statements).filterMap binding?

def IsNamed : Statement → Prop
  | assignment _ _ target _ => Text.isWord target = true
  | conditional .. => True
  | function _ name _ => Text.isWord name = true
  | invocation _ name _ _ => Text.isWord name = true

theorem IsNamed.isWord {statement : Statement} (named : statement.IsNamed) {name : Text}
    (binds : statement.binding? = some name) : Text.isWord name = true := by
  unfold binding? at binds
  split at binds <;> cases binds <;> exact named

end Statement

theorem WellFormed.isNamed {rules last : RuleTable} {statements : List Statement}
    (wellFormed : WellFormed rules statements last) :
    ∀ node ∈ Statement.nodesAll statements, node.IsNamed := by
  induction wellFormed with
  | nil => exact fun node member => absurd member List.not_mem_nil
  | assignment word _ _ _ _ ih =>
      rw [Statement.nodesAll, Statement.nodes, List.singleton_append, List.forall_mem_cons]
      exact ⟨word, ih⟩
  | conditional _ _ _ _ ihBody ih =>
      rw [Statement.nodesAll, Statement.nodes, List.cons_append, List.forall_mem_cons,
        List.forall_mem_append]
      exact ⟨trivial, ihBody, ih⟩
  | function word _ _ _ ihBody ih =>
      rw [Statement.nodesAll, Statement.nodes, List.cons_append, List.forall_mem_cons,
        List.forall_mem_append]
      exact ⟨word, ihBody, ih⟩
  | invocation word _ _ _ ih =>
      rw [Statement.nodesAll, Statement.nodes, List.singleton_append, List.forall_mem_cons]
      exact ⟨word, ih⟩

/-! ## Lines of statements -/

theorem Code.eq_ok_of_given {code : Except Diagnostic Text} (started : Started (given code)) :
    code = .ok (given code) := by
  cases code with
  | error diagnostic => exact absurd rfl started.ne_nil
  | ok text => rfl

namespace Statement

theorem boundName?_assignmentCode {settings : Settings} {span : Span} {kind : Option Binder}
    {target text : Text} {value : Option Expression} (word : Text.isWord target = true)
    (emitted : assignmentCode settings span.start kind target value = .ok text) (level : Nat) :
    Code.boundName? (Code.indentation level ++ text) =
      binding? (.assignment span kind target value) := by
  obtain ⟨nonempty, chars⟩ := Text.isWord_iff.mp word
  unfold assignmentCode at emitted
  split at emitted
  · cases emitted
    exact Code.boundName?_contextCall _ _ level
  · rename_i value
    split at emitted
    · cases emitted
      exact Code.boundName?_contextCall _ _ level
    · cases emitted
      exact @Code.boundName?_none [] (target ++ " = ".toList ++ value.code) '$'
        ⟨'$', _, rfl, by decide⟩ (fun _ none => absurd none List.not_mem_nil)
        (by decide) (by decide)
        level
  · split at emitted
    · obtain ⟨code, -, rfl⟩ := Code.map_eq_ok.mp emitted
      have front : "aliases[".toList = "aliases".toList ++ ['['] := by decide
      rw [front, List.append_assoc, List.append_assoc, List.append_assoc, List.singleton_append]
      exact Code.boundName?_of_isWord (by decide) (by decide) (by decide) _ level
    · cases emitted
  · rename_i value not_exported not_aliased
    cases emitted
    have middle : Code.assigns =
        " = ".toList ++ ("ctx.".toList ++ "assign_local".toList ++ ['(']) := by
      decide
    have shape : target ++ " = ".toList ++
        Code.contextCall "assign_local" [Code.stringLiteral target, value.code] =
        target ++ (Code.assigns ++ (List.intercalate ", ".toList
          [Code.stringLiteral target, value.code] ++ [')'])) := by
      rw [Code.contextCall, Code.call_eq, middle]
      simp only [List.append_assoc, List.cons_append, List.nil_append]
    have stops : ∀ rest, ∀ x ∈ (Code.assigns ++ rest).head?, Text.isWordChar x = false := by
      intro rest x first
      cases first
      decide
    rw [shape, Code.boundName?_indentation (started_of_isWord word _) chars (stops _),
      Code.boundBy?_assigns nonempty]
    exact (binding?.eq_3 _ _ _ _ not_exported not_aliased).symm
  · cases emitted

theorem boundName?_invocationCode {start : Location} {name text : Text}
    {arguments : List Expression}
    {kind : Callee} (word : Text.isWord name = true)
    (emitted : invocationCode start name arguments kind = .ok text) (level : Nat) :
    Code.boundName? (Code.indentation level ++ text) = none := by
  obtain ⟨callee, known, rfl⟩ := eq_call_of_invocationCode emitted
  refine Code.boundName?_of_isWord ?_ (by decide) (by decide) _ level
  rcases known with rfl | builtin
  · exact word
  · obtain rfl := List.mem_singleton.mp builtin
    decide

theorem boundName?_conditional (condition : Expression) (level : Nat) :
    Code.boundName? (Code.indentation level ++ ("if ".toList ++ condition.code ++ ":".toList)) =
      none := by
  have front : "if ".toList = "if".toList ++ [' '] := by decide
  obtain ⟨first, others, shape, -, -, plain⟩ := Code.code_head condition.emitted
  rw [front, condition.code_eq, shape, List.append_assoc, List.append_assoc, List.singleton_append,
    Code.boundName?_keyword (by decide)]
  exact Code.boundBy?_of_second (by decide) plain _

theorem boundName?_function {name : Text} (word : Text.isWord name = true) (level : Nat) :
    Code.boundName?
      (Code.indentation level ++ ("def ".toList ++ name ++ "(*args, parent_ctx):".toList)) =
        some name := by
  have front : "def ".toList = "def".toList ++ [' '] := by decide
  have back : "(*args, parent_ctx):".toList = '(' :: "*args, parent_ctx):".toList := by decide
  rw [front, back, List.append_assoc, List.append_assoc, List.singleton_append,
    Code.boundName?_keyword (by decide)]
  exact Code.boundBy?_def word _

theorem boundName?_contextLine (name : Text) (level : Nat) :
    Code.boundName? (Code.indentation level ++ contextLine name) = none := by
  have front : "with parent_ctx.begin_function(".toList =
      "with".toList ++ ' ' :: 'p' :: "arent_ctx.begin_function(".toList := by decide
  unfold contextLine
  rw [front, List.append_assoc, List.append_assoc, List.cons_append, List.cons_append,
    Code.boundName?_keyword (by decide)]
  exact Code.boundBy?_of_second (by decide) (by decide) _

/-- The first line of a statement binds what the statement binds. -/
theorem boundName?_headLine {settings : Settings} {statement : Statement}
    (started : Started (statement.headLine settings)) (named : statement.IsNamed) (level : Nat) :
    Code.boundName? (Code.indentation level ++ statement.headLine settings) =
      statement.binding? := by
  cases statement with
  | assignment span kind target value =>
      exact boundName?_assignmentCode named (Code.eq_ok_of_given started) level
  | conditional span condition body => exact boundName?_conditional condition level
  | function span name body => exact boundName?_function named level
  | invocation span name arguments kind =>
      exact boundName?_invocationCode named (Code.eq_ok_of_given started) level

theorem boundNames_filler (level : Nat) (body : List Statement) :
    (filler level body).filterMap Code.boundName? = [] := by
  have started : Started ("pass".toList ++ []) := started_of_isWord (by decide) []
  have nothing := Code.boundName?_indentation started
    (Text.isWord_iff.mp (by decide)).2 (fun _ none => by cases none) level
  rw [filler]
  split
  · rw [List.append_nil] at nothing
    rw [List.filterMap_cons, nothing]
    rfl
  · rfl

theorem boundNames_ownLines (level : Nat) (statement : Statement) :
    (statement.ownLines level).filterMap Code.boundName? = [] := by
  cases statement with
  | assignment span kind target value => rfl
  | conditional span condition body => exact boundNames_filler _ body
  | function span name body =>
      rw [ownLines, List.filterMap_cons, boundName?_contextLine]
      exact boundNames_filler _ body
  | invocation span name arguments kind => rfl

end Statement

theorem Placed.boundNames_lines {settings : Settings} {place : Placed}
    (started : Started (place.statement.headLine settings)) (named : place.statement.IsNamed) :
    (place.lines settings).filterMap Code.boundName? = place.statement.binding?.toList := by
  unfold Placed.lines Placed.firstLine
  rw [List.filterMap_cons, Statement.boundName?_headLine started named,
    Statement.boundNames_ownLines]
  cases place.statement.binding? <;> rfl

/-! ## Lines of a script -/

namespace Text

theorem lines_ne_nil {text : Text} (nonempty : text ≠ []) : lines text ≠ [] := by
  fun_cases lines text with
  | case1 => exact absurd rfl nonempty
  | case2 rest => exact List.cons_ne_nil _ _
  | case3 rest => exact List.cons_ne_nil _ _
  | case4 x rest => cases lines rest <;> exact List.cons_ne_nil _ _

theorem consFirst_append (x : Char) {front : List Text} (nonempty : front ≠ []) (back : List Text) :
    consFirst x (front ++ back) = consFirst x front ++ back := by
  obtain ⟨first, others, rfl⟩ := List.exists_cons_of_ne_nil nonempty
  rfl

/-- A line feed ends a line, whatever the lines in front of it. -/
theorem lines_append_break {x : Char} (feed : x ≠ '\n') (carriage : x ≠ '\r') (front back : Text) :
    lines (front ++ [x] ++ '\n' :: back) = lines (front ++ [x]) ++ lines back := by
  rw [List.append_assoc, List.singleton_append]
  induction front using lines.induct with
  | case1 =>
      have no_feed : '\n' ∉ [x] := by simpa using feed.symm
      have no_carriage : '\r' ∉ [x] := by simpa using carriage.symm
      have first := lines_append_feed no_feed no_carriage back
      rw [List.nil_append, List.nil_append,
        lines_of_unbroken (List.cons_ne_nil _ _) no_feed no_carriage]
      exact first
  | case2 rest ih =>
      rw [List.cons_append, List.cons_append, lines, lines, ih]
      rfl
  | case3 rest ih =>
      rw [List.cons_append, List.cons_append, List.cons_append, List.cons_append, lines, lines, ih]
      rfl
  | case4 c rest plain alone ih =>
      -- No line end starts at this character, with or without what is behind the line.
      have alone' : ∀ more others, c = '\r' → rest ++ x :: more = '\n' :: others → False := by
        intro more others same shape
        cases rest with
        | nil => exact feed (List.cons.inj shape).1
        | cons y rest => exact alone rest same (by rw [(List.cons.inj shape).1])
      rw [List.cons_append, List.cons_append, lines.eq_4 _ _ plain (alone' _),
        lines.eq_4 _ _ plain (alone' _), ih, consFirst_append]
      exact lines_ne_nil (by simp)

end Text

namespace Code

def header (settings : Settings) : Text :=
  if settings.emitsPreamble then importLine settings else []

theorem lines_ofScript {rules last : RuleTable} {statements : List Statement}
    (wellFormed : WellFormed rules statements last) {settings : Settings} {text : Text}
    (emitted : ofScript settings statements = .ok text) :
    Text.lines text = Text.lines (header settings) ++
      ((preambleLines settings statements).tail ++
        (Statement.placedAll 0 0 statements).flatMap (Placed.lines settings)) := by
  obtain ⟨regular, rfl⟩ := eq_unlines_outline wellFormed emitted
  have whole := linesAll_outline settings statements
  cases preamble : settings.emitsPreamble with
  | false =>
      rw [outline_bare settings statements preamble] at whole ⊢
      rw [Outline.lines_unlines_linesAll (Outline.sound_of_regular regular), whole]
      unfold header preambleLines
      rw [preamble]
      rfl
  | true =>
      obtain ⟨context, others, rest, shape⟩ := outline_preamble regular preamble
      have first : preambleLines settings statements =
          importLine settings :: (preambleLines settings statements).tail := by
        unfold preambleLines
        rw [if_pos preamble]
        rfl
      rw [shape, first, Outline.linesAll, Outline.lines_zero, Outline.linesAll, List.cons_append,
        List.cons_append, List.nil_append] at whole
      have behind := (List.cons.inj whole).2
      have solid := Outline.linesAll_cons_ne_nil 0 context others
      have joined : unlines (importLine settings :: Outline.linesAll 0 (context :: others)) =
          importLine settings ++ '\n' :: unlines (Outline.linesAll 0 (context :: others)) := by
        unfold unlines
        have apart :=
          @Text.intercalate_append '\n' _ _ (List.cons_ne_nil (importLine settings) []) solid
        rwa [List.intercalate_singleton] at apart
      have start : header settings = importLine settings := if_pos preamble
      rw [shape, Outline.linesAll, Outline.lines_zero, Outline.linesAll, List.singleton_append,
        joined, start, importLine_concat, Text.lines_append_break (by decide) (by decide),
        Outline.lines_unlines_linesAll (Outline.sound_of_regular rest), behind]

def isDottedChar (x : Char) : Bool := Text.isWordChar x || x == '.'

/-- The preamble binds no name if its module has a dotted name. -/
theorem boundNames_header {settings : Settings}
    (dotted : ∀ x ∈ settings.runtimeModule, isDottedChar x = true) :
    boundNames (header settings) = [] := by
  have free : ∀ x, isDottedChar x = false → x ∉ settings.runtimeModule := by
    intro x other member
    rw [dotted x member] at other
    cases other
  have sound := sound_importLine (free _ (by decide : isDottedChar '\n' = false))
    (free _ (by decide : isDottedChar '\r' = false))
  obtain ⟨y, rest, shape, plain⟩ : ∃ y rest,
      settings.runtimeModule ++ " import init_context".toList = y :: rest ∧ y ≠ '=' := by
    cases named : settings.runtimeModule with
    | nil => exact ⟨' ', _, rfl, by decide⟩
    | cons y rest =>
        refine ⟨y, _, rfl, ?_⟩
        rintro rfl
        exact free '=' (by decide) (named ▸ List.mem_cons_self ..)
  have line : importLine settings = indentation 0 ++ ("from".toList ++ ' ' :: y :: rest) := by
    have front : "from ".toList = "from".toList ++ [' '] := by decide
    unfold importLine
    rw [List.append_assoc, shape, front, List.append_assoc]
    rfl
  unfold header boundNames
  split
  · rw [Text.lines_of_unbroken sound.started.ne_nil sound.unbroken.1 sound.unbroken.2, line,
      List.filterMap_cons, boundName?_keyword (by decide), boundBy?_of_second (by decide) plain]
    rfl
  · rfl

theorem boundNames_preambleLines (settings : Settings) (statements : List Statement) :
    (preambleLines settings statements).tail.filterMap boundName? = [] := by
  have context : boundName? "with init_context() as ctx:".toList = none := by decide
  unfold preambleLines
  split
  · rw [List.tail_cons, List.filterMap_cons, context]
    exact Statement.boundNames_filler 1 statements
  · rfl

end Code

/-- The lines of a script's statements bind the names of its variables and functions. -/
theorem Statement.boundNames_placedAll {settings : Settings} {statements : List Statement}
    (regular : Outline.Every Regular (outlineAll settings statements))
    (named : ∀ node ∈ nodesAll statements, node.IsNamed) :
    ((placedAll 0 0 statements).flatMap (Placed.lines settings)).filterMap Code.boundName? =
      bindings statements := by
  have each : ∀ place ∈ placedAll 0 0 statements,
      (place.lines settings).filterMap Code.boundName? = place.statement.binding?.toList := by
    intro place member
    obtain ⟨block, line⟩ := headLine_of_placedAll settings 0 0 statements regular member
    have node : place.statement ∈ nodesAll statements := by
      rw [← map_placedAll 0 0]
      exact List.mem_map_of_mem member
    exact place.boundNames_lines line.started (named _ node)
  rw [List.filterMap_flatMap, List.flatMap_congr each, bindings, ← map_placedAll 0 0,
    List.filterMap_map, List.filterMap_eq_flatMap_toList]
  rfl

theorem Code.boundNames_ofScript {rules last : RuleTable} {statements : List Statement}
    (wellFormed : WellFormed rules statements last) {settings : Settings} {text : Text}
    (emitted : ofScript settings statements = .ok text) :
    boundNames text = boundNames (header settings) ++ Statement.bindings statements := by
  have regular := (eq_unlines_outline wellFormed emitted).1
  rw [boundNames, lines_ofScript wellFormed emitted, List.filterMap_append, List.filterMap_append,
    boundNames_preambleLines, Statement.boundNames_placedAll regular wellFormed.isNamed]
  rfl

theorem WellFormed.isWord_of_bindings {rules last : RuleTable} {statements : List Statement}
    (wellFormed : WellFormed rules statements last) :
    ∀ name ∈ Statement.bindings statements, Text.isWord name = true := by
  intro name member
  obtain ⟨node, inside, binds⟩ := List.mem_filterMap.mp member
  exact (wellFormed.isNamed node inside).isWord binds

/-- Emitted code binds the names of the script's variables and functions, after those that the name
of the preamble's module brings along. They are all hygienic exactly if the latter are, and no
variable or function of the script has a name that starts with a digit or that the code relies
on. -/
theorem boundNames_hygienic_iff (settings : Settings) (source : Text) (builtins : List Text)
    (code : Text) (lifted : lift settings source builtins = .ok code) :
    ∃ tree, parse source builtins = .ok tree ∧
      Code.boundNames code = Code.boundNames (Code.header settings) ++ Statement.bindings tree ∧
      ((∀ x ∈ settings.runtimeModule, Code.isDottedChar x = true) →
        Code.boundNames (Code.header settings) = []) ∧
      ((∀ name ∈ Code.boundNames code, Code.Hygienic name) ↔
        (∀ name ∈ Code.boundNames (Code.header settings), Code.Hygienic name) ∧
          ∀ name ∈ Statement.bindings tree,
            (∀ x ∈ name.head?, x.isDigit = false) ∧ name ∉ Code.reservedNames) := by
  obtain ⟨tree, accepted, emitted⟩ := lift_eq_ok.mp lifted
  obtain ⟨p, q, parsed, clean, keyed, -⟩ := Parser.parsed_of_parse accepted
  have wellFormed := parsed.wellFormed clean keyed
  have names := Code.boundNames_ofScript wellFormed emitted
  have words := wellFormed.isWord_of_bindings
  refine ⟨tree, accepted, names, Code.boundNames_header, ?_⟩
  rw [names, List.forall_mem_append]
  refine and_congr_right fun _ => forall₂_congr fun name member => ?_
  constructor
  · exact fun hygienic => ⟨hygienic.started, hygienic.free⟩
  · exact fun ⟨started, free⟩ => ⟨words name member, started, free⟩

/-- A function named like the function that writes, and a variable that starts with a digit. -/
theorem boundNames_hygienic_iff_print :
    ∃ code,
      lift ⟨false, [], "a.b".toList, true⟩
        "function print() \x7b\n  local 1a=x\n\x7d\necho b".toList [] = .ok code ∧
      Code.boundNames code = ["print".toList, "1a".toList] ∧
      ¬ ∀ name ∈ Code.boundNames code, Code.Hygienic name := by
  have accepted : parse "function print() \x7b\n  local 1a=x\n\x7d\necho b".toList [] = .ok
      [.function ⟨⟨1, 0⟩, ⟨3, 1⟩⟩ "print".toList
        [.assignment ⟨⟨2, 2⟩, ⟨2, 12⟩⟩ (some .localized) "1a".toList
          (some ⟨⟨⟨2, 11⟩, ⟨2, 12⟩⟩, .literal, "x".toList⟩)],
      .invocation ⟨⟨4, 0⟩, ⟨4, 6⟩⟩ "echo".toList [⟨⟨⟨4, 5⟩, ⟨4, 6⟩⟩, .literal, "b".toList⟩]
        .standard] := by
    cbv
  obtain ⟨code, lifted⟩ : ∃ code, lift ⟨false, [], "a.b".toList, true⟩
      "function print() \x7b\n  local 1a=x\n\x7d\necho b".toList [] = .ok code := by
    rw [lift, accepted]
    exact ⟨_, rfl⟩
  obtain ⟨tree, accepted', names, header, hygienic⟩ := boundNames_hygienic_iff _ _ _ _ lifted
  obtain rfl : _ = tree := Except.ok.inj (accepted.symm.trans accepted')
  refine ⟨code, lifted, ?_, ?_⟩
  · rw [names, header (List.all_eq_true.mp (by decide))]
    rfl
  · rw [hygienic]
    rintro ⟨-, free⟩
    exact (free "print".toList (List.mem_cons_self ..)).2 (by decide)

end ShellLift
