import ShellLift.Proofs.Derivation
import ShellLift.Proofs.Heads

/-!
# Reading a rendered script

A statement has a canonical form: one line for each statement, with single blanks between its
parts, and more lines only where a command has line ends of its own. Whatever a script looked like,
the canonical form of its statements is read as the same statements, up to their places.

The text of each lexeme says where it ends, and the names are registered in the same order as in the
script. So each derivation of a script can be followed through the rendered lines.
-/

set_option autoImplicit false

namespace ShellLift

open Step Cursor

/-! ## The canonical form -/

namespace Statement

def headline : Statement → Text
  | assignment _ kind target value =>
    (kind.elim [] fun binder => binder.keyword ++ [' ']) ++ target ++
      value.elim [] fun expression => '=' :: expression.spelling
  | conditional _ condition _ => "if ".toList ++ condition.spelling ++ "; then".toList
  | function _ name _ => "function ".toList ++ name ++ "() \x7b".toList
  | invocation _ name arguments _ =>
    name ++ arguments.flatMap fun argument => ' ' :: argument.spelling

mutual

/-- The lines of a statement. A command is cut at its line ends. -/
def render : Statement → List Text
  | conditional span condition body =>
    Text.pieces '\n' (conditional span condition body).headline ++ renderAll body ++ ["fi".toList]
  | function span name body =>
    Text.pieces '\n' (function span name body).headline ++ renderAll body ++ ["\x7d".toList]
  | assignment span kind target value =>
    Text.pieces '\n' (assignment span kind target value).headline
  | invocation span name arguments kind =>
    Text.pieces '\n' (invocation span name arguments kind).headline

def renderAll : List Statement → List Text
  | [] => []
  | statement :: statements => render statement ++ renderAll statements

end

end Statement

/-! ## Statements without their places -/

def Span.nowhere : Span := ⟨⟨0, 0⟩, ⟨0, 0⟩⟩

def Expression.unplaced (expression : Expression) : Expression :=
  ⟨.nowhere, expression.form, expression.text⟩

namespace Statement

mutual

def unplaced : Statement → Statement
  | assignment _ kind target value =>
    assignment .nowhere kind target (value.map Expression.unplaced)
  | conditional _ condition body => conditional .nowhere condition.unplaced (unplacedAll body)
  | function _ name body => function .nowhere name (unplacedAll body)
  | invocation _ name arguments kind =>
    invocation .nowhere name (arguments.map Expression.unplaced) kind

def unplacedAll : List Statement → List Statement
  | [] => []
  | statement :: statements => unplaced statement :: unplacedAll statements

end

end Statement

/-! ## Pieces of a text as lines -/

/-- The pieces between the line feeds of a text are passed by going over the text. -/
theorem Cursor.passes_pieces (row : Nat) (before text : Text) (later : List Text) :
    ∃ row' before', Passes ⟨row, before, Text.pieces '\n' text ++ later⟩ text
      ⟨row', before', [] :: later⟩ := by
  induction text generalizing row before with
  | nil => exact ⟨row, before, .stay _⟩
  | cons x rest ih =>
      rw [Text.pieces]
      obtain ⟨first, others, shape⟩ := List.exists_cons_of_ne_nil (Text.pieces_ne_nil '\n' rest)
      rw [shape] at ih ⊢
      split
      · rename_i feed
        obtain ⟨row', before', passes⟩ := ih (row + 1) []
        rw [feed]
        exact ⟨row', before', .line passes⟩
      · obtain ⟨row', before', passes⟩ := ih row (before ++ [x])
        exact ⟨row', before', .char passes⟩

/-! ## Lexemes of a rendered line -/

theorem Text.isWord_iff {text : Text} :
    Text.isWord text = true ↔ text ≠ [] ∧ ∀ x ∈ text, Text.isWordChar x = true := by
  simp [isWord]

namespace Cursor

theorem Passes.skipSpaces_eq {c d : Cursor} {x : Char} (passes : Passes c [' '] d)
    (next : d.next? = some x) (solid : Text.isSpace x = false) : c.skipSpaces = d := by
  have blank : ∀ y ∈ [' '], Text.isSpace y = true := List.all_eq_true.mp (by decide)
  refine (passes.skipWhile_eq (by decide) (live_of_next next) blank ?_).2
  intro y next'
  rw [next] at next'
  exact Option.some.inj next' ▸ solid

/-- A word ends at a character that is not one of words. -/
theorem Passes.word_of_next {c d : Cursor} {t : Text} {x : Char} (passes : Passes c t d)
    (all : ∀ y ∈ t, Text.isWordChar y = true) (next : d.next? = some x)
    (stop : Text.isWordChar x = false) : c.word = t ∧ c.skipWord = d := by
  apply passes.word_eq (live_of_next next) all
  intro y next'
  rw [next] at next'
  exact Option.some.inj next' ▸ stop

theorem Passes.skipIdle_eq {c d : Cursor} {x : Char} (passes : Passes c [' '] d)
    (next : d.next? = some x) (solid : Text.isSpace x = false) (code : x ≠ '#') :
    c.skipIdle = d := by
  obtain ⟨rest, later, ahead, rfl⟩ := passes.on_line (by decide) (live_of_next next)
  obtain ⟨rest, rfl⟩ := List.head?_eq_some_iff.mp next
  obtain ⟨row, before, lines⟩ := c
  obtain rfl : lines = _ := ahead
  have blank : Text.isSpace ' ' = true := by decide
  simp [skipIdle, skipIdleFrom, isIdle, solid, code, blank]

theorem skipIdle_of_word {c : Cursor} (word : c.word ≠ []) : c.skipIdle = c := by
  obtain ⟨x, next, isWord⟩ := exists_next_of_word word
  apply skipIdle_of_next next (Text.isSpace_of_isWordChar isWord)
  rintro rfl
  exact absurd isWord (by decide)

end Cursor

theorem Text.isBlank_of_isPlainChar {x : Char} (plain : Text.isPlainChar x = true) :
    Text.isBlank x = false := by
  have between : ∀ {low high : Nat}, 45 ≤ low → high ≤ 126 →
      low ≤ x.val.toNat ∧ x.val.toNat ≤ high → 45 ≤ x.toNat ∧ x.toNat ≤ 126 :=
    fun above below inside => ⟨Nat.le_trans above inside.1, Nat.le_trans inside.2 below⟩
  have bounds : 45 ≤ x.toNat ∧ x.toNat ≤ 126 := by
    simp only [isPlainChar, isWordChar, Char.isAlphanum, Char.isAlpha, Char.isUpper, Char.isLower,
      Char.isDigit, Bool.or_eq_true, Bool.and_eq_true, decide_eq_true_eq, beq_iff_eq, ge_iff_le,
      UInt32.le_iff_toNat_le] at plain
    rcases plain with (((((((upper | lower) | digit) | rfl) | rfl) | rfl) | rfl) | rfl) | rfl
    · exact between (by decide) (by decide) upper
    · exact between (by decide) (by decide) lower
    · exact between (by decide) (by decide) digit
    all_goals decide
  by_contra blank
  obtain ⟨range, member, inside⟩ := List.any_eq_true.mp (Bool.not_eq_false _ ▸ blank)
  have outside : ∀ range ∈ blankRanges, range.2 < 45 ∨ 126 < range.1 := by decide
  have apart := outside range member
  have ends : range.1 ≤ x.toNat ∧ x.toNat ≤ range.2 := by simpa using inside
  omega

namespace Expression

/-- A spelling starts with a character that is no blank. -/
theorem Readable.head {position : Position} {expression : Expression}
    (readable : Readable position expression.form expression.text) :
    ∃ x rest, expression.spelling = x :: rest ∧ Text.isSpace x = false ∧
      (position = .value → Text.isBlank x = false) := by
  obtain ⟨span, form, text⟩ := expression
  cases form with
  | literal =>
      obtain ⟨-, nonempty, plain⟩ := readable
      obtain ⟨x, rest, rfl⟩ := List.exists_cons_of_ne_nil nonempty
      have solid := Text.isBlank_of_isPlainChar (plain x (List.mem_cons_self ..))
      refine ⟨x, rest, rfl, ?_, fun _ => solid⟩
      by_contra space
      rw [Text.isBlank_of_isSpace (by simpa using space)] at solid
      cases solid
  | quoted style =>
      refine ⟨style.mark, _, rfl, ?_, fun _ => ?_⟩
      · cases style <;> decide
      · cases style <;> decide
  | subcommand => exact ⟨'$', _, rfl, by decide, fun _ => by decide⟩
  | test =>
      rcases readable with ⟨inside, rfl, -, -⟩ | ⟨rfl, unmarked⟩
      · exact ⟨'[', _, rfl, by decide, fun _ => by decide⟩
      · obtain ⟨x, rest, rfl, solid, -⟩ := unmarked.start
        exact ⟨x, rest, rfl, solid, fun value => nomatch value⟩

theorem Readable.next? {position : Position} {expression : Expression} {c d : Cursor}
    (readable : Readable position expression.form expression.text)
    (passes : Passes c expression.spelling d) :
    ∃ x, c.next? = some x ∧ Text.isSpace x = false ∧
      (position = .value → Text.isBlank x = false) := by
  obtain ⟨x, rest, shape, solid, notBlank⟩ := readable.head
  rw [shape] at passes
  refine ⟨x, passes.next?_eq ?_, solid, notBlank⟩
  rintro rfl
  cases solid

theorem read_of_passes {position : Position} {c d : Cursor} {expression : Expression}
    (readable : Readable position expression.form expression.text) (clean : c.Clean)
    (passes : Passes c.skipSpaces expression.spelling d) (live : d.ahead ≠ [])
    (stops : position.Stops d.next?) :
    read position c = .ok (expression.moved c.skipSpaces d) d := by
  rw [read_run, read?_of_passes readable clean passes live stops]

end Expression

namespace Statement

/-- Arguments with a blank in front of each, up to the end of the line, are read again. -/
theorem arguments_of_passes {arguments : List Expression} {c d : Cursor}
    (readable : ∀ argument ∈ arguments, Expression.Readable .value argument.form argument.text)
    (clean : c.Clean) (live : d.ahead ≠ []) (lineEnd : d.next? = none)
    (passes : Passes c (arguments.flatMap fun argument => ' ' :: argument.spelling) d) :
    ∃ again, Arguments c again d d ∧
      again.map Expression.unplaced = arguments.map Expression.unplaced := by
  induction arguments generalizing c with
  | nil =>
      obtain rfl := passes.eq_of_nil live
      refine ⟨[], .nil ?_, rfl⟩
      rw [Expression.read?_run, skipSpaces_of_lineEnd lineEnd, lineEnd]
  | cons argument arguments ih =>
      rw [List.flatMap_cons, List.cons_append] at passes
      obtain ⟨e, blank, passes⟩ := passes.split (t := [' '])
      obtain ⟨f, first, others⟩ := Passes.split passes
      have live' := others.live live
      have readable' := readable argument (List.mem_cons_self ..)
      obtain ⟨x, next, solid, -⟩ := readable'.next? first
      have spaces := blank.skipSpaces_eq next solid
      -- An argument is followed by the blank of the next one, or by the end of the line.
      have behind : f.next? = none ∨ f.next? = some ' ' := by
        cases arguments with
        | nil =>
            obtain rfl := others.eq_of_nil live
            exact .inl lineEnd
        | cons _ _ => exact .inr (others.next?_eq (by decide))
      have stops : Expression.Position.Stops .value f.next? := by
        intro y next'
        rcases behind with none | some
        · rw [none] at next'
          cases next'
        · rw [some] at next'
          cases next'
          decide
      have ends : endsArgument f.next? = true := by
        rcases behind with none | some
        · rw [none]
          rfl
        · rw [some]
          decide
      have read := Expression.read?_of_passes readable' clean (spaces ▸ first) live' stops
      obtain ⟨again, shape', same⟩ := ih (fun other member => readable other
        (List.mem_cons_of_mem _ member)) (first.clean (blank.clean clean)) others
      exact ⟨_, .cons read ends shape', congrArg (argument.unplaced :: ·) same⟩

theorem readInvocation_of_passes {name : Text} {arguments : List Expression} {kind : Callee}
    {span : Span} {c d : Cursor} (word : Text.isWord name = true)
    (readable : ∀ argument ∈ arguments, Expression.Readable .value argument.form argument.text)
    (clean : c.Clean) (live : d.ahead ≠ []) (lineEnd : d.next? = none)
    (passes : Passes c (invocation span name arguments kind).headline d) :
    c.word = name ∧ ∃ again, readInvocation kind c.size c = .ok again d ∧
      again.unplaced = (invocation span name arguments kind).unplaced := by
  obtain ⟨e, first, others⟩ := Passes.split passes
  have stops : ∀ x, e.next? = some x → Text.isWordChar x = false := by
    intro x next
    cases arguments with
    | nil =>
        obtain rfl := others.eq_of_nil live
        rw [lineEnd] at next
        cases next
    | cons _ _ =>
        rw [others.next?_eq (by decide)] at next
        cases next
        decide
  obtain ⟨nonempty, all⟩ := Text.isWord_iff.mp word
  obtain ⟨same, skipped⟩ := first.word_eq (others.live live) all stops
  have shorter := skipWord_size_lt (same ▸ nonempty)
  obtain ⟨again, shape, equal⟩ :=
    arguments_of_passes readable (first.clean clean) live lineEnd others
  subst skipped
  have run := shape.run name c.size 0 shorter
  refine ⟨same, invocation (invocationSpan c.location c.skipWord.location again) name again kind,
    ?_, ?_⟩
  · rw [readInvocation_run, same, run]
  · simp only [unplaced, equal]

theorem targetStart_of_passes {kind : Option Binder} {c e : Cursor}
    (passes : Passes c (kind.elim [] fun binder => binder.keyword ++ [' ']) e)
    (word : e.word ≠ []) :
    targetStart kind c = e ∧ c.word = kind.elim e.word Binder.keyword := by
  have live := live_of_word word
  cases kind with
  | none =>
      obtain rfl := passes.eq_of_nil live
      exact ⟨rfl, rfl⟩
  | some binder =>
      obtain ⟨f, keyword, blank⟩ := Passes.split passes
      have all : ∀ x ∈ binder.keyword, Text.isWordChar x = true := by
        cases binder <;> exact List.all_eq_true.mp (by decide)
      obtain ⟨same, rfl⟩ := keyword.word_of_next all (blank.next?_eq (by decide)) (by decide)
      obtain ⟨x, next, isWord⟩ := exists_next_of_word word
      exact ⟨blank.skipSpaces_eq next (Text.isSpace_of_isWordChar isWord), same⟩

theorem readAssigned_of_passes {kind : Option Binder} (target : Text) {value : Option Expression}
    {c d : Cursor}
    (readable : ∀ expression, value = some expression →
      Expression.Readable .value expression.form expression.text)
    (valueless : value = none → kind = some .exported)
    (clean : c.Clean) (live : d.ahead ≠ []) (lineEnd : d.next? = none)
    (passes : Passes c (value.elim [] fun expression => '=' :: expression.spelling) d) :
    (∀ x, c.next? = some x → x = '=') ∧ c.skipSpaces = c ∧
      ∃ again, readAssigned kind target c = .ok again d ∧
        again.map Expression.unplaced = value.map Expression.unplaced := by
  cases value with
  | none =>
      obtain rfl := passes.eq_of_nil live
      rw [skipSpaces_of_lineEnd lineEnd]
      have noMark : d.startsWith "=".toList = false := by
        by_contra mark
        have starts : d.startsWith "=".toList = true := Bool.not_eq_false _ ▸ mark
        have next : d.next? = some '=' := (passes_of_startsWith starts).1.next?_eq (by decide)
        rw [lineEnd] at next
        cases next
      refine ⟨fun x next => ?_, rfl, none, readAssigned_eq_ok.mpr ⟨noMark, valueless rfl, rfl⟩, rfl⟩
      rw [lineEnd] at next
      cases next
  | some expression =>
      have whole : Passes c ("=".toList ++ expression.spelling) d := passes
      obtain ⟨e, mark, spelled⟩ := whole.split
      have next : c.next? = some '=' := mark.next?_eq (by decide)
      have readable' := readable expression rfl
      obtain ⟨x, first, solid, notBlank⟩ := readable'.next? spelled
      obtain ⟨starts, moved⟩ := mark.startsWith_eq (by decide) (live_of_next first)
      have moved' : c.move 1 = e := moved
      rw [skipSpaces_of_next next (by decide)]
      refine ⟨fun y next' => ?_, rfl, some (expression.moved e d), ?_, rfl⟩
      · rw [next] at next'
        exact (Option.some.inj next').symm
      · refine readAssigned_eq_ok.mpr ⟨starts, ?_, ?_⟩
        · rw [moved', first, Option.any_some, notBlank rfl]
          exact Bool.false_ne_true
        · have spaces := skipSpaces_of_next first solid
          have stops : Expression.Position.Stops .value d.next? := by
            intro y next'
            rw [lineEnd] at next'
            cases next'
          rw [moved', Expression.read_of_passes readable' (mark.clean clean) (spaces.symm ▸ spelled)
            live stops, spaces]

theorem readAssignment_of_passes {kind : Option Binder} {target : Text} {value : Option Expression}
    {span : Span} {c d : Cursor} (word : Text.isWord target = true)
    (readable : ∀ expression, value = some expression →
      Expression.Readable .value expression.form expression.text)
    (valueless : value = none → kind = some .exported)
    (clean : c.Clean) (live : d.ahead ≠ []) (lineEnd : d.next? = none)
    (passes : Passes c (assignment span kind target value).headline d) :
    c.word = kind.elim target Binder.keyword ∧ ∃ again, readAssignment kind c = .ok again d ∧
      again.unplaced = (assignment span kind target value).unplaced := by
  obtain ⟨f, front, valued⟩ := Passes.split passes
  obtain ⟨e, opened, named⟩ := Passes.split front
  obtain ⟨mark, spaces, again, assigned, same⟩ := readAssigned_of_passes target readable valueless
    ((opened.trans named).clean clean) live lineEnd valued
  have stops : ∀ x, f.next? = some x → Text.isWordChar x = false := by
    intro x next
    rw [mark x next]
    decide
  obtain ⟨nonempty, all⟩ := Text.isWord_iff.mp word
  obtain ⟨rfl, rfl⟩ := named.word_eq (valued.live live) all stops
  obtain ⟨start, first⟩ := targetStart_of_passes opened nonempty
  refine ⟨first, assignment ⟨c.location, d.location⟩ kind e.word again, ?_, ?_⟩
  · refine readAssignment_eq_ok.mpr ⟨?_, again, ?_, ?_⟩
    · rwa [start]
    · rwa [start, spaces]
    · rw [start]
  · simp only [unplaced, same]

theorem readCondition_of_passes {condition : Expression} {span : Span} {body : List Statement}
    {c d : Cursor} (readable : Expression.Readable .command condition.form condition.text)
    (clean : c.Clean) (live : d.ahead ≠ []) (lineEnd : d.next? = none)
    (passes : Passes c (conditional span condition body).headline d) :
    c.word = "if".toList ∧ ∃ again, readCondition c = .ok again d ∧
      again.unplaced = condition.unplaced := by
  have whole : Passes c ("if".toList ++ ([' '] ++ (condition.spelling ++ (";".toList ++
      ([' '] ++ "then".toList))))) d := by
    have opening : "if ".toList = "if".toList ++ [' '] := by decide
    have closing : "; then".toList = ";".toList ++ ([' '] ++ "then".toList) := by decide
    have text : (conditional span condition body).headline =
        "if ".toList ++ condition.spelling ++ "; then".toList := rfl
    rw [text, opening, closing, List.append_assoc, List.append_assoc] at passes
    exact passes
  obtain ⟨e, keyword, others⟩ := whole.split
  obtain ⟨e₁, blank, others₁⟩ := others.split
  obtain ⟨e₂, spelled, others₂⟩ := others₁.split
  obtain ⟨e₃, semicolon, others₃⟩ := others₂.split
  obtain ⟨e₄, blank', last⟩ := others₃.split
  have letters : ∀ x ∈ "if".toList, Text.isWordChar x = true := List.all_eq_true.mp (by decide)
  have letters' : ∀ x ∈ "then".toList, Text.isWordChar x = true := List.all_eq_true.mp (by decide)
  obtain ⟨first, rfl⟩ := keyword.word_of_next letters (blank.next?_eq (by decide)) (by decide)
  obtain ⟨x, next, solid, -⟩ := readable.next? spelled
  have stop : e₂.next? = some ';' := semicolon.next?_eq (by decide)
  have next' : e₄.next? = some 't' := last.next?_eq (by decide)
  have word : e₄.word = "then".toList ∧ e₄.skipWord = d := by
    apply last.word_eq live letters'
    intro y ends
    rw [lineEnd] at ends
    cases ends
  have spaces := blank.skipSpaces_eq next solid
  have read : Expression.read .command c.skipWord = .ok (condition.moved e₁ e₂) e₂ := by
    rw [Expression.read_of_passes readable (keyword.clean clean) (spaces.symm ▸ spelled)
      (live_of_next stop) stop, spaces]
  obtain ⟨starts, moved⟩ := semicolon.startsWith_eq (by decide) (blank'.live (live_of_next next'))
  have moved' : e₂.move 1 = e₃ := moved
  have idle : e₃.skipIdle.skipSpaces = e₄ := by
    rw [blank'.skipIdle_eq next' (by decide) (by decide), skipSpaces_of_next next' (by decide)]
  refine ⟨first, condition.moved e₁ e₂, readCondition_eq_ok.mpr ?_, rfl⟩
  rw [skipSpaces_of_word (first ▸ by decide)]
  refine ⟨first, e₂, read, ?_⟩
  rw [skipSpaces_of_next stop (by decide), moved', idle]
  exact ⟨starts, word.1, word.2.symm⟩

theorem readSignature_of_passes {name : Text} {span : Span} {body : List Statement}
    {rules : RuleTable} {c d : Cursor} (word : Text.isWord name = true)
    (free : rules.contains name = false) (live : d.ahead ≠ [])
    (passes : Passes c (function span name body).headline d) (start : Location) :
    c.word = "function".toList ∧ readSignature rules start c = .ok name d := by
  have whole : Passes c ("function".toList ++ ([' '] ++ (name ++ ("()".toList ++
      ([' '] ++ "\x7b".toList))))) d := by
    have opening : "function ".toList = "function".toList ++ [' '] := by decide
    have closing : "() \x7b".toList = "()".toList ++ ([' '] ++ "\x7b".toList) := by decide
    have text : (function span name body).headline =
        "function ".toList ++ name ++ "() \x7b".toList := rfl
    rw [text, opening, closing, List.append_assoc, List.append_assoc] at passes
    exact passes
  obtain ⟨e, keyword, others⟩ := whole.split
  obtain ⟨e₁, blank, others₁⟩ := others.split
  obtain ⟨e₂, named, others₂⟩ := others₁.split
  obtain ⟨e₃, parameters, others₃⟩ := others₂.split
  obtain ⟨e₄, blank', brace⟩ := others₃.split
  obtain ⟨nonempty, all⟩ := Text.isWord_iff.mp word
  have next₂ : e₂.next? = some '(' := parameters.next?_eq (by decide)
  have next₄ : e₄.next? = some '\x7b' := brace.next?_eq (by decide)
  have letters : ∀ x ∈ "function".toList, Text.isWordChar x = true :=
    List.all_eq_true.mp (by decide)
  obtain ⟨first, rfl⟩ := keyword.word_of_next letters (blank.next?_eq (by decide)) (by decide)
  obtain ⟨same, rfl⟩ := named.word_of_next all next₂ (by decide)
  obtain ⟨x, next₁, isWord⟩ := exists_next_of_word (same ▸ nonempty)
  have spaces : c.skipWord.skipSpaces = e₁ :=
    blank.skipSpaces_eq next₁ (Text.isSpace_of_isWordChar isWord)
  have spaces' : e₁.skipWord.skipSpaces = e₁.skipWord := skipSpaces_of_next next₂ (by decide)
  have empty : e₁.skipWord.parametersLength = 2 ∧ e₁.skipWord.move 2 = e₃ := by
    have moved := (parameters.startsWith_eq (by decide) (blank'.live (live_of_next next₄))).2
    obtain ⟨rest, later, ahead, -⟩ :=
      parameters.on_line (by decide) (blank'.live (live_of_next next₄))
    refine ⟨?_, moved⟩
    rw [parametersLength, rest?, ahead]
    rfl
  obtain ⟨starts, moved⟩ := brace.startsWith_eq (by decide) live
  refine ⟨first, readSignature_eq_ok.mpr ?_⟩
  rw [skipSpaces_of_word (first ▸ by decide), spaces, spaces']
  refine ⟨first, same, nonempty, free, e₁.skipWord, rfl, ?_⟩
  rw [empty.1, empty.2, blank'.skipIdle_eq next₄ (by decide) (by decide)]
  exact ⟨by decide, starts, moved.symm⟩

theorem readTerminator_of_lineEnd {d : Cursor} (kind : Kind) (lineEnd : d.next? = none) :
    readTerminator kind d = .ok () d := by
  have spaces := skipSpaces_of_lineEnd lineEnd
  refine readTerminator_eq_ok.mpr (.inr (.inr ⟨?_, spaces.symm⟩))
  rwa [spaces]

/-! ## What has been read can be read again -/

theorem Arguments.readable {c stop d : Cursor} {arguments : List Expression}
    (shape : Arguments c arguments stop d) (clean : c.Clean) :
    ∀ argument ∈ arguments, Expression.Readable .value argument.form argument.text := by
  induction shape with
  | nil _ => exact fun argument member => absurd member List.not_mem_nil
  | @cons c d stop last first arguments found _ _ ih =>
      have lexed := Expression.read?_lexed clean found
      obtain ⟨padding, passes, -⟩ := lexed.passes
      intro argument member
      rcases List.mem_cons.mp member with rfl | member
      · exact lexed.readable
      · exact ih (passes.clean ((follows_skipSpaces c).clean clean)) argument member

end Statement

namespace Parser

theorem Simple.again {rules : RuleTable} {c d c' d' : Cursor} {statement : Statement}
    (simple : Simple rules c statement d) (clean : c.Clean) (word : c.word ≠ [])
    (keyed : rules.Keyed) (clean' : c'.Clean) (live : d'.ahead ≠ []) (lineEnd : d'.next? = none)
    (passes : Passes c' statement.headline d') :
    c'.word = c.word ∧ ∃ again, Simple rules c' again d' ∧
      again.unplaced = statement.unplaced := by
  cases simple with
  | @assignment kind _ _ known supported run =>
      obtain ⟨named, value, assigned, rfl⟩ := Statement.readAssignment_eq_ok.mp run
      have value_eq := Statement.readAssigned_eq_ok.mp assigned
      have start : Follows c (Statement.targetStart kind c) := by
        cases kind with
        | none => exact .refl c
        | some binder => exact (follows_skipWord c).trans (follows_skipSpaces _)
      have readable : ∀ expression, value = some expression →
          Expression.Readable .value expression.form expression.text := by
        rintro expression rfl
        obtain ⟨-, -, read⟩ := value_eq
        refine (Expression.read_lexed ?_ read).readable
        exact (start.trans ((follows_skipWord _).trans
          ((follows_skipSpaces _).trans (follows_move _ 1)))).clean clean
      have valueless : value = none → kind = some .exported := by
        rintro rfl
        exact value_eq.2.1
      obtain ⟨first, again, read, same⟩ := Statement.readAssignment_of_passes (isWord_word named)
        readable valueless clean' live lineEnd passes
      have word_eq : c'.word = c.word := by
        cases kind with
        | none => exact first
        | some binder => exact first.trans (keyed.eq_keyword known).symm
      refine ⟨word_eq, again, .assignment ?_ ?_ read, same⟩
      · rwa [word_eq]
      · rwa [word_eq]
  | @invocation kind _ _ known run =>
      obtain ⟨arguments, stop, shape, rfl⟩ := Statement.arguments_of_readInvocation run
      obtain ⟨first, again, read, same⟩ := Statement.readInvocation_of_passes (isWord_word word)
        (shape.readable ((follows_skipWord c).clean clean)) clean' live lineEnd passes
      refine ⟨first, again, .invocation ?_ read, same⟩
      rwa [first]

/-- A sequence goes on at each position with the same word. -/
theorem Continues.of_word {place : Option Body} {c c' : Cursor} (continues : Continues place c)
    (same : c'.word = c.word) : Continues place c' := by
  obtain ⟨word, inside⟩ := continues
  rw [← same] at word
  refine ⟨word, fun body within => ?_⟩
  cases body with
  | conditional =>
      have closing := inside _ within
      rw [Body.readEnd_conditional_run] at closing ⊢
      rw [same]
      split at closing
      · cases closing
      · split at closing
        · cases closing
        · rename_i open' other
          rw [if_neg open', if_neg other]
  | function name =>
      rw [Body.readEnd_function_run, if_neg]
      intro closes
      have brace := (passes_of_startsWith closes).1.next?_eq (by decide)
      obtain ⟨x, next, isWord⟩ := exists_next_of_word word
      rw [next] at brace
      cases brace
      exact absurd isWord (by decide)

end Parser

/-! ## The rendered script -/

namespace Statement

mutual

theorem not_mem_render : ∀ (statement : Statement) (line : Text), line ∈ statement.render →
    '\n' ∉ line
  | assignment span kind target value, line, member => Text.not_mem_pieces '\n' _ line member
  | invocation span name arguments kind, line, member => Text.not_mem_pieces '\n' _ line member
  | conditional span condition body, line, member => by
      rw [render, List.mem_append, List.mem_append, List.mem_singleton] at member
      rcases member with (first | inside) | rfl
      · exact Text.not_mem_pieces '\n' _ line first
      · exact not_mem_renderAll body line inside
      · decide
  | function span name body, line, member => by
      rw [render, List.mem_append, List.mem_append, List.mem_singleton] at member
      rcases member with (first | inside) | rfl
      · exact Text.not_mem_pieces '\n' _ line first
      · exact not_mem_renderAll body line inside
      · decide

theorem not_mem_renderAll : ∀ (statements : List Statement) (line : Text),
    line ∈ renderAll statements → '\n' ∉ line
  | [], line, member => absurd member List.not_mem_nil
  | statement :: statements, line, member => by
      rw [renderAll, List.mem_append] at member
      rcases member with first | others
      · exact not_mem_render statement line first
      · exact not_mem_renderAll statements line others

end

end Statement

namespace Parser

def closingLines : Option Body → List Text
  | none => []
  | some .conditional => ["fi".toList]
  | some (.function _) => ["\x7d".toList]

/-- The lines of a sequence in its place, with other lines below. -/
def placedLines (place : Option Body) (statements : List Statement) (below : List Text) :
    List Text :=
  Statement.renderAll statements ++ (closingLines place ++ below)

theorem placedLines_cons (place : Option Body) (statement : Statement) (others : List Statement)
    (below : List Text) :
    placedLines place (statement :: others) below =
      statement.render ++ placedLines place others below := by
  rw [placedLines, Statement.renderAll, List.append_assoc]
  rfl

theorem placedLines_conditional (place : Option Body) (span : Span) (condition : Expression)
    (body others : List Statement) (below : List Text) :
    placedLines place (.conditional span condition body :: others) below =
      Text.pieces '\n' (Statement.conditional span condition body).headline ++
        placedLines (some .conditional) body (placedLines place others below) := by
  rw [placedLines_cons, Statement.render, List.append_assoc, List.append_assoc]
  rfl

theorem placedLines_function (place : Option Body) (span : Span) (name : Text)
    (body others : List Statement) (below : List Text) :
    placedLines place (.function span name body :: others) below =
      Text.pieces '\n' (Statement.function span name body).headline ++
        placedLines (some (.function name)) body (placedLines place others below) := by
  rw [placedLines_cons, Statement.render, List.append_assoc, List.append_assoc]
  rfl

theorem not_mem_placedLines {place : Option Body} {statements : List Statement}
    {below : List Text} (clear : ∀ line ∈ below, '\n' ∉ line) :
    ∀ line ∈ placedLines place statements below, '\n' ∉ line := by
  intro line member
  rw [placedLines, List.mem_append, List.mem_append] at member
  rcases member with inside | closing | outside
  · exact Statement.not_mem_renderAll statements line inside
  · rcases place with _ | _ | _
    · cases closing
    · obtain rfl := List.mem_singleton.mp closing
      decide
    · obtain rfl := List.mem_singleton.mp closing
      decide
  · exact clear line outside

theorem Simple.render_eq {rules : RuleTable} {c d : Cursor} {statement : Statement}
    (simple : Simple rules c statement d) :
    statement.render = Text.pieces '\n' statement.headline := by
  cases simple with
  | assignment _ _ run =>
      obtain ⟨-, value, -, rfl⟩ := Statement.readAssignment_eq_ok.mp run
      rfl
  | invocation _ run =>
      obtain ⟨arguments, stop, -, rfl⟩ := Statement.arguments_of_readInvocation run
      rfl

/-- The line that closes a body is read as its end. -/
theorem parsed_closing (body : Body) (rules : RuleTable) (row : Nat) (below : List Text) :
    ∃ before, Parsed (some body) ⟨⟨row, [], placedLines (some body) [] below⟩, rules⟩ []
      ⟨⟨row, before, [] :: below⟩, rules⟩ := by
  cases body with
  | conditional =>
      refine ⟨"fi".toList, ?_⟩
      have idle : (⟨row, [], "fi".toList :: below⟩ : Cursor).skipIdle =
          ⟨row, [], "fi".toList :: below⟩ := rfl
      refine .close (List.cons_ne_nil _ _) ?_
      show Body.readEnd .conditional (⟨row, [], "fi".toList :: below⟩ : Cursor).skipIdle = _
      rw [idle, Body.readEnd_conditional_run]
      rfl
  | function name =>
      refine ⟨"\x7d".toList, .close (List.cons_ne_nil _ _) ?_⟩
      rw [Body.readEnd_function_run]
      rfl

/-- A derivation can start at the end of the line above. -/
theorem Parsed.of_lineEnd {place : Option Body} {row : Nat} {lines : List Text} {rules : RuleTable}
    {read : List Statement} {q : Parser}
    (parsed : Parsed place ⟨⟨row + 1, [], lines⟩, rules⟩ read q)
    (before : Text) : Parsed place ⟨⟨row, before, [] :: lines⟩, rules⟩ read q :=
  parsed.congr rfl rfl

theorem readable_of_readCondition {c d : Cursor} {condition : Expression} (clean : c.Clean)
    (run : Statement.readCondition c = .ok condition d) :
    Expression.Readable .command condition.form condition.text := by
  obtain ⟨-, e, read, -⟩ := Statement.readCondition_eq_ok.mp run
  refine (Expression.read_lexed ?_ read).readable
  exact ((follows_skipSpaces c).trans (follows_skipWord _)).clean clean

/-- Each derivation can be followed through the rendered lines of what has been read. -/
theorem Parsed.again {place : Option Body} {p q : Parser} {read : List Statement}
    (parsed : Parsed place p read q) (clean : p.cursor.Clean) (keyed : p.rules.Keyed) (row : Nat)
    (below : List Text) (clear : ∀ line ∈ below, '\n' ∉ line) (last : place = none → below = []) :
    ∃ again d, Parsed place ⟨⟨row, [], placedLines place read below⟩, p.rules⟩ again ⟨d, q.rules⟩ ∧
      Statement.unplacedAll again = Statement.unplacedAll read ∧
      (place ≠ none → d.ahead = [] :: below) := by
  -- What stands below is arbitrary, because a body has the rest of its script below it.
  induction parsed generalizing row below with
  | @finish p atEnd =>
      obtain rfl := last rfl
      exact ⟨[], _, .finish rfl, rfl, fun body => absurd rfl body⟩
  | @close body p d _ _ =>
      obtain ⟨before, closed⟩ := parsed_closing body p.rules row below
      exact ⟨[], _, closed, rfl, fun _ => rfl⟩
  | @simple place p q statement d e others continues read stop _ ih =>
      have here := (follows_skipIdle p.cursor).clean clean
      have stopped := (Forward.readTerminator statement.kind).of_ok stop
      obtain ⟨row', before', passes⟩ :=
        passes_pieces row [] statement.headline (placedLines place others below)
      rw [← read.render_eq, ← placedLines_cons] at passes
      have clean' : (⟨row, [], placedLines place (statement :: others) below⟩ : Cursor).Clean :=
        not_mem_placedLines clear
      obtain ⟨word, first, simple, same⟩ := read.again here continues.1 keyed clean'
        (List.cons_ne_nil _ _) rfl passes
      obtain ⟨more, f, rest, same', closed⟩ :=
        ih (stopped.clean (read.follows.clean here)) keyed (row' + 1) below clear last
      have idle := skipIdle_of_word (word ▸ continues.1)
      refine ⟨first :: more, f, .simple (idle.symm ▸ continues.of_word word) (idle.symm ▸ simple)
        (Statement.readTerminator_of_lineEnd _ rfl) (rest.of_lineEnd before'), ?_, closed⟩
      rw [Statement.unplacedAll, Statement.unplacedAll, same, same']
  | @conditional place p inner q condition c e body others continues known head within stop _
      ihBody ih =>
      have here := (follows_skipIdle p.cursor).clean clean
      have cleanBody := (Forward.readCondition.of_ok head).clean here
      have stopped := (Forward.readTerminator .conditional).of_ok stop
      have cleanOthers : e.Clean := stopped.clean (within.follows.clean cleanBody)
      generalize (⟨p.cursor.skipIdle.location, inner.cursor.location⟩ : Span) = span
      have clean' : (⟨row, [], placedLines place (.conditional span condition body :: others)
        below⟩ : Cursor).Clean := not_mem_placedLines clear
      obtain ⟨row₁, before₁, passes⟩ :=
        passes_pieces row [] (Statement.conditional span condition body).headline
          (placedLines (some .conditional) body (placedLines place others below))
      rw [← placedLines_conditional] at passes
      obtain ⟨word, first, read, same⟩ := Statement.readCondition_of_passes
        (readable_of_readCondition here head) clean' (List.cons_ne_nil _ _) rfl passes
      -- The body leaves the cursor behind its closing word, where the rest of the lines begins.
      obtain ⟨inside, ⟨row₂, before₂, _⟩, parsed, same₁, closes⟩ :=
        ihBody cleanBody keyed (row₁ + 1) _ (not_mem_placedLines clear) (fun none => nomatch none)
      obtain rfl := closes (Option.some_ne_none _)
      obtain ⟨more, f, rest, same₂, closed⟩ :=
        ih cleanOthers (within.keyed keyed) (row₂ + 1) below clear last
      have keyword := (Statement.readCondition_eq_ok.mp head).1
      rw [skipSpaces_of_word continues.1] at keyword
      have word_eq := word.trans keyword.symm
      have idle := skipIdle_of_word (word_eq ▸ continues.1)
      refine ⟨_, f, .conditional (idle.symm ▸ continues.of_word word_eq)
        (idle.symm ▸ word_eq.symm ▸ known) (idle.symm ▸ read) (parsed.of_lineEnd before₁)
        (Statement.readTerminator_of_lineEnd _ rfl) (rest.of_lineEnd before₂), ?_, closed⟩
      simp only [Statement.unplacedAll, Statement.unplaced, same, same₁, same₂]
  | @function place p inner q name c e rules body others continues known head within declared stop _
      ihBody ih =>
      have here := (follows_skipIdle p.cursor).clean clean
      have opened := (Forward.readSignature p.rules p.cursor.skipIdle.location).of_ok head
      have cleanBody := opened.clean here
      have stopped := (Forward.readTerminator .function).of_ok stop
      have cleanOthers : e.Clean := stopped.clean (within.follows.clean cleanBody)
      obtain ⟨keyword, named, nonempty, free, -⟩ := Statement.readSignature_eq_ok.mp head
      rw [skipSpaces_of_word continues.1] at keyword
      generalize (⟨p.cursor.skipIdle.location, inner.cursor.location⟩ : Span) = span
      obtain ⟨row₁, before₁, passes⟩ :=
        passes_pieces row [] (Statement.function span name body).headline
          (placedLines (some (.function name)) body (placedLines place others below))
      rw [← placedLines_function] at passes
      have isWord : Text.isWord name = true := by
        rw [← named] at nonempty ⊢
        exact isWord_word nonempty
      have read := Statement.readSignature_of_passes isWord free (List.cons_ne_nil _ _) passes
      obtain ⟨inside, ⟨row₂, before₂, _⟩, parsed, same₁, closes⟩ :=
        ihBody cleanBody keyed (row₁ + 1) _ (not_mem_placedLines clear) (fun none => nomatch none)
      obtain rfl := closes (Option.some_ne_none _)
      obtain ⟨more, f, rest, same₂, closed⟩ :=
        ih cleanOthers ((within.keyed keyed).register declared) (row₂ + 1) below clear last
      -- The word does not depend on where the signature says that it starts.
      have word_eq := (read ⟨0, 0⟩).1.trans keyword.symm
      have idle := skipIdle_of_word (word_eq ▸ continues.1)
      refine ⟨_, f, .function (idle.symm ▸ continues.of_word word_eq)
        (idle.symm ▸ word_eq.symm ▸ known) (idle.symm ▸ (read _).2) (parsed.of_lineEnd before₁)
        declared (Statement.readTerminator_of_lineEnd _ rfl) (rest.of_lineEnd before₂), ?_, closed⟩
      simp only [Statement.unplacedAll, Statement.unplaced, same₁, same₂]

end Parser

/-- The canonical form of the statements of a script, read with the same commands of its own, gives
the same statements, at other places. -/
theorem statements_renderAll_of_parse (source : Text) (builtins : List Text) (tree : List Statement)
    (accepted : parse source builtins = .ok tree) :
    ∃ p again q, Parser.new (.ofLines (Statement.renderAll tree)) builtins = .ok p ∧
      Parser.statements p = .ok again q ∧
      Statement.unplacedAll again = Statement.unplacedAll tree := by
  obtain ⟨p, q, started, run⟩ := parse_eq_ok.mp accepted
  obtain ⟨keyed, here⟩ := Parser.keyed_new started
  have clean : p.cursor.Clean := here ▸ clean_ofSource source
  obtain ⟨again, d, parsed, same, -⟩ := (Parser.statements_eq_ok_iff.mp run).again clean keyed 0 []
    (fun line member => absurd member List.not_mem_nil) (fun _ => rfl)
  have lines : Parser.placedLines none tree [] = Statement.renderAll tree := by
    rw [Parser.placedLines, Parser.closingLines, List.append_nil, List.append_nil]
  rw [lines] at parsed
  have restarted : Parser.new (.ofLines (Statement.renderAll tree)) builtins =
      .ok ⟨.ofLines (Statement.renderAll tree), p.rules⟩ :=
    Parser.new_eq_ok.mpr ⟨(Parser.new_eq_ok.mp started).1, rfl⟩
  exact ⟨_, again, _, restarted, Parser.statements_eq_ok_iff.mpr parsed, same⟩

theorem statements_renderAll_of_parse_function :
    ∃ tree, parse "function f ( ) \x7b local A=b # c\n\x7d ; f  $(x\ny)".toList [] = .ok tree ∧
      Statement.renderAll tree = ["function f() \x7b".toList, "local A=b".toList, "\x7d".toList,
        "f $(x".toList, "y)".toList] ∧
      ∃ p again q, Parser.new (.ofLines (Statement.renderAll tree)) [] = .ok p ∧
        Parser.statements p = .ok again q ∧
        Statement.unplacedAll again = Statement.unplacedAll tree := by
  have accepted : parse "function f ( ) \x7b local A=b # c\n\x7d ; f  $(x\ny)".toList [] = .ok
      [.function ⟨⟨1, 0⟩, ⟨2, 1⟩⟩ "f".toList
        [.assignment ⟨⟨1, 17⟩, ⟨1, 26⟩⟩ (some .localized) "A".toList
          (some ⟨⟨⟨1, 25⟩, ⟨1, 26⟩⟩, .literal, "b".toList⟩)],
      .invocation ⟨⟨2, 4⟩, ⟨3, 2⟩⟩ "f".toList
        [⟨⟨⟨2, 7⟩, ⟨3, 2⟩⟩, .subcommand, "x\ny".toList⟩] .declared] := by
    cbv
  exact ⟨_, accepted, by decide, statements_renderAll_of_parse _ _ _ accepted⟩

end ShellLift
