import ShellLift.Proofs.Resolution

/-!
# Words of a call

Between two arguments of a call there are blanks: behind each argument its reader asks for one, for
a semicolon or for the end of the line. Behind the name it does not ask. A character that ends the
name and starts an argument is read as both, although the shell has one word there. These characters
are the only exception, and a call with one of them is never refused for it.
-/

set_option autoImplicit false

namespace ShellLift

open Step Cursor

/-! ## Places in a script -/

namespace Location

theorem lt_past_cons (location : Location) (x : Char) (text : Text) :
    location < location.past (x :: text) := by
  have step : ∀ (place : Location) (y : Char), place < place.past [y] := by
    intro place y
    rw [past, past]
    split
    · exact lt_of_line (Nat.lt_succ_self _)
    · exact lt_of_offset rfl (Nat.lt_add_of_pos_right y.utf8Size_pos)
  induction text generalizing location x with
  | nil => exact step location x
  | cons y text ih => exact lt_trans (step location x) (ih (location.past [x]) y)

theorem eq_nil_of_past_eq {location : Location} {text : Text}
    (same : location.past text = location) :
    text = [] := by
  cases text with
  | nil => rfl
  | cons x text => exact absurd same (location.lt_past_cons x text).ne'

end Location

def Text.Stands (script : Text) (start : Location) (piece : Text) (stop : Location) : Prop :=
  ∃ front back, script = front ++ (piece ++ back) ∧ start = (⟨1, 0⟩ : Location).past front ∧
    stop = start.past piece

/-- Between two locations of a script there is at least one blank, and nothing but blanks. -/
def Text.Separated (script : Text) (stop start : Location) : Prop :=
  ∃ gap, gap ≠ [] ∧ Text.Spaces gap ∧ script.Stands stop gap start

/-- What a cursor passes stands between its two positions. -/
theorem Cursor.Passes.stands {source piece : Text} {c d : Cursor} (passes : Passes c piece d)
    (reached : Follows (ofSource source) c) (live : d.ahead ≠ []) :
    (ofSource source).text.Stands c.location piece d.location := by
  obtain ⟨front, before⟩ := reached
  have clean := clean_ofSource source
  refine ⟨front, d.text, ?_, before.location_eq clean (passes.live live),
    passes.location_eq (before.clean clean) live⟩
  rw [before.text_eq, passes.text_eq]

/-! ## Statements without a body at any depth -/

namespace Statement

def IsSimple (statement : Statement) : Prop :=
  statement.kind = .assignment ∨ statement.kind = .invocation

end Statement

namespace Parser

/-- The statement is read by its reader at a position that is reached from another. -/
def ReadFrom (start : Cursor) (statement : Statement) : Prop :=
  ∃ rules c d, Follows start c ∧ c.word ≠ [] ∧ Simple rules c statement d

theorem ReadFrom.of_follows {b c : Cursor} {statement : Statement} (follows : Follows b c)
    (read : ReadFrom c statement) : ReadFrom b statement := by
  obtain ⟨rules, e, d, reached, word, simple⟩ := read
  exact ⟨rules, e, d, follows.trans reached, word, simple⟩

/-- Statements of which each one without a body is read by its reader. -/
def AllReadFrom (start : Cursor) (nodes : List Statement) : Prop :=
  ∀ node ∈ nodes, node.IsSimple → ReadFrom start node

theorem AllReadFrom.of_follows {b c : Cursor} {nodes : List Statement} (follows : Follows b c)
    (read : AllReadFrom c nodes) : AllReadFrom b nodes :=
  fun node member simple => (read node member simple).of_follows follows

theorem AllReadFrom.nested {start : Cursor} {head : Statement} {body others : List Statement}
    (compound : ¬ head.IsSimple) (inside : AllReadFrom start body)
    (behind : AllReadFrom start others) : AllReadFrom start (head :: (body ++ others)) := by
  unfold AllReadFrom
  rw [List.forall_mem_cons, List.forall_mem_append]
  exact ⟨fun simple => absurd simple compound, inside, behind⟩

/-- Each statement without a body, at any depth, comes from its reader. -/
theorem Parsed.allReadFrom {place : Option Body} {p q : Parser} {read : List Statement}
    (parsed : Parsed place p read q) : AllReadFrom p.cursor (Statement.nodesAll read) := by
  induction parsed with
  | finish _ => exact fun node member => absurd member List.not_mem_nil
  | close _ _ => exact fun node member => absurd member List.not_mem_nil
  | @simple place p q statement d e others continues simple stop _ ih =>
      have idle := follows_skipIdle p.cursor
      have stopped := (Forward.readTerminator statement.kind).of_ok stop
      rw [Statement.nodesAll, simple.nodes_eq, List.singleton_append]
      refine List.forall_mem_cons.mpr ⟨fun _ => ⟨_, _, _, idle, continues.1, simple⟩, ?_⟩
      exact ih.of_follows (idle.trans (simple.follows.trans stopped))
  | @conditional place p inner q condition c e body others _ _ head within stop _ ihBody ih =>
      have opened := (follows_skipIdle p.cursor).trans (Forward.readCondition.of_ok head)
      have stopped := (Forward.readTerminator .conditional).of_ok stop
      rw [Statement.nodesAll_cons]
      refine .nested ?_ (ihBody.of_follows opened)
        (ih.of_follows (opened.trans (within.follows.trans stopped)))
      rintro (kind | kind) <;> cases kind
  | @function place p inner q name c e rules body others _ _ head within _ stop _ ihBody ih =>
      have opened := (follows_skipIdle p.cursor).trans
        ((Forward.readSignature p.rules p.cursor.skipIdle.location).of_ok head)
      have stopped := (Forward.readTerminator .function).of_ok stop
      rw [Statement.nodesAll_cons]
      refine .nested ?_ (ihBody.of_follows opened)
        (ih.of_follows (opened.trans (within.follows.trans stopped)))
      rintro (kind | kind) <;> cases kind

end Parser

theorem allReadFrom_of_parse {source : Text} {builtins : List Text} {tree : List Statement}
    (accepted : parse source builtins = .ok tree) :
    Parser.AllReadFrom (ofSource source) (Statement.nodesAll tree) := by
  obtain ⟨p, q, started, run⟩ := parse_eq_ok.mp accepted
  have here : p.cursor = ofSource source := (Parser.keyed_new started).2
  rw [← here]
  exact (Parser.statements_eq_ok_iff.mp run).allReadFrom

/-! ## What an argument starts with -/

/-- The characters that start an argument and are no part of a name. -/
def argumentMarks : Text := "'\"$[~/\\.-".toList

theorem starts_of_isPlainChar {x : Char} (plain : Text.isPlainChar x = true) :
    Text.isWordChar x = true ∨ x ∈ argumentMarks := by
  simp only [Text.isPlainChar, Bool.or_eq_true, beq_iff_eq] at plain
  rcases plain with ((((word | rfl) | rfl) | rfl) | rfl) | rfl
  · exact .inl word
  all_goals exact .inr (by decide)

theorem ne_feed_of_starts {x : Char} (starts : Text.isWordChar x = true ∨ x ∈ argumentMarks) :
    x ≠ '\n' := by
  rintro rfl
  revert starts
  decide

theorem not_endsArgument {x : Char} (starts : Text.isWordChar x = true ∨ x ∈ argumentMarks) :
    Statement.endsArgument (some x) = false := by
  rcases starts with word | mark
  · have plain : Text.isPlainChar x = true := by simp [Text.isPlainChar, word]
    have other : x ≠ ';' := by
      rintro rfl
      exact absurd word (by decide)
    simp [Statement.endsArgument, Text.isBlank_of_isPlainChar plain, other]
  · have all : argumentMarks.all (fun y => !Statement.endsArgument (some y)) = true := by decide
    simpa using List.all_eq_true.mp all x mark

theorem not_mem_argumentMarks {x : Char} (space : Text.isSpace x = true) : x ∉ argumentMarks := by
  intro mark
  have all : argumentMarks.all (fun y => !Text.isSpace y) = true := by decide
  have solid := List.all_eq_true.mp all x mark
  rw [space] at solid
  cases solid

namespace Expression

theorem Readable.starts {expression : Expression}
    (readable : Readable .value expression.form expression.text) :
    ∃ x rest, expression.spelling = x :: rest ∧ (Text.isWordChar x = true ∨ x ∈ argumentMarks) := by
  obtain ⟨span, form, text⟩ := expression
  cases form with
  | literal =>
      obtain ⟨-, nonempty, plain⟩ := readable
      obtain ⟨x, rest, rfl⟩ := List.exists_cons_of_ne_nil nonempty
      exact ⟨x, rest, rfl, starts_of_isPlainChar (plain x (List.mem_cons_self ..))⟩
  | quoted style =>
      refine ⟨style.mark, _, rfl, .inr ?_⟩
      cases style <;> decide
  | subcommand => exact ⟨'$', _, rfl, .inr (by decide)⟩
  | test =>
      rcases readable with ⟨inside, rfl, -, -⟩ | ⟨position, -⟩
      · exact ⟨'[', _, rfl, .inr (by decide)⟩
      · cases position

/-- From a position to the end of the argument that is read there, there are blanks and then the
argument. -/
theorem exists_gap {c d : Cursor} {argument : Expression} (clean : c.Clean)
    (found : read? .value c = .ok (some argument) d) :
    ∃ gap x rest, Passes c gap c.skipSpaces ∧ Text.Spaces gap ∧
      Passes c.skipSpaces (x :: rest) d ∧ (Text.isWordChar x = true ∨ x ∈ argumentMarks) ∧
      argument.span = ⟨c.skipSpaces.location, d.location⟩ ∧ d.ahead ≠ [] := by
  have lexed := read?_lexed clean found
  obtain ⟨gap, across, blank⟩ := passes_skipSpaces clean
  obtain ⟨padding, passes, -⟩ := lexed.passes
  obtain ⟨x, rest, shape, starts⟩ := lexed.readable.starts
  rw [shape, List.cons_append] at passes
  exact ⟨gap, x, rest ++ padding, across, blank, passes, starts, lexed.span, lexed.live⟩

end Expression

/-! ## Gaps in front of arguments -/

namespace Statement

theorem stops_of_endsArgument {next : Option Char} (ends : endsArgument next = true) :
    Expression.Position.Stops .value next := by
  rintro x rfl
  by_contra plain
  rw [not_endsArgument (starts_of_isPlainChar (Bool.eq_true_of_not_eq_false plain))] at ends
  cases ends

/-- An argument that is read where another one ends has a blank in front of it. -/
theorem separated_of_endsArgument {source : Text} {c d : Cursor} {argument : Expression}
    (reached : Follows (ofSource source) c) (ends : endsArgument c.next? = true)
    (found : Expression.read? .value c = .ok (some argument) d) :
    (ofSource source).text.Separated c.location argument.span.start := by
  have clean := reached.clean (clean_ofSource source)
  obtain ⟨gap, x, rest, across, blank, passes, starts, span, live⟩ :=
    Expression.exists_gap clean found
  rw [span]
  refine ⟨gap, ?_, blank, across.stands reached (passes.live live)⟩
  rintro rfl
  have same : c.skipSpaces = c := across.eq_of_nil (passes.live live)
  rw [same] at passes
  rw [passes.next?_eq (ne_feed_of_starts starts), not_endsArgument starts] at ends
  cases ends

theorem Arguments.separated {source : Text} {c stop d : Cursor} {arguments : List Expression}
    (shape : Arguments c arguments stop d) (reached : Follows (ofSource source) c) :
    ∀ front argument next back, arguments = front ++ argument :: next :: back →
      (ofSource source).text.Separated argument.span.stop next.span.start := by
  induction shape with
  | nil _ =>
      intro front argument next back split
      simp at split
  | @cons c d stop last first arguments found ends tail ih =>
      have reached' := reached.trans ((Forward.read? .value).of_ok found)
      intro front argument next back split
      cases front with
      | nil =>
          obtain ⟨rfl, rfl⟩ := List.cons.inj split
          have clean := reached.clean (clean_ofSource source)
          rw [(Expression.read?_lexed clean found).span]
          cases tail with
          | cons found' _ _ => exact separated_of_endsArgument reached' ends found'
      | cons other front => exact ih reached' front argument next back (List.cons.inj split).2

/-- The character behind the name of a call decides whether blanks stand between the name and the
first argument. -/
theorem separated_first_iff {source : Text} {c d : Cursor} {first : Expression}
    (reached : Follows (ofSource source) c) (word : c.word ≠ [])
    (found : Expression.read? .value c.skipWord = .ok (some first) d) :
    ∃ x, (ofSource source).text.Stands c.location (c.word ++ [x])
        (c.location.past (c.word ++ [x])) ∧
      ((ofSource source).text.Separated (c.location.past c.word) first.span.start ↔
        x ∉ argumentMarks) := by
  have clean := reached.clean (clean_ofSource source)
  have name := passes_word c
  have reached' : Follows (ofSource source) c.skipWord := reached.trans ⟨_, name⟩
  have behind : c.skipWord.location = c.location.past c.word :=
    name.location_eq clean (live_skipWhile (live_of_word word) _)
  obtain ⟨gap, x, rest, across, blank, passes, starts, span, live⟩ :=
    Expression.exists_gap (name.clean clean) found
  have live' := passes.live live
  have stands : ∀ {y : Char} {more : Text} {e : Cursor}, Passes c.skipWord (y :: more) e →
      e.ahead ≠ [] → (ofSource source).text.Stands c.location (c.word ++ [y])
        (c.location.past (c.word ++ [y])) := by
    intro y more e onward alive
    obtain ⟨middle, one, others⟩ := onward.split (t := [y])
    have both := name.trans one
    have place := both.stands reached (others.live alive)
    rwa [both.location_eq clean (others.live alive)] at place
  rw [span]
  cases gap with
  | nil =>
      -- the name has all the word characters, so the argument starts with a mark
      have same : c.skipWord.skipSpaces = c.skipWord := across.eq_of_nil live'
      rw [same] at passes ⊢
      have notWord : Text.isWordChar x = false :=
        next?_skipWhile (passes.next?_eq (ne_feed_of_starts starts))
      have mark : x ∈ argumentMarks := starts.resolve_left (by simp [notWord])
      refine ⟨x, stands passes live, ?_⟩
      constructor
      · -- blanks from a location to itself
        rintro ⟨other, nonempty, -, -, -, -, -, stop⟩
        exact absurd (Location.eq_nil_of_past_eq (stop.symm.trans behind)) nonempty
      · exact fun other => absurd mark other
  | cons y more =>
      have space := (blank y (List.mem_cons_self ..)).1
      refine ⟨y, stands across live', ?_⟩
      constructor
      · exact fun _ => not_mem_argumentMarks space
      · intro _
        rw [← behind]
        exact ⟨y :: more, List.cons_ne_nil _ _, blank, across.stands reached' live'⟩

end Statement

namespace Parser

/-- Where an argument starts right behind the name of a command, the command is read with it and
with the arguments that follow. -/
theorem statement?_of_adjacent {p : Parser} {kind : Callee} {argument : Expression}
    {others : List Expression} {d stop e f : Cursor} (clean : p.cursor.Clean)
    (word : p.cursor.skipIdle.word ≠ [])
    (known : p.rules.get? p.cursor.skipIdle.word = some (.invocation kind))
    (readable : Expression.Readable .value argument.form argument.text)
    (passes : Passes p.cursor.skipIdle.skipWord argument.spelling d) (live : d.ahead ≠ [])
    (ends : Statement.endsArgument d.next? = true) (shape : Statement.Arguments d others stop e)
    (terminated : Statement.readTerminator .invocation e = .ok () f) :
    statement? p = .ok (some (.invocation ⟨p.cursor.skipIdle.location, stop.location⟩
      p.cursor.skipIdle.word (argument.moved p.cursor.skipIdle.skipWord d :: others) kind))
      ⟨f, p.rules⟩ := by
  have clean' := ((follows_skipIdle p.cursor).trans (follows_skipWord _)).clean clean
  obtain ⟨x, next, solid, -⟩ := readable.next? passes
  have here := skipSpaces_of_next next solid
  have found := Expression.read?_of_passes readable clean' (here.symm ▸ passes) live
    (Statement.stops_of_endsArgument ends)
  rw [here] at found
  have whole := Statement.Arguments.cons found ends shape
  have run := whole.run p.cursor.skipIdle.word p.cursor.skipIdle.size 0 (skipWord_size_lt word)
  refine statement?_of_simple word (.invocation known ?_) terminated
  rw [Statement.readInvocation_run, run]
  simp only [whole.span clean']

end Parser

/-- In every call of a script that is read there are blanks between two arguments. Between the name
and the first argument there are blanks exactly if the character behind the name is none of those
that start an argument and are no part of a name. An argument that starts with such a character is
read right behind the name of a command, whatever arguments follow it. -/
theorem call_separated_iff (source : Text) (builtins : List Text) (tree : List Statement)
    (accepted : parse source builtins = .ok tree) :
    (∀ span name arguments kind,
      Statement.invocation span name arguments kind ∈ Statement.nodesAll tree →
        (∀ front argument next back, arguments = front ++ argument :: next :: back →
          (ofSource source).text.Separated argument.span.stop next.span.start) ∧
        ∀ first others, arguments = first :: others →
          ∃ x, (ofSource source).text.Stands span.start (name ++ [x])
              (span.start.past (name ++ [x])) ∧
            ((ofSource source).text.Separated (span.start.past name) first.span.start ↔
              x ∉ argumentMarks)) ∧
      ∀ (p : Parser) (kind : Callee) (argument : Expression) (others : List Expression)
        (d stop e f : Cursor), p.cursor.Clean → p.cursor.skipIdle.word ≠ [] →
        p.rules.get? p.cursor.skipIdle.word = some (.invocation kind) →
        Expression.Readable .value argument.form argument.text →
        Passes p.cursor.skipIdle.skipWord argument.spelling d → d.ahead ≠ [] →
        Statement.endsArgument d.next? = true → Statement.Arguments d others stop e →
        Statement.readTerminator .invocation e = .ok () f →
        Parser.statement? p = .ok (some (.invocation ⟨p.cursor.skipIdle.location, stop.location⟩
          p.cursor.skipIdle.word (argument.moved p.cursor.skipIdle.skipWord d :: others) kind))
          ⟨f, p.rules⟩ := by
  refine ⟨?_, fun _ _ _ _ _ _ _ _ => Parser.statement?_of_adjacent⟩
  intro span name arguments kind member
  obtain ⟨rules, c, d, reached, word, simple⟩ := allReadFrom_of_parse accepted _ member (.inr rfl)
  obtain ⟨_, run⟩ : ∃ n, Statement.readInvocation kind n c =
      .ok (.invocation span name arguments kind) d := by
    cases simple with
    | assignment _ _ run =>
        obtain ⟨-, value, -, same⟩ := Statement.readAssignment_eq_ok.mp run
        cases same
    | invocation _ run =>
        obtain ⟨found, stop, -, same⟩ := Statement.arguments_of_readInvocation run
        cases same
        exact ⟨_, run⟩
  obtain ⟨found, stop, shape, same⟩ := Statement.arguments_of_readInvocation run
  cases same
  refine ⟨shape.separated (reached.trans (follows_skipWord c)), ?_⟩
  rintro first others rfl
  cases shape with
  | cons read _ _ => exact Statement.separated_first_iff reached word read

/-- Blanks stand between the two arguments of this call and none behind its name; a flag right
behind the name is read as well. -/
theorem call_separated_iff_adjacent :
    parse "echo\"a\" -n".toList [] = .ok [.invocation ⟨⟨1, 0⟩, ⟨1, 10⟩⟩ "echo".toList
        [⟨⟨⟨1, 4⟩, ⟨1, 7⟩⟩, .quoted .double, ['a']⟩, ⟨⟨⟨1, 8⟩, ⟨1, 10⟩⟩, .literal, ['-', 'n']⟩]
        .standard] ∧
      (ofSource "echo\"a\" -n".toList).text.Separated ⟨1, 7⟩ ⟨1, 8⟩ ∧
      ¬ (ofSource "echo\"a\" -n".toList).text.Separated ⟨1, 4⟩ ⟨1, 4⟩ ∧
      Parser.statement? ⟨ofSource "echo-n".toList, RuleTable.initial⟩ =
        .ok (some (.invocation ⟨⟨1, 0⟩, ⟨1, 6⟩⟩ "echo".toList
          [⟨⟨⟨1, 4⟩, ⟨1, 6⟩⟩, .literal, ['-', 'n']⟩] .standard))
          ⟨⟨0, "echo-n".toList, [[]]⟩, RuleTable.initial⟩ := by
  have accepted :
      parse "echo\"a\" -n".toList [] = .ok [.invocation ⟨⟨1, 0⟩, ⟨1, 10⟩⟩ "echo".toList
        [⟨⟨⟨1, 4⟩, ⟨1, 7⟩⟩, .quoted .double, ['a']⟩, ⟨⟨⟨1, 8⟩, ⟨1, 10⟩⟩, .literal, ['-', 'n']⟩]
        .standard] := by
    cbv
  obtain ⟨calls, adjacent⟩ := call_separated_iff _ _ _ accepted
  obtain ⟨between, behind⟩ := calls _ _ _ _ (List.mem_singleton_self _)
  refine ⟨accepted, between [] _ _ [] rfl, ?_, ?_⟩
  · obtain ⟨x, ⟨front, back, split, start, -⟩, separated⟩ := behind _ _ rfl
    obtain rfl := Location.eq_nil_of_past_eq start.symm
    have script : (ofSource "echo\"a\" -n".toList).text =
        ['e', 'c', 'h', 'o', '"', 'a', '"', ' ', '-', 'n'] := by decide
    have name : "echo".toList = ['e', 'c', 'h', 'o'] := by decide
    rw [script, name] at split
    obtain rfl : '"' = x := by
      simp only [List.nil_append, List.cons_append, List.cons.injEq] at split
      exact split.2.2.2.2.1
    exact fun blank => separated.mp blank (by decide)
  · have plain : ∀ x ∈ ['-', 'n'], Text.isPlainChar x = true := List.all_eq_true.mp rfl
    exact adjacent ⟨ofSource "echo-n".toList, RuleTable.initial⟩ .standard
      ⟨⟨⟨1, 4⟩, ⟨1, 6⟩⟩, .literal, ['-', 'n']⟩ [] ⟨0, "echo-n".toList, [[]]⟩ _ _ _
      (clean_ofSource _) (by decide) (by decide) ⟨rfl, by decide, plain⟩
      (.char (.char (.stay _))) (by decide) rfl (.nil rfl) rfl

end ShellLift
