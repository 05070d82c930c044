import ShellLift.Proofs.Annotation

/-!
# Trailing comments

A comment behind the last line of a script leaves its statements as they are, with one exception. An
export without a value takes the blanks behind its name with it, in search of an equals sign. Where
such an export ends the last line, the comment mark has no blank before it that is left, and the
script is refused.
-/

set_option autoImplicit false

namespace ShellLift

open Step Cursor

theorem Text.eq_nil_of_byteSize {text : Text} (empty : Text.byteSize text = 0) :
    text = [] := by
  cases text with
  | nil => rfl
  | cons x rest =>
      have positive := x.utf8Size_pos
      simp only [Text.byteSize] at empty
      omega

namespace Cursor

/-- The end of the last line is known by its location. -/
theorem Within.lineEnd_iff {front : List Text} {last : Text} {c : Cursor}
    (within : Within (front ++ [last]) c) :
    c.location = ⟨front.length + 1, Text.byteSize last⟩ ↔ c.ahead = [[]] := by
  obtain ⟨row, before, _ | ⟨rest, later⟩⟩ := c
  · obtain ⟨-, behind⟩ := within
    have row_eq : row = (front ++ [last]).length := behind
    rw [List.length_append, List.length_singleton] at row_eq
    constructor
    · intro here
      have line := congrArg Location.line here
      simp only [location] at line
      omega
    · intro live
      cases live
  have dropped : (front ++ [last]).drop row = (before ++ rest) :: later := within
  constructor
  · intro here
    obtain ⟨line, offset⟩ := Location.mk.inj here
    obtain rfl : row = front.length := Nat.succ.inj line
    rw [List.drop_left] at dropped
    obtain ⟨rfl, rfl⟩ := List.cons.inj dropped
    rw [Text.byteSize_append] at offset
    have empty : Text.byteSize rest = 0 := by
      simp only at offset
      omega
    rw [Text.eq_nil_of_byteSize empty]
  · intro lineEnd
    obtain ⟨rfl, rfl⟩ := List.cons.inj lineEnd
    have count := congrArg List.length dropped
    rw [List.length_drop, List.length_append, List.length_singleton, List.length_singleton] at count
    obtain rfl : row = front.length := by omega
    rw [List.drop_left, List.append_nil] at dropped
    obtain ⟨rfl, -⟩ := List.cons.inj dropped
    rfl

end Cursor

namespace Statement

theorem readTerminator_at_hash (kind : Kind) (row : Nat) (before comment : Text) :
    readTerminator kind ⟨row, before, ['#' :: comment]⟩ =
      .error (.located (.trailingText ('#' :: comment) kind) ⟨row + 1, Text.byteSize before⟩)
        ⟨row, before, ['#' :: comment]⟩ := by
  have still : (⟨row, before, ['#' :: comment]⟩ : Cursor).skipSpaces =
      ⟨row, before, ['#' :: comment]⟩ := skipSpaces_of_next rfl (by decide)
  rw [readTerminator_run, still]
  rfl

theorem atEnd_of_readTerminator {kind : Kind} {c e : Cursor}
    (stop : readTerminator kind c = .ok () e) (lineEnd : c.ahead = [[]]) :
    e.skipIdle.ahead = [] := by
  obtain ⟨row, before, ahead⟩ := c
  obtain rfl : ahead = [[]] := lineEnd
  have rests : (⟨row, before, [[]]⟩ : Cursor).Rests := by
    constructor
    · intro rest found
      cases found
      rfl
    · intro marked
      cases marked
  obtain ⟨e', again, same⟩ := readTerminator_of_rests kind rests
  rw [stop] at again
  cases again
  rw [same]
  rfl

end Statement

namespace Parser

/-- The last statement is an export without a value that goes up to a location. -/
def EndsBare (stop : Location) (statements : List Statement) : Prop :=
  ∃ start target,
    statements.getLast? = some (.assignment ⟨start, stop⟩ (some .exported) target none)

def annotate (comment : Text) (p : Parser) : Parser := ⟨p.cursor.annotate comment, p.rules⟩

variable (comment : Text)

theorem skipIdle_cursor_annotate (p : Parser) :
    (p.annotate comment).cursor.skipIdle = p.cursor.skipIdle.annotate comment :=
  skipIdle_annotate comment p.cursor

theorem word_skipIdle_annotate (p : Parser) :
    (p.annotate comment).cursor.skipIdle.word = p.cursor.skipIdle.word := by
  rw [skipIdle_cursor_annotate, word_annotate]

/-! ## One statement -/

theorem statement?_annotate_simple {p : Parser} {statement : Statement} {d e : Cursor}
    (word : p.cursor.skipIdle.word ≠ []) (simple : Simple p.rules p.cursor.skipIdle statement d)
    (stop : Statement.readTerminator statement.kind d = .ok () e)
    (complete : ¬ (statement.IsBare ∧ d.ahead = [[]])) :
    ∃ e', statement? (p.annotate comment) = .ok (some statement) ⟨e', p.rules⟩ ∧
      e'.skipIdle = (e.annotate comment).skipIdle := by
  have place := skipIdle_cursor_annotate comment p
  have same := word_skipIdle_annotate comment p
  have word' : (p.annotate comment).cursor.skipIdle.word ≠ [] := by rwa [same]
  cases simple with
  | assignment known supported run =>
      obtain ⟨e', stop', idle⟩ := Statement.readTerminator_annotate comment stop
      have run' := Statement.readAssignment_annotate comment run complete
      rw [← same] at known supported
      rw [← place] at run'
      exact ⟨e', statement?_of_simple word' (.assignment known supported run') stop', idle⟩
  | invocation known run =>
      obtain ⟨d', e', run', stop', idle⟩ := Statement.readInvocation_annotate comment word run stop
      rw [← same] at known
      rw [← place] at run'
      exact ⟨e', statement?_of_simple word' (.invocation known run') stop', idle⟩

theorem statement?_annotate_conditional {p inner : Parser} {condition : Expression} {c e : Cursor}
    {body : List Statement} (word : p.cursor.skipIdle.word ≠ [])
    (known : p.rules.get? p.cursor.skipIdle.word = some .conditional)
    (head : Statement.readCondition p.cursor.skipIdle = .ok condition c)
    (inside : Parsed (some .conditional) (annotate comment ⟨c, p.rules⟩) body
      (inner.annotate comment))
    (stop : Statement.readTerminator .conditional inner.cursor = .ok () e) :
    ∃ e', statement? (p.annotate comment) = .ok (some
        (.conditional ⟨p.cursor.skipIdle.location, inner.cursor.location⟩ condition body))
          ⟨e', inner.rules⟩ ∧
      e'.skipIdle = (e.annotate comment).skipIdle := by
  have place := skipIdle_cursor_annotate comment p
  obtain ⟨e', stop', idle⟩ := Statement.readTerminator_annotate comment stop
  have head' := Statement.readCondition_annotate comment word head
  rw [← word_skipIdle_annotate comment p] at word known
  rw [← place] at head'
  have one := statement?_of_conditional (p := p.annotate comment) word known head' inside.ran stop'
  rw [place] at one
  exact ⟨e', one, idle⟩

theorem statement?_annotate_function {p inner : Parser} {name : Text} {c e : Cursor}
    {rules : RuleTable} {body : List Statement} (word : p.cursor.skipIdle.word ≠ [])
    (known : p.rules.get? p.cursor.skipIdle.word = some .function)
    (head : Statement.readSignature p.rules p.cursor.skipIdle.location p.cursor.skipIdle =
      .ok name c)
    (inside : Parsed (some (.function name)) (annotate comment ⟨c, p.rules⟩) body
      (inner.annotate comment))
    (declared : inner.rules.register name .declared = .ok rules)
    (stop : Statement.readTerminator .function inner.cursor = .ok () e) :
    ∃ e', statement? (p.annotate comment) = .ok (some
        (.function ⟨p.cursor.skipIdle.location, inner.cursor.location⟩ name body)) ⟨e', rules⟩ ∧
      e'.skipIdle = (e.annotate comment).skipIdle := by
  have place := skipIdle_cursor_annotate comment p
  obtain ⟨e', stop', idle⟩ := Statement.readTerminator_annotate comment stop
  have head' : Statement.readSignature p.rules (p.annotate comment).cursor.skipIdle.location
      (p.annotate comment).cursor.skipIdle = .ok name (c.annotate comment) := by
    rw [place]
    exact Statement.readSignature_annotate comment word head
  rw [← word_skipIdle_annotate comment p] at word known
  have one := statement?_of_function (p := p.annotate comment) word known head' inside.ran declared
    stop'
  rw [place] at one
  exact ⟨e', one, idle⟩

theorem Simple.stop_eq {rules : RuleTable} {c d : Cursor} {span : Span} {kind : Option Binder}
    {target : Text} {value : Option Expression}
    (simple : Simple rules c (.assignment span kind target value) d) : span.stop = d.location := by
  cases simple with
  | assignment _ _ run =>
      obtain ⟨-, found, -, same⟩ := Statement.readAssignment_eq_ok.mp run
      cases same
      rfl
  | invocation _ run =>
      obtain ⟨arguments, last, -, same⟩ := Statement.arguments_of_readInvocation run
      cases same

/-- The reader of an export has passed the blank in front of the comment. -/
theorem statement?_annotate_bare {p : Parser} {statement : Statement} {d : Cursor}
    (word : p.cursor.skipIdle.word ≠ []) (simple : Simple p.rules p.cursor.skipIdle statement d)
    (bare : statement.IsBare) (lineEnd : d.ahead = [[]]) :
    ∃ r, statement? (p.annotate comment) =
      .error (.located (.trailingText ('#' :: comment) .assignment)
        ⟨d.location.line, d.location.offset + 1⟩) r := by
  obtain ⟨span, target, rfl⟩ := bare
  cases simple with
  | invocation _ run =>
      obtain ⟨arguments, last, -, same⟩ := Statement.arguments_of_readInvocation run
      cases same
  | @assignment kind _ _ known _ run =>
      obtain rfl : kind = some .exported := by
        obtain ⟨-, found, -, same⟩ := Statement.readAssignment_eq_ok.mp run
        cases same
        rfl
      obtain ⟨span', again⟩ := Statement.readAssignment_annotate_bare comment run lineEnd
      have word' : (p.annotate comment).cursor.skipIdle.word ≠ [] := by
        rwa [word_skipIdle_annotate]
      have rule : readByRule statement? (p.annotate comment).cursor.size
          (p.annotate comment).cursor.skipIdle.word
          ⟨(p.annotate comment).cursor.skipIdle, (p.annotate comment).rules⟩ =
          .ok (.assignment span' (some .exported) target none)
            ⟨⟨d.row, d.before ++ [' '], ['#' :: comment]⟩, p.rules⟩ := by
        rw [readByRule_run, word_skipIdle_annotate, skipIdle_cursor_annotate]
        simp only [annotate, known, Option.map_some]
        exact reading_eq_ok.mpr ⟨again, rfl⟩
      rw [statement?_run, if_neg (not_atEnd_of_word word'), if_neg (by simpa using word'), rule]
      simp only [Statement.readTerminator_at_hash, Text.byteSize_append]
      exact ⟨_, rfl⟩

/-! ## The whole script -/

def refusal (stop : Location) : Diagnostic :=
  .located (.trailingText ('#' :: comment) .assignment) ⟨stop.line, stop.offset + 1⟩

/-- What becomes of a sequence of statements when the last line of the script, which ends at a
location, gets a comment. -/
structure Annotated (stop : Location) (place : Option Body) (p : Parser) (read : List Statement)
    (q : Parser) : Prop where
  parsed : (place = none → ¬ EndsBare stop read) →
    Parsed place (p.annotate comment) read (q.annotate comment)
  refused : place = none → EndsBare stop read →
    ∃ r, statements (p.annotate comment) = .error (refusal comment stop) r

variable {comment}

theorem Annotated.cons {stop : Location} {place : Option Body} {p next q r : Parser}
    {statement : Statement} {others : List Statement}
    (rest : Annotated comment stop place next others q)
    (continues : Continues place p.cursor.skipIdle)
    (one : statement? (p.annotate comment) = .ok (some statement) r)
    (idle : r.cursor.skipIdle = (next.annotate comment).cursor.skipIdle)
    (rules : r.rules = next.rules) (complete : ¬ EndsBare stop [statement]) :
    Annotated comment stop place p (statement :: others) q := by
  have last : EndsBare stop (statement :: others) ↔ EndsBare stop others := by
    cases others with
    | nil => simpa [EndsBare] using complete
    | cons other others => rw [EndsBare, List.getLast?_cons_cons, EndsBare]
  constructor
  · intro fine
    rw [last] at fine
    have continues' : Continues place (p.annotate comment).cursor.skipIdle :=
      continues.of_word (word_skipIdle_annotate comment p)
    exact extends_all _ statement r _ place others one continues'
      ((rest.parsed fine).congr idle.symm rules.symm)
  · intro script bare
    obtain ⟨end', failed⟩ := rest.refused script (last.mp bare)
    refine ⟨end', ?_⟩
    rw [statements_run, one]
    simp only [map_run, statements_congr idle rules, failed]

/-- Nothing is read at the end of the script. -/
theorem Parsed.eq_nil_of_atEnd {place : Option Body} {p q : Parser} {read : List Statement}
    (parsed : Parsed place p read q) (atEnd : p.cursor.skipIdle.ahead = []) :
    place = none ∧ read = [] := by
  cases parsed with
  | finish _ => exact ⟨rfl, rfl⟩
  | close notEnd _ => exact absurd atEnd notEnd
  | simple continues _ _ _ => exact absurd atEnd (live_of_word continues.1)
  | conditional continues _ _ _ _ _ => exact absurd atEnd (live_of_word continues.1)
  | function continues _ _ _ _ _ _ => exact absurd atEnd (live_of_word continues.1)

/-- An export that ends the last line ends the script, and the comment behind it is refused. -/
theorem annotated_bare {front : List Text} {last : Text} {place : Option Body} {p q : Parser}
    {statement : Statement} {d e : Cursor} {others : List Statement}
    (within : Within (front ++ [last]) d) (word : p.cursor.skipIdle.word ≠ [])
    (read : Simple p.rules p.cursor.skipIdle statement d)
    (stop : Statement.readTerminator statement.kind d = .ok () e)
    (tail : Parsed place ⟨e, p.rules⟩ others q) (bare : statement.IsBare)
    (lineEnd : d.ahead = [[]]) :
    Annotated comment ⟨front.length + 1, Text.byteSize last⟩ place p (statement :: others) q := by
  obtain ⟨rfl, rfl⟩ := tail.eq_nil_of_atEnd (Statement.atEnd_of_readTerminator stop lineEnd)
  have here := within.lineEnd_iff.mpr lineEnd
  constructor
  · intro fine
    obtain ⟨span, target, rfl⟩ := bare
    refine absurd ⟨span.start, target, ?_⟩ (fine rfl)
    rw [← here, ← read.stop_eq]
    rfl
  · intro _ _
    obtain ⟨r, failed⟩ := statement?_annotate_bare comment word read bare lineEnd
    refine ⟨r, ?_⟩
    rw [statements_run, failed, here]
    rfl

theorem Parsed.annotated {front : List Text} {last : Text} {place : Option Body} {p q : Parser}
    {read : List Statement} (parsed : Parsed place p read q)
    (within : Within (front ++ [last]) p.cursor) (comment : Text) :
    Annotated comment ⟨front.length + 1, Text.byteSize last⟩ place p read q := by
  induction parsed with
  | @finish p atEnd =>
      constructor
      · intro _
        have idle := skipIdle_cursor_annotate comment p
        have done : Parsed none (p.annotate comment) [] ⟨_, p.rules⟩ := .finish (by
          rw [idle, Cursor.annotate, atEnd]
          rfl)
        rw [idle] at done
        exact done
      · rintro _ ⟨start, target, last⟩
        cases last
  | @close body p d notEnd closes =>
      constructor
      · intro _
        apply Parsed.close
        · rw [skipIdle_cursor_annotate]
          exact annotate_ahead_ne_nil comment notEnd
        · rw [skipIdle_cursor_annotate]
          exact Body.readEnd_annotate comment closes
      · intro script
        cases script
  | @simple place p q statement d e others continues read stop tail ih =>
      have behind := read.follows.within ((follows_skipIdle p.cursor).within within)
      by_cases bare : statement.IsBare ∧ d.ahead = [[]]
      · exact annotated_bare behind continues.1 read stop tail bare.1 bare.2
      · have stopped := ((Forward.readTerminator statement.kind).of_ok stop).within behind
        obtain ⟨e', one, idle⟩ := statement?_annotate_simple comment continues.1 read stop bare
        refine (ih stopped).cons continues one idle rfl ?_
        rintro ⟨start, target, only⟩
        cases only
        apply bare
        exact ⟨⟨_, _, rfl⟩, behind.lineEnd_iff.mp read.stop_eq.symm⟩
  | @conditional place p inner q condition c e body others continues known head insides stop tail
      ihBody ih =>
      have opened := (Forward.readCondition.of_ok head).within ((follows_skipIdle _).within within)
      have stopped := ((Forward.readTerminator .conditional).of_ok stop).within
        (insides.follows.within opened)
      have insides' := (ihBody opened).parsed (fun script => by cases script)
      obtain ⟨e', one, idle⟩ :=
        statement?_annotate_conditional comment continues.1 known head insides' stop
      refine (ih stopped).cons continues one idle rfl ?_
      rintro ⟨start, target, only⟩
      cases only
  | @function place p inner q name c e rules body others continues known head insides declared stop
      tail ihBody ih =>
      have opened := ((Forward.readSignature _ _).of_ok head).within
        ((follows_skipIdle _).within within)
      have stopped := ((Forward.readTerminator .function).of_ok stop).within
        (insides.follows.within opened)
      have insides' := (ihBody opened).parsed (fun script => by cases script)
      obtain ⟨e', one, idle⟩ :=
        statement?_annotate_function comment continues.1 known head insides' declared stop
      refine (ih stopped).cons continues one idle rfl ?_
      rintro ⟨start, target, only⟩
      cases only

/-- With a comment behind its last line a script has the same statements, unless an export without a
value goes up to the end of that line; then the comment is refused. -/
theorem statements_trailingComment (front : List Text) (last comment : Text) (builtins : List Text)
    (p q : Parser) (tree : List Statement)
    (started : Parser.new (.ofLines (front ++ [last])) builtins = .ok p)
    (run : statements p = .ok tree q) :
    ∃ p', Parser.new (.ofLines (front ++ [last ++ " #".toList ++ comment])) builtins = .ok p' ∧
      (¬ EndsBare ⟨front.length + 1, Text.byteSize last⟩ tree → ∃ q', statements p' = .ok tree q') ∧
      (EndsBare ⟨front.length + 1, Text.byteSize last⟩ tree →
        ∃ q', statements p' = .error (.located (.trailingText ('#' :: comment) .assignment)
          ⟨front.length + 1, Text.byteSize last + 1⟩) q') := by
  obtain ⟨rules, here⟩ := new_eq_ok.mp started
  have within : Within (front ++ [last]) p.cursor := here ▸ within_ofLines _
  have annotated := (statements_eq_ok_iff.mp run).annotated within comment
  refine ⟨p.annotate comment, new_eq_ok.mpr ⟨rules, ?_⟩, ?_, annotated.refused rfl⟩
  · rw [annotate, here, Cursor.annotate]
    show Cursor.mk 0 [] (Comment.annotate comment (front ++ [last])) = _
    rw [Comment.annotate_concat, List.append_assoc]
    rfl
  · intro complete
    exact ⟨_, statements_eq_ok_iff.mpr (annotated.parsed fun _ => complete)⟩

theorem statements_trailingComment_export :
    ∃ p q tree, Parser.new (.ofLines ["echo a".toList, "export A".toList]) [] = .ok p ∧
      statements p = .ok tree q ∧ EndsBare ⟨2, 8⟩ tree ∧
      ∃ p', Parser.new (.ofLines ["echo a".toList, "export A # x".toList]) [] = .ok p' ∧
        ∃ q', statements p' =
          .error (.located (.trailingText "# x".toList .assignment) ⟨2, 9⟩) q' := by
  have started : Parser.new (.ofLines ["echo a".toList, "export A".toList]) [] = .ok
      ⟨.ofLines ["echo a".toList, "export A".toList], .initial⟩ := rfl
  have run : statements ⟨.ofLines ["echo a".toList, "export A".toList], .initial⟩ = .ok
      [.invocation ⟨⟨1, 0⟩, ⟨1, 6⟩⟩ "echo".toList [⟨⟨⟨1, 5⟩, ⟨1, 6⟩⟩, .literal, "a".toList⟩]
        .standard,
        .assignment ⟨⟨2, 0⟩, ⟨2, 8⟩⟩ (some .exported) "A".toList none]
      ⟨⟨2, [], []⟩, .initial⟩ := by
    cbv
  have bare : EndsBare ⟨2, 8⟩
      [.invocation ⟨⟨1, 0⟩, ⟨1, 6⟩⟩ "echo".toList [⟨⟨⟨1, 5⟩, ⟨1, 6⟩⟩, .literal, "a".toList⟩]
        .standard,
        .assignment ⟨⟨2, 0⟩, ⟨2, 8⟩⟩ (some .exported) "A".toList none] :=
    ⟨_, _, rfl⟩
  obtain ⟨p', started', -, refused⟩ := statements_trailingComment ["echo a".toList]
    "export A".toList " x".toList [] _ _ _ started run
  exact ⟨_, _, _, started, run, bare, p', started', refused bare⟩

end Parser

end ShellLift
