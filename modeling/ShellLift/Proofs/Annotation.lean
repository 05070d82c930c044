import ShellLift.Proofs.ConcreteSyntax
import ShellLift.Proofs.Rendering

/-!
# A comment behind the last line

`Cursor.annotate comment c` is the position `c` in the script whose last line has a blank and a
comment behind it. A move that stops before the end of the last line is the same move there. A
lexeme ends before a blank, so it is read alike; and where a statement ends at the end of the line,
it ends at the comment.
-/

set_option autoImplicit false

namespace ShellLift

open Step Cursor

/-! ## The annotated script -/

theorem Text.takeWhile_dropWhile_append {test : Char → Bool} {line : Text} {x : Char}
    (stops : test x = false ∨ line.dropWhile test ≠ []) (more : Text) :
    (line ++ x :: more).takeWhile test = line.takeWhile test ∧
      (line ++ x :: more).dropWhile test = line.dropWhile test ++ x :: more := by
  induction line with
  | nil =>
      have fails : test x = false := stops.resolve_right fun live => live rfl
      simp [fails]
  | cons y line ih =>
      by_cases passes : test y = true
      · rw [List.dropWhile_cons_of_pos passes] at stops
        simp [passes, ih stops]
      · simp [passes]

namespace Comment

/-- What stands behind a line that some lines follow. -/
def trailer (comment : Text) (later : List Text) : Text :=
  if later.isEmpty then ' ' :: '#' :: comment else []

def annotate (comment : Text) : List Text → List Text
  | [] => []
  | line :: later => (line ++ trailer comment later) :: annotate comment later

theorem annotate_concat (comment : Text) (front : List Text) (last : Text) :
    annotate comment (front ++ [last]) = front ++ [last ++ ' ' :: '#' :: comment] := by
  induction front with
  | nil => rfl
  | cons line front ih =>
      have inner : trailer comment (front ++ [last]) = [] := by simp [trailer]
      rw [List.cons_append, annotate, ih, inner, List.append_nil, List.cons_append]

theorem trailer_cases (comment : Text) (later : List Text) :
    later = [] ∧ trailer comment later = ' ' :: '#' :: comment ∨
      later ≠ [] ∧ trailer comment later = [] := by
  cases later with
  | nil => exact .inl ⟨rfl, rfl⟩
  | cons line later => exact .inr ⟨List.cons_ne_nil _ _, rfl⟩

theorem isIdle_append_trailer (comment line : Text) (later : List Text) :
    isIdle (line ++ trailer comment later) = isIdle line := by
  rcases trailer_cases comment later with ⟨-, added⟩ | ⟨-, added⟩
  · rw [added]
    unfold isIdle
    rw [List.dropWhile_append]
    cases line.dropWhile Text.isSpace with
    | nil => rfl
    | cons x rest => rfl
  · rw [added, List.append_nil]

theorem isPrefixOf_append_trailer (comment : Text) {piece : Text} (solid : ' ' ∉ piece)
    (line : Text)
    (later : List Text) :
    piece.isPrefixOf (line ++ trailer comment later) = piece.isPrefixOf line := by
  rcases trailer_cases comment later with ⟨-, added⟩ | ⟨-, added⟩
  · rw [added]
    induction piece generalizing line with
    | nil => rfl
    | cons x piece ih =>
        rw [List.mem_cons, not_or] at solid
        cases line with
        | nil =>
            have differs : (x == ' ') = false := beq_false_of_ne (Ne.symm solid.1)
            simp [List.isPrefixOf, differs]
        | cons y line => rw [List.cons_append, List.isPrefixOf, List.isPrefixOf, ih solid.2]
  · rw [added, List.append_nil]

end Comment

namespace Cursor

def annotate (comment : Text) (c : Cursor) : Cursor :=
  ⟨c.row, c.before, Comment.annotate comment c.ahead⟩

variable (comment : Text) {c : Cursor}

theorem annotate_ahead_ne_nil (live : c.ahead ≠ []) : (c.annotate comment).ahead ≠ [] := by
  obtain ⟨row, before, _ | ⟨line, later⟩⟩ := c
  · exact absurd rfl live
  · exact List.cons_ne_nil _ _

theorem next?_annotate {x : Char} (next : c.next? = some x) :
    (c.annotate comment).next? = some x := by
  obtain ⟨row, before, _ | ⟨_ | ⟨y, line⟩, later⟩⟩ := c
  · cases next
  · cases next
  · exact next

theorem next?_annotate_cases (c : Cursor) :
    (c.annotate comment).next? = c.next? ∨
      c.next? = none ∧ (c.annotate comment).next? = some ' ' := by
  obtain ⟨row, before, _ | ⟨_ | ⟨y, line⟩, later⟩⟩ := c
  · exact .inl rfl
  · rcases Comment.trailer_cases comment later with ⟨rfl, -⟩ | ⟨-, added⟩
    · exact .inr ⟨rfl, rfl⟩
    · left
      simp [annotate, Comment.annotate, next?, rest?, added]
  · exact .inl rfl

theorem startsWith_annotate (c : Cursor) {piece : Text} (solid : ' ' ∉ piece) :
    (c.annotate comment).startsWith piece = c.startsWith piece := by
  obtain ⟨row, before, _ | ⟨line, later⟩⟩ := c
  · rfl
  · exact Comment.isPrefixOf_append_trailer comment solid line later

theorem move_annotate {count : Nat} (within : count ≤ (c.rest?.getD []).length) :
    (c.annotate comment).move count = (c.move count).annotate comment := by
  obtain ⟨row, before, _ | ⟨line, later⟩⟩ := c
  · rfl
  · have short : count ≤ line.length := within
    simp only [annotate, Comment.annotate, move, List.take_append_of_le_length short,
      List.drop_append_of_le_length short]

theorem move_annotate_of_startsWith {piece : Text} (starts : c.startsWith piece = true) :
    (c.annotate comment).move piece.length = (c.move piece.length).annotate comment := by
  apply move_annotate comment
  obtain ⟨row, before, _ | ⟨line, later⟩⟩ := c
  · cases starts
  · exact (List.isPrefixOf_iff_prefix.mp starts).length_le

/-- A run of characters that ends before the end of the last line, or before every blank, is the
same run before a comment. -/
theorem skipWhile_annotate {test : Char → Bool}
    (stops : test ' ' = false ∨ (c.skipWhile test).ahead ≠ [[]]) :
    (c.annotate comment).skipWhile test = (c.skipWhile test).annotate comment ∧
      (c.annotate comment).run? test = c.run? test := by
  obtain ⟨row, before, _ | ⟨line, later⟩⟩ := c
  · exact ⟨rfl, rfl⟩
  have split : (line ++ Comment.trailer comment later).takeWhile test = line.takeWhile test ∧
      (line ++ Comment.trailer comment later).dropWhile test =
        line.dropWhile test ++ Comment.trailer comment later := by
    rcases Comment.trailer_cases comment later with ⟨rfl, added⟩ | ⟨-, added⟩
    · rw [added]
      apply Text.takeWhile_dropWhile_append
      apply stops.imp_right
      intro live lineEnd
      exact live (congrArg (fun rest => [rest]) lineEnd)
    · simp [added]
  constructor
  · simp only [annotate, Comment.annotate, skipWhile, split.1, split.2]
  · show some _ = some _
    rw [split.1]

theorem skipWord_annotate (c : Cursor) :
    (c.annotate comment).skipWord = c.skipWord.annotate comment :=
  (skipWhile_annotate comment (.inl (by decide))).1

theorem word_annotate (c : Cursor) : (c.annotate comment).word = c.word := by
  have run : (c.annotate comment).run? Text.isWordChar = c.run? Text.isWordChar :=
    (skipWhile_annotate comment (.inl (by decide))).2
  exact congrArg (Option.getD · []) run

theorem skipSpaces_annotate {x : Char} (next : c.skipSpaces.next? = some x) :
    (c.annotate comment).skipSpaces = c.skipSpaces.annotate comment := by
  refine (skipWhile_annotate comment (.inr fun lineEnd => ?_)).1
  have ahead : c.skipSpaces.ahead = [[]] := lineEnd
  simp [next?, rest?, ahead] at next

theorem skipSpaces_annotate_lineEnd (lineEnd : c.skipSpaces.ahead = [[]]) :
    (c.annotate comment).skipSpaces =
      ⟨c.skipSpaces.row, c.skipSpaces.before ++ [' '], ['#' :: comment]⟩ := by
  obtain ⟨row, before, _ | ⟨line, later⟩⟩ := c
  · cases lineEnd
  · obtain ⟨rest, rfl⟩ := List.cons.inj lineEnd
    have blank := List.dropWhile_eq_nil_iff.mp rest
    have hash : Text.isSpace '#' = false := by decide
    have space : Text.isSpace ' ' = true := by decide
    simp [annotate, Comment.annotate, Comment.trailer, skipSpaces, skipWhile,
      List.takeWhile_append_of_pos blank, List.dropWhile_append_of_pos blank,
      List.takeWhile_eq_self_iff.mpr blank, space, hash]

theorem skipIdle_annotate (c : Cursor) :
    (c.annotate comment).skipIdle = c.skipIdle.annotate comment := by
  obtain ⟨row, before, ahead⟩ := c
  show skipIdleFrom row before (Comment.annotate comment ahead) =
    (skipIdleFrom row before ahead).annotate comment
  induction ahead generalizing row before with
  | nil => rfl
  | cons line later ih =>
      rw [Comment.annotate, skipIdleFrom, skipIdleFrom, Comment.isIdle_append_trailer]
      split
      · exact ih (row + 1) []
      · rename_i busy
        have stops : (⟨row, before, line :: later⟩ : Cursor).skipSpaces.ahead ≠ [[]] := by
          intro lineEnd
          have rest : line.dropWhile Text.isSpace = [] := (List.cons.inj lineEnd).1
          exact busy (by rw [isIdle, rest])
        exact (skipWhile_annotate comment (.inr stops)).1

end Cursor

/-! ## Delimited spans -/

theorem BracketPair.close?_annotate (d : BracketPair) (closes : d.closing ≠ [])
    (opens : d.opening.length ≤ d.closing.length) (comment : Text) {depth row : Nat}
    {before inside : Text} {lines : List Text} {stop : Cursor}
    (found : d.close? depth row before lines = some (inside, stop)) :
    d.close? depth row before (Comment.annotate comment lines) =
      some (inside, stop.annotate comment) := by
  induction lines generalizing depth row before inside with
  | nil => cases found
  | cons line later ih =>
      rw [close?] at found
      rw [Comment.annotate, close?]
      cases result : d.search depth 0 line with
      | closed text rest =>
          rw [result] at found
          cases found
          have shape := d.search_eq depth 0 line inside rest result
          have again := d.search_append closes opens depth 0 line inside rest result
            (rest ++ Comment.trailer comment later)
          rw [shape, List.append_assoc _ rest, again]
          rfl
      | pending depth' =>
          rw [result] at found
          by_cases multiline : d.multiline = true
          · simp only [multiline, if_true] at found ⊢
            obtain ⟨⟨more, last⟩, below, same⟩ := Option.map_eq_some_iff.mp found
            cases same
            -- The span is closed on a later line, so this one is not the last.
            have inner : Comment.trailer comment later = [] := by
              cases later with
              | nil => cases below
              | cons next later => rfl
            rw [inner, List.append_nil, result]
            simp only [ih below]
            rfl
          · simp [multiline] at found

theorem BracketPair.read_annotate (d : BracketPair) (closes : d.closing ≠ [])
    (opens : d.opening.length ≤ d.closing.length) (solid : ' ' ∉ d.opening) (comment : Text)
    {c e : Cursor} {text : Text} (run : d.read c = .ok text e) :
    d.read (c.annotate comment) = .ok text (e.annotate comment) := by
  rw [read_run] at run ⊢
  rw [startsWith_annotate comment c solid]
  split at run
  · rename_i opened
    rw [if_pos opened, move_annotate_of_startsWith comment opened]
    cases found : d.close? 1 (c.move d.opening.length).row (c.move d.opening.length).before
        (c.move d.opening.length).ahead with
    | none => simp [found] at run
    | some pair =>
        simp only [found, EStateM.Result.ok.injEq] at run
        obtain ⟨rfl, rfl⟩ := run
        have again := d.close?_annotate closes opens comment found
        simp only [annotate, again]
  · cases run

theorem Quotation.read_annotate (style : Quotation) (comment : Text) {c d : Cursor} {text : Text}
    (run : style.read c = .ok text d) :
    style.read (c.annotate comment) = .ok text (d.annotate comment) := by
  obtain ⟨row, before, _ | ⟨_ | ⟨first, line⟩, later⟩⟩ := c
  · cases run
  · cases run
  rw [read_run] at run
  split at run
  · rename_i marked
    cases found : style.close? [] line with
    | none => simp [found] at run
    | some pair =>
        obtain ⟨inside, rest⟩ := pair
        simp only [found, EStateM.Result.ok.injEq] at run
        obtain ⟨rfl, rfl⟩ := run
        have shape := style.close?_eq [] line inside rest found
        have again := style.close?_append [] line inside rest found
          (rest ++ Comment.trailer comment later)
        have line_eq : line ++ Comment.trailer comment later =
            inside ++ style.mark :: (rest ++ Comment.trailer comment later) := by
          rw [shape, List.append_assoc, List.cons_append]
        have short : inside.length + 2 ≤ (first :: line).length := by
          rw [shape]
          simp
        have moved := move_annotate comment (c := ⟨row, before, (first :: line) :: later⟩) short
        rw [← moved]
        show style.read ⟨row, before, (first :: (line ++ Comment.trailer comment later)) ::
          Comment.annotate comment later⟩ = _
        rw [read_run, if_pos marked, line_eq, again]
        simp only [annotate, Comment.annotate, List.cons_append, line_eq]
  · cases run

/-! ## Expressions -/

namespace Expression

variable (comment : Text) {c d : Cursor} {expression : Expression}

theorem readSubcommand_annotate {start : Location}
    (run : readSubcommand start c = .ok expression d) :
    readSubcommand start (c.annotate comment) = .ok expression (d.annotate comment) := by
  rw [readSubcommand_run] at run ⊢
  rw [startsWith_annotate comment c (by decide), startsWith_annotate comment c (by decide)]
  split at run
  · cases run
  · rename_i notArithmetic
    rw [if_neg notArithmetic]
    split at run
    · rename_i opened
      rw [if_pos opened]
      obtain ⟨text, e, read, last⟩ := bind_eq_ok.mp run
      cases last
      have again := BracketPair.parentheses.read_annotate (by decide) (by decide) (by decide)
        comment read
      exact bind_eq_ok.mpr ⟨text, _, again, rfl⟩
    · cases run

theorem readTest_annotate {start : Location} (run : readTest start c = .ok expression d) :
    readTest start (c.annotate comment) = .ok expression (d.annotate comment) := by
  obtain ⟨text, e, read, last⟩ := bind_eq_ok.mp run
  cases last
  have again := BracketPair.doubleSquare.read_annotate (by decide) (by decide) (by decide)
    comment read
  exact bind_eq_ok.mpr ⟨text, _, again, rfl⟩

theorem readQuoted_annotate {start : Location} {style : Quotation}
    (run : readQuoted start style c = .ok expression d) :
    readQuoted start style (c.annotate comment) = .ok expression (d.annotate comment) := by
  obtain ⟨text, e, read, last⟩ := bind_eq_ok.mp run
  cases last
  exact bind_eq_ok.mpr ⟨text, _, style.read_annotate comment read, rfl⟩

theorem readLiteral_annotate {start : Location} (run : readLiteral start c = .ok expression d) :
    readLiteral start (c.annotate comment) = .ok expression (d.annotate comment) := by
  rw [readLiteral_run] at run ⊢
  have solid : Text.isPlainChar ' ' = false := by decide
  have again := skipWhile_annotate comment (c := c) (.inl solid)
  rw [again.1, again.2]
  cases run
  rfl

theorem readCommand?_annotate {start : Location} {x : Char}
    (run : readCommand? start c = .ok (some expression) d) (next : d.next? = some x) :
    readCommand? start (c.annotate comment) = .ok (some expression) (d.annotate comment) := by
  rw [readCommand?_run] at run ⊢
  split at run
  · cases run
  · rename_i notEmpty
    cases run
    have stops : (c.skipWhile isCommandChar).ahead ≠ [[]] := by
      intro lineEnd
      simp [next?, rest?, lineEnd] at next
    have again := skipWhile_annotate comment (.inr stops)
    rw [again.1, again.2, if_neg notEmpty]
    rfl

theorem readValue?_annotate {start : Location} {spaced : Bool} {first : Char}
    (run : readValue? start spaced first c = .ok (some expression) d) (spaced' : Bool) :
    readValue? start spaced' first (c.annotate comment) =
      .ok (some expression) (d.annotate comment) := by
  rw [readValue?_run] at run ⊢
  by_cases hash : first = '#'
  · rw [if_pos hash] at run
    split at run
    · cases run
    · cases run
  rw [if_neg hash] at run ⊢
  by_cases plain : Text.isPlainChar first = true
  · rw [if_pos plain] at run ⊢
    obtain ⟨found, read, same⟩ := map_eq_ok.mp run
    exact map_eq_ok.mpr ⟨found, readLiteral_annotate comment read, same⟩
  rw [if_neg plain] at run ⊢
  cases mark : Quotation.ofMark? first with
  | none => simp [mark] at run
  | some style =>
      simp only [mark] at run
      obtain ⟨found, read, same⟩ := map_eq_ok.mp run
      exact map_eq_ok.mpr ⟨found, readQuoted_annotate comment read, same⟩

/-- An expression is read alike before a comment. Command text is, if it ends before the end of the
line. -/
theorem read?_annotate {position : Position} (run : read? position c = .ok (some expression) d)
    (ends : position = .command → d.next? ≠ none) :
    read? position (c.annotate comment) = .ok (some expression) (d.annotate comment) := by
  rw [read?_run] at run ⊢
  cases next : c.skipSpaces.next? with
  | none => simp [next] at run
  | some first =>
      have short : 1 ≤ (c.skipSpaces.rest?.getD []).length := by
        obtain ⟨rest, line⟩ := rest?_of_next next
        simp [line]
      rw [skipSpaces_annotate comment next, next?_annotate comment next,
        startsWith_annotate comment _ (by decide), move_annotate comment short]
      simp only [next] at run ⊢
      by_cases dollar : first = '$'
      · rw [if_pos dollar] at run ⊢
        obtain ⟨found, read, same⟩ := map_eq_ok.mp run
        exact map_eq_ok.mpr ⟨found, readSubcommand_annotate comment read, same⟩
      rw [if_neg dollar] at run ⊢
      by_cases brackets : c.skipSpaces.startsWith "[[".toList = true
      · rw [if_pos brackets] at run ⊢
        obtain ⟨found, read, same⟩ := map_eq_ok.mp run
        exact map_eq_ok.mpr ⟨found, readTest_annotate comment read, same⟩
      rw [if_neg brackets] at run ⊢
      by_cases semicolon : first = ';'
      · rw [if_pos semicolon] at run
        cases run
      rw [if_neg semicolon] at run ⊢
      cases position with
      | value => exact readValue?_annotate comment run _
      | command =>
          obtain ⟨x, behind⟩ := Option.ne_none_iff_exists'.mp (ends rfl)
          exact readCommand?_annotate comment run behind

theorem read_annotate {position : Position} (run : read position c = .ok expression d)
    (ends : position = .command → d.next? ≠ none) :
    read position (c.annotate comment) = .ok expression (d.annotate comment) := by
  rw [read_run] at run ⊢
  rcases found : read? position c with ⟨_ | other, e⟩ | ⟨diagnostic, e⟩
  · simp [found] at run
  · simp only [found, EStateM.Result.ok.injEq] at run
    obtain ⟨rfl, rfl⟩ := run
    rw [read?_annotate comment found ends]
  · simp [found] at run

end Expression

/-! ## Ends of statements -/

namespace Cursor

/-- Nothing is left on the line but blanks, or a comment behind a blank. -/
def Rests (c : Cursor) : Prop := (∀ rest ∈ c.rest?, isIdle rest = true) ∧ c.next? ≠ some '#'

theorem Rests.annotate {c : Cursor} (rests : c.Rests) (comment : Text) :
    (c.annotate comment).Rests := by
  constructor
  · intro line found
    obtain ⟨row, before, _ | ⟨rest, later⟩⟩ := c
    · cases found
    · obtain rfl : rest ++ Comment.trailer comment later = line := Option.some.inj found
      rw [Comment.isIdle_append_trailer]
      exact rests.1 rest rfl
  · rcases next?_annotate_cases comment c with same | ⟨-, blank⟩
    · rw [same]
      exact rests.2
    · rw [blank]
      decide

theorem skipIdle_of_isIdle {row : Nat} {before rest : Text} {later : List Text}
    (idle : isIdle rest = true) :
    (⟨row, before, rest :: later⟩ : Cursor).skipIdle = skipIdleFrom (row + 1) [] later := by
  rw [skipIdle, skipIdleFrom, if_pos idle]

theorem isIdle_iff {line : Text} :
    isIdle line = true ↔
      line.dropWhile Text.isSpace = [] ∨
        ∃ comment, line.dropWhile Text.isSpace = '#' :: comment := by
  unfold isIdle
  cases line.dropWhile Text.isSpace with
  | nil => simp
  | cons x rest =>
      show (x == '#') = true ↔ _
      rw [beq_iff_eq]
      constructor
      · rintro rfl
        exact .inr ⟨rest, rfl⟩
      · rintro (lineEnd | ⟨comment, comes⟩)
        · cases lineEnd
        · exact (List.cons.inj comes).1

end Cursor

namespace Statement

theorem readTerminator_of_rests (kind : Kind) {c : Cursor} (rests : c.Rests) :
    ∃ e, readTerminator kind c = .ok () e ∧ e.skipIdle = c.skipIdle := by
  simp only [readTerminator_eq_ok]
  obtain ⟨row, before, _ | ⟨rest, later⟩⟩ := c
  · exact ⟨_, .inr (.inr ⟨rfl, rfl⟩), rfl⟩
  have idle := rests.1 rest rfl
  have last : isIdle ([] : Text) = true := rfl
  rw [skipIdle_of_isIdle idle]
  rcases isIdle_iff.mp idle with lineEnd | ⟨comment, comes⟩
  · have skipped : (⟨row, before, rest :: later⟩ : Cursor).skipSpaces =
        ⟨row, before ++ rest.takeWhile Text.isSpace, [] :: later⟩ := by
      rw [← lineEnd]
      rfl
    refine ⟨_, .inr (.inr ⟨?_, rfl⟩), ?_⟩
    · rw [skipped]
      rfl
    · rw [skipped, skipIdle_of_isIdle last]
  · have skipped : (⟨row, before, rest :: later⟩ : Cursor).skipSpaces =
        ⟨row, before ++ rest.takeWhile Text.isSpace, ('#' :: comment) :: later⟩ := by
      rw [← comes]
      rfl
    have spaced : (⟨row, before, rest :: later⟩ : Cursor).atSpace = true := by
      cases rest with
      | nil => cases comes
      | cons x line =>
          by_contra solid
          have solid' : Text.isSpace x = false := by simpa [atSpace, next?, rest?] using solid
          rw [List.dropWhile_cons_of_neg (by simp [solid'])] at comes
          exact rests.2 (congrArg some (List.cons.inj comes).1)
    refine ⟨_, .inl ⟨spaced, ?_, rfl⟩, ?_⟩
    · rw [skipped]
      rfl
    · rw [skipped]
      show skipIdle ⟨row, _, ('#' :: comment).dropWhile (fun _ => true) :: later⟩ = _
      rw [List.dropWhile_eq_nil_iff.mpr (fun _ _ => rfl), skipIdle_of_isIdle last]

theorem rests_or_semicolon {kind : Kind} {c e : Cursor} (stop : readTerminator kind c = .ok () e) :
    c.Rests ∧ e.skipIdle = c.skipIdle ∨
      c.skipSpaces.startsWith ";".toList = true ∧ e = c.skipSpaces.move 1 := by
  have rests_of_idle : (∀ rest ∈ c.rest?, isIdle rest = true) → c.next? ≠ some '#' →
      c.Rests ∧ e.skipIdle = c.skipIdle := by
    intro idle unmarked
    obtain ⟨e', again, same⟩ := readTerminator_of_rests kind ⟨idle, unmarked⟩
    rw [stop] at again
    cases again
    exact ⟨⟨idle, unmarked⟩, same⟩
  rcases readTerminator_eq_ok.mp stop with ⟨spaced, hash, -⟩ | semicolon | ⟨lineEnd, -⟩
  · left
    apply rests_of_idle
    · intro rest found
      obtain ⟨row, before, _ | ⟨line, later⟩⟩ := c
      · cases found
      · obtain rfl : line = rest := Option.some.inj found
        exact isIdle_iff.mpr (.inr (List.head?_eq_some_iff.mp hash))
    · intro marked
      rw [atSpace, marked] at spaced
      cases spaced
  · exact .inr semicolon
  · left
    apply rests_of_idle
    · intro rest found
      obtain ⟨row, before, _ | ⟨line, later⟩⟩ := c
      · cases found
      · obtain rfl : line = rest := Option.some.inj found
        exact isIdle_iff.mpr (.inl (List.head?_eq_none_iff.mp lineEnd))
    · intro marked
      rw [skipSpaces_of_next marked (by decide), marked] at lineEnd
      cases lineEnd

/-- A statement that ends on a line ends there also before a comment. -/
theorem readTerminator_annotate (comment : Text) {kind : Kind} {c e : Cursor}
    (stop : readTerminator kind c = .ok () e) :
    ∃ e', readTerminator kind (c.annotate comment) = .ok () e' ∧
      e'.skipIdle = (e.annotate comment).skipIdle := by
  rcases rests_or_semicolon stop with ⟨rests, same⟩ | ⟨semicolon, rfl⟩
  · obtain ⟨e', again, idle⟩ := readTerminator_of_rests kind (rests.annotate comment)
    refine ⟨e', again, ?_⟩
    rw [idle, skipIdle_annotate, skipIdle_annotate, same]
  · have next : c.skipSpaces.next? = some ';' :=
      (passes_of_startsWith semicolon).1.next?_eq (by decide)
    refine ⟨_, readTerminator_eq_ok.mpr (.inr (.inl ⟨?_, rfl⟩)), ?_⟩
    · rw [skipSpaces_annotate comment next, startsWith_annotate comment _ (by decide)]
      exact semicolon
    · have moved := move_annotate_of_startsWith comment semicolon
      rw [skipSpaces_annotate comment next]
      exact congrArg Cursor.skipIdle moved

/-! ## Statements without a body -/

variable (comment : Text)

theorem endsArgument_annotate {c : Cursor} (ends : endsArgument c.next? = true) :
    endsArgument (c.annotate comment).next? = true := by
  rcases next?_annotate_cases comment c with same | ⟨-, blank⟩
  · rw [same]
    exact ends
  · rw [blank]
    decide

theorem Arguments.annotate {kind : Kind} {c stop d e : Cursor} {arguments : List Expression}
    (shape : Arguments c arguments stop d) (ends : readTerminator kind d = .ok () e) :
    ∃ stop' d' e', Arguments (c.annotate comment) arguments stop' d' ∧
      readTerminator kind d' = .ok () e' ∧ e'.skipIdle = (e.annotate comment).skipIdle := by
  induction shape with
  | @nil c d found =>
      -- The comment may be read as the end of the arguments or as the end of the statement.
      obtain ⟨e', again, idle⟩ :=
        readTerminator_annotate comment (readTerminator_of_read? found ends)
      obtain ⟨d', none', stop'⟩ := read?_of_readTerminator again
      exact ⟨_, d', e', .nil none', stop', idle⟩
  | @cons c d stop last argument arguments found separated _ ih =>
      obtain ⟨stop', d', e', shape', ends', idle⟩ := ih ends
      have again := Expression.read?_annotate comment found (fun position => by cases position)
      exact ⟨stop', d', e', .cons again (endsArgument_annotate comment separated)
        shape', ends', idle⟩

theorem readInvocation_annotate {kind : Callee} {c d e : Cursor} {statement : Statement}
    (word : c.word ≠ []) (run : readInvocation kind c.size c = .ok statement d)
    (ends : readTerminator statement.kind d = .ok () e) :
    ∃ d' e', readInvocation kind (c.annotate comment).size (c.annotate comment) =
        .ok statement d' ∧
      readTerminator statement.kind d' = .ok () e' ∧
      e'.skipIdle = (e.annotate comment).skipIdle := by
  obtain ⟨arguments, stop, shape, rfl⟩ := arguments_of_readInvocation run
  obtain ⟨stop', d', e', shape', ends', idle⟩ := shape.annotate comment ends
  rw [← skipWord_annotate] at shape'
  have word' : (c.annotate comment).word ≠ [] := by rwa [word_annotate]
  refine ⟨d', e', ?_, ends', idle⟩
  rw [readInvocation_run, shape'.run _ _ 0 (skipWord_size_lt word'), word_annotate,
    skipWord_annotate]
  rfl

theorem targetStart_annotate {kind : Option Binder} {c : Cursor}
    (named : (targetStart kind c).word ≠ []) :
    targetStart kind (c.annotate comment) = (targetStart kind c).annotate comment := by
  cases kind with
  | none => rfl
  | some binder =>
      obtain ⟨x, next, -⟩ := exists_next_of_word named
      show (c.annotate comment).skipWord.skipSpaces = _
      rw [skipWord_annotate, skipSpaces_annotate comment next]
      rfl

def IsBare (statement : Statement) : Prop :=
  ∃ span target, statement = .assignment span (some .exported) target none

theorem readAssignment_annotate {kind : Option Binder} {c d : Cursor} {statement : Statement}
    (run : readAssignment kind c = .ok statement d)
    (complete : ¬ (statement.IsBare ∧ d.ahead = [[]])) :
    readAssignment kind (c.annotate comment) = .ok statement (d.annotate comment) := by
  obtain ⟨named, value, assigned, rfl⟩ := readAssignment_eq_ok.mp run
  have value_eq := readAssigned_eq_ok.mp assigned
  rw [readAssignment_eq_ok, targetStart_annotate comment named, word_annotate, skipWord_annotate]
  refine ⟨named, value, ?_, rfl⟩
  generalize (targetStart kind c).skipWord = e at *
  rw [readAssigned_eq_ok]
  cases value with
  | some expression =>
      obtain ⟨equals, notBlank, read⟩ := value_eq
      have next : e.skipSpaces.next? = some '=' :=
        (passes_of_startsWith equals).1.next?_eq (by decide)
      have moved : (e.skipSpaces.annotate comment).move 1 =
          (e.skipSpaces.move 1).annotate comment :=
        move_annotate_of_startsWith comment equals
      rw [skipSpaces_annotate comment next, startsWith_annotate comment _ (by decide), moved]
      refine ⟨equals, ?_, Expression.read_annotate comment read (fun position => by cases position)⟩
      -- A value starts right behind the equals sign, so the line does not end there.
      have value : (e.skipSpaces.move 1).next? ≠ none := by
        intro lineEnd
        rw [Expression.read_run, Expression.read?_run, skipSpaces_of_lineEnd lineEnd,
          lineEnd] at read
        cases read
      obtain ⟨x, first⟩ := Option.ne_none_iff_exists'.mp value
      rw [next?_annotate comment first, ← first]
      exact notBlank
  | none =>
      obtain ⟨noEquals, exported, rfl⟩ := value_eq
      have stops : e.skipSpaces.ahead ≠ [[]] := by
        intro lineEnd
        exact complete ⟨⟨_, _, by rw [exported]⟩, lineEnd⟩
      have skipped : (e.annotate comment).skipSpaces = e.skipSpaces.annotate comment :=
        (skipWhile_annotate comment (.inr stops)).1
      rw [skipped]
      refine ⟨?_, exported, rfl⟩
      rw [startsWith_annotate comment _ (by decide)]
      exact noEquals

/-- Behind an export without a value the reader goes on to the comment. -/
theorem readAssignment_annotate_bare {kind : Option Binder} {c d : Cursor} {span : Span}
    {target : Text}
    (run : readAssignment kind c = .ok (.assignment span (some .exported) target none) d)
    (lineEnd : d.ahead = [[]]) :
    ∃ span', readAssignment kind (c.annotate comment) =
      .ok (.assignment span' (some .exported) target none)
        ⟨d.row, d.before ++ [' '], ['#' :: comment]⟩ := by
  obtain ⟨named, value, assigned, same⟩ := readAssignment_eq_ok.mp run
  cases same
  obtain ⟨-, -, here⟩ := readAssigned_eq_ok.mp assigned
  have skipped := skipSpaces_annotate_lineEnd comment (here ▸ lineEnd)
  rw [← here] at skipped
  refine ⟨⟨c.location, (Cursor.mk d.row (d.before ++ [' ']) ['#' :: comment]).location⟩, ?_⟩
  rw [readAssignment_eq_ok, targetStart_annotate comment named, word_annotate, skipWord_annotate,
    skipped]
  exact ⟨named, none, readAssigned_eq_ok.mpr ⟨rfl, rfl, rfl⟩, rfl⟩

/-! ## Heads and ends of bodies -/

theorem readCondition_annotate {c d : Cursor} {condition : Expression} (word : c.word ≠ [])
    (run : readCondition c = .ok condition d) :
    readCondition (c.annotate comment) = .ok condition (d.annotate comment) := by
  obtain ⟨keyword, e, read, semicolon, keyword', rfl⟩ := readCondition_eq_ok.mp run
  have word' : (c.annotate comment).word ≠ [] := by rwa [word_annotate]
  rw [skipSpaces_of_word word] at keyword read
  rw [skipSpaces_skipIdle] at keyword' ⊢
  have next : e.skipSpaces.next? = some ';' :=
    (passes_of_startsWith semicolon).1.next?_eq (by decide)
  have moved : (e.skipSpaces.annotate comment).move 1 = (e.skipSpaces.move 1).annotate comment :=
    move_annotate_of_startsWith comment semicolon
  have ends : e.next? ≠ none := by
    intro lineEnd
    rw [skipSpaces_of_lineEnd lineEnd, lineEnd] at next
    cases next
  rw [readCondition_eq_ok, skipSpaces_of_word word', word_annotate, skipWord_annotate]
  refine ⟨keyword, e.annotate comment, Expression.read_annotate comment read (fun _ => ends), ?_⟩
  rw [skipSpaces_annotate comment next, startsWith_annotate comment _ (by decide), moved,
    skipSpaces_skipIdle, skipIdle_annotate, word_annotate, skipWord_annotate]
  exact ⟨semicolon, keyword', rfl⟩

theorem parametersLength_annotate {c : Cursor} (parameters : c.parametersLength ≠ 0) :
    (c.annotate comment).parametersLength = c.parametersLength ∧
      c.parametersLength ≤ (c.rest?.getD []).length ∧ c.next? = some '(' := by
  obtain ⟨row, before, _ | ⟨line, later⟩⟩ := c
  · exact absurd rfl parameters
  · obtain ⟨blanks, rest, rfl, blank, length⟩ := emptyParameters_eq parameters
    have closing : Text.isSpace ')' = false := by decide
    refine ⟨?_, ?_, rfl⟩
    · show emptyParametersLength ('(' :: (blanks ++ [')'] ++ rest ++ _)) =
        emptyParametersLength ('(' :: (blanks ++ [')'] ++ rest))
      simp only [emptyParametersLength, List.append_assoc, List.dropWhile_append_of_pos blank,
        List.takeWhile_append_of_pos blank]
      simp [closing]
    · refine le_of_eq_of_le length ?_
      simp [rest?]

theorem readSignature_annotate {rules : RuleTable} {start : Location} {c d : Cursor} {name : Text}
    (word : c.word ≠ []) (run : readSignature rules start c = .ok name d) :
    readSignature rules start (c.annotate comment) = .ok name (d.annotate comment) := by
  obtain ⟨keyword, rfl, named, free, e, rfl, parameters, brace, rfl⟩ := readSignature_eq_ok.mp run
  have word' : (c.annotate comment).word ≠ [] := by rwa [word_annotate]
  obtain ⟨x, first, -⟩ := exists_next_of_word named
  obtain ⟨length, short, second⟩ := parametersLength_annotate comment parameters
  have moved := move_annotate_of_startsWith comment brace
  rw [skipSpaces_of_word word] at *
  rw [readSignature_eq_ok, skipSpaces_of_word word', word_annotate, skipWord_annotate,
    skipSpaces_annotate comment first, word_annotate, skipWord_annotate,
    skipSpaces_annotate comment second]
  refine ⟨keyword, rfl, named, free, _, rfl, by rwa [length], ?_⟩
  rw [length, move_annotate comment short, skipIdle_annotate,
    startsWith_annotate comment _ (by decide)]
  exact ⟨brace, moved.symm⟩

end Statement

theorem Body.readEnd_annotate (comment : Text) {body : Body} {c d : Cursor}
    (closes : body.readEnd c = .ok true d) :
    body.readEnd (c.annotate comment) = .ok true (d.annotate comment) := by
  cases body with
  | conditional =>
      rw [readEnd_conditional_run] at closes ⊢
      rw [word_annotate]
      split at closes
      · cases closes
      · rename_i noBranch
        rw [if_neg noBranch]
        split at closes
        · rename_i closing
          cases closes
          rw [if_pos closing, skipWord_annotate]
        · cases closes
  | function name =>
      rw [readEnd_function_run] at closes ⊢
      rw [startsWith_annotate comment _ (by decide)]
      split at closes
      · rename_i brace
        cases closes
        rw [if_pos brace]
        exact congrArg _ (move_annotate_of_startsWith comment brace)
      · cases closes

end ShellLift
