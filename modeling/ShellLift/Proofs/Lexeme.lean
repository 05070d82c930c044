import ShellLift.Proofs.Allowance
import ShellLift.Proofs.Delimited

/-!
# Lexemes

The text of a lexeme says where it ends, given the character behind it. So a step that reads a
lexeme is described twice here: from the step that succeeds to the text that the cursor has gone
over, and from such a text back to the step.
-/

set_option autoImplicit false

namespace ShellLift

open Step Cursor

namespace Cursor

/-! ## Passages on one line -/

theorem move_append (row : Nat) (before t rest : Text) (later : List Text) :
    (⟨row, before, (t ++ rest) :: later⟩ : Cursor).move t.length =
      ⟨row, before ++ t, rest :: later⟩ := by
  simp [move]

theorem Passes.live {c d : Cursor} {t : Text} (passes : Passes c t d) (live : d.ahead ≠ []) :
    c.ahead ≠ [] := by
  cases passes with
  | stay => exact live
  | char _ => exact List.cons_ne_nil _ _
  | line _ => exact List.cons_ne_nil _ _
  | last => exact List.cons_ne_nil _ _

theorem Passes.eq_of_nil {c d : Cursor} (passes : Passes c [] d) (live : d.ahead ≠ []) : d = c := by
  cases passes with
  | stay => rfl
  | last => exact absurd rfl live

theorem Passes.split {c e : Cursor} {t u : Text} (passes : Passes c (t ++ u) e) :
    ∃ d, Passes c t d ∧ Passes d u e := by
  induction t generalizing c with
  | nil => exact ⟨c, .stay c, passes⟩
  | cons x t ih =>
      cases passes with
      | char tail =>
          obtain ⟨d, first, second⟩ := ih tail
          exact ⟨d, .char first, second⟩
      | line tail =>
          obtain ⟨d, first, second⟩ := ih tail
          exact ⟨d, .line first, second⟩

theorem Passes.on_line {c d : Cursor} {t : Text} (passes : Passes c t d) (noFeed : '\n' ∉ t)
    (live : d.ahead ≠ []) :
    ∃ rest later, c.ahead = (t ++ rest) :: later ∧ d = ⟨c.row, c.before ++ t, rest :: later⟩ := by
  induction passes with
  | stay c =>
      obtain ⟨rest, later, ahead⟩ := List.exists_cons_of_ne_nil live
      refine ⟨rest, later, ahead, ?_⟩
      rw [List.append_nil, ← ahead]
  | char _ ih =>
      rw [List.mem_cons, not_or] at noFeed
      obtain ⟨rest, later, ahead, stop⟩ := ih noFeed.2 live
      obtain ⟨rfl, rfl⟩ := List.cons.inj ahead
      exact ⟨rest, _, rfl, by simpa using stop⟩
  | line _ _ => exact absurd (List.mem_cons_self ..) noFeed
  | last => exact absurd rfl live

theorem Passes.next?_eq {c d : Cursor} {x : Char} {t : Text} (passes : Passes c (x :: t) d)
    (noFeed : x ≠ '\n') : c.next? = some x := by
  cases passes with
  | char _ => rfl
  | line _ => exact absurd rfl noFeed

theorem Passes.skipWhile_eq {c d : Cursor} {t : Text} {test : Char → Bool} (passes : Passes c t d)
    (noFeed : '\n' ∉ t) (live : d.ahead ≠ []) (all : ∀ x ∈ t, test x = true)
    (stops : ∀ x, d.next? = some x → test x = false) :
    c.run? test = some t ∧ c.skipWhile test = d := by
  obtain ⟨rest, later, ahead, rfl⟩ := passes.on_line noFeed live
  have none : rest.takeWhile test = [] ∧ rest.dropWhile test = rest := by
    cases rest with
    | nil => exact ⟨rfl, rfl⟩
    | cons x rest => simp [stops x rfl]
  constructor
  · simp [run?, rest?, ahead, List.takeWhile_append_of_pos all, none.1]
  · simp [skipWhile, ahead, List.takeWhile_append_of_pos all, List.dropWhile_append_of_pos all,
      none.1, none.2]

theorem Passes.word_eq {c d : Cursor} {t : Text} (passes : Passes c t d) (live : d.ahead ≠ [])
    (all : ∀ x ∈ t, Text.isWordChar x = true)
    (stops : ∀ x, d.next? = some x → Text.isWordChar x = false) :
    c.word = t ∧ c.skipWord = d := by
  have noFeed : '\n' ∉ t := fun feed => absurd (all '\n' feed) (by decide)
  obtain ⟨run, skip⟩ := passes.skipWhile_eq noFeed live all stops
  unfold run? at run
  refine ⟨?_, skip⟩
  rw [word, word?, run, Option.getD_some]

theorem Passes.startsWith_eq {c d : Cursor} {piece : Text} (passes : Passes c piece d)
    (noFeed : '\n' ∉ piece) (live : d.ahead ≠ []) :
    c.startsWith piece = true ∧ c.move piece.length = d := by
  obtain ⟨rest, later, ahead, rfl⟩ := passes.on_line noFeed live
  simp [startsWith, move, ahead]

theorem passes_of_startsWith {c : Cursor} {piece : Text} (starts : c.startsWith piece = true) :
    Passes c piece (c.move piece.length) ∧ (c.move piece.length).ahead ≠ [] := by
  obtain ⟨row, before, _ | ⟨line, later⟩⟩ := c
  · simp [startsWith] at starts
  · obtain ⟨rest, rfl⟩ := List.isPrefixOf_iff_prefix.mp starts
    have passes := passes_append row before piece rest later
    simp only [move, List.take_left, List.drop_left]
    exact ⟨passes, List.cons_ne_nil _ _⟩

theorem next?_skipWhile {c : Cursor} {test : Char → Bool} {x : Char}
    (next : (c.skipWhile test).next? = some x) : test x = false := by
  obtain ⟨row, before, _ | ⟨line, later⟩⟩ := c
  · simp [skipWhile, next?, rest?] at next
  · have first := List.head?_dropWhile_not test line
    have same : (line.dropWhile test).head? = some x := next
    rw [same] at first
    simpa using first

theorem live_skipWhile {c : Cursor} (live : c.ahead ≠ []) (test : Char → Bool) :
    (c.skipWhile test).ahead ≠ [] := by
  obtain ⟨row, before, _ | ⟨line, later⟩⟩ := c
  · exact absurd rfl live
  · exact List.cons_ne_nil _ _

theorem live_of_next {c : Cursor} {x : Char} (next : c.next? = some x) : c.ahead ≠ [] := by
  intro atEnd
  simp [next?, rest?, atEnd] at next

theorem passes_next {c : Cursor} {x : Char} (next : c.next? = some x) :
    Passes c [x] (c.move 1) := by
  obtain ⟨row, before, _ | ⟨_ | ⟨y, line⟩, later⟩⟩ := c
  · simp [next?, rest?] at next
  · simp [next?, rest?] at next
  · obtain rfl : y = x := by simpa [next?, rest?] using next
    exact .char (.stay _)

theorem mem_run_of_next {c : Cursor} {test : Char → Bool} {x : Char} (next : c.next? = some x)
    (passes : test x = true) : x ∈ (c.run? test).getD [] := by
  obtain ⟨row, before, _ | ⟨_ | ⟨y, line⟩, later⟩⟩ := c
  · simp [next?, rest?] at next
  · simp [next?, rest?] at next
  · obtain rfl : y = x := by simpa [next?, rest?] using next
    simp [run?, rest?, passes]

theorem rest?_of_next {c : Cursor} {x : Char} (next : c.next? = some x) :
    ∃ rest, c.rest? = some (x :: rest) := by
  obtain ⟨line, rest, head⟩ := Option.bind_eq_some_iff.mp next
  obtain ⟨tail, rfl⟩ := List.head?_eq_some_iff.mp head
  exact ⟨tail, rest⟩

/-- The run of characters that a cursor skips. -/
theorem mem_run {c : Cursor} {test : Char → Bool} {x : Char} (clean : c.Clean)
    (member : x ∈ (c.run? test).getD []) : test x = true ∧ x ≠ '\n' := by
  obtain ⟨row, before, _ | ⟨line, later⟩⟩ := c
  · simp [run?, rest?] at member
  · have inLine : x ∈ line.takeWhile test := member
    refine ⟨List.all_eq_true.mp List.all_takeWhile x inLine, ?_⟩
    rintro rfl
    exact clean line (List.mem_cons_self ..) ((List.takeWhile_prefix test).mem inLine)

end Cursor

/-! ## Delimited spans -/

theorem BracketPair.parentheses_read_iff (c d : Cursor) (text : Text) :
    parentheses.read c = .ok text d ↔
      balanced 0 text = true ∧ Passes c ('(' :: (text ++ [')'])) d ∧ d.ahead ≠ [] := by
  rw [read_run]
  constructor
  · intro run
    split at run
    · rename_i opened
      obtain ⟨start, -⟩ := passes_of_startsWith opened
      cases found : parentheses.close? 1 (c.move parentheses.opening.length).row
          (c.move parentheses.opening.length).before (c.move parentheses.opening.length).ahead with
      | none => simp [found] at run
      | some pair =>
          simp only [found, EStateM.Result.ok.injEq] at run
          obtain ⟨rfl, rfl⟩ := run
          obtain ⟨isBalanced, passes, live⟩ := (parentheses_close?_iff 0 _ _ _ _ _).mp found
          exact ⟨isBalanced, start.trans passes, live⟩
    · simp at run
  · rintro ⟨isBalanced, passes, live⟩
    obtain ⟨opened, start, inside⟩ := passes.split (t := ['('])
    have starts := start.startsWith_eq (by decide) (inside.live live)
    have opening : parentheses.opening = ['('] := rfl
    rw [opening, if_pos starts.1, starts.2]
    rw [(parentheses_close?_iff 0 _ _ _ _ _).mpr ⟨isBalanced, inside, live⟩]
    rfl

def BracketPair.Bracketed (text : Text) : Prop :=
  ∃ inside, text = "[[".toList ++ inside ++ "]]".toList ∧ '\n' ∉ text ∧
    doubleSquare.search 1 0 (inside ++ "]]".toList) = .closed inside []

theorem BracketPair.doubleSquare_search_append {text inside rest : Text}
    (found : doubleSquare.search 1 0 text = .closed inside rest) (other : Text) :
    doubleSquare.search 1 0 (inside ++ "]]".toList ++ other) = .closed inside other :=
  doubleSquare.search_append (by decide) (by decide) 1 0 text inside rest found other

theorem BracketPair.doubleSquare_read_iff (c d : Cursor) (text : Text) (clean : c.Clean) :
    doubleSquare.read c = .ok text d ↔ Bracketed text ∧ Passes c text d ∧ d.ahead ≠ [] := by
  rw [read_run]
  obtain ⟨row, before, _ | ⟨line, later⟩⟩ := c
  · constructor
    · intro run
      simp [startsWith] at run
    · rintro ⟨-, passes, live⟩
      exact absurd rfl (passes.live live)
  constructor
  · intro run
    split at run
    · rename_i opened
      obtain ⟨tail, rfl⟩ := List.isPrefixOf_iff_prefix.mp opened
      simp only [move, List.take_left, List.drop_left, close?] at run
      cases found : doubleSquare.search 1 0 tail with
      | pending depth =>
          simp only [found] at run
          simp [doubleSquare] at run
      | closed inside rest =>
          simp only [found, EStateM.Result.ok.injEq] at run
          obtain ⟨rfl, rfl⟩ := run
          have shape := doubleSquare.search_eq 1 0 tail inside rest found
          subst shape
          have whole : doubleSquare.opening ++ (inside ++ doubleSquare.closing ++ rest) =
              doubleSquare.wrap inside ++ rest := by
            simp [wrap, doubleSquare]
          have noFeed := clean _ (List.mem_cons_self ..)
          rw [whole, List.mem_append, not_or] at noFeed
          have passes := passes_append row before (doubleSquare.wrap inside) rest later
          rw [← whole] at passes
          have again := doubleSquare_search_append found []
          rw [List.append_nil] at again
          refine ⟨⟨inside, rfl, noFeed.1, again⟩, ?_, List.cons_ne_nil _ _⟩
          simpa [wrap, doubleSquare] using passes
    · simp at run
  · rintro ⟨⟨inside, rfl, noFeed, closed⟩, passes, live⟩
    obtain ⟨rest, later', ahead, rfl⟩ := passes.on_line noFeed live
    obtain ⟨rfl, rfl⟩ := List.cons.inj ahead
    have opened : (⟨row, before, ("[[".toList ++ inside ++ "]]".toList ++ rest) :: later⟩ :
        Cursor).startsWith doubleSquare.opening = true := by
      simp [startsWith, doubleSquare]
    have found := doubleSquare_search_append closed rest
    rw [if_pos opened]
    have tail : ("[[".toList ++ inside ++ "]]".toList ++ rest).drop doubleSquare.opening.length =
        inside ++ "]]".toList ++ rest := by
      simp [doubleSquare]
    simp only [move, tail, close?, found]
    simp [wrap, doubleSquare]

def Quotation.Quotable (style : Quotation) (text : Text) : Prop :=
  '\n' ∉ text ∧ style.close? [] (text ++ [style.mark]) = some (text, [])

theorem Quotation.length_spelled (style : Quotation) (text : Text) :
    text.length + 2 = (style.mark :: (text ++ [style.mark])).length := by simp

theorem Quotation.mark_ne_feed (style : Quotation) : style.mark ≠ '\n' := by
  cases style <;> decide

theorem Quotation.read_iff (style : Quotation) (c d : Cursor) (text : Text) (clean : c.Clean) :
    style.read c = .ok text d ↔
      style.Quotable text ∧ Passes c (style.mark :: (text ++ [style.mark])) d ∧ d.ahead ≠ [] := by
  obtain ⟨row, before, _ | ⟨_ | ⟨first, line⟩, later⟩⟩ := c
  · constructor
    · intro run
      simp [read, bind_run, get_run, Reading.failHere_run] at run
    · rintro ⟨-, passes, -⟩
      cases passes
  · constructor
    · intro run
      simp [read, bind_run, get_run, Reading.failHere_run] at run
    · rintro ⟨-, passes, -⟩
      have next := passes.next?_eq style.mark_ne_feed
      simp [next?, rest?] at next
  rw [read_run]
  constructor
  · intro run
    split at run
    · rename_i marked
      cases found : style.close? [] line with
      | none => simp [found] at run
      | some pair =>
          obtain ⟨inside, rest⟩ := pair
          simp only [found, EStateM.Result.ok.injEq] at run
          obtain ⟨rfl, rfl⟩ := run
          have shape := style.close?_eq [] line inside rest found
          subst shape
          have noFeed := clean _ (List.mem_cons_self ..)
          simp only [List.mem_cons, List.mem_append, not_or] at noFeed
          have passes := passes_append row before (style.mark :: (inside ++ [style.mark]))
            rest later
          have shape : first :: (inside ++ style.mark :: rest) =
              style.mark :: (inside ++ [style.mark]) ++ rest := by
            simp [marked]
          rw [shape, style.length_spelled inside, move_append]
          exact ⟨⟨noFeed.2.1, style.close?_append [] _ inside rest found []⟩, passes,
            List.cons_ne_nil _ _⟩
    · simp at run
  · rintro ⟨⟨noFeed, closed⟩, passes, live⟩
    have oneLine : '\n' ∉ style.mark :: (text ++ [style.mark]) := by
      simp [noFeed, style.mark_ne_feed.symm]
    obtain ⟨rest, later', ahead, rfl⟩ := passes.on_line oneLine live
    obtain ⟨line_eq, rfl⟩ := List.cons.inj ahead
    have found := style.close?_append [] _ text [] closed rest
    obtain ⟨rfl, rfl⟩ : first = style.mark ∧ line = text ++ style.mark :: rest := by
      simpa using line_eq
    simp only [if_true, found]
    rw [line_eq, style.length_spelled text, move_append]

/-! ## Trimmed text -/

theorem Text.exists_padding (text : Text) :
    ∃ padding, text = Text.trimEnd text ++ padding ∧ ∀ x ∈ padding, Text.isBlank x = true := by
  refine ⟨text.rtakeWhile Text.isBlank, List.rdropWhile_append_rtakeWhile.symm, ?_⟩
  intro x member
  exact List.mem_rtakeWhile_imp member

theorem Text.trimEnd_trimEnd (text : Text) : Text.trimEnd (Text.trimEnd text) = Text.trimEnd text :=
  List.rdropWhile_idempotent Text.isBlank text

/-! ## Expressions -/

namespace Expression

def spelling (expression : Expression) : Text :=
  match expression.form with
  | .literal => expression.text
  | .test => expression.text
  | .quoted style => style.mark :: (expression.text ++ [style.mark])
  | .subcommand => '$' :: '(' :: (expression.text ++ [')'])

structure Unmarked (text : Text) : Prop where
  start : ∃ x rest, text = x :: rest ∧ Text.isSpace x = false ∧ x ≠ '$'
  bare : "[[".toList.isPrefixOf text = false
  inside : ∀ x ∈ text, isCommandChar x = true ∧ x ≠ '\n'
  trimmed : Text.trimEnd text = text

/-- The texts that an expression of a form can hold in a position. -/
def Readable (position : Position) : Form → Text → Prop
  | .literal, text => position = .value ∧ text ≠ [] ∧ ∀ x ∈ text, Text.isPlainChar x = true
  | .quoted style, text => position = .value ∧ style.Quotable text
  | .subcommand, text => balanced 0 text = true ∧ text.head? ≠ some '('
  | .test, text => BracketPair.Bracketed text ∨ position = .command ∧ Unmarked text

/-- Blanks behind the spelling of an expression that belong to its span. Only command text without
brackets has such blanks. -/
def Padding (expression : Expression) (padding : Text) : Prop :=
  (∀ x ∈ padding, Text.isBlank x = true) ∧
    (padding = [] ∨ expression.form = .test ∧ "[[".toList.isPrefixOf expression.text = false)

theorem Padding.nil (expression : Expression) : expression.Padding [] :=
  ⟨fun _ member => absurd member (List.not_mem_nil), .inl rfl⟩

structure Lexed (position : Position) (expression : Expression) (c d : Cursor) : Prop where
  span : expression.span = ⟨c.location, d.location⟩
  readable : Readable position expression.form expression.text
  live : d.ahead ≠ []
  passes : ∃ padding, Passes c (expression.spelling ++ padding) d ∧ expression.Padding padding

theorem lexed_subcommand {position : Position} {c d : Cursor} {expression : Expression}
    (next : c.next? = some '$') (run : readSubcommand c.location (c.move 1) = .ok expression d) :
    Lexed position expression c d := by
  have dollar := passes_next next
  rw [readSubcommand_run] at run
  split at run
  · cases run
  · rename_i notArithmetic
    split at run
    · obtain ⟨text, d', read, last⟩ := bind_eq_ok.mp run
      cases last
      obtain ⟨isBalanced, passes, live⟩ :=
        (BracketPair.parentheses_read_iff (c.move 1) d text).mp read
      refine ⟨rfl, ⟨isBalanced, ?_⟩, live, [], ?_, .nil _⟩
      · intro opens
        obtain ⟨rest, rfl⟩ := List.head?_eq_some_iff.mp opens
        obtain ⟨e, first, second⟩ := passes.split (t := "((".toList)
        exact notArithmetic (first.startsWith_eq (by decide) (second.live live)).1
      · rw [List.append_nil]
        exact dollar.trans passes
    · cases run

theorem lexed_test {position : Position} {c d : Cursor} {expression : Expression} (clean : c.Clean)
    (run : readTest c.location c = .ok expression d) : Lexed position expression c d := by
  obtain ⟨text, d', read, last⟩ := bind_eq_ok.mp run
  cases last
  obtain ⟨bracketed, passes, live⟩ := (BracketPair.doubleSquare_read_iff c d text clean).mp read
  refine ⟨rfl, .inl bracketed, live, [], ?_, .nil _⟩
  rwa [List.append_nil]

theorem lexed_quoted {c d : Cursor} {expression : Expression} {style : Quotation} (clean : c.Clean)
    (run : readQuoted c.location style c = .ok expression d) :
    Lexed .value expression c d := by
  obtain ⟨text, d', read, last⟩ := bind_eq_ok.mp run
  cases last
  obtain ⟨quotable, passes, live⟩ := (style.read_iff c d text clean).mp read
  refine ⟨rfl, ⟨rfl, quotable⟩, live, [], ?_, .nil _⟩
  rwa [List.append_nil]

theorem lexed_literal {c d : Cursor} {expression : Expression} {x : Char} (clean : c.Clean)
    (next : c.next? = some x) (plain : Text.isPlainChar x = true)
    (run : readLiteral c.location c = .ok expression d) : Lexed .value expression c d := by
  rw [readLiteral_run] at run
  cases run
  have passes := passes_skipWhile c Text.isPlainChar
  refine ⟨rfl, ⟨rfl, ?_, fun y member => (mem_run clean member).1⟩,
    live_skipWhile (live_of_next next) _, [], ?_, .nil _⟩
  · exact List.ne_nil_of_mem (mem_run_of_next next plain)
  · rwa [List.append_nil]

theorem lexed_command {c d : Cursor} {expression : Expression} {x : Char} (clean : c.Clean)
    (next : c.next? = some x) (solid : Text.isSpace x = false) (bare : x ≠ '$')
    (unbracketed : c.startsWith "[[".toList = false)
    (run : readCommand? c.location c = .ok (some expression) d) :
    Lexed .command expression c d := by
  rw [readCommand?_run] at run
  obtain ⟨padding, whole, blank⟩ := Text.exists_padding ((c.run? isCommandChar).getD [])
  have passes := passes_skipWhile c isCommandChar
  obtain ⟨rest, line⟩ := rest?_of_next next
  have taken : (c.run? isCommandChar).getD [] = (x :: rest).takeWhile isCommandChar := by
    simp [run?, line]
  split at run
  · cases run
  · rename_i notEmpty
    cases run
    have inside := fun y (member : y ∈ (c.run? isCommandChar).getD []) => mem_run clean member
    generalize (c.run? isCommandChar).getD [] = run at *
    have within : Text.trimEnd run <+: x :: rest := by
      refine List.IsPrefix.trans ⟨padding, whole.symm⟩ ?_
      rw [taken]
      exact List.takeWhile_prefix _
    have bracketless : "[[".toList.isPrefixOf (Text.trimEnd run) = false := by
      by_contra bracketed
      have brackets := List.isPrefixOf_iff_prefix.mp (Bool.not_eq_false _ ▸ bracketed)
      rw [startsWith_eq, line, Option.any_some,
        List.isPrefixOf_iff_prefix.mpr (brackets.trans within)] at unbracketed
      cases unbracketed
    refine ⟨rfl, .inr ⟨rfl, ?_, bracketless, ?_, Text.trimEnd_trimEnd _⟩,
      live_skipWhile (live_of_next next) _, padding, ?_, blank, .inr ⟨rfl, bracketless⟩⟩
    · have nonempty : Text.trimEnd run ≠ [] := by simpa using notEmpty
      obtain ⟨y, text, shape⟩ := List.exists_cons_of_ne_nil nonempty
      rw [shape] at within
      obtain ⟨rfl, -⟩ := List.cons_prefix_cons.mp within
      exact ⟨y, text, shape, solid, bare⟩
    · intro y member
      apply inside
      rw [whole]
      exact List.mem_append_left _ member
    · show Passes c (Text.trimEnd run ++ padding) _
      rwa [← whole]

theorem lexed_value {c d : Cursor} {expression : Expression} {spaced : Bool} {first : Char}
    (clean : c.Clean) (next : c.next? = some first)
    (run : readValue? c.location spaced first c = .ok (some expression) d) :
    Lexed .value expression c d := by
  rw [readValue?_run] at run
  by_cases hash : first = '#'
  · rw [if_pos hash] at run
    split at run <;> cases run
  · rw [if_neg hash] at run
    by_cases plain : Text.isPlainChar first = true
    · rw [if_pos plain] at run
      obtain ⟨found, read, same⟩ := map_eq_ok.mp run
      cases same
      exact lexed_literal clean next plain read
    · rw [if_neg plain] at run
      cases mark : Quotation.ofMark? first with
      | none => simp [mark] at run
      | some style =>
          simp only [mark] at run
          obtain ⟨found, read, same⟩ := map_eq_ok.mp run
          cases same
          exact lexed_quoted clean read

theorem read?_lexed {position : Position} {c d : Cursor} {expression : Expression}
    (clean : c.Clean) (run : read? position c = .ok (some expression) d) :
    Lexed position expression c.skipSpaces d := by
  have clean' : c.skipSpaces.Clean := (passes_skipWhile c _).clean clean
  rw [read?_run] at run
  cases next : c.skipSpaces.next? with
  | none => simp [next] at run
  | some first =>
      have solid := next?_skipWhile next
      simp only [next] at run
      split at run
      · rename_i dollar
        obtain ⟨found, read, same⟩ := map_eq_ok.mp run
        cases same
        exact lexed_subcommand (dollar ▸ next) read
      · rename_i bare
        split at run
        · obtain ⟨found, read, same⟩ := map_eq_ok.mp run
          cases same
          exact lexed_test clean' read
        · rename_i unbracketed
          split at run
          · cases run
          · cases position with
            | command =>
                exact lexed_command clean' next solid bare (by simpa using unbracketed) run
            | value => exact lexed_value clean' next run

theorem read_lexed {position : Position} {c d : Cursor} {expression : Expression}
    (clean : c.Clean) (run : read position c = .ok expression d) :
    Lexed position expression c.skipSpaces d := by
  rw [read_run] at run
  rcases found : read? position c with ⟨_ | other, e⟩ | ⟨diagnostic, e⟩
  · simp [found] at run
  · simp only [found, EStateM.Result.ok.injEq] at run
    obtain ⟨rfl, rfl⟩ := run
    exact read?_lexed clean found
  · simp [found] at run

/-! ## From the text back to the expression -/

def Position.Stops : Position → Option Char → Prop
  | .value, next => ∀ x, next = some x → Text.isPlainChar x = false
  | .command, next => next = some ';'

def moved (expression : Expression) (c d : Cursor) : Expression :=
  ⟨⟨c.location, d.location⟩, expression.form, expression.text⟩

theorem readSubcommand_of_passes {c d : Cursor} {text : Text} (isBalanced : balanced 0 text = true)
    (single : text.head? ≠ some '(') (passes : Passes c ('(' :: (text ++ [')'])) d)
    (live : d.ahead ≠ []) (start : Location) :
    readSubcommand start c = .ok ⟨⟨start, d.location⟩, .subcommand, text⟩ d := by
  have read := (BracketPair.parentheses_read_iff c d text).mpr ⟨isBalanced, passes, live⟩
  obtain ⟨e, opening, inside⟩ := passes.split (t := "(".toList)
  have opened := opening.startsWith_eq (by decide) (inside.live live)
  have notArithmetic : ¬ c.startsWith "((".toList = true := by
    intro double
    obtain ⟨rest, later, ahead, rfl⟩ := opening.on_line (by decide) (inside.live live)
    cases rest with
    | nil => simp [startsWith, ahead] at double
    | cons y rest =>
        obtain rfl : '(' = y := by simpa [startsWith, ahead] using double
        cases text with
        | nil => cases inside
        | cons z text =>
            cases inside
            exact single rfl
  rw [readSubcommand_run, if_neg notArithmetic, if_pos opened.1, bind_run, read]
  rfl

theorem readLiteral_of_passes {c d : Cursor} {text : Text}
    (plain : ∀ x ∈ text, Text.isPlainChar x = true) (passes : Passes c text d)
    (live : d.ahead ≠ []) (stops : ∀ x, d.next? = some x → Text.isPlainChar x = false)
    (start : Location) :
    readLiteral start c = .ok ⟨⟨start, d.location⟩, .literal, text⟩ d := by
  have noFeed : '\n' ∉ text := fun feed => absurd (plain '\n' feed) (by decide)
  obtain ⟨run, skip⟩ := passes.skipWhile_eq noFeed live plain stops
  rw [readLiteral_run, run, skip]
  rfl

theorem readCommand?_of_passes {c d : Cursor} {text : Text} (unmarked : Unmarked text)
    (passes : Passes c text d) (live : d.ahead ≠ []) (stops : d.next? = some ';')
    (start : Location) :
    readCommand? start c = .ok (some ⟨⟨start, d.location⟩, .test, text⟩) d := by
  obtain ⟨x, rest, shape, -⟩ := unmarked.start
  have noFeed : '\n' ∉ text := fun feed => (unmarked.inside '\n' feed).2 rfl
  have ends : ∀ y, d.next? = some y → isCommandChar y = false := by
    intro y next
    obtain rfl : ';' = y := by simpa [stops] using next
    rfl
  obtain ⟨run, skip⟩ :=
    passes.skipWhile_eq noFeed live (fun y member => (unmarked.inside y member).1) ends
  have notEmpty : ¬ List.isEmpty text = true := by simp [shape]
  rw [readCommand?_run, run, skip, Option.getD_some, unmarked.trimmed, if_neg notEmpty]
  rfl

theorem not_startsWith_brackets {c : Cursor} {x : Char} (next : c.next? = some x)
    (other : x ≠ '[') :
    ¬ c.startsWith "[[".toList = true := by
  intro starts
  have brackets := (passes_of_startsWith starts).1.next?_eq (by decide)
  rw [next] at brackets
  exact other (Option.some.inj brackets)

theorem not_startsWith_of_unmarked {c d : Cursor} {text : Text} (unmarked : Unmarked text)
    (passes : Passes c text d) (live : d.ahead ≠ []) (stops : d.next? = some ';') :
    ¬ c.startsWith "[[".toList = true := by
  have noFeed : '\n' ∉ text := fun feed => (unmarked.inside '\n' feed).2 rfl
  obtain ⟨rest, later, ahead, rfl⟩ := passes.on_line noFeed live
  obtain ⟨tail, rfl⟩ := List.head?_eq_some_iff.mp stops
  have bare := unmarked.bare
  intro starts
  rw [startsWith, ahead] at starts
  obtain ⟨x, others, rfl, -⟩ := unmarked.start
  cases others with
  | nil => simp at starts
  | cons y text =>
      have window : "[[".toList.isPrefixOf (x :: y :: text ++ ';' :: tail) = _ :=
        isPrefixOf_append (by simp) _
      rw [bare] at window
      simp only [window] at starts
      cases starts

/-- The text of an expression, read where it stands, gives the expression. -/
theorem read?_of_passes {position : Position} {c d : Cursor} {expression : Expression}
    (readable : Readable position expression.form expression.text) (clean : c.Clean)
    (passes : Passes c.skipSpaces expression.spelling d) (live : d.ahead ≠ [])
    (stops : position.Stops d.next?) :
    read? position c = .ok (some (expression.moved c.skipSpaces d)) d := by
  have clean' : c.skipSpaces.Clean := (passes_skipWhile c _).clean clean
  rw [read?_run]
  obtain ⟨span, form, text⟩ := expression
  cases form with
  | literal =>
      obtain ⟨rfl, nonempty, plain⟩ := readable
      have read := readLiteral_of_passes plain passes live stops c.skipSpaces.location
      obtain ⟨x, rest, rfl⟩ := List.exists_cons_of_ne_nil nonempty
      have plain' := plain x (List.mem_cons_self ..)
      have differs : ∀ y, Text.isPlainChar y = false → x ≠ y := by
        rintro y solid rfl
        rw [plain'] at solid
        cases solid
      have next := passes.next?_eq (differs _ (by decide))
      simp only [next]
      rw [if_neg (differs _ (by decide)),
        if_neg (not_startsWith_brackets next (differs _ (by decide))),
        if_neg (differs _ (by decide)), readValue?_run, if_neg (differs _ (by decide)),
        if_pos plain', map_run, read]
      rfl
  | quoted style =>
      obtain ⟨rfl, quotable⟩ := readable
      have read := (style.read_iff _ d text clean').mpr ⟨quotable, passes, live⟩
      have next := passes.next?_eq style.mark_ne_feed
      have known : Quotation.ofMark? style.mark = some style := by cases style <;> rfl
      have differs : ∀ y, Quotation.ofMark? y = none → style.mark ≠ y := by
        rintro y unknown rfl
        rw [known] at unknown
        cases unknown
      have notPlain : ¬ Text.isPlainChar style.mark = true := by cases style <;> decide
      simp only [next]
      rw [if_neg (differs _ rfl), if_neg (not_startsWith_brackets next (differs _ rfl)),
        if_neg (differs _ rfl), readValue?_run, if_neg (differs _ rfl), if_neg notPlain, known]
      simp only [map_run, readQuoted, bind_run, read]
      rfl
  | subcommand =>
      obtain ⟨isBalanced, single⟩ := readable
      obtain ⟨e, dollar, rest⟩ := passes.split (t := ['$'])
      have opened := dollar.startsWith_eq (by decide) (rest.live live)
      have next := dollar.next?_eq (by decide)
      have read := readSubcommand_of_passes isBalanced single rest live c.skipSpaces.location
      simp only [next, if_true]
      rw [show c.skipSpaces.move 1 = e from opened.2, map_run, read]
      rfl
  | test =>
      rcases readable with bracketed | ⟨rfl, unmarked⟩
      · have read := (BracketPair.doubleSquare_read_iff _ d text clean').mpr
            ⟨bracketed, passes, live⟩
        obtain ⟨inside, rfl, noFeed, -⟩ := bracketed
        have passes' : Passes c.skipSpaces ("[[".toList ++ (inside ++ "]]".toList)) d := passes
        obtain ⟨e, opening, rest⟩ := passes'.split
        have opened := opening.startsWith_eq (by decide) (rest.live live)
        have next := opening.next?_eq (by decide)
        simp only [next]
        rw [if_neg (by decide), if_pos opened.1]
        simp only [map_run, readTest, bind_run, read]
        rfl
      · have read := readCommand?_of_passes unmarked passes live stops c.skipSpaces.location
        have unbracketed := not_startsWith_of_unmarked unmarked passes live stops
        obtain ⟨x, rest, rfl, solid, bare⟩ := unmarked.start
        have inside := unmarked.inside x (List.mem_cons_self ..)
        have notEnd : x ≠ ';' := by
          rintro rfl
          exact absurd inside.1 (by decide)
        have next := passes.next?_eq inside.2
        simp only [next]
        rw [if_neg bare, if_neg unbracketed, if_neg notEnd, read]
        rfl

end Expression

end ShellLift
