import ShellLift.Proofs.Derivation
import ShellLift.Proofs.Heads

/-!
# The text of a script is the text of its statements

A script that is read is, character by character, the concrete form of its statements with idle
text in the gaps: blanks, line ends, comments, and a semicolon behind a statement. The spans say
where each part stands, and no part of the script is left out or used twice.

`Statement.Written` and `sequenceWritten` say what the concrete form is, on texts and locations
only. They follow the statements and know nothing of cursors or rules.
-/

set_option autoImplicit false

namespace ShellLift

open Step Cursor

/-! ## Places in a text -/

def Location.past (location : Location) : Text → Location
  | [] => location
  | x :: rest =>
    past (if x = '\n' then ⟨location.line + 1, 0⟩
      else ⟨location.line, location.offset + x.utf8Size⟩) rest

theorem Location.past_append (location : Location) (left right : Text) :
    location.past (left ++ right) = (location.past left).past right := by
  induction left generalizing location with
  | nil => rfl
  | cons x left ih => exact ih _

theorem Text.byteSize_append (left right : Text) :
    byteSize (left ++ right) = byteSize left + byteSize right := by
  induction left with
  | nil => simp [byteSize]
  | cons x left ih =>
      simp only [List.cons_append, byteSize, ih]
      omega

theorem Cursor.Passes.location_eq {c d : Cursor} {t : Text} (passes : Passes c t d)
    (clean : c.Clean) (live : d.ahead ≠ []) : d.location = c.location.past t := by
  induction passes with
  | stay c => rfl
  | @char row before line t x later d tail ih =>
      have noFeed : x ≠ '\n' := by
        rintro rfl
        exact clean _ (List.mem_cons_self ..) (List.mem_cons_self ..)
      have clean' := (Passes.char (.stay ⟨row, before ++ [x], line :: later⟩)).clean clean
      rw [ih clean' live, Location.past, if_neg noFeed]
      simp only [location, Text.byteSize_append, Text.byteSize, Nat.add_zero]
  | @line row before next t later d tail ih =>
      have clean' := (Passes.line (.stay ⟨row + 1, [], next :: later⟩)).clean clean
      rw [ih clean' live, Location.past, if_pos rfl]
      rfl
  | last => exact absurd rfl live

/-! ## Gaps -/

namespace Text

def Spaces (text : Text) : Prop := ∀ x ∈ text, isSpace x = true ∧ x ≠ '\n'

def EndsLine (rest : Text) : Prop := ∀ x, rest.head? = some x → x = '\n'

/-- Text without a statement, in front of a rest: blanks, line ends, and comments that go on to the
end of their line. -/
inductive Idle : Text → Text → Prop
  | nil (rest : Text) : Idle [] rest
  | blank {x : Char} {text rest : Text} : isSpace x = true → Idle text rest → Idle (x :: text) rest
  | comment {body text rest : Text} : '\n' ∉ body → EndsLine (text ++ rest) → Idle text rest →
      Idle ('#' :: (body ++ text)) rest

/-- What stands behind a statement, in front of a rest: one semicolon, or idle text with a line end
or up to the end of the script. No comment comes right behind the statement. -/
inductive Separates : Text → Text → Prop
  | semicolon {spaces text rest : Text} : Spaces spaces → Idle text rest →
      Separates (spaces ++ ';' :: text) rest
  | line {text rest : Text} : Idle text rest → text.head? ≠ some '#' → '\n' ∈ text ∨ rest = [] →
      Separates text rest

end Text

/-! ## The concrete form of statements -/

/-- The span of the expression covers its spelling, and nothing but blanks behind it. -/
def Expression.Written (start : Location) (expression : Expression) (text : Text) : Prop :=
  expression.span = ⟨start, start.past text⟩ ∧
    ∃ padding, text = expression.spelling ++ padding ∧ expression.Padding padding

def argumentsWritten (start : Location) : List Expression → Text → Prop
  | [], text => text = []
  | argument :: arguments, text =>
    ∃ spaces first others, text = spaces ++ first ++ others ∧ Text.Spaces spaces ∧
      argument.Written (start.past spaces) first ∧
      argumentsWritten (start.past (spaces ++ first)) arguments others

/-- The keyword of an assignment with the blanks behind it; nothing without a keyword. -/
def keywordWritten : Option Binder → Text → Prop
  | none, text => text = []
  | some kind, text => ∃ spaces, text = kind.keyword ++ spaces ∧ Text.Spaces spaces ∧ spaces ≠ []

def conditionWritten (start : Location) (condition : Expression) (text : Text) : Prop :=
  ∃ spaces test blanks idle,
    text = "if".toList ++ spaces ++ test ++ blanks ++ ";".toList ++ idle ++ "then".toList ∧
      Text.Spaces spaces ∧ condition.Written (start.past ("if".toList ++ spaces)) test ∧
      Text.Spaces blanks ∧ Text.Idle idle "then".toList

def signatureWritten (name text : Text) : Prop :=
  ∃ spaces blanks parameters idle,
    text = "function".toList ++ spaces ++ name ++ blanks ++ "(".toList ++ parameters ++
      ")".toList ++ idle ++ "\x7b".toList ∧
      Text.Spaces spaces ∧ Text.Spaces blanks ∧ Text.Spaces parameters ∧
      Text.Idle idle "\x7b".toList

mutual

/-- The text from a location on is the concrete form of the statement, and all spans are right. An
export without a value has the blanks behind its name in its span. -/
def Statement.Written (start : Location) : Statement → Text → Prop
  | .assignment span kind target value, text =>
    span = ⟨start, start.past text⟩ ∧ Text.isWord target = true ∧
      ∃ front blanks, keywordWritten kind front ∧ Text.Spaces blanks ∧
        match value with
        | none => kind = some .exported ∧ text = front ++ target ++ blanks
        | some expression => ∃ last, text = front ++ target ++ blanks ++ "=".toList ++ last ∧
            expression.Written (start.past (front ++ target ++ blanks ++ "=".toList)) last
  | .conditional span condition body, text =>
    span = ⟨start, start.past text⟩ ∧
      ∃ head inside, text = head ++ inside ++ "fi".toList ∧ conditionWritten start condition head ∧
        sequenceWritten "fi".toList Text.Idle (start.past head) body inside
  | .function span name body, text =>
    span = ⟨start, start.past text⟩ ∧ Text.isWord name = true ∧
      ∃ head inside, text = head ++ inside ++ "\x7d".toList ∧ signatureWritten name head ∧
        sequenceWritten "\x7d".toList Text.Idle (start.past head) body inside
  | .invocation span name arguments _, text =>
    span = ⟨start, start.past text⟩ ∧ Text.isWord name = true ∧
      ∃ others, text = name ++ others ∧ argumentsWritten (start.past name) arguments others

/-- The text between a location and a closing token is the concrete form of the statements, with a
gap of the given kind in front and a separator behind each of them. -/
def sequenceWritten (closing : Text) (gap : Text → Text → Prop) (start : Location) :
    List Statement → Text → Prop
  | [], text => gap text closing
  | statement :: statements, text =>
    ∃ front first others, text = front ++ first ++ others ∧ gap front (first ++ others ++ closing) ∧
      statement.Written (start.past front) first ∧
      sequenceWritten closing Text.Separates (start.past (front ++ first)) statements others

end

/-! ## Gaps of a script -/

namespace Text

theorem Spaces.idle {spaces text rest : Text} (blank : Spaces spaces) (idle : Idle text rest) :
    Idle (spaces ++ text) rest := by
  induction spaces with
  | nil => exact idle
  | cons x spaces ih =>
      have first := blank x (List.mem_cons_self ..)
      exact .blank first.1 (ih fun y member => blank y (List.mem_cons_of_mem _ member))

theorem EndsLine.congr {rest rest' : Text} (ends : EndsLine rest)
    (same : rest.head? = rest'.head?) : EndsLine rest' :=
  fun x first => ends x (same.trans first)

theorem head?_append_congr {rest rest' : Text} (same : rest.head? = rest'.head?) (text : Text) :
    (text ++ rest).head? = (text ++ rest').head? := by
  cases text with
  | nil => exact same
  | cons x text => rfl

/-- Only the first character behind a gap matters to it. -/
theorem Idle.congr {text rest rest' : Text} (idle : Idle text rest)
    (same : rest.head? = rest'.head?) : Idle text rest' := by
  induction idle with
  | nil rest => exact .nil rest'
  | blank space _ ih => exact .blank space (ih same)
  | comment noFeed ends _ ih =>
      exact .comment noFeed (ends.congr (head?_append_congr same _)) (ih same)

theorem Separates.congr {text rest rest' : Text} (separates : Separates text rest)
    (same : rest.head? = rest'.head?) : Separates text rest' := by
  cases separates with
  | semicolon spaces idle => exact .semicolon spaces (idle.congr same)
  | line idle spaced ends =>
      refine .line (idle.congr same) spaced (ends.imp_right ?_)
      rintro rfl
      exact List.head?_eq_none_iff.mp same.symm

/-- A line of blanks and a comment is idle when nothing more comes on it. -/
theorem idle_line {line text rest : Text} (isIdle : Cursor.isIdle line = true)
    (noFeed : '\n' ∉ line) (ends : EndsLine (text ++ rest)) (idle : Idle text rest) :
    Idle (line ++ text) rest := by
  have spaces : Spaces (line.takeWhile isSpace) := by
    intro x member
    refine ⟨List.all_eq_true.mp List.all_takeWhile x member, ?_⟩
    rintro rfl
    exact noFeed ((List.takeWhile_prefix isSpace).mem member)
  rw [← List.takeWhile_append_dropWhile (p := isSpace) (l := line), List.append_assoc]
  apply spaces.idle
  unfold Cursor.isIdle at isIdle
  cases shape : line.dropWhile isSpace with
  | nil => exact idle
  | cons x body =>
      obtain rfl : x = '#' := by simpa [shape] using isIdle
      have noFeed' : '\n' ∉ body := by
        intro feed
        have member : '\n' ∈ line.dropWhile isSpace := by
          rw [shape]
          exact List.mem_cons_of_mem _ feed
        exact noFeed ((List.dropWhile_suffix isSpace).mem member)
      exact .comment noFeed' ends idle

end Text

namespace Cursor

theorem text_of_atEnd {c : Cursor} (atEnd : c.ahead = []) : c.text = [] := by
  rw [text, atEnd]
  rfl

theorem skipSpaces_skipIdle (c : Cursor) : c.skipIdle.skipSpaces = c.skipIdle := by
  rcases c.skipIdle_atEnd_or with atEnd | ⟨x, next, solid, -⟩
  · rw [skipSpaces, skipWhile, atEnd]
  · exact skipSpaces_of_next next solid

theorem passes_skipSpaces {c : Cursor} (clean : c.Clean) :
    ∃ spaces, Passes c spaces c.skipSpaces ∧ Text.Spaces spaces :=
  ⟨_, passes_skipWhile c _, fun _ member => mem_run clean member⟩

/-- What a cursor skips in front of a statement is idle text, and a cursor at the end of its line
begins with that line end. -/
theorem passes_skipIdle (c : Cursor) (clean : c.Clean) :
    ∃ idle, Passes c idle c.skipIdle ∧ Text.Idle idle c.skipIdle.text ∧
      (c.next? = none → c.ahead ≠ [] → (∃ rest, idle = '\n' :: rest) ∨
        idle = [] ∧ c.skipIdle.ahead = []) := by
  obtain ⟨row, before, ahead⟩ := c
  unfold skipIdle
  dsimp only
  induction ahead generalizing row before with
  | nil => exact ⟨[], .stay _, .nil _, fun _ live => absurd rfl live⟩
  | cons line later ih =>
      have noFeed := clean line (List.mem_cons_self ..)
      have across := passes_append row before line [] later
      rw [List.append_nil] at across
      rw [skipIdleFrom]
      by_cases idle : isIdle line = true
      · rw [if_pos idle]
        have first : (⟨row, before, line :: later⟩ : Cursor).next? = none → line = [] := by
          intro none
          exact List.head?_eq_none_iff.mp none
        cases later with
        | nil =>
            have whole := across.trans .last
            rw [List.append_nil] at whole
            have rest : Text.EndsLine ([] ++ []) := by
              intro x none
              cases none
            have blank := Text.idle_line idle noFeed rest (.nil [])
            rw [List.append_nil] at blank
            exact ⟨line, whole, blank, fun none _ => .inr ⟨first none, rfl⟩⟩
        | cons next later =>
            obtain ⟨more, passes, blank, -⟩ := ih (row + 1) []
              fun other member => clean other (List.mem_cons_of_mem _ member)
            refine ⟨line ++ '\n' :: more, across.trans (.line passes), ?_, fun none _ => .inl ?_⟩
            · refine Text.idle_line idle noFeed ?_ (.blank (by decide) blank)
              intro x feed
              simpa using feed.symm
            · exact ⟨more, by rw [first none, List.nil_append]⟩
      · rw [if_neg idle]
        obtain ⟨spaces, passes, blank⟩ := passes_skipSpaces clean
        have spaced := blank.idle (.nil (text ⟨row, before ++ line.takeWhile Text.isSpace,
          line.dropWhile Text.isSpace :: later⟩))
        rw [List.append_nil] at spaced
        refine ⟨spaces, passes, spaced, fun none _ => ?_⟩
        obtain rfl : line = [] := List.head?_eq_none_iff.mp none
        exact absurd rfl idle

end Cursor

/-! ## The end of a statement -/

namespace Statement

/-- A statement ends at the first position, and the second is where the search for the next one
begins: behind a semicolon, or at the end of the line behind blanks and a comment. -/
def Ended (c e : Cursor) : Prop :=
  e.ahead ≠ [] ∧ ∃ tail, Passes c tail e ∧
    ((∃ spaces, Text.Spaces spaces ∧ tail = spaces ++ [';']) ∨
      e.next? = none ∧ ∃ spaces comment, Text.Spaces spaces ∧ tail = spaces ++ comment ∧
        (comment = [] ∨ spaces ≠ [] ∧ ∃ body, comment = '#' :: body ∧ '\n' ∉ body))

theorem ended_of_comment {c : Cursor} (clean : c.Clean) (spaced : c.atSpace = true)
    (hash : c.skipSpaces.next? = some '#') : Ended c c.skipSpaces.skipLineRest := by
  obtain ⟨x, next, space⟩ := (Option.any_eq_true _ _).mp spaced
  have clean' : c.skipSpaces.Clean := (passes_skipWhile c _).clean clean
  obtain ⟨rest, line⟩ := rest?_of_next hash
  have comment : (c.skipSpaces.run? fun _ => true).getD [] =
      '#' :: rest.takeWhile fun _ => true := by
    simp [run?, line]
  have across := passes_skipWhile c.skipSpaces fun _ => true
  rw [comment] at across
  refine ⟨live_skipWhile (live_of_next hash) _, _, (passes_skipWhile c _).trans across, .inr ?_⟩
  refine ⟨?_, _, _, fun y member => mem_run clean member, rfl, .inr ⟨?_, _, rfl, ?_⟩⟩
  · cases last : c.skipSpaces.skipLineRest.next? with
    | none => rfl
    | some y => cases next?_skipWhile last
  · exact List.ne_nil_of_mem (mem_run_of_next next space)
  · intro feed
    have member : '\n' ∈ (c.skipSpaces.run? fun _ => true).getD [] := by
      rw [comment]
      exact List.mem_cons_of_mem _ feed
    exact (mem_run clean' member).2 rfl

theorem ended_of_readTerminator {kind : Kind} {c e : Cursor} (clean : c.Clean)
    (live : c.ahead ≠ []) (stop : readTerminator kind c = .ok () e) : Ended c e := by
  obtain ⟨spaces, passes, blank⟩ := passes_skipSpaces clean
  rcases readTerminator_eq_ok.mp stop with ⟨spaced, hash, rfl⟩ | ⟨semicolon, rfl⟩ | ⟨lineEnd, rfl⟩
  · exact ended_of_comment clean spaced hash
  · obtain ⟨mark, live'⟩ := passes_of_startsWith semicolon
    exact ⟨live', spaces ++ [';'], passes.trans mark, .inl ⟨spaces, blank, rfl⟩⟩
  · refine ⟨live_skipWhile live _, spaces, passes, .inr ⟨lineEnd, spaces, [], blank, ?_, .inl rfl⟩⟩
    rw [List.append_nil]

/-- The gap behind a statement separates it from what comes next. -/
theorem Ended.separates {c e : Cursor} (ended : Ended c e) (clean : c.Clean) :
    ∃ gap, Passes c gap e.skipIdle ∧ Text.Separates gap e.skipIdle.text := by
  obtain ⟨live, tail, passes, shape⟩ := ended
  obtain ⟨idle, across, blank, first⟩ := passes_skipIdle e (passes.clean clean)
  refine ⟨tail ++ idle, passes.trans across, ?_⟩
  rcases shape with ⟨spaces, isSpaces, rfl⟩ | ⟨lineEnd, spaces, comment, isSpaces, rfl, shape⟩
  · have separates := Text.Separates.semicolon isSpaces blank
    simpa using separates
  · have start := first lineEnd live
    have ends : Text.EndsLine (idle ++ e.skipIdle.text) := by
      rcases start with ⟨rest, rfl⟩ | ⟨rfl, atEnd⟩
      · intro x feed
        simpa using feed.symm
      · rw [text_of_atEnd atEnd]
        exact fun x none => nomatch none
    have feeds : '\n' ∈ spaces ++ comment ++ idle ∨ e.skipIdle.text = [] := by
      rcases start with ⟨rest, rfl⟩ | ⟨rfl, atEnd⟩
      · exact .inl (List.mem_append_right _ (List.mem_cons_self ..))
      · exact .inr (text_of_atEnd atEnd)
    rw [List.append_assoc] at feeds ⊢
    refine .line (isSpaces.idle ?_) ?_ feeds
    · rcases shape with rfl | ⟨-, body, rfl, noFeed⟩
      · exact blank
      · exact .comment noFeed ends blank
    · cases spaces with
      | nil =>
          rcases shape with rfl | ⟨nonempty, -⟩
          · intro hash
            obtain ⟨rest, rfl⟩ := List.head?_eq_some_iff.mp hash
            cases ends '#' rfl
          · exact absurd rfl nonempty
      | cons x spaces =>
          intro hash
          obtain rfl : x = '#' := Option.some.inj hash
          exact absurd (isSpaces '#' (List.mem_cons_self ..)).1 (by decide)

end Statement

/-! ## Statements without a body -/

theorem Expression.Lexed.written {position : Position} {expression : Expression} {c d : Cursor}
    (lexed : Lexed position expression c d) (clean : c.Clean) :
    ∃ text, Passes c text d ∧ expression.Written c.location text := by
  obtain ⟨padding, passes, isPadding⟩ := lexed.passes
  refine ⟨_, passes, ?_, padding, rfl, isPadding⟩
  rw [lexed.span, passes.location_eq clean lexed.live]

namespace Statement

/-- The keyword of an assignment leads to its target. -/
theorem keyword_written {kind : Option Binder} {c : Cursor} (clean : c.Clean)
    (keyword : ∀ binder, kind = some binder → c.word = binder.keyword)
    (target : (targetStart kind c).word ≠ []) :
    ∃ front, Passes c front (targetStart kind c) ∧ keywordWritten kind front := by
  cases kind with
  | none => exact ⟨[], .stay c, rfl⟩
  | some binder =>
      have first := passes_word c
      obtain ⟨spaces, across, blank⟩ := passes_skipSpaces (first.clean clean)
      refine ⟨c.word ++ spaces, first.trans across, spaces, ?_, blank, ?_⟩
      · rw [keyword binder rfl]
      · -- Without a blank the target would be a part of the keyword.
        rintro rfl
        obtain ⟨x, next, isWord⟩ := exists_next_of_word target
        have same : c.skipWord.skipSpaces = c.skipWord := across.eq_of_nil (live_of_next next)
        have next' : c.skipWord.next? = some x := by
          rw [← same]
          exact next
        rw [next?_skipWhile next'] at isWord
        cases isWord

theorem written_of_readAssignment {kind : Option Binder} {statement : Statement} {c d : Cursor}
    (clean : c.Clean) (keyword : ∀ binder, kind = some binder → c.word = binder.keyword)
    (run : readAssignment kind c = .ok statement d) :
    ∃ text, Passes c text d ∧ d.ahead ≠ [] ∧ statement.Written c.location text := by
  obtain ⟨target, value, read, rfl⟩ := readAssignment_eq_ok.mp run
  obtain ⟨front, start, isFront⟩ := keyword_written clean keyword target
  have clean₁ := start.clean clean
  have clean₂ := (passes_word _).clean clean₁
  obtain ⟨blanks, across, isBlanks⟩ := passes_skipSpaces clean₂
  have live : (targetStart kind c).skipWord.skipSpaces.ahead ≠ [] :=
    live_skipWhile (live_skipWhile (live_of_word target) _) _
  have head := (start.trans (passes_word _)).trans across
  cases value with
  | none =>
      obtain ⟨-, exported, rfl⟩ := readAssigned_eq_ok.mp read
      refine ⟨_, head, live, ?_, isWord_word target, front, blanks,
        isFront, isBlanks, exported, rfl⟩
      rw [head.location_eq clean live]
  | some expression =>
      obtain ⟨equals, notBlank, value⟩ := readAssigned_eq_ok.mp read
      generalize (targetStart kind c).skipWord.skipSpaces = e at *
      have mark : Passes e "=".toList (e.move 1) := (passes_of_startsWith equals).1
      have live' : (e.move 1).ahead ≠ [] := (passes_of_startsWith equals).2
      have head' := head.trans mark
      have lexed := Expression.read_lexed (head'.clean clean) value
      rw [skipSpaces_of_not_blank notBlank] at lexed
      obtain ⟨last, passes, written⟩ := lexed.written (head'.clean clean)
      have whole := head'.trans passes
      rw [head'.location_eq clean live'] at written
      refine ⟨_, whole, lexed.live, ?_, isWord_word target, front, blanks, isFront, isBlanks, last,
        rfl, written⟩
      rw [whole.location_eq clean lexed.live]

theorem written_of_arguments {c stop d : Cursor} {arguments : List Expression}
    (shape : Arguments c arguments stop d) (clean : c.Clean) (live : c.ahead ≠ []) :
    ∃ text, Passes c text stop ∧ stop.ahead ≠ [] ∧ argumentsWritten c.location arguments text ∧
      Expression.read? .value stop = .ok none d := by
  induction shape with
  | @nil c d none => exact ⟨[], .stay c, live, rfl, none⟩
  | @cons c d stop last argument arguments found ends _ ih =>
      have lexed := Expression.read?_lexed clean found
      obtain ⟨spaces, across, blank⟩ := passes_skipSpaces clean
      obtain ⟨first, passes, written⟩ := lexed.written (across.clean clean)
      have head := across.trans passes
      obtain ⟨others, tail, live', written', none⟩ := ih (head.clean clean) lexed.live
      rw [head.location_eq clean lexed.live] at written'
      rw [across.location_eq clean (live_skipWhile live _)] at written
      exact ⟨spaces ++ first ++ others, head.trans tail, live',
        ⟨spaces, first, others, rfl, blank, written, written'⟩, none⟩

theorem written_of_readInvocation {kind : Callee} {n : Nat} {statement : Statement} {c d : Cursor}
    (clean : c.Clean) (word : c.word ≠ [])
    (run : readInvocation kind n c = .ok statement d) :
    ∃ text stop, Passes c text stop ∧ stop.ahead ≠ [] ∧ statement.Written c.location text ∧
      Expression.read? .value stop = .ok none d := by
  obtain ⟨arguments, stop, shape, rfl⟩ := arguments_of_readInvocation run
  have first := passes_word c
  have live : c.skipWord.ahead ≠ [] := live_skipWhile (live_of_word word) _
  obtain ⟨others, tail, live', written, none⟩ :=
    written_of_arguments shape (first.clean clean) live
  have whole := first.trans tail
  rw [first.location_eq clean live] at written
  refine ⟨_, stop, whole, live', ⟨?_, isWord_word word, others, rfl, written⟩, none⟩
  rw [shape.span (first.clean clean), whole.location_eq clean live']

end Statement

/-- A statement without a body is written from its first word on, and the terminator that was read
stands right behind it. -/
theorem Parser.Simple.written {rules : RuleTable} {c d e : Cursor} {statement : Statement}
    (simple : Simple rules c statement d) (clean : c.Clean) (word : c.word ≠ [])
    (keyed : rules.Keyed) (stop : Statement.readTerminator statement.kind d = .ok () e) :
    ∃ text last, Passes c text last ∧ last.ahead ≠ [] ∧ statement.Written c.location text ∧
      Statement.readTerminator statement.kind last = .ok () e := by
  cases simple with
  | @assignment kind _ _ known _ run =>
      have keyword : ∀ binder, kind = some binder → c.word = binder.keyword := by
        rintro binder rfl
        exact keyed.eq_keyword known
      obtain ⟨text, passes, live, written⟩ :=
        Statement.written_of_readAssignment clean keyword run
      exact ⟨text, d, passes, live, written, stop⟩
  | invocation _ run =>
      obtain ⟨text, last, passes, live, written, none⟩ :=
        Statement.written_of_readInvocation clean word run
      exact ⟨text, last, passes, live, written, Statement.readTerminator_of_read? none stop⟩

/-! ## Heads of statements with a body -/

namespace Statement

theorem written_of_readCondition {c d : Cursor} {condition : Expression} (clean : c.Clean)
    (word : c.word ≠ []) (run : readCondition c = .ok condition d) :
    ∃ text, Passes c text d ∧ d.ahead ≠ [] ∧ conditionWritten c.location condition text := by
  obtain ⟨keyword, e, read, semicolon, keyword', rfl⟩ := readCondition_eq_ok.mp run
  rw [skipSpaces_of_word word] at keyword read
  rw [skipSpaces_skipIdle] at keyword' ⊢
  have first := passes_word c
  rw [keyword] at first
  have clean₁ := first.clean clean
  obtain ⟨spaces, across, isSpaces⟩ := passes_skipSpaces clean₁
  have opened := first.trans across
  have live₁ : c.skipWord.skipSpaces.ahead ≠ [] :=
    live_skipWhile (live_skipWhile (live_of_word word) _) _
  have lexed := Expression.read_lexed clean₁ read
  obtain ⟨test, tested, written⟩ := lexed.written (opened.clean clean)
  rw [opened.location_eq clean live₁] at written
  have clean₂ := tested.clean (opened.clean clean)
  obtain ⟨blanks, passed, isBlanks⟩ := passes_skipSpaces clean₂
  have mark : Passes e.skipSpaces ";".toList (e.skipSpaces.move 1) :=
    (passes_of_startsWith semicolon).1
  obtain ⟨idle, skipped, isIdle, -⟩ :=
    passes_skipIdle (e.skipSpaces.move 1) (mark.clean (passed.clean clean₂))
  have last := passes_word (e.skipSpaces.move 1).skipIdle
  have rest := last.text_eq
  rw [keyword'] at last rest
  rw [rest] at isIdle
  have word' : (e.skipSpaces.move 1).skipIdle.word ≠ [] := by
    rw [keyword']
    decide
  refine ⟨_, ((((opened.trans tested).trans passed).trans mark).trans skipped).trans last,
    live_skipWhile (live_of_word word') _, spaces, test, blanks, idle, rfl, isSpaces, written,
    isBlanks, isIdle.congr rfl⟩

theorem emptyParameters_eq {line : Text} (parameters : emptyParametersLength line ≠ 0) :
    ∃ blanks rest, line = "(".toList ++ blanks ++ ")".toList ++ rest ∧
      (∀ x ∈ blanks, Text.isSpace x = true) ∧
      emptyParametersLength line = ("(".toList ++ blanks ++ ")".toList).length := by
  unfold emptyParametersLength at parameters ⊢
  split at parameters
  · rename_i inside
    split at parameters
    · rename_i rest closes
      refine ⟨inside.takeWhile Text.isSpace, rest, ?_, ?_, by simp⟩
      · have shape := List.takeWhile_append_dropWhile (p := Text.isSpace) (l := inside)
        rw [closes] at shape
        simpa using shape.symm
      · exact fun x member => List.all_eq_true.mp List.all_takeWhile x member
    · exact absurd rfl parameters
  · exact absurd rfl parameters

theorem passes_parameters {c : Cursor} (clean : c.Clean) (parameters : c.parametersLength ≠ 0) :
    ∃ blanks, Passes c ("(".toList ++ blanks ++ ")".toList) (c.move c.parametersLength) ∧
      Text.Spaces blanks := by
  obtain ⟨row, before, _ | ⟨line, later⟩⟩ := c
  · exact absurd rfl parameters
  · obtain ⟨blanks, rest, shape, blank, length⟩ := emptyParameters_eq parameters
    have length' : (⟨row, before, line :: later⟩ : Cursor).parametersLength =
        ("(".toList ++ blanks ++ ")".toList).length := length
    have noFeed := clean line (List.mem_cons_self ..)
    subst shape
    rw [length', move_append]
    refine ⟨blanks, passes_append row before _ rest later, fun x member => ⟨blank x member, ?_⟩⟩
    rintro rfl
    apply noFeed
    simp [member]

theorem written_of_readSignature {rules : RuleTable} {start : Location} {c d : Cursor} {name : Text}
    (clean : c.Clean) (word : c.word ≠ []) (run : readSignature rules start c = .ok name d) :
    Text.isWord name = true ∧
      ∃ text, Passes c text d ∧ d.ahead ≠ [] ∧ signatureWritten name text := by
  obtain ⟨keyword, rfl, nonempty, -, e, rfl, isParameters, brace, rfl⟩ := readSignature_eq_ok.mp run
  rw [skipSpaces_of_word word] at *
  have first := passes_word c
  rw [keyword] at first
  have clean₁ := first.clean clean
  obtain ⟨spaces, across, isSpaces⟩ := passes_skipSpaces clean₁
  have named := (first.trans across).trans (passes_word _)
  have clean₂ := named.clean clean
  obtain ⟨blanks, passed, isBlanks⟩ := passes_skipSpaces clean₂
  have clean₃ := passed.clean clean₂
  generalize c.skipWord.skipSpaces.skipWord.skipSpaces = e at *
  obtain ⟨parameters, enclosed, isParameters⟩ := passes_parameters clean₃ isParameters
  obtain ⟨idle, skipped, isIdle, -⟩ := passes_skipIdle _ (enclosed.clean clean₃)
  have mark := passes_of_startsWith brace
  refine ⟨isWord_word nonempty, _,
    (((named.trans passed).trans enclosed).trans skipped).trans mark.1, mark.2, spaces, blanks,
    parameters, idle, ?_, isSpaces, isBlanks, isParameters, ?_⟩
  · simp only [List.append_assoc]
  · rw [mark.1.text_eq] at isIdle
    exact isIdle.congr rfl

end Statement

/-! ## The whole script -/

/-- What stands between the statements of a place and the position behind the place. -/
def closingOf : Option Body → Text
  | none => []
  | some .conditional => "fi".toList
  | some (.function _) => "\x7d".toList

def sequenceStarted (closing : Text) (start : Location) : List Statement → Text → Prop
  | [], text => text = []
  | statement :: statements, text =>
    ∃ first others, text = first ++ others ∧ statement.Written start first ∧
      sequenceWritten closing Text.Separates (start.past first) statements others

theorem sequenceWritten_of_started {closing front text : Text} {gap : Text → Text → Prop}
    {start : Location} {statements : List Statement} (isGap : gap front (text ++ closing))
    (started : sequenceStarted closing (start.past front) statements text) :
    sequenceWritten closing gap start statements (front ++ text) := by
  cases statements with
  | nil =>
      obtain rfl : text = [] := started
      rw [sequenceWritten, List.append_nil]
      exact isGap
  | cons statement statements =>
      obtain ⟨first, others, rfl, written, rest⟩ := started
      rw [sequenceWritten]
      refine ⟨front, first, others, (List.append_assoc ..).symm, isGap, written, ?_⟩
      rwa [Location.past_append]

def Closed (place : Option Body) (stop last : Cursor) : Prop :=
  Passes stop (closingOf place) last ∧ (place = none → last.ahead = []) ∧
    (place ≠ none → last.ahead ≠ [])

theorem Closed.head?_eq {place : Option Body} {c stop last : Cursor} {text : Text}
    (closed : Closed place stop last) (passes : Passes c text stop) :
    c.text.head? = (text ++ closingOf place).head? := by
  obtain ⟨closing, atEnd, -⟩ := closed
  rw [passes.text_eq]
  apply Text.head?_append_congr
  rw [closing.text_eq]
  rcases place with _ | _ | name
  · rw [text_of_atEnd (atEnd rfl), List.append_nil]
  · rfl
  · rfl

theorem closed_of_readEnd {body : Body} {c d : Cursor} (closes : body.readEnd c = .ok true d) :
    Closed (some body) c d := by
  cases body with
  | conditional =>
      rw [Body.readEnd_conditional_run] at closes
      split at closes
      · cases closes
      · split at closes
        · rename_i word
          cases closes
          have passes := passes_word c
          rw [word] at passes
          have nonempty : c.word ≠ [] := by
            rw [word]
            decide
          exact ⟨passes, fun script => absurd script (Option.some_ne_none _),
            fun _ => live_skipWhile (live_of_word nonempty) _⟩
        · cases closes
  | function name =>
      rw [Body.readEnd_function_run] at closes
      split at closes
      · rename_i brace
        cases closes
        obtain ⟨passes, live⟩ := passes_of_startsWith brace
        exact ⟨passes, fun script => absurd script (Option.some_ne_none _), fun _ => live⟩
      · cases closes

namespace Parser

theorem Parsed.started_past {place : Option Body} {p q : Parser} {read : List Statement}
    (parsed : Parsed place p read q) {c : Cursor} {gap closing text : Text}
    (passes : Passes c gap p.cursor.skipIdle) (clean : c.Clean)
    (started : sequenceStarted closing p.cursor.skipIdle.location read text) :
    sequenceStarted closing (c.location.past gap) read text := by
  have live : read ≠ [] → p.cursor.skipIdle.ahead ≠ [] := by
    intro nonempty
    cases parsed with
    | finish _ => exact absurd rfl nonempty
    | close _ _ => exact absurd rfl nonempty
    | simple continues => exact live_of_word continues.1
    | conditional continues => exact live_of_word continues.1
    | function continues => exact live_of_word continues.1
  cases read with
  | nil => exact started
  | cons first others =>
      rwa [← passes.location_eq clean (live (List.cons_ne_nil _ _))]

/-- From any position in front of a place, its text with the gap in front. -/
theorem Parsed.sequenceWritten {place : Option Body} {p q : Parser} {read : List Statement}
    (parsed : Parsed place p read q) (clean : p.cursor.Clean)
    (started : ∃ text stop, Passes p.cursor.skipIdle text stop ∧ Closed place stop q.cursor ∧
      sequenceStarted (closingOf place) p.cursor.skipIdle.location read text) :
    ∃ text, Passes p.cursor (text ++ closingOf place) q.cursor ∧
      (place = none → q.cursor.ahead = []) ∧ (place ≠ none → q.cursor.ahead ≠ []) ∧
      ShellLift.sequenceWritten (closingOf place) Text.Idle p.cursor.location read text := by
  obtain ⟨text, stop, passes, closed, started⟩ := started
  obtain ⟨idle, across, isIdle, -⟩ := passes_skipIdle p.cursor clean
  refine ⟨idle ++ text, (across.trans passes).trans closed.1, closed.2.1, closed.2.2, ?_⟩
  exact sequenceWritten_of_started (isIdle.congr (closed.head?_eq passes))
    (parsed.started_past across clean started)

theorem Parsed.started_cons {place : Option Body} {c last e : Cursor} {q : Parser}
    {rules : RuleTable} {statement : Statement} {others : List Statement} {first : Text}
    (rest : Parsed place ⟨e, rules⟩ others q) (clean : c.Clean) (passes : Passes c first last)
    (live : last.ahead ≠ []) (written : statement.Written c.location first)
    (ends : Statement.readTerminator statement.kind last = .ok () e)
    (started : ∃ text stop, Passes e.skipIdle text stop ∧ Closed place stop q.cursor ∧
      sequenceStarted (closingOf place) e.skipIdle.location others text) :
    ∃ text stop, Passes c text stop ∧ Closed place stop q.cursor ∧
      sequenceStarted (closingOf place) c.location (statement :: others) text := by
  have clean' := passes.clean clean
  obtain ⟨gap, across, separates⟩ :=
    (Statement.ended_of_readTerminator clean' live ends).separates clean'
  obtain ⟨text, stop, passes', closed, started⟩ := started
  refine ⟨first ++ (gap ++ text), stop, passes.trans (across.trans passes'), closed, first,
    gap ++ text, rfl, written, ?_⟩
  have there := rest.started_past across clean' started
  rw [passes.location_eq clean live] at there
  exact sequenceWritten_of_started (separates.congr (closed.head?_eq passes')) there

/-- Between a parser and the end of its place stands the concrete form of what it reads. -/
theorem Parsed.started {place : Option Body} {p q : Parser} {read : List Statement}
    (parsed : Parsed place p read q) (clean : p.cursor.Clean) (keyed : p.rules.Keyed) :
    ∃ text stop, Passes p.cursor.skipIdle text stop ∧ Closed place stop q.cursor ∧
      sequenceStarted (closingOf place) p.cursor.skipIdle.location read text := by
  induction parsed with
  | @finish p atEnd =>
      exact ⟨[], _, .stay _, ⟨.stay _, fun _ => atEnd, fun body => absurd rfl body⟩, rfl⟩
  | close _ closes => exact ⟨[], _, .stay _, closed_of_readEnd closes, rfl⟩
  | @simple place p q statement d e others continues simple stop rest ih =>
      have clean' := (follows_skipIdle p.cursor).clean clean
      obtain ⟨text, last, passes, live, written, stop'⟩ :=
        simple.written clean' continues.1 keyed stop
      have stopped := (Forward.readTerminator statement.kind).of_ok stop'
      exact rest.started_cons clean' passes live written stop'
        (ih (stopped.clean (passes.clean clean')) keyed)
  | @conditional place p inner q condition c e body others continues _ head within stop rest ihBody
      ih =>
      have clean' := (follows_skipIdle p.cursor).clean clean
      obtain ⟨opening, opened, live, isOpening⟩ :=
        Statement.written_of_readCondition clean' continues.1 head
      have clean₁ := opened.clean clean'
      obtain ⟨inside, passes, -, live', written⟩ :=
        within.sequenceWritten clean₁ (ihBody clean₁ keyed)
      have whole := opened.trans passes
      have live'' := live' (Option.some_ne_none _)
      have stopped := (Forward.readTerminator .conditional).of_ok stop
      refine rest.started_cons clean' whole live'' ?_ stop
        (ih (stopped.clean (whole.clean clean')) (within.keyed keyed))
      refine ⟨?_, opening, inside, (List.append_assoc ..).symm, isOpening, ?_⟩
      · rw [whole.location_eq clean' live'']
      · rwa [← opened.location_eq clean' live]
  | @function place p inner q name c e rules body others continues _ head within declared stop rest
      ihBody ih =>
      have clean' := (follows_skipIdle p.cursor).clean clean
      obtain ⟨isName, opening, opened, live, isOpening⟩ :=
        Statement.written_of_readSignature clean' continues.1 head
      have clean₁ := opened.clean clean'
      obtain ⟨inside, passes, -, live', written⟩ :=
        within.sequenceWritten clean₁ (ihBody clean₁ keyed)
      have whole := opened.trans passes
      have live'' := live' (Option.some_ne_none _)
      have stopped := (Forward.readTerminator .function).of_ok stop
      refine rest.started_cons clean' whole live'' ?_ stop
        (ih (stopped.clean (whole.clean clean')) ((within.keyed keyed).register declared))
      refine ⟨?_, isName, opening, inside, (List.append_assoc ..).symm, isOpening, ?_⟩
      · rw [whole.location_eq clean' live'']
      · rwa [← opened.location_eq clean' live]

end Parser

/-- The lines of a script that is read, with a line end between two of them, are the concrete form
of its statements. Every expression and every statement stands where its span says, and what
stands in the gaps is idle. -/
theorem sequenceWritten_of_parse (source : Text) (builtins : List Text) (tree : List Statement)
    (accepted : parse source builtins = .ok tree) :
    sequenceWritten [] Text.Idle ⟨1, 0⟩ tree (List.intercalate ['\n'] (Text.lines source)) := by
  obtain ⟨p, q, started, run⟩ := parse_eq_ok.mp accepted
  obtain ⟨keyed, here⟩ := Parser.keyed_new started
  have clean : p.cursor.Clean := here ▸ clean_ofSource source
  have parsed := Parser.statements_eq_ok_iff.mp run
  obtain ⟨text, passes, atEnd, -, written⟩ :=
    parsed.sequenceWritten clean (parsed.started clean keyed)
  have whole := passes.text_eq
  rw [text_of_atEnd (atEnd rfl), List.append_nil, here] at whole
  rw [here] at written
  have joined : List.intercalate ['\n'] (Text.lines source) = text ++ closingOf none := whole
  rw [joined, closingOf, List.append_nil]
  exact written

theorem sequenceWritten_of_parse_conditional :
    parse "if [[ x ]]; then # c\n  export A \nfi".toList [] = .ok
        [.conditional ⟨⟨1, 0⟩, ⟨3, 2⟩⟩ ⟨⟨⟨1, 3⟩, ⟨1, 10⟩⟩, .test, "[[ x ]]".toList⟩
          [.assignment ⟨⟨2, 2⟩, ⟨2, 11⟩⟩ (some .exported) ['A'] none]] ∧
      sequenceWritten [] Text.Idle ⟨1, 0⟩
        [.conditional ⟨⟨1, 0⟩, ⟨3, 2⟩⟩ ⟨⟨⟨1, 3⟩, ⟨1, 10⟩⟩, .test, "[[ x ]]".toList⟩
          [.assignment ⟨⟨2, 2⟩, ⟨2, 11⟩⟩ (some .exported) ['A'] none]]
        "if [[ x ]]; then # c\n  export A \nfi".toList := by
  have accepted : parse "if [[ x ]]; then # c\n  export A \nfi".toList [] = .ok
      [.conditional ⟨⟨1, 0⟩, ⟨3, 2⟩⟩ ⟨⟨⟨1, 3⟩, ⟨1, 10⟩⟩, .test, "[[ x ]]".toList⟩
        [.assignment ⟨⟨2, 2⟩, ⟨2, 11⟩⟩ (some .exported) ['A'] none]] := by
    cbv
  exact ⟨accepted, sequenceWritten_of_parse _ _ _ accepted⟩

/-- The span of an export without a value is more than its keyword and its name with blanks between
them: it has the blanks behind the name as well. -/
theorem parse_export_padded :
    parse "export A  ".toList [] = .ok
        [.assignment ⟨⟨1, 0⟩, (⟨1, 0⟩ : Location).past "export A  ".toList⟩ (some .exported) ['A']
          none] ∧
      ¬ ∃ spaces, "export A  ".toList = "export".toList ++ spaces ++ "A".toList := by
  refine ⟨by cbv, ?_⟩
  rintro ⟨spaces, whole⟩
  have last : "export A  ".toList.getLast? = some 'A' := by
    rw [whole]
    exact List.getLast?_concat
  exact absurd last (by decide)

end ShellLift
