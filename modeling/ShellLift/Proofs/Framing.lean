import ShellLift.Proofs.Allowance
import ShellLift.Proofs.Placement

/-!
# Every step keeps to its frame

For each step on a cursor and then on a parser: in a script with more lines above and below it
does what it does in the script alone. The steps that pass idle lines are the ones to watch, since
only they can come to the end of the inner script without a failure of their own.
-/

set_option autoImplicit false

namespace ShellLift

open Step Cursor Enclosure

section Cursors

variable {α β : Type} {above : Nat} {below : List Text}

/-! ## Small steps -/

theorem framed_failHere {f : α → β} (cause : Diagnostic.Cause) :
    (enclosure above below).Framed f (Reading.failHere cause) (Reading.failHere cause) := by
  intro c _
  refine Keeps.error (Reading.failHere_run cause c) fun _ => ?_
  show Reading.failHere cause (c.place above below) = _
  rw [Reading.failHere_run, location_place]
  rfl

theorem framed_failAt {f : α → β} (start : Location) (cause : Diagnostic.Cause) :
    (enclosure above below).Framed f (Reading.failAt start cause)
      (Reading.failAt (start.shift above) cause) :=
  fun c _ => Keeps.error (Reading.failAt_run start cause c) fun _ => rfl

theorem framed_modify {move : Cursor → Cursor}
    (keeps : ∀ c, Inside below c → Inside below (move c))
    (same : ∀ c, Inside below c → move (c.place above below) = (move c).place above below) :
    (enclosure above below).Framed id (modify move) (modify move) := by
  intro c inside
  refine Keeps.ok (modify_run move c) (keeps c inside) ?_
  show EStateM.Result.ok _ (move (c.place above below)) = _
  rw [same c inside]
  rfl

theorem framed_skipSpaces :
    (enclosure above below).Framed id (modify Cursor.skipSpaces) (modify Cursor.skipSpaces) :=
  framed_modify (fun _ => inside_skipSpaces) fun _ => skipSpaces_place

theorem framed_skipComment :
    (enclosure above below).Framed id (modify Cursor.skipComment) (modify Cursor.skipComment) :=
  framed_modify (fun _ => inside_skipComment) fun _ => skipComment_place

theorem framed_eat (piece : Text) :
    (enclosure above below).Framed id (Reading.eat piece) (Reading.eat piece) := by
  intro c inside
  have outer : Reading.eat piece (c.place above below) = _ := Reading.eat_run piece _
  rw [startsWith_place inside, move_place inside] at outer
  have inner := Reading.eat_run piece c
  by_cases found : c.startsWith piece = true
  · rw [if_pos found] at inner outer
    exact Keeps.ok inner (inside_move inside _) outer
  · rw [if_neg found] at inner outer
    exact Keeps.ok inner inside outer

theorem framed_takeWord : (enclosure above below).Framed id Reading.takeWord Reading.takeWord := by
  intro c inside
  refine Keeps.ok (Reading.takeWord_run c) (inside_skipWord inside) ?_
  show Reading.takeWord (c.place above below) = _
  rw [Reading.takeWord_run, word_place inside, skipWord_place inside]
  rfl

theorem framed_expectWord (expected : Text) :
    (enclosure above below).Framed id (Reading.expectWord expected)
      (Reading.expectWord expected) := by
  intro c inside
  have spaces := inside_skipSpaces inside
  have outer : Reading.expectWord expected (c.place above below) = _ :=
    Reading.expectWord_run expected _
  rw [skipSpaces_place inside, word_place spaces, skipWord_place spaces, location_place] at outer
  have inner := Reading.expectWord_run expected c
  by_cases found : c.skipSpaces.word = expected
  · rw [if_pos found] at inner outer
    exact Keeps.ok inner (inside_skipWord spaces) outer
  · rw [if_neg found] at inner outer
    exact Keeps.error inner fun _ => outer

/-! ## Delimited spans -/

theorem close?_place (above : Nat) (below : List Text) (d : BracketPair) (depth row : Nat)
    (before : Text) (lines : List Text)
    (inside : Text) (stop : Cursor)
    (found : d.close? depth row before lines = some (inside, stop)) :
    d.close? depth (row + above) before (lines ++ below) = some (inside, stop.place above below) ∧
      stop.ahead ≠ [] := by
  induction lines generalizing depth row before inside with
  | nil => simp [BracketPair.close?] at found
  | cons line later ih =>
      rw [List.cons_append]
      rw [BracketPair.close?] at found ⊢
      cases run : d.search depth 0 line with
      | closed text rest =>
          simp only [run, Option.some.injEq, Prod.mk.injEq] at found ⊢
          obtain ⟨rfl, rfl⟩ := found
          exact ⟨⟨rfl, rfl⟩, List.cons_ne_nil _ _⟩
      | pending deeper =>
          simp only [run] at found ⊢
          split at found
          · rename_i multiline
            obtain ⟨⟨text, last⟩, closed, same⟩ := Option.map_eq_some_iff.mp found
            cases same
            obtain ⟨outer, notEnd⟩ := ih deeper (row + 1) [] text closed
            rw [if_pos multiline, Nat.add_right_comm, outer]
            exact ⟨rfl, notEnd⟩
          · cases found

theorem close?_row (above : Nat) (d : BracketPair) (depth row : Nat) (before : Text)
    (lines : List Text)
    (open' : d.close? depth row before lines = none) :
    d.close? depth (row + above) before lines = none := by
  induction lines generalizing depth row before with
  | nil => rfl
  | cons line later ih =>
      rw [BracketPair.close?] at open' ⊢
      cases run : d.search depth 0 line with
      | closed text rest => simp [run] at open'
      | pending deeper =>
          simp only [run] at open' ⊢
          split at open'
          · rename_i multiline
            rw [if_pos multiline, Nat.add_right_comm,
              ih deeper (row + 1) [] (Option.map_eq_none_iff.mp open')]
            rfl
          · rename_i multiline
            rw [if_neg multiline]

theorem framed_bracketed (d : BracketPair) : (enclosure above below).Framed id d.read d.read := by
  intro c inside
  have outer : d.read (c.place above below) = _ := d.read_run _
  have opened := inside_move inside d.opening.length
  rw [startsWith_place inside, move_place inside, location_place] at outer
  have inner := d.read_run c
  by_cases starts : c.startsWith d.opening = true
  · rw [if_pos starts] at inner outer
    generalize c.move d.opening.length = e at *
    cases found : d.close? 1 e.row e.before e.ahead with
    | some pair =>
        obtain ⟨text, stop⟩ := pair
        obtain ⟨closed, notEnd⟩ := close?_place above below d 1 e.row e.before e.ahead text stop
          found
        replace closed : d.close? 1 (e.place above below).row (e.place above below).before
          (e.place above below).ahead = some (text, stop.place above below) := closed
        simp only [found] at inner
        simp only [closed] at outer
        exact Keeps.ok inner (.inr notEnd) outer
    | none =>
        simp only [found] at inner
        refine Keeps.error inner ?_
        rintro rfl
        have stays : d.close? 1 (e.place above []).row (e.place above []).before
            (e.place above []).ahead = none := by
          simpa [Cursor.place] using close?_row above d 1 e.row e.before e.ahead found
        simp only [stays, finish_place, ← apply_ite (Cursor.place above [])] at outer
        exact outer
  · rw [if_neg starts] at inner outer
    exact Keeps.error inner fun _ => outer

theorem framed_quoted (style : Quotation) :
    (enclosure above below).Framed id style.read style.read := by
  intro c inside
  rcases c with ⟨row, before, _ | ⟨_ | ⟨first, line⟩, later⟩⟩
  · -- The end of the script is inside only where nothing stands below it.
    obtain rfl : below = [] := inside.resolve_right fun notEnd => notEnd rfl
    exact framed_failHere (f := id) (.expectedQuote style) ⟨row, before, []⟩ inside
  · exact framed_failHere (f := id) (.expectedQuote style) ⟨row, before, [] :: later⟩ inside
  · have inner := style.read_run row before first line later
    have outer : style.read (Cursor.place above below ⟨row, before, (first :: line) :: later⟩)
        = _ :=
      style.read_run (row + above) before first line (later ++ below)
    by_cases opened : first = style.mark
    · rw [if_pos opened] at inner outer
      cases found : style.close? [] line with
      | some pair =>
          simp only [found] at inner outer
          refine Keeps.ok inner (inside_move inside _) (outer.trans ?_)
          exact congrArg _ (move_place inside _)
      | none =>
          simp only [found] at inner outer
          refine Keeps.error inner ?_
          rintro rfl
          have cause : style.openCause (later ++ []) = style.openCause later := by
            rw [List.append_nil]
          rw [cause, Nat.add_right_comm] at outer
          exact outer
    · rw [if_neg opened] at inner outer
      refine Keeps.error inner fun _ => ?_
      rw [Nat.add_right_comm] at outer
      exact outer

/-! ## Expressions -/

theorem framed_upTo (start : Location) (form : Expression.Form) (text : Text) :
    (enclosure above below).Framed (Expression.shift above) (Expression.upTo start form text)
      (Expression.upTo (start.shift above) form text) := by
  intro c inside
  refine Keeps.ok rfl inside ?_
  show EStateM.Result.ok (⟨⟨start.shift above, (c.place above below).location⟩, form, text⟩ :
    Expression) (c.place above below) = _
  rw [location_place]
  rfl

theorem framed_readSubcommand (start : Location) :
    (enclosure above below).Framed (Expression.shift above) (Expression.readSubcommand start)
      (Expression.readSubcommand (start.shift above)) := by
  intro c inside
  have inner := Expression.readSubcommand_run start c
  have outer : Expression.readSubcommand (start.shift above) (c.place above below) = _ :=
    Expression.readSubcommand_run (start.shift above) _
  rw [startsWith_place inside, startsWith_place inside] at outer
  by_cases double : c.startsWith "((".toList = true
  · rw [if_pos double] at inner outer
    exact Keeps.error inner fun _ => outer
  · rw [if_neg double] at inner outer
    by_cases single : c.startsWith "(".toList = true
    · rw [if_pos single] at inner outer
      have framed : (enclosure above below).Framed (Expression.shift above)
          (BracketPair.parentheses.read >>= Expression.upTo start .subcommand)
          (BracketPair.parentheses.read >>= Expression.upTo (start.shift above) .subcommand) :=
        (framed_bracketed .parentheses).bind fun text => framed_upTo start .subcommand text
      exact (framed c inside).congr inner outer
    · rw [if_neg single] at inner outer
      exact Keeps.error inner fun _ => outer

theorem framed_readTest (start : Location) :
    (enclosure above below).Framed (Expression.shift above) (Expression.readTest start)
      (Expression.readTest (start.shift above)) :=
  (framed_bracketed .doubleSquare).bind fun text => framed_upTo start .test text

theorem framed_readCommand? (start : Location) :
    (enclosure above below).Framed (Option.map (Expression.shift above))
      (Expression.readCommand? start)
      (Expression.readCommand? (start.shift above)) := by
  intro c inside
  have inner := Expression.readCommand?_run start c
  have outer : Expression.readCommand? (start.shift above) (c.place above below) = _ :=
    Expression.readCommand?_run (start.shift above) _
  rw [run?_place inside, skipWhile_place inside, spanFrom, location_place] at outer
  have within := inside_skipWhile inside Expression.isCommandChar
  by_cases blank : (Text.trimEnd ((c.run? Expression.isCommandChar).getD [])).isEmpty = true
  · rw [if_pos blank] at inner outer
    exact Keeps.ok inner within outer
  · rw [if_neg blank] at inner outer
    exact Keeps.ok inner within outer

theorem framed_readLiteral (start : Location) :
    (enclosure above below).Framed (Expression.shift above) (Expression.readLiteral start)
      (Expression.readLiteral (start.shift above)) := by
  intro c inside
  have outer : Expression.readLiteral (start.shift above) (c.place above below) = _ :=
    Expression.readLiteral_run (start.shift above) _
  rw [run?_place inside, skipWhile_place inside, spanFrom, location_place] at outer
  exact Keeps.ok (Expression.readLiteral_run start c) (inside_skipWhile inside _) outer

theorem framed_readQuoted (start : Location) (style : Quotation) :
    (enclosure above below).Framed (Expression.shift above) (Expression.readQuoted start style)
      (Expression.readQuoted (start.shift above) style) :=
  (framed_quoted style).bind fun text => framed_upTo start (.quoted style) text

theorem framed_readValue? (start : Location) (spaced : Bool) (first : Char) :
    (enclosure above below).Framed (Option.map (Expression.shift above))
      (Expression.readValue? start spaced first)
      (Expression.readValue? (start.shift above) spaced first) := by
  unfold Expression.readValue?
  refine .ite (.ite ?_ (framed_failAt start _)) (.ite ?_ ?_)
  · exact framed_skipComment.bind fun _ => .pure none
  · exact (framed_readLiteral start).map fun _ => rfl
  · cases Quotation.ofMark? first with
    | some style => exact (framed_readQuoted start style).map fun _ => rfl
    | none => exact framed_failAt start _

theorem framed_read? (position : Expression.Position) :
    (enclosure above below).Framed (Option.map (Expression.shift above)) (Expression.read? position)
      (Expression.read? position) := by
  intro c inside
  have spaces := inside_skipSpaces inside
  have inner := Expression.read?_run position c
  have outer : Expression.read? position (c.place above below) = _ :=
    Expression.read?_run position _
  rw [skipSpaces_place inside, next?_place spaces, startsWith_place spaces, move_place spaces,
    location_place, atSpace_place inside] at outer
  generalize c.skipSpaces = d at *
  cases next : d.next? with
  | none =>
      simp only [next] at inner outer
      exact Keeps.ok inner spaces outer
  | some first =>
      simp only [next] at inner outer
      by_cases dollar : first = '$'
      · rw [if_pos dollar] at inner outer
        have framed : (enclosure above below).Framed (Option.map (Expression.shift above))
            (some <$> Expression.readSubcommand d.location)
            (some <$> Expression.readSubcommand (d.location.shift above)) :=
          (framed_readSubcommand d.location).map fun _ => rfl
        exact (framed (d.move 1) (inside_move spaces 1)).congr inner outer
      · rw [if_neg dollar] at inner outer
        by_cases bracket : d.startsWith "[[".toList = true
        · rw [if_pos bracket] at inner outer
          have framed : (enclosure above below).Framed (Option.map (Expression.shift above))
              (some <$> Expression.readTest d.location)
              (some <$> Expression.readTest (d.location.shift above)) :=
            (framed_readTest d.location).map fun _ => rfl
          exact (framed d spaces).congr inner outer
        · rw [if_neg bracket] at inner outer
          by_cases semicolon : first = ';'
          · rw [if_pos semicolon] at inner outer
            exact Keeps.ok inner spaces outer
          · rw [if_neg semicolon] at inner outer
            cases position with
            | command => exact (framed_readCommand? d.location d spaces).congr inner outer
            | value =>
                exact (framed_readValue? d.location c.atSpace first d spaces).congr inner outer

theorem framed_read (position : Expression.Position) :
    (enclosure above below).Framed (Expression.shift above) (Expression.read position)
      (Expression.read position) := by
  refine Framed.get fun c inside => ?_
  show (enclosure above below).Keeps _ _ (Expression.read? position >>= _) c
  refine (framed_read? position c inside).bind fun value d _ within => ?_
  have start : (c.place above below).skipSpaces.location = c.skipSpaces.location.shift above := by
    rw [skipSpaces_place inside, location_place]
  cases value with
  | some expression => exact Framed.pure expression d within
  | none =>
      refine (framed_failAt c.skipSpaces.location .expectedExpression d within).congr rfl ?_
      rw [← start]
      rfl

/-! ## Statements -/

theorem framed_readAssigned (kind : Option Binder) (target : Text) :
    (enclosure above below).Framed (Option.map (Expression.shift above))
      (Statement.readAssigned kind target) (Statement.readAssigned kind target) := by
  unfold Statement.readAssigned
  refine (framed_eat _).bind fun found => .ite (.get fun c inside => ?_) ?_
  · have sees : ((enclosure above below).place c).next? = c.next? := next?_place inside
    rw [sees]
    refine Framed.ite (framed_failHere _) ?_ c inside
    exact (framed_read .value).map fun _ => rfl
  · rcases kind with _ | _ | _ | _
    · refine .get fun c inside => ?_
      have sees : ((enclosure above below).place c).next? = c.next? := next?_place inside
      rw [sees]
      exact framed_failHere (.unexpectedAfterWord c.next? target) c inside
    · exact .pure none
    · exact framed_failHere _
    · exact framed_failHere _

theorem inside_targetStart (above : Nat) (kind : Option Binder) {c : Cursor}
    (inside : Inside below c) :
    Inside below (Statement.targetStart kind c) ∧
      Statement.targetStart kind (c.place above below) =
        (Statement.targetStart kind c).place above below := by
  cases kind with
  | none => exact ⟨inside, rfl⟩
  | some binder =>
      have word := inside_skipWord inside
      refine ⟨inside_skipSpaces word, ?_⟩
      show (c.place above below).skipWord.skipSpaces = _
      rw [skipWord_place inside, skipSpaces_place word]
      rfl

theorem framed_readAssignment (kind : Option Binder) :
    (enclosure above below).Framed (Statement.shift above) (Statement.readAssignment kind)
      (Statement.readAssignment kind) := by
  intro c inside
  obtain ⟨within, same⟩ := inside_targetStart above kind inside
  have inner := Statement.readAssignment_run kind c
  have outer : Statement.readAssignment kind (c.place above below) = _ :=
    Statement.readAssignment_run kind _
  have word := inside_skipWord within
  rw [same, word_place within, skipWord_place within, skipSpaces_place word, location_place,
    location_place] at outer
  generalize Statement.targetStart kind c = d at *
  by_cases missing : List.isEmpty d.word = true
  · rw [if_pos missing] at inner outer
    exact Keeps.error inner fun _ => outer
  · rw [if_neg missing] at inner outer
    have value : (enclosure above below).Keeps _ _ _ _ :=
      framed_readAssigned kind d.word d.skipWord.skipSpaces (inside_skipSpaces word)
    unfold Keeps at value
    cases run : Statement.readAssigned kind d.word d.skipWord.skipSpaces with
    | ok found e =>
        simp only [run] at inner value
        have valueRun : Statement.readAssigned kind d.word
          (d.skipWord.skipSpaces.place above below) = _ := value.2
        simp only [valueRun] at outer
        refine Keeps.ok inner value.1 (outer.trans ?_)
        show EStateM.Result.ok (Statement.assignment ⟨_, (e.place above below).location⟩ _ _ _)
          _ = _
        rw [location_place]
        rfl
    | error diagnostic e =>
        simp only [run] at inner value
        refine Keeps.error inner fun exact => ?_
        have valueRun : Statement.readAssigned kind d.word
          (d.skipWord.skipSpaces.place above below) = _ := value exact
        simp only [valueRun] at outer
        exact outer

theorem framed_readArgument? (name : Text) (count : Nat) :
    (enclosure above below).Framed (Option.map (Expression.shift above))
      (Statement.readArgument? name count) (Statement.readArgument? name count) := by
  unfold Statement.readArgument?
  refine (framed_read? .value).bind fun found => ?_
  cases found with
  | none => exact .pure none
  | some argument =>
      refine .get fun c inside => ?_
      have sees : ((enclosure above below).place c).next? = c.next? := next?_place inside
      rw [sees]
      exact Framed.ite (.pure (some argument)) (framed_failHere _) c inside

theorem framed_readArguments (name : Text) (allowance count : Nat) :
    (enclosure above below).Framed (List.map (Expression.shift above))
      (Statement.readArguments name allowance count)
      (Statement.readArguments name allowance count) := by
  induction allowance generalizing count with
  | zero => exact framed_failHere _
  | succ allowance ih =>
      rw [Statement.readArguments]
      refine (framed_readArgument? name count).bind fun found => ?_
      cases found with
      | none => exact .pure []
      | some argument => exact (ih (count + 1)).bind fun others => .pure (argument :: others)

theorem framed_readInvocation (kind : Callee) (allowance : Nat) :
    (enclosure above below).Framed (Statement.shift above) (Statement.readInvocation kind allowance)
      (Statement.readInvocation kind allowance) := by
  intro c inside
  have word := inside_skipWord inside
  have inner := Statement.readInvocation_run kind allowance c
  have outer : Statement.readInvocation kind allowance (c.place above below) = _ :=
    Statement.readInvocation_run kind allowance _
  rw [word_place inside, skipWord_place inside, location_place, location_place] at outer
  have arguments : (enclosure above below).Keeps _ _ _ _ :=
    framed_readArguments c.word allowance 0 c.skipWord word
  unfold Keeps at arguments
  cases run : Statement.readArguments c.word allowance 0 c.skipWord with
  | ok found d =>
      simp only [run] at inner arguments
      have argumentsRun : Statement.readArguments c.word allowance 0
        (c.skipWord.place above below) = _ := arguments.2
      simp only [argumentsRun] at outer
      refine Keeps.ok inner arguments.1 (outer.trans ?_)
      have span : Statement.invocationSpan (c.location.shift above)
          (c.skipWord.location.shift above) (found.map (Expression.shift above)) =
          (Statement.invocationSpan c.location c.skipWord.location found).shift above := by
        unfold Statement.invocationSpan Span.shift
        rw [List.getLast?_map]
        cases found.getLast? <;> rfl
      rw [span]
      rfl
  | error diagnostic d =>
      simp only [run] at inner arguments
      refine Keeps.error inner fun exact => ?_
      have argumentsRun : Statement.readArguments c.word allowance 0
        (c.skipWord.place above below) = _ := arguments exact
      simp only [argumentsRun] at outer
      exact outer

/-- A step behind idle lines is kept if it fails at the end of the script. -/
theorem framed_skipIdle {f : α → β} {inner : Unit → Reading α} {outer : Unit → Reading β}
    (framed : (enclosure above below).Framed f (inner ()) (outer ()))
    (fails : ∀ c : Cursor, c.ahead = [] → ∀ value d, inner () c ≠ .ok value d) :
    (enclosure above below).Framed f (modify Cursor.skipIdle >>= inner)
      (modify Cursor.skipIdle >>= outer) := by
  intro c _
  by_cases inside : Inside below c.skipIdle
  · refine (framed c.skipIdle inside).congr rfl ?_
    show outer () (c.place above below).skipIdle = _
    rw [skipIdle_place inside]
    rfl
  · have notExact : below ≠ [] := fun exact => inside (.inl exact)
    have atEnd : c.skipIdle.ahead = [] := by
      by_contra notEnd
      exact inside (.inr notEnd)
    cases run : inner () c.skipIdle with
    | ok value d => exact absurd run (fails c.skipIdle atEnd value d)
    | error diagnostic d =>
        have failed : (modify Cursor.skipIdle >>= inner) c = .error diagnostic d := run
        exact Keeps.error failed fun exact => absurd exact notExact

theorem framed_readCondition :
    (enclosure above below).Framed (Expression.shift above) Statement.readCondition
      Statement.readCondition := by
  unfold Statement.readCondition
  refine (framed_expectWord _).bind fun _ => (framed_read .command).bind fun condition => ?_
  refine framed_skipSpaces.bind fun _ => (framed_eat _).bind fun found =>
    .ite ?_ (framed_failHere _)
  refine framed_skipIdle ((framed_expectWord _).bind fun _ => .pure condition) ?_
  intro c atEnd value d success
  have notThen : c.skipSpaces.word ≠ "then".toList := by
    simp [skipSpaces, skipWhile, atEnd, word, word?, rest?]
  rw [bind_run, Reading.expectWord_run, if_neg notThen] at success
  cases success

theorem framed_readSignature (rules : RuleTable) (start : Location) :
    (enclosure above below).Framed id (Statement.readSignature rules start)
      (Statement.readSignature rules (start.shift above)) := by
  unfold Statement.readSignature
  refine (framed_expectWord _).bind fun _ => framed_skipSpaces.bind fun _ => ?_
  refine framed_takeWord.bind fun name => .ite (framed_failHere _) (.ite (framed_failAt start _) ?_)
  refine framed_skipSpaces.bind fun _ => .get fun c inside => ?_
  have sees : ((enclosure above below).place c).parametersLength = c.parametersLength :=
    parametersLength_place inside
  have moves : ((enclosure above below).place c).move c.parametersLength =
      (c.move c.parametersLength).place above below := move_place inside _
  rw [sees]
  by_cases missing : c.parametersLength = 0
  · rw [if_pos missing, if_pos missing]
    exact framed_failHere _ c inside
  · rw [if_neg missing, if_neg missing, moves]
    have brace : (enclosure above below).Framed id
        (modify Cursor.skipIdle >>= fun _ => Reading.eat "\x7b".toList >>= fun found =>
          if found then pure name else Reading.failHere .expectedBrace)
        (modify Cursor.skipIdle >>= fun _ => Reading.eat "\x7b".toList >>= fun found =>
          if found then pure name else Reading.failHere .expectedBrace) := by
      refine framed_skipIdle ?_ ?_
      · exact (framed_eat _).bind fun found => .ite (.pure name) (framed_failHere _)
      · intro d atEnd value e success
        rw [Reading.eat_bind_run, if_neg (by simp [startsWith, atEnd])] at success
        cases success
    exact (brace (c.move c.parametersLength) (inside_move inside _)).congr rfl rfl

theorem framed_readTerminator (kind : Statement.Kind) :
    (enclosure above below).Framed id (Statement.readTerminator kind)
      (Statement.readTerminator kind) := by
  intro c inside
  have spaces := inside_skipSpaces inside
  have inner := Statement.readTerminator_run kind c
  have outer : Statement.readTerminator kind (c.place above below) = _ :=
    Statement.readTerminator_run kind _
  rw [atSpace_place inside, skipSpaces_place inside, atHash_place spaces, skipComment_place spaces,
    startsWith_place spaces, move_place spaces, atLineEnd_place spaces, rest?_place spaces,
    location_place] at outer
  by_cases comment : (c.atSpace && c.skipSpaces.atHash) = true
  · rw [if_pos comment] at inner outer
    exact Keeps.ok inner (inside_skipComment spaces) outer
  · rw [if_neg comment] at inner outer
    by_cases semicolon : c.skipSpaces.startsWith ";".toList = true
    · rw [if_pos semicolon] at inner outer
      exact Keeps.ok inner (inside_move spaces 1) outer
    · rw [if_neg semicolon] at inner outer
      by_cases lineEnd : c.skipSpaces.atLineEnd = true
      · rw [if_pos lineEnd] at inner outer
        exact Keeps.ok inner spaces outer
      · rw [if_neg lineEnd] at inner outer
        exact Keeps.error inner fun _ => outer

theorem framed_readEnd (body : Body) :
    (enclosure above below).Framed id body.readEnd body.readEnd := by
  cases body with
  | function name => exact framed_eat _
  | conditional =>
      intro c inside
      have inner := Body.readEnd_conditional_run c
      have outer : Body.readEnd .conditional (c.place above below) = _ :=
        Body.readEnd_conditional_run _
      rw [word_place inside, skipWord_place inside, location_place] at outer
      by_cases branch : c.word = "else".toList ∨ c.word = "elif".toList
      · rw [if_pos branch] at inner outer
        exact Keeps.error inner fun _ => outer
      · rw [if_neg branch] at inner outer
        by_cases closes : c.word = "fi".toList
        · rw [if_pos closes] at inner outer
          exact Keeps.ok inner (inside_skipWord inside) outer
        · rw [if_neg closes] at inner outer
          exact Keeps.ok inner inside outer

end Cursors

/-! ## Parsers -/

namespace Parser

variable {α β : Type} {above : Nat} {below : List Text}

def place (above : Nat) (below : List Text) (p : Parser) : Parser :=
  ⟨p.cursor.place above below, p.rules⟩

def enclosure (above : Nat) (below : List Text) : Enclosure Parser :=
  ⟨fun p => Inside below p.cursor, place above below, Diagnostic.shift above, below = []⟩

theorem framed_reading {f : α → β} {inner : Reading α} {outer : Reading β}
    (framed : (Cursor.enclosure above below).Framed f inner outer) :
    (enclosure above below).Framed f (reading inner) (reading outer) := by
  intro p inside
  have keeps := framed p.cursor inside
  have run := reading_run inner p
  have run' : reading outer (p.place above below) = _ := reading_run outer _
  unfold Keeps at keeps
  cases result : inner p.cursor with
  | ok value c =>
      simp only [result] at keeps run
      have outerRun : outer (p.cursor.place above below) = _ := keeps.2
      simp only [place, outerRun] at run'
      exact Keeps.ok run keeps.1 run'
  | error diagnostic c =>
      simp only [result] at keeps run
      refine Keeps.error run fun exact => ?_
      have outerRun : outer (p.cursor.place above below) = _ := keeps exact
      simp only [place, outerRun] at run'
      exact run'

/-- A step for one statement keeps to the frame wherever more than idle lines are ahead. -/
def KeepsStatement (above : Nat) (below : List Text) (inner outer : Parsing (Option Statement)) :
    Prop :=
  ∀ p : Parser, Inside below p.cursor.skipIdle →
    (enclosure above below).Keeps (Option.map (Statement.shift above)) inner outer p

theorem framed_readBody {inner outer : Parsing (Option Statement)}
    (step : KeepsStatement above below inner outer) (body : Body) (start : Location)
    (allowance : Nat) :
    (enclosure above below).Framed (Statement.shiftAll above) (readBody inner body start allowance)
      (readBody outer body (start.shift above) allowance) := by
  induction allowance with
  | zero => exact framed_reading (framed_failAt start _)
  | succ allowance ih =>
      intro p _
      have run := readBody_run inner body start allowance p
      have run' : readBody outer body (start.shift above) (allowance + 1)
          (p.place above below) = _ :=
        readBody_run outer body (start.shift above) allowance _
      by_cases inside : Inside below p.cursor.skipIdle
      · simp only [place, skipIdle_place inside, atEnd_place inside] at run'
        by_cases atEnd : p.cursor.skipIdle.atEnd = true
        · rw [if_pos atEnd] at run run'
          exact Keeps.error run fun _ => run'
        · rw [if_neg atEnd] at run run'
          have closing : (Cursor.enclosure above below).Keeps _ _ _ _ :=
            framed_readEnd body p.cursor.skipIdle inside
          unfold Keeps at closing
          rcases result : body.readEnd p.cursor.skipIdle with ⟨_ | _, c⟩ | ⟨diagnostic, c⟩
          · obtain rfl := Body.eq_of_readEnd_false result
            simp only [result] at run closing
            have closing' : body.readEnd (p.cursor.skipIdle.place above below) =
              .ok false (p.cursor.skipIdle.place above below) := closing.2
            simp only [closing'] at run'
            have again : Inside below p.cursor.skipIdle.skipIdle := by rwa [skipIdle_skipIdle]
            -- The step for a statement starts past the idle lines, where it keeps to the frame.
            have keeps := step ⟨p.cursor.skipIdle, p.rules⟩ again
            have framed : (enclosure above below).Keeps (Statement.shiftAll above)
                (inner >>= readRest inner body start allowance)
                (outer >>= readRest outer body (start.shift above) allowance)
                ⟨p.cursor.skipIdle, p.rules⟩ := by
              refine keeps.bind fun found q _ within => ?_
              cases found with
              | some first =>
                  refine Framed.map ih ?_ q within
                  intro others
                  rw [Statement.shiftAll]
              | none => exact ih q within
            exact framed.congr run run'
          · simp only [result] at run closing
            have closing' : body.readEnd (p.cursor.skipIdle.place above below) = _ := closing.2
            simp only [closing'] at run'
            exact Keeps.ok run closing.1 run'
          · simp only [result] at run closing
            refine Keeps.error run fun exact => ?_
            have closing' : body.readEnd (p.cursor.skipIdle.place above below) = _ := closing exact
            simp only [closing'] at run'
            exact run'
      · have atEnd : p.cursor.skipIdle.atEnd = true := by
          by_contra notEnd
          exact inside (.inr fun nil => notEnd (by simp [atEnd, nil]))
        rw [if_pos atEnd] at run
        exact Keeps.error run fun exact => absurd (Or.inl exact) inside

theorem framed_readConditional {inner outer : Parsing (Option Statement)}
    (step : KeepsStatement above below inner outer) (allowance : Nat) :
    (enclosure above below).Framed (Statement.shift above) (readConditional inner allowance)
      (readConditional outer allowance) := by
  unfold readConditional
  refine Framed.get fun p inside => ?_
  have start : ((enclosure above below).place p).cursor.location = p.cursor.location.shift above :=
    location_place p.cursor
  rw [start]
  refine ((framed_reading framed_readCondition).bind fun condition => ?_) p inside
  refine (framed_readBody step .conditional p.cursor.location allowance).bind fun body => ?_
  refine Framed.get fun q within => ?_
  have stop : ((enclosure above below).place q).cursor.location = q.cursor.location.shift above :=
    location_place q.cursor
  simp only [spanFrom, stop]
  exact Framed.pure (Statement.conditional ⟨p.cursor.location, q.cursor.location⟩ condition body)
    q within

theorem framed_declare (name : Text) (start : Location) :
    (enclosure above below).Framed id (declare name start) (declare name (start.shift above)) := by
  intro p inside
  have run := declare_run name start p
  have run' : declare name (start.shift above) (p.place above below) = _ :=
    declare_run name (start.shift above) _
  cases result : p.rules.register name .declared with
  | ok rules =>
      simp only [result] at run
      simp only [place, result] at run'
      have inside' : Inside below (⟨p.cursor, rules⟩ : Parser).cursor := inside
      exact Keeps.ok run inside' run'
  | error refusal =>
      simp only [result] at run
      simp only [place, result] at run'
      exact Keeps.error run fun _ => run'

theorem framed_readFunction {inner outer : Parsing (Option Statement)}
    (step : KeepsStatement above below inner outer) (allowance : Nat) :
    (enclosure above below).Framed (Statement.shift above) (readFunction inner allowance)
      (readFunction outer allowance) := by
  unfold readFunction
  refine Framed.get fun p inside => ?_
  have start : ((enclosure above below).place p).cursor.location = p.cursor.location.shift above :=
    location_place p.cursor
  dsimp only
  rw [start]
  refine ((framed_reading (framed_readSignature p.rules p.cursor.location)).bind fun name => ?_)
    p inside
  refine (framed_readBody step (.function name) p.cursor.location allowance).bind fun body => ?_
  refine Framed.get fun q within => ?_
  have stop : ((enclosure above below).place q).cursor.location = q.cursor.location.shift above :=
    location_place q.cursor
  simp only [spanFrom, stop]
  refine ((framed_declare name p.cursor.location).bind fun _ => ?_) q within
  exact Framed.pure (Statement.function ⟨p.cursor.location, q.cursor.location⟩ name body)

theorem framed_readByRule {inner outer : Parsing (Option Statement)}
    (step : KeepsStatement above below inner outer) (allowance : Nat) (word : Text) :
    (enclosure above below).Framed (Statement.shift above) (readByRule inner allowance word)
      (readByRule outer allowance word) := by
  intro p inside
  have run := readByRule_run inner allowance word p
  have run' : readByRule outer allowance word (p.place above below) = _ :=
    readByRule_run outer allowance word _
  have same : (p.place above below).rules = p.rules := rfl
  rw [same] at run'
  rcases rule : p.rules.get? word with _ | kind | _ | _ | kind
  · simp only [rule] at run run'
    split at run
    · rename_i keyword
      rw [if_pos keyword] at run'
      refine Keeps.error run fun _ => run'.trans ?_
      have here : (p.place above below).cursor.location = p.cursor.location.shift above :=
        location_place p.cursor
      rw [here]
      rfl
    · rename_i notKeyword
      rw [if_neg notKeyword] at run'
      exact (framed_reading (framed_readAssignment none) p inside).congr run run'
  · simp only [rule] at run run'
    exact (framed_reading (framed_readAssignment (some kind)) p inside).congr run run'
  · simp only [rule] at run run'
    exact (framed_readConditional step allowance p inside).congr run run'
  · simp only [rule] at run run'
    exact (framed_readFunction step allowance p inside).congr run run'
  · simp only [rule] at run run'
    exact (framed_reading (framed_readInvocation kind allowance) p inside).congr run run'

def terminated (step : Parsing Statement) : Parsing (Option Statement) :=
  step >>= fun statement => reading (Statement.readTerminator statement.kind) >>=
    fun _ => pure (some statement)

theorem terminated_run (step : Parsing Statement) (p : Parser) :
    terminated step p = match step p with
      | .ok statement q =>
        match Statement.readTerminator statement.kind q.cursor with
        | .ok _ c => .ok (some statement) ⟨c, q.rules⟩
        | .error diagnostic c => .error diagnostic ⟨c, q.rules⟩
      | .error diagnostic q => .error diagnostic q := by
  unfold terminated
  rw [bind_run]
  rcases step p with ⟨statement, q⟩ | ⟨diagnostic, q⟩
  · simp only [bind_run, reading_run]
    rcases Statement.readTerminator statement.kind q.cursor with _ | _ <;> rfl
  · rfl

theorem framed_terminated {inner outer : Parsing Statement}
    (framed : (enclosure above below).Framed (Statement.shift above) inner outer) :
    (enclosure above below).Framed (Option.map (Statement.shift above)) (terminated inner)
      (terminated outer) := by
  refine framed.bind fun statement => ?_
  rw [Statement.kind_shift]
  exact (framed_reading (framed_readTerminator _)).bind fun _ => .pure (some statement)

/-- One statement, nested to any depth, is read in the longer script as in the script alone. -/
theorem keepsStatement_readStatement? (allowance : Nat) :
    KeepsStatement above below (readStatement? allowance) (readStatement? allowance) := by
  induction allowance with
  | zero =>
      intro p inside
      refine Keeps.error (reading_run _ p) fun exact => ?_
      have fails : (enclosure above below).Keeps (Option.map (Statement.shift above)) _ _ p :=
        framed_reading (framed_failHere (.expectedStatement none)) p (.inl exact)
      exact fails exact
  | succ allowance ih =>
      intro p inside
      have run := readStatement?_run allowance p
      have run' : readStatement? (allowance + 1) (p.place above below) = _ :=
        readStatement?_run allowance _
      simp only [place, skipIdle_place inside, atEnd_place inside, word_place inside,
        next?_place inside, location_place] at run'
      by_cases atEnd : p.cursor.skipIdle.atEnd = true
      · rw [if_pos atEnd] at run run'
        have within : Inside below (⟨p.cursor.skipIdle, p.rules⟩ : Parser).cursor := inside
        exact Keeps.ok run within run'
      · rw [if_neg atEnd] at run run'
        by_cases empty : List.isEmpty p.cursor.skipIdle.word = true
        · rw [if_pos empty] at run run'
          exact Keeps.error run fun _ => run'
        · rw [if_neg empty] at run run'
          have framed := framed_terminated (framed_readByRule ih allowance p.cursor.skipIdle.word)
          exact (framed ⟨p.cursor.skipIdle, p.rules⟩ inside).congr
            (run.trans (terminated_run _ _).symm) (run'.trans (terminated_run _ _).symm)

end Parser

end ShellLift
