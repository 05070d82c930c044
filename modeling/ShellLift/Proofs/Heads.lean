import ShellLift.Proofs.Lexeme

/-!
# Heads of statements

For each head of a statement, and for the terminator behind a statement, the exact condition under
which its reader succeeds, in terms of the lexemes that stand there.
-/

set_option autoImplicit false

namespace ShellLift

open Step Cursor

/-- A step that reads a fixed word succeeds where the word comes next. -/
theorem Reading.expectWord_eq_ok {expected : Text} {c d : Cursor} :
    expectWord expected c = .ok () d ↔ c.skipSpaces.word = expected ∧
      d = c.skipSpaces.skipWord := by
  rw [expectWord_run]
  by_cases found : c.skipSpaces.word = expected
  · simp [found, eq_comm]
  · simp [found]

theorem Text.isBlank_of_isSpace {x : Char} (space : Text.isSpace x = true) :
    Text.isBlank x = true := by
  simp only [isSpace, Bool.or_eq_true, beq_iff_eq] at space
  rcases space with ((((rfl | rfl) | rfl) | rfl) | rfl) | rfl <;> decide

namespace Cursor

theorem skipSpaces_of_lineEnd {c : Cursor} (lineEnd : c.next? = none) : c.skipSpaces = c := by
  obtain ⟨row, before, _ | ⟨_ | ⟨x, line⟩, later⟩⟩ := c
  · rfl
  · simp [skipSpaces, skipWhile]
  · cases lineEnd

theorem skipSpaces_of_not_blank {c : Cursor} (notBlank : ¬ c.next?.any Text.isBlank = true) :
    c.skipSpaces = c := by
  cases next : c.next? with
  | none => exact skipSpaces_of_lineEnd next
  | some x =>
      rw [next, Option.any_some] at notBlank
      apply skipSpaces_of_next next
      by_contra space
      exact notBlank (Text.isBlank_of_isSpace (by simpa using space))

theorem isWord_word {c : Cursor} (word : c.word ≠ []) : Text.isWord c.word = true := by
  obtain ⟨row, before, _ | ⟨line, later⟩⟩ := c
  · exact absurd rfl word
  · have nonempty : List.isEmpty (line.takeWhile Text.isWordChar) = false := by
      simpa [Cursor.word, word?, rest?] using word
    show (!List.isEmpty (line.takeWhile Text.isWordChar) && _) = true
    rw [nonempty]
    exact List.all_takeWhile

theorem live_of_word {c : Cursor} (word : c.word ≠ []) : c.ahead ≠ [] := by
  obtain ⟨x, next, -⟩ := exists_next_of_word word
  exact live_of_next next

theorem passes_word (c : Cursor) : Passes c c.word c.skipWord := passes_skipWhile c _

end Cursor

/-- No argument comes next at the end of a line, at a semicolon, and at a comment. -/
theorem Expression.read?_value_none {c d : Cursor} (run : read? .value c = .ok none d) :
    (d = c.skipSpaces ∧ (d.next? = none ∨ d.next? = some ';')) ∨
      (c.atSpace = true ∧ c.skipSpaces.next? = some '#' ∧ d = c.skipSpaces.skipLineRest) := by
  rw [read?_run] at run
  cases next : c.skipSpaces.next? with
  | none =>
      simp only [next] at run
      cases run
      exact .inl ⟨rfl, .inl next⟩
  | some first =>
      have notSome : ∀ {step : Reading Expression} {e : Cursor},
          ¬ (some <$> step) e = .ok none d := by
        intro step e run
        obtain ⟨found, -, same⟩ := map_eq_ok.mp run
        cases same
      simp only [next, readValue?_run] at run
      by_cases dollar : first = '$'
      · rw [if_pos dollar] at run
        exact absurd run notSome
      rw [if_neg dollar] at run
      by_cases brackets : c.skipSpaces.startsWith "[[".toList = true
      · rw [if_pos brackets] at run
        exact absurd run notSome
      rw [if_neg brackets] at run
      by_cases semicolon : first = ';'
      · rw [if_pos semicolon] at run
        cases run
        exact .inl ⟨rfl, .inr (semicolon ▸ next)⟩
      rw [if_neg semicolon] at run
      by_cases hash : first = '#'
      · subst hash
        rw [if_pos rfl] at run
        split at run
        · rename_i spaced
          rw [skipComment, if_pos (by simp [atHash, next])] at run
          cases run
          exact .inr ⟨spaced, rfl, rfl⟩
        · cases run
      rw [if_neg hash] at run
      by_cases plain : Text.isPlainChar first = true
      · rw [if_pos plain] at run
        exact absurd run notSome
      rw [if_neg plain] at run
      cases mark : Quotation.ofMark? first with
      | none => simp [mark] at run
      | some style =>
          simp only [mark] at run
          exact absurd run notSome

namespace Statement

/-! ## Assignments -/

theorem readAssigned_eq_ok {kind : Option Binder} {target : Text} {value : Option Expression}
    {c d : Cursor} :
    readAssigned kind target c = .ok value d ↔
      match value with
      | some expression => c.startsWith "=".toList = true ∧
          ¬ (c.move 1).next?.any Text.isBlank = true ∧
          Expression.read .value (c.move 1) = .ok expression d
      | none => c.startsWith "=".toList = false ∧ kind = some .exported ∧ d = c := by
  rw [readAssigned_run]
  generalize c.startsWith "=".toList = equals
  cases equals with
  | true =>
      rw [if_pos rfl]
      by_cases blank : (c.move 1).next?.any Text.isBlank = true
      · cases value <;> simp [blank]
      · rw [if_neg blank, map_eq_ok]
        cases value with
        | none => simp
        | some expression => simp [blank]
  | false =>
      rw [if_neg Bool.false_ne_true]
      rcases kind with _ | _ | _ | _
      · cases value <;> simp
      · cases value with
        | none => simpa using eq_comm
        | some expression => simp
      · cases value <;> simp
      · cases value <;> simp

theorem readAssignment_eq_ok {kind : Option Binder} {statement : Statement} {c d : Cursor} :
    readAssignment kind c = .ok statement d ↔
      (targetStart kind c).word ≠ [] ∧ ∃ value,
        readAssigned kind (targetStart kind c).word (targetStart kind c).skipWord.skipSpaces =
          .ok value d ∧
        statement = .assignment ⟨c.location, d.location⟩ kind (targetStart kind c).word value := by
  rw [readAssignment_run]
  by_cases empty : (targetStart kind c).word = []
  · simp [empty]
  · have notEmpty : ¬ List.isEmpty (targetStart kind c).word = true := by simpa using empty
    rw [if_neg notEmpty]
    cases readAssigned kind (targetStart kind c).word (targetStart kind c).skipWord.skipSpaces with
    | ok value e =>
        simp only [EStateM.Result.ok.injEq]
        constructor
        · rintro ⟨rfl, rfl⟩
          exact ⟨empty, value, ⟨rfl, rfl⟩, rfl⟩
        · rintro ⟨-, value, ⟨rfl, rfl⟩, rfl⟩
          exact ⟨rfl, rfl⟩
    | error diagnostic e => simp

/-! ## Invocations -/

/-- The arguments of a command from a position on: where the last of them ends, and where the
reader stops behind blanks and a comment. -/
inductive Arguments : Cursor → List Expression → Cursor → Cursor → Prop
  | nil {c d : Cursor} : Expression.read? .value c = .ok none d → Arguments c [] c d
  | cons {c d stop last : Cursor} {argument : Expression} {arguments : List Expression} :
      Expression.read? .value c = .ok (some argument) d → endsArgument d.next? = true →
      Arguments d arguments stop last → Arguments c (argument :: arguments) stop last

theorem arguments_of_run {name : Text} {n count : Nat} {c d : Cursor} {arguments : List Expression}
    (run : readArguments name n count c = .ok arguments d) :
    ∃ stop, Arguments c arguments stop d := by
  induction n generalizing count c arguments with
  | zero => simp [readArguments, Reading.failHere_run] at run
  | succ n ih =>
      rw [readArguments_run, readArgument?_run] at run
      rcases found : Expression.read? .value c with ⟨_ | argument, e⟩ | ⟨diagnostic, e⟩
      · simp only [found] at run
        cases run
        exact ⟨c, .nil found⟩
      · simp only [found] at run
        by_cases ends : endsArgument e.next? = true
        · rw [if_pos ends] at run
          obtain ⟨others, rest, rfl⟩ := map_eq_ok.mp run
          obtain ⟨stop, tail⟩ := ih rest
          exact ⟨stop, .cons found ends tail⟩
        · rw [if_neg ends] at run
          cases run
      · simp [found] at run

theorem Arguments.run {c stop d : Cursor} {arguments : List Expression}
    (shape : Arguments c arguments stop d) (name : Text) (n count : Nat) (enough : c.size < n) :
    readArguments name n count c = .ok arguments d := by
  induction shape generalizing n count with
  | @nil c d found =>
      cases n with
      | zero => omega
      | succ n => rw [readArguments_run, readArgument?_run, found]
  | @cons c d stop last argument arguments found ends _ ih =>
      have shorter := Expression.read?_size_lt .value c d argument found
      cases n with
      | zero => omega
      | succ n =>
          rw [readArguments_run, readArgument?_run, found]
          simp only [if_pos ends]
          exact map_eq_ok.mpr ⟨arguments, ih n (count + 1) (by omega), rfl⟩

theorem arguments_of_readInvocation {kind : Callee} {n : Nat} {c d : Cursor} {statement : Statement}
    (run : readInvocation kind n c = .ok statement d) :
    ∃ arguments stop, Arguments c.skipWord arguments stop d ∧ statement =
      .invocation (invocationSpan c.location c.skipWord.location arguments)
        c.word arguments kind := by
  rw [readInvocation_run] at run
  cases found : readArguments c.word n 0 c.skipWord with
  | error diagnostic e => simp [found] at run
  | ok arguments e =>
      simp only [found, EStateM.Result.ok.injEq] at run
      obtain ⟨rfl, rfl⟩ := run
      obtain ⟨stop, shape⟩ := arguments_of_run found
      exact ⟨arguments, stop, shape, rfl⟩

theorem invocationSpan_cons (start stop : Location) (argument : Expression)
    (arguments : List Expression) :
    invocationSpan start stop (argument :: arguments) =
      invocationSpan start argument.span.stop arguments := by
  unfold invocationSpan
  rw [List.getLast?_cons]
  cases arguments.getLast? <;> rfl

/-- The span of a command ends with its last argument. -/
theorem Arguments.span {c stop d : Cursor} {arguments : List Expression}
    (shape : Arguments c arguments stop d) (clean : c.Clean) (start : Location) :
    invocationSpan start c.location arguments = ⟨start, stop.location⟩ := by
  induction shape with
  | nil _ => rfl
  | @cons c d stop last argument arguments found _ _ ih =>
      have lexed := Expression.read?_lexed clean found
      obtain ⟨padding, passes, -⟩ := lexed.passes
      have clean' : d.Clean := passes.clean ((passes_skipWhile c _).clean clean)
      rw [invocationSpan_cons, lexed.span]
      exact ih clean'

/-! ## Conditions and signatures -/

theorem readCondition_eq_ok {c d : Cursor} {condition : Expression} :
    readCondition c = .ok condition d ↔
      c.skipSpaces.word = "if".toList ∧ ∃ e,
        Expression.read .command c.skipSpaces.skipWord = .ok condition e ∧
        e.skipSpaces.startsWith ";".toList = true ∧
        (e.skipSpaces.move 1).skipIdle.skipSpaces.word = "then".toList ∧
        d = (e.skipSpaces.move 1).skipIdle.skipSpaces.skipWord := by
  unfold readCondition
  constructor
  · intro run
    obtain ⟨_, e, keyword, run⟩ := bind_eq_ok.mp run
    obtain ⟨word, rfl⟩ := Reading.expectWord_eq_ok.mp keyword
    obtain ⟨found, e, read, run⟩ := bind_eq_ok.mp run
    refine ⟨word, e, ?_⟩
    rw [bind_run, modify_run] at run
    dsimp only at run
    rw [Reading.eat_bind_run] at run
    by_cases semicolon : e.skipSpaces.startsWith ";".toList = true
    · rw [if_pos semicolon, if_pos rfl, bind_run, modify_run] at run
      dsimp only at run
      obtain ⟨_, f, keyword, last⟩ := bind_eq_ok.mp run
      obtain ⟨word, rfl⟩ := Reading.expectWord_eq_ok.mp keyword
      cases last
      exact ⟨read, semicolon, word, rfl⟩
    · rw [if_neg semicolon, if_neg Bool.false_ne_true] at run
      cases run
  · rintro ⟨word, e, read, semicolon, word', rfl⟩
    refine bind_eq_ok.mpr ⟨(), _, Reading.expectWord_eq_ok.mpr ⟨word, rfl⟩, ?_⟩
    refine bind_eq_ok.mpr ⟨condition, e, read, ?_⟩
    refine bind_eq_ok.mpr ⟨(), e.skipSpaces, rfl, ?_⟩
    rw [Reading.eat_bind_run, if_pos semicolon, if_pos rfl]
    refine bind_eq_ok.mpr ⟨(), _, rfl, ?_⟩
    exact bind_eq_ok.mpr ⟨(), _, Reading.expectWord_eq_ok.mpr ⟨word', rfl⟩, rfl⟩

theorem readSignature_eq_ok {rules : RuleTable} {start : Location} {c d : Cursor} {name : Text} :
    readSignature rules start c = .ok name d ↔
      c.skipSpaces.word = "function".toList ∧ c.skipSpaces.skipWord.skipSpaces.word = name ∧
        name ≠ [] ∧ rules.contains name = false ∧
        ∃ e, e = c.skipSpaces.skipWord.skipSpaces.skipWord.skipSpaces ∧ e.parametersLength ≠ 0 ∧
          (e.move e.parametersLength).skipIdle.startsWith "\x7b".toList = true ∧
          d = (e.move e.parametersLength).skipIdle.move 1 := by
  unfold readSignature
  constructor
  · intro run
    obtain ⟨_, e, keyword, run⟩ := bind_eq_ok.mp run
    obtain ⟨word, rfl⟩ := Reading.expectWord_eq_ok.mp keyword
    rw [bind_run, modify_run] at run
    dsimp only at run
    rw [bind_run, Reading.takeWord_run] at run
    dsimp only at run
    generalize c.skipSpaces.skipWord.skipSpaces = f at run ⊢
    by_cases empty : f.word.isEmpty = true
    · rw [if_pos empty] at run
      cases run
    · rw [if_neg empty] at run
      by_cases taken : rules.contains f.word = true
      · rw [if_pos taken] at run
        cases run
      · rw [if_neg taken, bind_run, modify_run] at run
        dsimp only at run
        rw [bind_run, get_run] at run
        dsimp only at run
        by_cases missing : f.skipWord.skipSpaces.parametersLength = 0
        · rw [if_pos missing] at run
          cases run
        · rw [if_neg missing, bind_run, set_run] at run
          dsimp only at run
          rw [Reading.eat_bind_run] at run
          split at run
          · rename_i brace
            cases run
            exact ⟨word, rfl, by simpa using empty, by simpa using taken,
              _, rfl, missing, brace, rfl⟩
          · cases run
  · rintro ⟨word, rfl, nonempty, free, e, rfl, parameters, brace, rfl⟩
    refine bind_eq_ok.mpr ⟨(), _, Reading.expectWord_eq_ok.mpr ⟨word, rfl⟩, ?_⟩
    refine bind_eq_ok.mpr ⟨(), _, rfl, bind_eq_ok.mpr ⟨_, _, rfl, ?_⟩⟩
    rw [if_neg (by simpa using nonempty), if_neg (by simp [free])]
    refine bind_eq_ok.mpr ⟨(), _, rfl, bind_eq_ok.mpr ⟨_, _, rfl, ?_⟩⟩
    rw [if_neg parameters]
    refine bind_eq_ok.mpr ⟨(), _, rfl, ?_⟩
    rw [Reading.eat_bind_run, if_pos brace]
    rfl

/-! ## Terminators -/

theorem readTerminator_eq_ok {kind : Kind} {c d : Cursor} :
    readTerminator kind c = .ok () d ↔
      (c.atSpace = true ∧ c.skipSpaces.next? = some '#' ∧ d = c.skipSpaces.skipLineRest) ∨
      (c.skipSpaces.startsWith ";".toList = true ∧ d = c.skipSpaces.move 1) ∨
      (c.skipSpaces.next? = none ∧ d = c.skipSpaces) := by
  rw [readTerminator_run]
  generalize c.skipSpaces = e
  have hashed : e.atHash = true ↔ e.next? = some '#' := by simp [atHash]
  constructor
  · intro run
    split at run
    · rename_i comment
      obtain ⟨spaced, hash⟩ := (Bool.and_eq_true _ _).mp comment
      rw [skipComment, if_pos hash] at run
      cases run
      exact .inl ⟨spaced, hashed.mp hash, rfl⟩
    · split at run
      · rename_i semicolon
        cases run
        exact .inr (.inl ⟨semicolon, rfl⟩)
      · split at run
        · rename_i lineEnd
          cases run
          exact .inr (.inr ⟨Option.isNone_iff_eq_none.mp lineEnd, rfl⟩)
        · cases run
  · rintro (⟨spaced, hash, rfl⟩ | ⟨semicolon, rfl⟩ | ⟨lineEnd, rfl⟩)
    · have hash' := hashed.mpr hash
      rw [if_pos (by rw [spaced, hash']; rfl), skipComment, if_pos hash']
    · have next : e.next? = some ';' := (passes_of_startsWith semicolon).1.next?_eq (by decide)
      rw [if_neg (by simp [atHash, next]), if_pos semicolon]
    · have noSemicolon : ¬ d.startsWith ";".toList = true := by
        intro starts
        have next := (passes_of_startsWith starts).1.next?_eq (by decide)
        rw [lineEnd] at next
        cases next
      have atLineEnd : d.atLineEnd = true := Option.isNone_iff_eq_none.mpr lineEnd
      rw [if_neg (by simp [atHash, lineEnd]), if_neg noSemicolon, if_pos atLineEnd]

/-- Where no argument comes next, the statement ends in the same way behind its last argument as
behind what the reader of arguments has passed. -/
theorem readTerminator_of_read? {kind : Kind} {c d e : Cursor}
    (none : Expression.read? .value c = .ok none d) (stop : readTerminator kind d = .ok () e) :
    readTerminator kind c = .ok () e := by
  rw [readTerminator_eq_ok] at stop ⊢
  rcases Expression.read?_value_none none with ⟨rfl, ends⟩ | ⟨spaced, hash, rfl⟩
  · have still : c.skipSpaces.skipSpaces = c.skipSpaces := by
      rcases ends with lineEnd | semicolon
      · exact skipSpaces_of_lineEnd lineEnd
      · exact skipSpaces_of_next semicolon (by decide)
    rw [still] at stop
    rcases stop with ⟨-, hash, -⟩ | others
    · rw [hash] at ends
      rcases ends with lineEnd | semicolon
      · cases lineEnd
      · cases semicolon
    · exact .inr others
  · have lineEnd : c.skipSpaces.skipLineRest.next? = Option.none := by
      cases next : c.skipSpaces.skipLineRest.next? with
      | none => rfl
      | some x => cases next?_skipWhile next
    rw [skipSpaces_of_lineEnd lineEnd] at stop
    rcases stop with ⟨-, hash', -⟩ | ⟨semicolon, -⟩ | ⟨-, rfl⟩
    · rw [lineEnd] at hash'
      cases hash'
    · have next : c.skipSpaces.skipLineRest.next? = some ';' :=
        (passes_of_startsWith semicolon).1.next?_eq (by decide)
      rw [lineEnd] at next
      cases next
    · exact .inl ⟨spaced, hash, rfl⟩

/-- Where a statement can end, no argument comes next. -/
theorem read?_of_readTerminator {kind : Kind} {c e : Cursor}
    (stop : readTerminator kind c = .ok () e) :
    ∃ d, Expression.read? .value c = .ok none d ∧ readTerminator kind d = .ok () e := by
  have ended : ∀ d : Cursor, d.next? = none → readTerminator kind d = .ok () d := by
    intro d lineEnd
    have still := skipSpaces_of_lineEnd lineEnd
    exact readTerminator_eq_ok.mpr (.inr (.inr ⟨by rw [still, lineEnd], still.symm⟩))
  rcases readTerminator_eq_ok.mp stop with ⟨spaced, hash, rfl⟩ | ⟨semicolon, rfl⟩ | ⟨lineEnd, rfl⟩
  · refine ⟨c.skipSpaces.skipLineRest, ?_, ended _ ?_⟩
    · have bare : ¬ c.skipSpaces.startsWith "[[".toList = true :=
        Expression.not_startsWith_brackets hash (by decide)
      rw [Expression.read?_run, hash]
      simp only [if_neg bare, spaced, Expression.readValue?_run, skipComment, atHash, hash]
      rfl
    · cases next : c.skipSpaces.skipLineRest.next? with
      | none => rfl
      | some x => cases next?_skipWhile next
  · have next : c.skipSpaces.next? = some ';' :=
      (passes_of_startsWith semicolon).1.next?_eq (by decide)
    have still : c.skipSpaces.skipSpaces = c.skipSpaces := skipSpaces_of_next next (by decide)
    have bare : ¬ c.skipSpaces.startsWith "[[".toList = true :=
      Expression.not_startsWith_brackets next (by decide)
    refine ⟨c.skipSpaces, ?_, readTerminator_eq_ok.mpr (.inr (.inl ?_))⟩
    · rw [Expression.read?_run, next]
      simp only [if_neg bare]
      rfl
    · rw [still]
      exact ⟨semicolon, rfl⟩
  · refine ⟨c.skipSpaces, ?_, ended _ lineEnd⟩
    rw [Expression.read?_run, lineEnd]

end Statement

end ShellLift
