import ShellLift.Proofs.Progress

/-!
# Allowances never run out

Every loop of the parser runs within an allowance. Two runs agree whenever both allowances are
above the size of what is ahead, so no answer depends on the allowance that a run was given.
The reason is progress: an argument has at least one character and a statement at least the
characters of its first word, so every turn of a loop leaves less ahead of the cursor.
-/

set_option autoImplicit false

namespace ShellLift

open Step Cursor

/-! ## What a turn takes away -/

namespace Cursor

theorem move_size_lt (c : Cursor) (x : Char) (count : Nat) (next : c.next? = some x)
    (moves : 0 < count) : (c.move count).size < c.size := by
  obtain ⟨row, before, _ | ⟨_ | ⟨y, line⟩, later⟩⟩ := c
  · simp [next?, rest?] at next
  · simp [next?, rest?] at next
  · have passed := (passes_move ⟨row, before, (y :: line) :: later⟩ count).size_le
    simp only [rest?, List.head?_cons, Option.getD_some, List.length_take, List.length_cons]
      at passed
    omega

theorem skipWhile_size_lt (c : Cursor) (test : Char → Bool) (x : Char) (next : c.next? = some x)
    (passes : test x = true) : (c.skipWhile test).size < c.size := by
  obtain ⟨row, before, _ | ⟨_ | ⟨y, line⟩, later⟩⟩ := c
  · simp [next?, rest?] at next
  · simp [next?, rest?] at next
  · obtain rfl : y = x := by simpa [next?, rest?] using next
    have passed := (passes_skipWhile ⟨row, before, (y :: line) :: later⟩ test).size_le
    simp only [run?, rest?, List.head?_cons, Option.map_some, Option.getD_some,
      List.takeWhile_cons_of_pos passes, List.length_cons] at passed
    omega

theorem word_eq_nil_iff (c : Cursor) : c.word = [] ↔ ¬ c.next?.any Text.isWordChar = true := by
  obtain ⟨row, before, _ | ⟨_ | ⟨y, line⟩, later⟩⟩ := c
  · simp [word, word?, next?, rest?]
  · simp [word, word?, next?, rest?]
  · simp [word, word?, next?, rest?, List.takeWhile_cons]

theorem exists_next_of_word {c : Cursor} (word : c.word ≠ []) :
    ∃ x, c.next? = some x ∧ Text.isWordChar x = true := by
  rw [Ne, word_eq_nil_iff, not_not, Option.any_eq_true] at word
  exact word

theorem skipWord_size_lt {c : Cursor} (word : c.word ≠ []) : c.skipWord.size < c.size := by
  obtain ⟨x, next, isWord⟩ := exists_next_of_word word
  exact skipWhile_size_lt c _ x next isWord

theorem skipSpaces_of_next {c : Cursor} {x : Char} (next : c.next? = some x)
    (solid : Text.isSpace x = false) : c.skipSpaces = c := by
  obtain ⟨row, before, _ | ⟨_ | ⟨y, line⟩, later⟩⟩ := c
  · simp [next?, rest?] at next
  · simp [next?, rest?] at next
  · obtain rfl : y = x := by simpa [next?, rest?] using next
    simp [skipSpaces, skipWhile, solid]

end Cursor

theorem Text.isSpace_of_isWordChar {x : Char} (word : Text.isWordChar x = true) :
    Text.isSpace x = false := by
  by_contra space
  simp only [Bool.not_eq_false, isSpace, Bool.or_eq_true, beq_iff_eq] at space
  rcases space with ((((rfl | rfl) | rfl) | rfl) | rfl) | rfl
  all_goals exact absurd word (by decide)

theorem Cursor.skipSpaces_of_word {c : Cursor} (word : c.word ≠ []) : c.skipSpaces = c := by
  obtain ⟨x, next, isWord⟩ := exists_next_of_word word
  exact skipSpaces_of_next next (Text.isSpace_of_isWordChar isWord)

theorem BracketPair.read_size_lt (d : BracketPair) (c e : Cursor) (text : Text) (x : Char)
    (next : c.next? = some x) (token : d.opening ≠ []) (success : d.read c = .ok text e) :
    e.size < c.size := by
  have opened := c.move_size_lt x d.opening.length next (List.length_pos_iff.mpr token)
  rw [read_run] at success
  split at success
  · cases found : d.close? 1 (c.move d.opening.length).row (c.move d.opening.length).before
        (c.move d.opening.length).ahead with
    | none => simp [found] at success
    | some pair =>
        simp only [found, EStateM.Result.ok.injEq] at success
        have passes := d.close?_passes _ _ _ _ pair.1 pair.2 found
        have closed := passes.size_le
        rw [← success.2]
        exact Nat.lt_of_le_of_lt (Nat.le_of_add_right_le closed) opened
  · simp at success

theorem Quotation.read_size_lt (style : Quotation) (c d : Cursor) (text : Text)
    (success : style.read c = .ok text d) : d.size < c.size := by
  obtain ⟨row, before, _ | ⟨_ | ⟨first, line⟩, later⟩⟩ := c
  · simp [read, bind_run, get_run, Reading.failHere_run] at success
  · simp [read, bind_run, get_run, Reading.failHere_run] at success
  · rw [read_run] at success
    split at success
    · cases found : style.close? [] line with
      | none => simp [found] at success
      | some pair =>
          simp only [found, EStateM.Result.ok.injEq] at success
          rw [← success.2]
          exact move_size_lt _ first _ rfl (by omega)
    · simp at success

/-- An expression that was read has at least one character. -/
theorem Expression.read?_size_lt (position : Position) (c d : Cursor) (expression : Expression)
    (success : read? position c = .ok (some expression) d) : d.size < c.size := by
  refine Nat.lt_of_lt_of_le ?_ (follows_skipSpaces c).size_le
  rw [read?_run] at success
  cases next : c.skipSpaces.next? with
  | none => simp [next] at success
  | some first =>
      simp only [next] at success
      split at success
      · obtain ⟨value, run, _⟩ := map_eq_ok.mp success
        have dollar := c.skipSpaces.move_size_lt first 1 next Nat.one_pos
        have rest := Forward.readSubcommand c.skipSpaces.location (c.skipSpaces.move 1)
        rw [run] at rest
        exact Nat.lt_of_le_of_lt rest.size_le dollar
      · split at success
        · obtain ⟨value, run, _⟩ := map_eq_ok.mp success
          obtain ⟨text, e, scanned, up⟩ := bind_eq_ok.mp run
          cases up
          exact BracketPair.doubleSquare.read_size_lt _ _ text first next (by decide) scanned
        · split at success
          · simp at success
          · cases position with
            | command =>
                dsimp only at success
                rw [readCommand?_run] at success
                split at success
                · simp at success
                · rename_i notEnd _
                  cases success
                  refine skipWhile_size_lt _ _ first next ?_
                  simpa [isCommandChar] using notEnd
            | value =>
                dsimp only at success
                rw [readValue?_run] at success
                split at success
                · split at success
                  · simp at success
                  · simp at success
                · split at success
                  · rename_i plain
                    obtain ⟨value, run, _⟩ := map_eq_ok.mp success
                    rw [readLiteral_run] at run
                    cases run
                    exact skipWhile_size_lt _ _ first next plain
                  · cases mark : Quotation.ofMark? first with
                    | none => simp [mark] at success
                    | some style =>
                        simp only [mark] at success
                        obtain ⟨value, run, _⟩ := map_eq_ok.mp success
                        obtain ⟨text, e, scanned, up⟩ := bind_eq_ok.mp run
                        cases up
                        exact style.read_size_lt _ _ text scanned

theorem Statement.readArgument?_size_lt {name : Text} {count : Nat} {c d : Cursor}
    {argument : Expression}
    (found : readArgument? name count c = .ok (some argument) d) : d.size < c.size := by
  rw [readArgument?_run] at found
  rcases value : Expression.read? .value c with ⟨_ | expression, e⟩ | ⟨diagnostic, e⟩
  · simp [value] at found
  · simp only [value] at found
    split at found
    · cases found
      exact Expression.read?_size_lt _ _ _ _ value
    · simp at found
  · simp [value] at found

/-! ## Runs that agree -/

theorem Statement.readArguments_allowance (name : Text) (n m count : Nat) (c : Cursor)
    (left : c.size < n) (right : c.size < m) :
    readArguments name n count c = readArguments name m count c := by
  induction n generalizing m count c with
  | zero => omega
  | succ n ih =>
      cases m with
      | zero => omega
      | succ m =>
          rw [readArguments_run, readArguments_run]
          rcases run : readArgument? name count c with ⟨_ | argument, d⟩ | ⟨diagnostic, d⟩
          · rfl
          · have shorter := readArgument?_size_lt run
            simp only [map_run]
            rw [ih m (count + 1) d (by omega) (by omega)]
          · rfl

theorem Statement.readInvocation_allowance (kind : Callee) (n m : Nat) (c : Cursor)
    (word : c.word ≠ []) (left : c.size ≤ n) (right : c.size ≤ m) :
    readInvocation kind n c = readInvocation kind m c := by
  have shorter := skipWord_size_lt word
  rw [readInvocation_run, readInvocation_run,
    readArguments_allowance c.word n m 0 c.skipWord (by omega) (by omega)]

theorem Body.eq_of_readEnd_false {body : Body} {c d : Cursor}
    (goesOn : body.readEnd c = .ok false d) : d = c := by
  cases body with
  | conditional =>
      rw [readEnd_conditional_run] at goesOn
      split at goesOn
      · simp at goesOn
      · split at goesOn
        · simp at goesOn
        · simpa using goesOn.symm
  | function name =>
      rw [readEnd_function_run] at goesOn
      split at goesOn
      · simp at goesOn
      · simpa using goesOn.symm

namespace Parser

/-- Two steps for statements that agree ahead of a parser make the same body there. -/
theorem readBody_allowance {f g : Parsing (Option Statement)} (bound : Nat)
    (agree : ∀ q : Parser, q.cursor.size ≤ bound → f q = g q)
    (shrinks : ∀ (q q' : Parser) (s : Statement), f q = .ok (some s) q' →
      q'.cursor.size < q.cursor.size)
    (ends : ∀ q q' : Parser, f q = .ok none q' → q.cursor.skipIdle.atEnd = true)
    (body : Body) (start : Location) (n m : Nat) (p : Parser) (within : p.cursor.size ≤ bound)
    (left : p.cursor.size < n) (right : p.cursor.size < m) :
    readBody f body start n p = readBody g body start m p := by
  induction n generalizing m p with
  | zero => omega
  | succ n ih =>
      cases m with
      | zero => omega
      | succ m =>
          have idle := (follows_skipIdle p.cursor).size_le
          rw [readBody_run, readBody_run]
          split
          · rfl
          · rename_i notEnd
            rcases closing : body.readEnd p.cursor.skipIdle with ⟨_ | _, c⟩ | ⟨diagnostic, c⟩
            · obtain rfl := Body.eq_of_readEnd_false closing
              dsimp only
              rw [bind_run, bind_run,
                ← agree ⟨p.cursor.skipIdle, p.rules⟩ (Nat.le_trans idle within)]
              rcases run : f ⟨p.cursor.skipIdle, p.rules⟩ with ⟨_ | first, q⟩ | ⟨diagnostic, q⟩
              · have atEnd := ends _ _ run
                rw [skipIdle_skipIdle] at atEnd
                exact absurd atEnd notEnd
              · have shorter := shrinks _ _ _ run
                dsimp only at shorter
                simp only [readRest, map_run]
                rw [ih m q (by omega) (by omega) (by omega)]
              · rfl
            · rfl
            · rfl

end Parser

/-! ## Heads of statements -/

namespace Statement

/-- The text of an assignment goes on behind its first word. -/
theorem readAssignment_follows (kind : Option Binder) (c : Cursor) :
    Follows c.skipWord (final (readAssignment kind c)) := by
  have first : Follows c.skipWord (targetStart kind c).skipWord := by
    cases kind with
    | none => exact .refl _
    | some binder => exact (follows_skipSpaces _).trans (follows_skipWord _)
  rw [readAssignment_run]
  split
  · exact first
  · have value := Forward.readAssigned kind (targetStart kind c).word
      (targetStart kind c).skipWord.skipSpaces
    have follows := first.trans ((follows_skipSpaces _).trans value)
    cases run : readAssigned kind (targetStart kind c).word
        (targetStart kind c).skipWord.skipSpaces with
    | ok value d => rwa [run] at follows
    | error diagnostic d => rwa [run] at follows

theorem readInvocation_follows (kind : Callee) (allowance : Nat) (c : Cursor) :
    Follows c.skipWord (final (readInvocation kind allowance c)) := by
  have follows := Forward.readArguments c.word allowance 0 c.skipWord
  rw [readInvocation_run]
  cases run : readArguments c.word allowance 0 c.skipWord with
  | ok arguments d => rwa [run] at follows
  | error diagnostic d => rwa [run] at follows

theorem expectWord_follows {c : Cursor} (word : c.word ≠ []) (expected : Text) :
    Follows c.skipWord (final (Reading.expectWord expected c)) := by
  rw [Reading.expectWord_run, skipSpaces_of_word word]
  split
  · exact .refl _
  · exact .refl _

theorem readCondition_follows {c : Cursor} (word : c.word ≠ []) :
    Follows c.skipWord (final (readCondition c)) := by
  refine Forward.at_bind (expectWord_follows word _) fun _ => ?_
  refine .bind (.read _) fun condition => .bind (.modify follows_skipSpaces) fun _ => ?_
  refine .bind (.eat _) fun found => .ite ?_ (.failHere _)
  exact .bind (.modify follows_skipIdle) fun _ => .bind (.expectWord _) fun _ => .pure condition

theorem readSignature_follows {c : Cursor} (word : c.word ≠ []) (rules : RuleTable)
    (start : Location) : Follows c.skipWord (final (readSignature rules start c)) := by
  refine Forward.at_bind (expectWord_follows word _) fun _ => ?_
  refine .bind (.modify follows_skipSpaces) fun _ => .bind .takeWord fun name => ?_
  refine .ite (.failHere _) (.ite (.failAt _ _) ?_)
  refine .bind (.modify follows_skipSpaces) fun _ => .get fun d => ?_
  rw [ite_run]
  split
  · exact .refl d
  · refine Forward.at_set ((follows_move d _).trans (follows_skipIdle _)) ?_
    exact .bind (.eat _) fun found => .ite (.pure name) (.failHere _)

end Statement

namespace Parser

theorem readConditional_allowance {f g : Parsing (Option Statement)} (n m : Nat) (p : Parser)
    (agree : ∀ q : Parser, q.cursor.size < p.cursor.size → f q = g q)
    (shrinks : ∀ (q q' : Parser) (s : Statement), f q = .ok (some s) q' →
      q'.cursor.size < q.cursor.size)
    (ends : ∀ q q' : Parser, f q = .ok none q' → q.cursor.skipIdle.atEnd = true)
    (word : p.cursor.word ≠ []) (left : p.cursor.size ≤ n) (right : p.cursor.size ≤ m) :
    readConditional f n p = readConditional g m p := by
  have head := (Statement.readCondition_follows word).size_le
  have shorter := skipWord_size_lt word
  rw [readConditional_run, readConditional_run]
  rcases run : Statement.readCondition p.cursor with ⟨condition, c⟩ | ⟨diagnostic, c⟩
  · rw [run] at head
    have behind : c.size < p.cursor.size := Nat.lt_of_le_of_lt head shorter
    dsimp only
    rw [readBody_allowance c.size (fun q within => agree q (by omega)) shrinks ends .conditional
      p.cursor.location n m ⟨c, p.rules⟩ (Nat.le_refl _) (by dsimp only; omega)
      (by dsimp only; omega)]
  · rfl

theorem readFunction_allowance {f g : Parsing (Option Statement)} (n m : Nat) (p : Parser)
    (agree : ∀ q : Parser, q.cursor.size < p.cursor.size → f q = g q)
    (shrinks : ∀ (q q' : Parser) (s : Statement), f q = .ok (some s) q' →
      q'.cursor.size < q.cursor.size)
    (ends : ∀ q q' : Parser, f q = .ok none q' → q.cursor.skipIdle.atEnd = true)
    (word : p.cursor.word ≠ []) (left : p.cursor.size ≤ n) (right : p.cursor.size ≤ m) :
    readFunction f n p = readFunction g m p := by
  have head := (Statement.readSignature_follows word p.rules p.cursor.location).size_le
  have shorter := skipWord_size_lt word
  rw [readFunction_run, readFunction_run]
  rcases run : Statement.readSignature p.rules p.cursor.location p.cursor with
    ⟨name, c⟩ | ⟨diagnostic, c⟩
  · rw [run] at head
    have behind : c.size < p.cursor.size := Nat.lt_of_le_of_lt head shorter
    dsimp only
    rw [readBody_allowance c.size (fun q within => agree q (by omega)) shrinks ends
      (.function name) p.cursor.location n m ⟨c, p.rules⟩ (Nat.le_refl _) (by dsimp only; omega)
      (by dsimp only; omega)]
  · rfl

theorem readByRule_allowance {f g : Parsing (Option Statement)} (n m : Nat) (p : Parser)
    (agree : ∀ q : Parser, q.cursor.size < p.cursor.size → f q = g q)
    (shrinks : ∀ (q q' : Parser) (s : Statement), f q = .ok (some s) q' →
      q'.cursor.size < q.cursor.size)
    (ends : ∀ q q' : Parser, f q = .ok none q' → q.cursor.skipIdle.atEnd = true)
    (word : p.cursor.word ≠ []) (left : p.cursor.size ≤ n) (right : p.cursor.size ≤ m) :
    readByRule f n p.cursor.word p = readByRule g m p.cursor.word p := by
  rw [readByRule_run, readByRule_run]
  rcases p.rules.get? p.cursor.word with _ | kind | _ | _ | kind
  · rfl
  · rfl
  · exact readConditional_allowance n m p agree shrinks ends word left right
  · exact readFunction_allowance n m p agree shrinks ends word left right
  · simp only [reading_run, Statement.readInvocation_allowance kind n m p.cursor word left right]

/-- A statement that was read goes on behind its first word. -/
theorem readByRule_follows {f : Parsing (Option Statement)} (advances : Advances f) (n : Nat)
    (p q : Parser) (s : Statement) (word : p.cursor.word ≠ [])
    (success : readByRule f n p.cursor.word p = .ok s q) : Follows p.cursor.skipWord q.cursor := by
  rw [readByRule_run] at success
  rcases rule : p.rules.get? p.cursor.word with _ | kind | _ | _ | kind
  · simp only [rule] at success
    split at success
    · simp at success
    · have follows := Statement.readAssignment_follows none p.cursor
      rwa [(reading_eq_ok.mp success).1] at follows
  · simp only [rule] at success
    have follows := Statement.readAssignment_follows (some kind) p.cursor
    rwa [(reading_eq_ok.mp success).1] at follows
  · simp only [rule, readConditional_run] at success
    have head := Statement.readCondition_follows word
    rcases run : Statement.readCondition p.cursor with ⟨condition, c⟩ | ⟨diagnostic, c⟩
    · rw [run] at head
      have body := advances_readBody advances .conditional p.cursor.location n ⟨c, p.rules⟩
      simp only [run] at success
      rcases inner : readBody f .conditional p.cursor.location n ⟨c, p.rules⟩ with
        ⟨statements, r⟩ | ⟨diagnostic, r⟩
      · rw [inner] at body
        simp only [inner] at success
        cases success
        exact head.trans body
      · simp [inner] at success
    · simp [run] at success
  · simp only [rule, readFunction_run] at success
    have head := Statement.readSignature_follows word p.rules p.cursor.location
    rcases run : Statement.readSignature p.rules p.cursor.location p.cursor with
      ⟨name, c⟩ | ⟨diagnostic, c⟩
    · rw [run] at head
      have body := advances_readBody advances (.function name) p.cursor.location n ⟨c, p.rules⟩
      simp only [run] at success
      rcases inner : readBody f (.function name) p.cursor.location n ⟨c, p.rules⟩ with
        ⟨statements, r⟩ | ⟨diagnostic, r⟩
      · rw [inner] at body
        simp only [inner] at success
        split at success
        · cases success
          exact head.trans body
        · simp at success
      · simp [inner] at success
    · simp [run] at success
  · simp only [rule] at success
    have follows := Statement.readInvocation_follows kind n p.cursor
    rwa [(reading_eq_ok.mp success).1] at follows

theorem readStatement?_size_lt (n : Nat) (p q : Parser) (s : Statement)
    (success : readStatement? n p = .ok (some s) q) : q.cursor.size < p.cursor.size := by
  cases n with
  | zero => simp [readStatement?, reading_run, Reading.failHere_run] at success
  | succ n =>
      have idle := (follows_skipIdle p.cursor).size_le
      rw [readStatement?_run] at success
      split at success
      · simp at success
      · split at success
        · simp at success
        · rename_i notEnd notEmpty
          have word : p.cursor.skipIdle.word ≠ [] := by simpa using notEmpty
          rcases run : readByRule (readStatement? n) n p.cursor.skipIdle.word
              ⟨p.cursor.skipIdle, p.rules⟩ with ⟨statement, r⟩ | ⟨diagnostic, r⟩
          · have head := readByRule_follows (advances_readStatement? n) n
              ⟨p.cursor.skipIdle, p.rules⟩ r statement word run
            have tail := Forward.readTerminator statement.kind r.cursor
            have shorter := skipWord_size_lt word
            simp only [run] at success
            rcases stop : Statement.readTerminator statement.kind r.cursor with
              ⟨_, c⟩ | ⟨diagnostic, c⟩
            · rw [stop] at tail
              simp only [stop] at success
              cases success
              have behind := (head.trans tail).size_le
              exact Nat.lt_of_le_of_lt behind (Nat.lt_of_lt_of_le shorter idle)
            · simp [stop] at success
          · simp [run] at success

theorem atEnd_of_readStatement?_none (n : Nat) (p q : Parser)
    (success : readStatement? n p = .ok none q) :
    p.cursor.skipIdle.atEnd = true ∧ q = ⟨p.cursor.skipIdle, p.rules⟩ := by
  cases n with
  | zero => simp [readStatement?, reading_run, Reading.failHere_run] at success
  | succ n =>
      rw [readStatement?_run] at success
      split at success
      · rename_i atEnd
        exact ⟨atEnd, by simpa using success.symm⟩
      · split at success
        · simp at success
        · split at success
          · split at success
            · simp at success
            · simp at success
          · simp at success

/-- The answer of a step does not depend on its allowance. -/
theorem readStatement?_allowance (n m : Nat) (p : Parser) (left : p.cursor.size < n)
    (right : p.cursor.size < m) : readStatement? n p = readStatement? m p := by
  induction n generalizing m p with
  | zero => omega
  | succ n ih =>
      cases m with
      | zero => omega
      | succ m =>
          have idle := (follows_skipIdle p.cursor).size_le
          rw [readStatement?_run, readStatement?_run]
          split
          · rfl
          · split
            · rfl
            · rename_i notEnd notEmpty
              have word : p.cursor.skipIdle.word ≠ [] := by simpa using notEmpty
              have same := readByRule_allowance n m ⟨p.cursor.skipIdle, p.rules⟩
                (fun q shorter => ih m q (by dsimp only at shorter; omega)
                  (by dsimp only at shorter; omega))
                (fun q q' s => readStatement?_size_lt n q q' s)
                (fun q q' none => (atEnd_of_readStatement?_none n q q' none).1) word
                (by dsimp only; omega) (by dsimp only; omega)
              dsimp only at same
              rw [same]

/-- The answer of a run does not depend on its allowance. -/
theorem readStatements_allowance (n m : Nat) (p : Parser) (left : p.cursor.size < n)
    (right : p.cursor.size < m) : readStatements n p = readStatements m p := by
  induction n generalizing m p with
  | zero => omega
  | succ n ih =>
      cases m with
      | zero => omega
      | succ m =>
          rw [readStatements_run, readStatements_run,
            readStatement?_allowance (n + 1) (m + 1) p left right]
          rcases run : readStatement? (m + 1) p with ⟨_ | first, q⟩ | ⟨diagnostic, q⟩
          · rfl
          · have shorter := readStatement?_size_lt (m + 1) p q first run
            simp only [map_run]
            rw [ih m q (by omega) (by omega)]
          · rfl

/-! ## One statement after another, without an allowance -/

theorem statement?_eq {n : Nat} {p : Parser} (enough : p.cursor.size < n) :
    readStatement? n p = statement? p :=
  readStatement?_allowance _ _ p enough (Nat.lt_succ_self _)

theorem statement?_run (p : Parser) :
    statement? p =
      if p.cursor.skipIdle.atEnd then .ok none ⟨p.cursor.skipIdle, p.rules⟩
      else if p.cursor.skipIdle.word.isEmpty then
        .error (.located (.expectedStatement p.cursor.skipIdle.next?) p.cursor.skipIdle.location)
          ⟨p.cursor.skipIdle, p.rules⟩
      else
        match readByRule statement? p.cursor.size p.cursor.skipIdle.word
            ⟨p.cursor.skipIdle, p.rules⟩ with
        | .ok statement next =>
          match Statement.readTerminator statement.kind next.cursor with
          | .ok _ c => .ok (some statement) ⟨c, next.rules⟩
          | .error diagnostic c => .error diagnostic ⟨c, next.rules⟩
        | .error diagnostic next => .error diagnostic next := by
  have idle := (follows_skipIdle p.cursor).size_le
  unfold statement?
  rw [readStatement?_run]
  split
  · rfl
  · split
    · rfl
    · rename_i notEnd notEmpty
      have word : p.cursor.skipIdle.word ≠ [] := by simpa using notEmpty
      have same := readByRule_allowance p.cursor.size p.cursor.size ⟨p.cursor.skipIdle, p.rules⟩
        (fun q shorter => statement?_eq (Nat.lt_of_lt_of_le shorter idle))
        (fun q q' s => readStatement?_size_lt _ q q' s)
        (fun q q' none => (atEnd_of_readStatement?_none _ q q' none).1) word idle idle
      dsimp only at same
      rw [same]
      rfl

theorem statements_run (p : Parser) :
    statements p = match statement? p with
      | .ok (some first) q => (List.cons first <$> statements) q
      | .ok none q => .ok [] q
      | .error diagnostic q => .error diagnostic q := by
  have run := readStatements_run p.cursor.size p
  show readStatements (p.cursor.size + 1) p = _
  rw [run]
  show (match statement? p with | .ok (some first) q => _ | .ok none q => _ | .error _ q => _) = _
  rcases run : statement? p with ⟨_ | first, q⟩ | ⟨diagnostic, q⟩
  · rfl
  · have shorter := readStatement?_size_lt _ p q first run
    have same : readStatements p.cursor.size q = statements q :=
      readStatements_allowance _ _ q shorter (Nat.lt_succ_self _)
    simp only [map_run, same]
  · rfl

theorem statement?_of_statements_nil {p q : Parser} (run : statements p = .ok [] q) :
    statement? p = .ok none q := by
  rw [statements_run] at run
  rcases one : statement? p with ⟨_ | first, r⟩ | ⟨diagnostic, r⟩
  · simp only [one, EStateM.Result.ok.injEq, true_and] at run
    rw [run]
  · simp only [one, map_eq_ok] at run
    obtain ⟨others, -, nil⟩ := run
    exact absurd nil (List.cons_ne_nil _ _)
  · simp [one] at run

theorem statement?_of_statements_cons {p q : Parser} {first : Statement} {others : List Statement}
    (run : statements p = .ok (first :: others) q) :
    ∃ r, statement? p = .ok (some first) r ∧ statements r = .ok others q := by
  rw [statements_run] at run
  rcases one : statement? p with ⟨_ | found, r⟩ | ⟨diagnostic, r⟩
  · simp [one] at run
  · simp only [one, map_eq_ok] at run
    obtain ⟨found', rest, same⟩ := run
    obtain ⟨rfl, rfl⟩ := List.cons.inj same
    exact ⟨r, rfl, rest⟩
  · simp [one] at run

/-- What is read depends on the position past the idle lines only. -/
theorem statement?_congr {p q : Parser} (idle : p.cursor.skipIdle = q.cursor.skipIdle)
    (rules : p.rules = q.rules) : statement? p = statement? q := by
  let n := p.cursor.size + q.cursor.size
  rw [← statement?_eq (show p.cursor.size < n + 1 by omega),
    ← statement?_eq (show q.cursor.size < n + 1 by omega), readStatement?_run, readStatement?_run,
    idle, rules]

theorem statements_congr {p q : Parser} (idle : p.cursor.skipIdle = q.cursor.skipIdle)
    (rules : p.rules = q.rules) : statements p = statements q := by
  rw [statements_run, statements_run, statement?_congr idle rules]

end Parser

end ShellLift
