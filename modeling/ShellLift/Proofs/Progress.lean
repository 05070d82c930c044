import ShellLift.Proofs.Passage

/-!
# Steps only go forward

Whatever a step comes to, the cursor ends at or behind the position where it started. A statement
that was read has at least its first word, so the cursor is strictly further then.
-/

set_option autoImplicit false

namespace ShellLift

open Step Cursor

/-! ## Forward steps -/

/-- The step ends at or behind the position where it starts, also when it fails. -/
def Forward {α : Type} (step : Reading α) : Prop := ∀ c, Follows c (final (step c))

namespace Forward

variable {α β : Type}

theorem of_ok {step : Reading α} (forward : Forward step) {c d : Cursor} {value : α}
    (run : step c = .ok value d) : Follows c d := by
  have follows := forward c
  rwa [run] at follows

theorem at_bind {step : Reading α} {next : α → Reading β} {b c : Cursor}
    (first : Follows b (final (step c))) (second : ∀ value, Forward (next value)) :
    Follows b (final ((step >>= next) c)) := by
  rw [bind_run]
  cases run : step c with
  | ok value d =>
      rw [run] at first
      exact first.trans (second value d)
  | error diagnostic d =>
      rw [run] at first
      exact first

theorem at_set {next : PUnit → Reading α} {c d : Cursor} (first : Follows c d)
    (second : Forward (next ⟨⟩)) : Follows c (final ((set d >>= next) c)) :=
  first.trans (second d)

theorem bind {step : Reading α} {next : α → Reading β} (first : Forward step)
    (second : ∀ value, Forward (next value)) : Forward (step >>= next) :=
  fun c => at_bind (first c) second

theorem map {step : Reading α} (f : α → β) (forward : Forward step) : Forward (f <$> step) := by
  intro c
  rw [map_run]
  have follows := forward c
  cases run : step c with
  | ok value d =>
      rw [run] at follows
      exact follows
  | error diagnostic d =>
      rw [run] at follows
      exact follows

theorem pure (value : α) : Forward (Pure.pure value : Reading α) := Follows.refl

theorem failHere (cause : Diagnostic.Cause) : Forward (Reading.failHere cause : Reading α) :=
  Follows.refl

theorem failAt (location : Location) (cause : Diagnostic.Cause) :
    Forward (Reading.failAt location cause : Reading α) := Follows.refl

theorem modify {f : Cursor → Cursor} (follows : ∀ c, Follows c (f c)) :
    Forward (modify f : Reading Unit) := follows

/-- A step that looks at the cursor goes forward if it does so from the cursor it looks at. -/
theorem get {next : Cursor → Reading α} (forward : ∀ c, Follows c (final (next c c))) :
    Forward (MonadState.get >>= next) := forward

theorem ite {condition : Prop} [Decidable condition] {yes no : Reading α} (left : Forward yes)
    (right : Forward no) : Forward (if condition then yes else no) := by
  split
  · exact left
  · exact right

theorem eat (piece : Text) : Forward (Reading.eat piece) := by
  intro c
  rw [Reading.eat_run]
  split
  · exact follows_move c _
  · exact .refl c

theorem takeWord : Forward Reading.takeWord := follows_skipWord

theorem expectWord (expected : Text) : Forward (Reading.expectWord expected) := by
  intro c
  have follows := (follows_skipSpaces c).trans (follows_skipWord c.skipSpaces)
  rw [Reading.expectWord_run]
  split
  · exact follows
  · exact follows

end Forward

/-! ## Delimited spans -/

namespace BracketPair

theorem search_eq (d : BracketPair) (depth skip : Nat) (line inside rest : Text)
    (found : d.search depth skip line = .closed inside rest) :
    line = inside ++ d.closing ++ rest := by
  induction line generalizing depth skip inside with
  | nil => simp [search] at found
  | cons x line ih =>
      have step : ∀ depth skip, (d.search depth skip line).cons x = .closed inside rest →
          x :: line = inside ++ d.closing ++ rest := by
        intro depth skip found
        cases run : d.search depth skip line with
        | pending depth => rw [run] at found; cases found
        | closed more left =>
            rw [run] at found
            cases found
            rw [ih depth skip more run]
            simp
      cases skip with
      | succ skip => exact step depth skip found
      | zero =>
          rw [search] at found
          split at found
          · rename_i closes
            split at found
            · cases found
              obtain ⟨left, same⟩ := List.isPrefixOf_iff_prefix.mp closes
              rw [← same, List.drop_left, List.nil_append]
            · exact step _ _ found
          · split at found
            · exact step _ _ found
            · exact step _ _ found

/-- The end of a span is reached by going over the text inside and the closing token. -/
theorem close?_passes (d : BracketPair) (depth row : Nat) (before : Text) (lines : List Text)
    (inside : Text) (stop : Cursor)
    (found : d.close? depth row before lines = some (inside, stop)) :
    Passes ⟨row, before, lines⟩ (inside ++ d.closing) stop := by
  induction lines generalizing depth row before inside with
  | nil => simp [close?] at found
  | cons line later ih =>
      rw [close?] at found
      cases run : d.search depth 0 line with
      | closed text rest =>
          simp only [run, Option.some.injEq, Prod.mk.injEq] at found
          obtain ⟨rfl, rfl⟩ := found
          rw [d.search_eq depth 0 line text rest run]
          have passes := passes_append row before (text ++ d.closing) rest later
          rwa [← List.append_assoc] at passes
      | pending deeper =>
          simp only [run] at found
          split at found
          · obtain ⟨⟨text, last⟩, closed, same⟩ := Option.map_eq_some_iff.mp found
            cases same
            have rest := ih deeper (row + 1) [] text closed
            have across := passes_append row before line [] later
            rw [List.append_nil] at across
            -- A span that is closed has one more line.
            cases later with
            | nil => simp [close?] at closed
            | cons next later =>
                have passes := across.trans (.line rest)
                simpa using passes
          · cases found

end BracketPair

namespace Forward

theorem bracketed (d : BracketPair) : Forward d.read := by
  intro c
  rw [BracketPair.read_run]
  split
  · rename_i opened
    cases found : d.close? 1 (c.move d.opening.length).row (c.move d.opening.length).before
        (c.move d.opening.length).ahead with
    | some pair =>
        have passes := d.close?_passes _ _ _ _ pair.1 pair.2 found
        exact (follows_move c d.opening.length).trans ⟨_, passes⟩
    | none =>
        show Follows c (if d.multiline then c.finish else c)
        split
        · apply follows_finish
          intro atEnd
          simp [startsWith, atEnd] at opened
        · exact .refl c
  · exact .refl c

theorem quoted (style : Quotation) : Forward style.read := by
  rintro ⟨row, before, ahead⟩
  rcases ahead with _ | ⟨_ | ⟨first, line⟩, later⟩
  · exact .refl _
  · exact .refl _
  · rw [Quotation.read_run]
    split
    · cases style.close? [] line with
      | some found => exact follows_move ..
      | none => exact .refl _
    · exact .refl _

/-! ## Expressions -/

theorem upTo (start : Location) (form : Expression.Form) (text : Text) :
    Forward (Expression.upTo start form text) := Follows.refl

theorem readSubcommand (start : Location) : Forward (Expression.readSubcommand start) := by
  intro c
  rw [Expression.readSubcommand_run]
  split
  · exact .refl c
  · split
    · exact bind (bracketed _) (fun text => upTo start _ text) c
    · exact .refl c

theorem readTest (start : Location) : Forward (Expression.readTest start) :=
  bind (bracketed _) fun text => upTo start _ text

theorem readCommand? (start : Location) : Forward (Expression.readCommand? start) := by
  intro c
  rw [Expression.readCommand?_run]
  split
  · exact follows_skipWhile c _
  · exact follows_skipWhile c _

theorem readLiteral (start : Location) : Forward (Expression.readLiteral start) :=
  fun c => follows_skipWhile c _

theorem readQuoted (start : Location) (style : Quotation) :
    Forward (Expression.readQuoted start style) :=
  bind (quoted style) fun text => upTo start _ text

theorem readValue? (start : Location) (spaced : Bool) (first : Char) :
    Forward (Expression.readValue? start spaced first) := by
  intro c
  rw [Expression.readValue?_run]
  split
  · split
    · exact follows_skipComment c
    · exact .refl c
  · split
    · exact map _ (readLiteral start) c
    · cases Quotation.ofMark? first with
      | some style => exact map _ (readQuoted start style) c
      | none => exact .refl c

theorem read? (position : Expression.Position) : Forward (Expression.read? position) := by
  intro c
  refine (follows_skipSpaces c).trans ?_
  rw [Expression.read?_run]
  cases c.skipSpaces.next? with
  | none => exact .refl _
  | some first =>
      dsimp only
      split
      · exact (follows_move _ 1).trans (map _ (readSubcommand _) _)
      · split
        · exact map _ (readTest _) _
        · split
          · exact .refl _
          · cases position with
            | command => exact readCommand? _ _
            | value => exact readValue? _ _ _ _

theorem read (position : Expression.Position) : Forward (Expression.read position) := by
  intro c
  have follows := read? position c
  rw [Expression.read_run]
  rcases run : Expression.read? position c with ⟨_ | expression, d⟩ | ⟨diagnostic, d⟩
  all_goals
    rw [run] at follows
    exact follows

/-! ## Statements -/

theorem readAssigned (kind : Option Binder) (target : Text) :
    Forward (Statement.readAssigned kind target) := by
  intro c
  rw [Statement.readAssigned_run]
  split
  · split
    · exact follows_move c 1
    · exact (follows_move c 1).trans (map _ (read .value) _)
  · rcases kind with _ | _ | _ | _
    all_goals exact .refl c

theorem targetStart (kind : Option Binder) (c : Cursor) :
    Follows c (Statement.targetStart kind c) := by
  cases kind with
  | none => exact .refl c
  | some binder => exact (follows_skipWord c).trans (follows_skipSpaces _)

theorem readAssignment (kind : Option Binder) : Forward (Statement.readAssignment kind) := by
  intro c
  have first := (targetStart kind c).trans (follows_skipWord _)
  rw [Statement.readAssignment_run]
  split
  · exact first
  · have value := readAssigned kind (Statement.targetStart kind c).word
      (Statement.targetStart kind c).skipWord.skipSpaces
    have follows := first.trans ((follows_skipSpaces _).trans value)
    cases run : Statement.readAssigned kind (Statement.targetStart kind c).word
        (Statement.targetStart kind c).skipWord.skipSpaces with
    | ok value d => rwa [run] at follows
    | error diagnostic d => rwa [run] at follows

theorem readArgument? (name : Text) (count : Nat) :
    Forward (Statement.readArgument? name count) := by
  intro c
  have follows := read? .value c
  rw [Statement.readArgument?_run]
  rcases run : Expression.read? .value c with ⟨_ | argument, d⟩ | ⟨diagnostic, d⟩
  · rwa [run] at follows
  · rw [run] at follows
    dsimp only
    split
    · exact follows
    · exact follows
  · rwa [run] at follows

theorem readArguments (name : Text) (allowance count : Nat) :
    Forward (Statement.readArguments name allowance count) := by
  induction allowance generalizing count with
  | zero => exact failHere _
  | succ allowance ih =>
      intro c
      have follows := readArgument? name count c
      rw [Statement.readArguments_run]
      rcases run : Statement.readArgument? name count c with ⟨_ | argument, d⟩ | ⟨diagnostic, d⟩
      · rwa [run] at follows
      · rw [run] at follows
        exact follows.trans (map _ (ih (count + 1)) d)
      · rwa [run] at follows

theorem readInvocation (kind : Callee) (allowance : Nat) :
    Forward (Statement.readInvocation kind allowance) := by
  intro c
  have follows := (follows_skipWord c).trans (readArguments c.word allowance 0 c.skipWord)
  rw [Statement.readInvocation_run]
  cases run : Statement.readArguments c.word allowance 0 c.skipWord with
  | ok arguments d => rwa [run] at follows
  | error diagnostic d => rwa [run] at follows

theorem readCondition : Forward Statement.readCondition := by
  refine bind (expectWord _) fun _ => bind (read _) fun condition => ?_
  refine bind (modify follows_skipSpaces) fun _ => bind (eat _) fun found => ?_
  refine ite ?_ (failHere _)
  exact bind (modify follows_skipIdle) fun _ => bind (expectWord _) fun _ => pure condition

theorem readSignature (rules : RuleTable) (start : Location) :
    Forward (Statement.readSignature rules start) := by
  refine bind (expectWord _) fun _ => bind (modify follows_skipSpaces) fun _ => ?_
  refine bind takeWord fun name => ite (failHere _) (ite (failAt _ _) ?_)
  refine bind (modify follows_skipSpaces) fun _ => get fun c => ?_
  rw [ite_run]
  split
  · exact .refl c
  · refine at_set ((follows_move c _).trans (follows_skipIdle _)) ?_
    exact bind (eat _) fun found => ite (pure name) (failHere _)

theorem readTerminator (kind : Statement.Kind) : Forward (Statement.readTerminator kind) := by
  intro c
  have spaces := follows_skipSpaces c
  rw [Statement.readTerminator_run]
  split
  · exact spaces.trans (follows_skipComment _)
  · split
    · exact spaces.trans (follows_move _ 1)
    · split
      · exact spaces
      · exact spaces

theorem readEnd (body : Body) : Forward body.readEnd := by
  cases body with
  | conditional =>
      intro c
      rw [Body.readEnd_conditional_run]
      split
      · exact .refl c
      · split
        · exact follows_skipWord c
        · exact .refl c
  | function name => exact eat _

end Forward

/-! ## Parsers -/

namespace Parser

def Advances {α : Type} (step : Parsing α) : Prop :=
  ∀ p, Follows p.cursor (final (step p)).cursor

variable {α β : Type}

theorem Advances.at_bind {step : Parsing α} {next : α → Parsing β} {b : Cursor} {p : Parser}
    (first : Follows b (final (step p)).cursor) (second : ∀ value, Advances (next value)) :
    Follows b (final ((step >>= next) p)).cursor := by
  rw [bind_run]
  cases run : step p with
  | ok value q =>
      rw [run] at first
      exact first.trans (second value q)
  | error diagnostic q => rwa [run] at first

theorem Advances.bind {step : Parsing α} {next : α → Parsing β} (first : Advances step)
    (second : ∀ value, Advances (next value)) : Advances (step >>= next) :=
  fun p => at_bind (first p) second

theorem Advances.get {next : Parser → Parsing α} (advances : ∀ p, Advances (next p)) :
    Advances (MonadState.get >>= next) := fun p => advances p p

theorem Advances.pure (value : α) : Advances (Pure.pure value : Parsing α) :=
  fun p => .refl p.cursor

theorem Advances.throw (diagnostic : Diagnostic) :
    Advances (MonadExcept.throw diagnostic : Parsing α) :=
  fun p => .refl p.cursor

theorem Advances.ite {condition : Prop} [Decidable condition] {yes no : Parsing α}
    (left : Advances yes) (right : Advances no) : Advances (if condition then yes else no) := by
  split
  · exact left
  · exact right

theorem advances_reading {step : Reading α} (forward : Forward step) : Advances (reading step) := by
  intro p
  have follows := forward p.cursor
  rw [reading_run]
  cases run : step p.cursor with
  | ok value c => rwa [run] at follows
  | error diagnostic c => rwa [run] at follows

theorem advances_skipIdle : Advances (reading (modify Cursor.skipIdle)) :=
  advances_reading (.modify follows_skipIdle)

theorem advances_readBody {statement : Parsing (Option Statement)} (advances : Advances statement)
    (body : Body) (start : Location) (allowance : Nat) :
    Advances (readBody statement body start allowance) := by
  induction allowance with
  | zero => exact advances_reading (.failAt _ _)
  | succ allowance ih =>
      refine advances_skipIdle.bind fun _ => .get fun p => ?_
      refine .ite (advances_reading (.failAt _ _)) ?_
      refine (advances_reading (.readEnd body)).bind fun closed => .ite (.pure []) ?_
      refine advances.bind fun found => ?_
      cases found with
      | some first => exact ih.bind fun others => .pure (first :: others)
      | none => exact ih

theorem advances_declare (name : Text) (start : Location) : Advances (declare name start) := by
  intro p
  rw [declare_run]
  cases p.rules.register name .declared with
  | ok rules => exact .refl p.cursor
  | error refusal => exact .refl p.cursor

theorem advances_readByRule {statement : Parsing (Option Statement)}
    (advances : Advances statement) (allowance : Nat) (word : Text) :
    Advances (readByRule statement allowance word) := by
  refine .get fun p => ?_
  split
  · exact advances_reading (.readAssignment _)
  · refine .get fun p => (advances_reading .readCondition).bind fun condition => ?_
    exact (advances_readBody advances _ _ allowance).bind fun body => .get fun q => .pure _
  · refine .get fun p => (advances_reading (.readSignature _ _)).bind fun name => ?_
    refine (advances_readBody advances _ _ allowance).bind fun body => .get fun q => ?_
    exact (advances_declare name _).bind fun _ => .pure _
  · exact advances_reading (.readInvocation _ allowance)
  · exact .ite (.throw _) (advances_reading (.readAssignment _))

theorem advances_readStatement? (allowance : Nat) : Advances (readStatement? allowance) := by
  induction allowance with
  | zero => exact advances_reading (.failHere _)
  | succ allowance ih =>
      refine advances_skipIdle.bind fun _ => .get fun p => ?_
      refine .ite (.pure none) (.ite (advances_reading (.failHere _)) ?_)
      refine (advances_readByRule ih allowance _).bind fun statement => ?_
      exact (advances_reading (.readTerminator _)).bind fun _ => .pure _

end Parser

end ShellLift
