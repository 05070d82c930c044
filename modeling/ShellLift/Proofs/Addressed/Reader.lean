import ShellLift.Proofs.Addressed.Delimited

/-!
# Expressions and statements in numbers

The readers of expressions and of statements without a body, with the checks of the cursor below
them and one of their own: a span may not end before it starts. Each of them mirrors the reader on
cursors.
-/

set_option autoImplicit false

namespace ShellLift.Addressed

open Step Cursor

/-! ## Expressions, checked -/

section

variable (lines : List Text)

def upTo (start : Location) (form : Expression.Form) (text : Text) : Checked Mark Expression := do
  pure ⟨← spanFrom start, form, text⟩

def subcommand (start : Location) : Checked Mark Expression := do
  if ← startsWith lines "((".toList then report .arithmetic start
  else if ← startsWith lines "(".toList then
    let command ← bracketed lines .parentheses
    upTo start .subcommand command
  else report .bareVariable start

def test (start : Location) : Checked Mark Expression := do
  let text ← bracketed lines .doubleSquare
  upTo start .test text

def command? (start : Location) : Checked Mark (Option Expression) := do
  let text := Text.trimEnd ((← take lines (List.takeWhile Expression.isCommandChar)).getD [])
  if text.isEmpty then pure none else some <$> upTo start .test text

def quotedLiteral (start : Location) (style : Quotation) : Checked Mark Expression := do
  let inside ← quoted lines style
  upTo start (.quoted style) inside

def value? (start : Location) (spaced : Bool) (first : Char) :
    Checked Mark (Option Expression) := do
  if first = '#' then
    if spaced then
      let _ ← skipComment lines
      pure none
    else report .hashInWord start
  else
    let text := (← take lines (List.takeWhile Text.isPlainChar)).getD []
    if text.isEmpty then
      match Quotation.ofMark? first with
      | some style => some <$> quotedLiteral lines start style
      | none => report (.unreadableExpression first) start
    else some <$> upTo start .literal text

def expressionAt (position : Expression.Position) (start : Location) (spaced : Bool) :
    Checked Mark (Option Expression) := do
  match ← next? lines with
  | none => pure none
  | some first =>
    if ← eat lines "$".toList then some <$> subcommand lines start
    else if ← startsWith lines "[[".toList then some <$> test lines start
    else if first = ';' then pure none
    else
      match position with
      | .command => command? lines start
      | .value => value? lines start spaced first

def expression (position : Expression.Position) (required : Bool) :
    Checked Mark (Option Expression) := do
  let spaced ← skipSpaces lines
  let start ← location
  match ← expressionAt lines position start spaced with
  | some expression => pure (some expression)
  | none => if required then report .expectedExpression start else pure none

def requiredExpression (position : Expression.Position) : Checked Mark Expression := do
  let start ← location
  match ← expression lines position true with
  | some expression => pure expression
  | none => report .expectedExpression start

end

/-! ## Expressions -/

section

variable {lines : List Text} {b : Cursor}

theorem skipWhile_of_next {c : Cursor} {x : Char} {test : Char → Bool} (next : c.next? = some x)
    (stops : test x = false) : c.skipWhile test = c := by
  obtain ⟨row, before, _ | ⟨_ | ⟨y, line⟩, later⟩⟩ := c
  · simp [Cursor.next?, Cursor.rest?] at next
  · simp [Cursor.next?, Cursor.rest?] at next
  · have same : y = x := by simpa [Cursor.next?, Cursor.rest?] using next
    simp [skipWhile, same, stops]

theorem run_eq_nil_iff {c : Cursor} {x : Char} {test : Char → Bool} (next : c.next? = some x) :
    ((c.run? test).getD []).isEmpty = !test x := by
  obtain ⟨row, before, _ | ⟨_ | ⟨y, line⟩, later⟩⟩ := c
  · simp [Cursor.next?, Cursor.rest?] at next
  · simp [Cursor.next?, Cursor.rest?] at next
  · have same : y = x := by simpa [Cursor.next?, Cursor.rest?] using next
    cases passes : test x <;> simp [run?, Cursor.rest?, same, passes]

/-- No expression ends before the position where it starts. -/
theorem tracks_upTo (form : Expression.Form) (text : Text) :
    Tracks b (upTo b.location form text) (Expression.upTo b.location form text) := by
  intro c (follows : Follows b c)
  rw [upTo, bind_run, spanFrom_run follows.location_le]
  exact .ok follows

theorem tracks_subcommand (within : Within lines b) :
    Tracks b (subcommand lines b.location) (Expression.readSubcommand b.location) := by
  intro c (follows : Follows b c)
  have inside := follows.within within
  rw [subcommand, bind_run, startsWith_run inside, Expression.readSubcommand_run]
  dsimp only
  rw [ite_run, bind_run, startsWith_run inside]
  dsimp only
  rw [ite_run]
  split
  · exact .error follows
  · split
    · have span := tracks_bracketed (d := .parentheses) within (by decide) (by decide)
      exact (span.bind fun command => tracks_upTo .subcommand command) c follows
    · exact .error follows

theorem tracks_test (within : Within lines b) :
    Tracks b (test lines b.location) (Expression.readTest b.location) :=
  (tracks_bracketed within (by decide) (by decide)).bind fun text => tracks_upTo .test text

theorem tracks_command? (within : Within lines b) :
    Tracks b (command? lines b.location) (Expression.readCommand? b.location) := by
  intro c (follows : Follows b c)
  have behind := follows.trans (follows_skipWhile c Expression.isCommandChar)
  rw [command?, bind_run, takeWhile_run (follows.within within), Expression.readCommand?_run]
  dsimp only
  rw [ite_run]
  split
  · exact .ok behind
  · exact ((tracks_upTo .test _).map some) _ behind

theorem tracks_quotedLiteral (within : Within lines b) (style : Quotation) :
    Tracks b (quotedLiteral lines b.location style) (Expression.readQuoted b.location style) :=
  (tracks_quoted within style).bind fun text => tracks_upTo (.quoted style) text

theorem agrees_value? (within : Within lines b) {c : Cursor} (follows : Follows b c) (spaced : Bool)
    {first : Char} (next : c.next? = some first) :
    Agrees id markOf b (value? lines b.location spaced first (markOf c))
      (Expression.readValue? b.location spaced first c) := by
  have inside := follows.within within
  rw [value?, Expression.readValue?_run, ite_run]
  split
  · rw [ite_run]
    split
    · rw [bind_run, skipComment_run inside]
      exact .ok (follows.trans (follows_skipComment c))
    · exact .error follows
  · rw [bind_run, takeWhile_run inside]
    dsimp only
    rw [run_eq_nil_iff next, ite_run]
    cases plain : Text.isPlainChar first with
    | true =>
        exact ((tracks_upTo .literal _).map some) _ (follows.trans (follows_skipWhile c _))
    | false =>
        rw [skipWhile_of_next next plain]
        cases Quotation.ofMark? first with
        | none => exact .error follows
        | some style => exact ((tracks_quotedLiteral within style).map some) c follows

theorem agrees_expressionAt {c : Cursor} (within : Within lines c.skipSpaces)
    (position : Expression.Position) :
    Agrees id markOf c.skipSpaces
      (expressionAt lines position c.skipSpaces.location c.atSpace (markOf c.skipSpaces))
      (Expression.read? position c) := by
  rw [Expression.read?_run, expressionAt, bind_run, next?_run within]
  generalize c.skipSpaces = b at within ⊢
  cases next : b.next? with
  | none => exact .ok (.refl b)
  | some first =>
      have dollar : b.startsWith "$".toList = (first == '$') := by
        have char := startsWith_char b '$'
        rwa [next, Option.some_beq_some] at char
      dsimp only
      rw [bind_run, eat_run within, dollar]
      by_cases isDollar : first = '$'
      · rw [if_pos (beq_iff_eq.mpr isDollar), if_pos isDollar]
        exact ((tracks_subcommand within).map some) _ (follows_move b 1)
      · rw [if_neg (by simpa using isDollar), if_neg isDollar]
        dsimp only
        rw [if_neg Bool.false_ne_true, bind_run, startsWith_run within]
        dsimp only
        rw [ite_run]
        split
        · exact ((tracks_test within).map some) b (.refl b)
        · rw [ite_run]
          split
          · exact .ok (.refl b)
          · cases position with
            | command => exact tracks_command? within b (.refl b)
            | value => exact agrees_value? within (.refl b) c.atSpace next

theorem tracks_expression (within : Within lines b) (position : Expression.Position) :
    Tracks b (expression lines position false) (Expression.read? position) := by
  intro c (follows : Follows b c)
  have start := follows.trans (follows_skipSpaces c)
  obtain ⟨behind, same⟩ := agrees_expressionAt (start.within within) position
  refine Agrees.of_follows ?_ start
  rw [expression, bind_run, skipSpaces_run (follows.within within)]
  dsimp only
  rw [bind_run, location_run]
  dsimp only
  rw [bind_run, same]
  rcases run : Expression.read? position c with ⟨_ | found, d⟩ | ⟨diagnostic, d⟩
  all_goals
    rw [run] at behind
    exact ⟨behind, rfl⟩

theorem tracks_expression_required (within : Within lines b) (position : Expression.Position) :
    Tracks b (expression lines position true) (some <$> Expression.read position) := by
  intro c (follows : Follows b c)
  have start := follows.trans (follows_skipSpaces c)
  obtain ⟨behind, same⟩ := agrees_expressionAt (start.within within) position
  refine Agrees.of_follows ?_ start
  rw [expression, bind_run, skipSpaces_run (follows.within within)]
  dsimp only
  rw [bind_run, location_run]
  dsimp only
  rw [bind_run, same, map_run, Expression.read_run]
  rcases run : Expression.read? position c with ⟨_ | found, d⟩ | ⟨diagnostic, d⟩
  all_goals
    rw [run] at behind
    exact ⟨behind, rfl⟩

theorem tracks_requiredExpression (within : Within lines b) (position : Expression.Position) :
    Tracks b (requiredExpression lines position) (Expression.read position) := by
  intro c (follows : Follows b c)
  obtain ⟨behind, same⟩ := tracks_expression_required within position c follows
  rw [map_run] at behind same
  rw [requiredExpression, bind_run, location_run]
  dsimp only
  rw [bind_run, same]
  rcases run : Expression.read position c with ⟨found, d⟩ | ⟨diagnostic, d⟩
  all_goals
    rw [run] at behind
    exact ⟨behind, rfl⟩

end

/-! ## Statements, checked -/

section

variable (lines : List Text)

def toTarget (kind : Option Binder) : Checked Mark Unit := do
  if kind.isSome then
    let _ ← takeWord lines
    let _ ← skipSpaces lines

def assigned (kind : Option Binder) (target : Text) : Checked Mark (Option Expression) := do
  if ← eat lines "=".toList then
    if (← next? lines).any Text.isBlank then reportHere (.blankAfterEquals target)
    else expression lines .value true
  else
    match kind with
    | some .exported => pure none
    | some _ => reportHere .expectedEquals
    | none => reportHere (.unexpectedAfterWord (← next? lines) target)

def assignment (kind : Option Binder) : Checked Mark Statement := do
  let start ← location
  toTarget lines kind
  let target := (← takeWord lines).getD []
  if target.isEmpty then reportHere (.expectedVariable kind)
  else
    let _ ← skipSpaces lines
    let value ← assigned lines kind target
    pure (.assignment (← spanFrom start) kind target value)

/-- Reads one more argument of a command, with the arguments so far and the end of the last one. -/
def argumentRound (name : Text) (work : List Expression × Location) :
    Checked Mark ((List Expression × Location) ⊕ (List Expression × Location)) := do
  match ← expression lines .value false with
  | none => pure (.inr work)
  | some argument =>
    let arguments := work.1 ++ [argument]
    let stop ← location
    if Statement.endsArgument (← next? lines) then pure (.inl (arguments, stop))
    else report (.unseparatedArgument arguments.length name) stop

def invocation (kind : Callee) : Checked Mark Statement := do
  let start ← location
  let name := (← takeWord lines).getD []
  let (arguments, stop) ← loop (argumentRound lines name) (limit lines) ([], ← location)
  ensure .assertion (start ≤ stop)
  pure (.invocation ⟨start, stop⟩ name arguments kind)

def condition : Checked Mark Expression := do
  expectWord lines "if".toList
  let condition ← requiredExpression lines .command
  let _ ← skipSpaces lines
  if ← eat lines ";".toList then
    skipIdle lines
    expectWord lines "then".toList
    pure condition
  else reportHere .expectedSemicolon

def signature (rules : RuleTable) (start : Location) : Checked Mark Text := do
  expectWord lines "function".toList
  let _ ← skipSpaces lines
  let name := (← takeWord lines).getD []
  if name.isEmpty then reportHere .expectedFunctionName
  else if rules.contains name then report (.nameTaken name) start
  else
    let _ ← skipSpaces lines
    let parameters := (← take lines fun rest => rest.take (emptyParametersLength rest)).getD []
    if parameters.isEmpty then reportHere (.expectedParameters name)
    else
      skipIdle lines
      if ← eat lines "\x7b".toList then pure name else reportHere .expectedBrace

def trailingComment (spaced : Bool) : Checked Mark Bool :=
  if spaced then skipComment lines else pure false

def terminator (kind : Statement.Kind) : Checked Mark Unit := do
  let spaced ← skipSpaces lines
  if ← trailingComment lines spaced then pure ()
  else if ← eat lines ";".toList then pure ()
  else if ← atLineEnd lines then pure ()
  else reportHere (.trailingText ((← rest? lines).getD []) kind)

def bodyEnd (body : Body) : Checked Mark Bool := do
  match body with
  | .conditional =>
    let word := (← peekWord lines).getD []
    if word = "else".toList ∨ word = "elif".toList then reportHere (.unsupportedBranch word)
    else if word = "fi".toList then
      let _ ← takeWord lines
      pure true
    else pure false
  | .function _ => eat lines "\x7d".toList

end

/-! ## Statements without a body -/

section

variable {lines : List Text} {b : Cursor}

theorem toTarget_run {c : Cursor} (within : Within lines c) (kind : Option Binder) :
    toTarget lines kind (markOf c) = .ok () (markOf (Statement.targetStart kind c)) := by
  cases kind with
  | none => rfl
  | some binder =>
      rw [toTarget, Option.isSome_some, if_pos rfl, bind_run, takeWord_run within]
      dsimp only
      rw [bind_run, skipSpaces_run ((follows_skipWord c).within within)]
      rfl

theorem tracks_assigned (within : Within lines b) (kind : Option Binder) (target : Text) :
    Tracks b (assigned lines kind target) (Statement.readAssigned kind target) := by
  intro c (follows : Follows b c)
  have inside := follows.within within
  have behind := follows.trans (follows_move c 1)
  unfold assigned
  rw [bind_run, eat_run inside, Statement.readAssigned_run]
  by_cases equals : c.startsWith "=".toList = true
  · rw [if_pos equals, if_pos equals]
    dsimp only
    rw [if_pos rfl, bind_run, show "=".toList.length = 1 from rfl, next?_run (behind.within within)]
    dsimp only
    rw [ite_run]
    split
    · exact .error behind
    · exact tracks_expression_required within .value _ behind
  · rw [if_neg equals, if_neg equals]
    dsimp only
    rw [if_neg Bool.false_ne_true]
    rcases kind with _ | _ | _ | _
    · dsimp only
      rw [bind_run, next?_run inside]
      exact .error follows
    · exact .ok follows
    · exact .error follows
    · exact .error follows

theorem tracks_assignment (within : Within lines b) (kind : Option Binder) :
    Tracks b (assignment lines kind) (Statement.readAssignment kind) := by
  intro c (follows : Follows b c)
  have inside := follows.within within
  have toTarget := Forward.targetStart kind c
  have target : Follows c (Statement.targetStart kind c).skipWord :=
    toTarget.trans (follows_skipWord _)
  have spaces : Follows c (Statement.targetStart kind c).skipWord.skipSpaces :=
    target.trans (follows_skipSpaces _)
  have word : (Statement.targetStart kind c).word?.getD [] = (Statement.targetStart kind c).word :=
    rfl
  refine Agrees.of_follows ?_ follows
  rw [assignment, bind_run, location_run, Statement.readAssignment_run]
  dsimp only
  rw [bind_run, toTarget_run inside]
  dsimp only
  rw [bind_run, takeWord_run (toTarget.within inside)]
  dsimp only
  rw [word, ite_run]
  split
  · exact .error target
  · obtain ⟨behind, same⟩ := tracks_assigned inside kind (Statement.targetStart kind c).word
      (Statement.targetStart kind c).skipWord.skipSpaces spaces
    rw [bind_run, skipSpaces_run (target.within inside)]
    dsimp only
    rw [bind_run, same]
    rcases run : Statement.readAssigned kind (Statement.targetStart kind c).word
      (Statement.targetStart kind c).skipWord.skipSpaces with ⟨value, d⟩ | ⟨diagnostic, d⟩
    · rw [run] at behind
      change Follows c d at behind
      dsimp only [image]
      rw [bind_run, spanFrom_run behind.location_le]
      exact .ok behind
    · rw [run] at behind
      exact .error behind

/-! ## Arguments -/

theorem Expression.stop_of_upTo {start : Location} {form : Expression.Form} {step : Reading Text}
    {c d : Cursor} {found : Expression}
    (run : (step >>= Expression.upTo start form) c = .ok found d) :
    found.span.stop = d.location := by
  obtain ⟨text, e, -, rest⟩ := bind_eq_ok.mp run
  cases rest
  rfl

theorem Expression.stop_of_readSubcommand {start : Location} {c d : Cursor} {found : Expression}
    (run : Expression.readSubcommand start c = .ok found d) : found.span.stop = d.location := by
  rw [Expression.readSubcommand_run] at run
  split at run
  · cases run
  · split at run
    · exact stop_of_upTo run
    · cases run

theorem Expression.stop_of_readCommand? {start : Location} {c d : Cursor} {found : Expression}
    (run : Expression.readCommand? start c = .ok (some found) d) :
    found.span.stop = d.location := by
  rw [Expression.readCommand?_run] at run
  split at run
  · cases run
  · cases run
    rfl

theorem Expression.stop_of_readValue? {start : Location} {spaced : Bool} {first : Char}
    {c d : Cursor} {found : Expression}
    (run : Expression.readValue? start spaced first c = .ok (some found) d) :
    found.span.stop = d.location := by
  rw [Expression.readValue?_run] at run
  split at run
  · split at run
    · cases run
    · cases run
  · split at run
    · cases run
      rfl
    · cases mark : Quotation.ofMark? first with
      | none => simp [mark] at run
      | some style =>
          simp only [mark] at run
          obtain ⟨expression, made, same⟩ := map_eq_ok.mp run
          cases same
          exact stop_of_upTo made

/-- An expression ends where the cursor is behind it. -/
theorem Expression.stop_of_read? {position : Expression.Position} {c d : Cursor}
    {argument : Expression} (found : Expression.read? position c = .ok (some argument) d) :
    argument.span.stop = d.location := by
  rw [Expression.read?_run] at found
  cases next : c.skipSpaces.next? with
  | none => simp [next] at found
  | some first =>
      simp only [next] at found
      split at found
      · obtain ⟨expression, made, same⟩ := map_eq_ok.mp found
        cases same
        exact stop_of_readSubcommand made
      · split at found
        · obtain ⟨expression, made, same⟩ := map_eq_ok.mp found
          cases same
          exact stop_of_upTo made
        · split at found
          · cases found
          · cases position with
            | command => exact stop_of_readCommand? found
            | value => exact stop_of_readValue? found

theorem Statement.stop_of_readArgument? {name : Text} {count : Nat} {c d : Cursor}
    {argument : Expression}
    (found : Statement.readArgument? name count c = .ok (some argument) d) :
    argument.span.stop = d.location := by
  rw [Statement.readArgument?_run] at found
  rcases run : Expression.read? .value c with ⟨_ | expression, e⟩ | ⟨diagnostic, e⟩
  · simp [run] at found
  · simp only [run] at found
    split at found
    · cases found
      exact Expression.stop_of_read? run
    · cases found
  · simp [run] at found

theorem agrees_argumentRound (within : Within lines b) {c : Cursor} (follows : Follows b c)
    (name : Text) (done : List Expression) (stop : Location) :
    Agrees id markOf b (argumentRound lines name (done, stop) (markOf c))
      (match Statement.readArgument? name done.length c with
      | .ok none d => .ok (.inr (done, stop)) d
      | .ok (some argument) d => .ok (.inl (done ++ [argument], argument.span.stop)) d
      | .error diagnostic d => .error diagnostic d) := by
  obtain ⟨behind, same⟩ := tracks_expression within .value c follows
  rw [argumentRound, bind_run, same, Statement.readArgument?_run]
  rcases run : Expression.read? .value c with ⟨_ | argument, d⟩ | ⟨diagnostic, d⟩
  · rw [run] at behind
    exact .ok behind
  · rw [run] at behind
    change Follows b d at behind
    dsimp only [image]
    rw [bind_run, location_run]
    dsimp only
    rw [bind_run, next?_run (behind.within within)]
    dsimp only
    rw [ite_run, List.length_append, List.length_singleton, ← Expression.stop_of_read? run]
    split
    · exact .ok behind
    · rw [Expression.stop_of_read? run]
      exact .error behind
  · rw [run] at behind
    exact .error behind

theorem agrees_loop_argumentRound (within : Within lines b) {c : Cursor} (follows : Follows b c)
    (name : Text) (done : List Expression) {stop : Location} (start : b.location ≤ stop)
    {rounds allowance : Nat} (left : c.size < rounds) (right : c.size < allowance) :
    Agrees id markOf b (loop (argumentRound lines name) rounds (done, stop) (markOf c))
        (((fun arguments =>
            (done ++ arguments, (Statement.invocationSpan b.location stop arguments).stop)) <$>
          Statement.readArguments name allowance done.length) c) ∧
      ∀ arguments d, Statement.readArguments name allowance done.length c = .ok arguments d →
        b.location ≤ (Statement.invocationSpan b.location stop arguments).stop := by
  induction rounds generalizing allowance c done stop with
  | zero => exact absurd left (Nat.not_lt_zero _)
  | succ rounds ih =>
      cases allowance with
      | zero => exact absurd right (Nat.not_lt_zero _)
      | succ allowance =>
          obtain ⟨behind, same⟩ := agrees_argumentRound within follows name done stop
          rw [loop_run, same, map_run, Statement.readArguments_run]
          rcases run : Statement.readArgument? name done.length c with
            ⟨_ | argument, d⟩ | ⟨diagnostic, d⟩
          · rw [run] at behind
            refine ⟨⟨behind, by simp [Statement.invocationSpan, image]⟩, ?_⟩
            rintro arguments d' ⟨⟩
            exact start
          · rw [run] at behind
            change Follows b d at behind
            have shorter := Statement.readArgument?_size_lt run
            have ends : b.location ≤ argument.span.stop := by
              rw [Statement.stop_of_readArgument? run]
              exact behind.location_le
            obtain ⟨agrees, bound⟩ := @ih d behind (done ++ [argument]) argument.span.stop ends
              allowance (by omega) (by omega)
            rw [List.length_append, List.length_singleton] at agrees bound
            simp only [image, map_run] at agrees ⊢
            rcases rest : Statement.readArguments name allowance (done.length + 1) d with
              ⟨others, e⟩ | ⟨diagnostic, e⟩
            · rw [rest] at agrees
              refine ⟨?_, ?_⟩
              · simpa [Statement.invocationSpan_cons] using agrees
              · rintro arguments d' ⟨⟩
                rw [Statement.invocationSpan_cons]
                exact bound others e rest
            · rw [rest] at agrees
              exact ⟨agrees, nofun⟩
          · rw [run] at behind
            exact ⟨⟨behind, rfl⟩, nofun⟩

theorem agrees_invocation {c : Cursor} (within : Within lines c) (kind : Callee) {allowance : Nat}
    (enough : c.skipWord.size < allowance) :
    Agrees id markOf c (invocation lines kind (markOf c))
      (Statement.readInvocation kind allowance c) := by
  have behind := follows_skipWord c
  obtain ⟨⟨follows, same⟩, bound⟩ := agrees_loop_argumentRound within behind c.word []
    behind.location_le (size_lt_limit (behind.within within)) enough
  rw [map_run, List.length_nil] at follows same
  rw [List.length_nil] at bound
  rw [invocation, bind_run, location_run, Statement.readInvocation_run]
  dsimp only
  rw [bind_run, takeWord_run within]
  dsimp only
  rw [bind_run, location_run]
  dsimp only
  rw [bind_run, show c.word?.getD [] = c.word from rfl, same]
  rcases run : Statement.readArguments c.word allowance 0 c.skipWord with
    ⟨arguments, d⟩ | ⟨diagnostic, d⟩
  · rw [run] at follows
    dsimp only [image]
    rw [bind_run, ensure_run (bound arguments d run)]
    exact .ok follows
  · rw [run] at follows
    exact .error follows

/-! ## Heads and ends -/

theorem tracks_condition (within : Within lines b) :
    Tracks b (condition lines) Statement.readCondition := by
  refine (tracks_expectWord within (by decide)).bind fun _ => ?_
  refine (tracks_requiredExpression within _).bind fun condition => ?_
  refine (tracks_skipSpaces within).bind_value _ fun _ => (tracks_eat within _).bind fun found => ?_
  refine .ite ?_ (tracks_reportHere _)
  refine (tracks_skipIdle within).bind fun _ => ?_
  exact (tracks_expectWord within (by decide)).bind fun _ => .pure condition

theorem isEmpty_parameters (c : Cursor) :
    ((c.rest?.getD []).take c.parametersLength).isEmpty = decide (c.parametersLength = 0) := by
  unfold parametersLength
  rcases c.rest?.getD [] with _ | ⟨x, rest⟩
  · rfl
  · cases emptyParametersLength (x :: rest) <;> simp

theorem move_zero (c : Cursor) : c.move 0 = c := by
  obtain ⟨row, before, _ | ⟨rest, later⟩⟩ := c <;> simp [move]

theorem parameters_run {c : Cursor} (within : Within lines c) :
    take lines (fun rest => rest.take (emptyParametersLength rest)) (markOf c) =
      .ok (c.rest?.map (·.take c.parametersLength)) (markOf (c.move c.parametersLength)) := by
  cases ahead : c.ahead with
  | nil =>
      rw [take_run_end _ within ahead]
      simp [Cursor.rest?, move, ahead]
  | cons rest later =>
      have length : c.parametersLength = emptyParametersLength rest := by
        simp [parametersLength, Cursor.rest?, ahead]
      have cut : c.ahead =
          (rest.take c.parametersLength ++ rest.drop c.parametersLength) :: later := by
        rw [List.take_append_drop, ahead]
      rw [take_run within cut (by rw [List.take_append_drop, length])]
      simp [Cursor.rest?, move, ahead]

/-- A name that is taken is reported where the declaration starts. -/
theorem tracks_signature (within : Within lines b) (rules : RuleTable) :
    Tracks b (signature lines rules b.location) (Statement.readSignature rules b.location) := by
  refine (tracks_expectWord within (by decide)).bind fun _ => ?_
  refine (tracks_skipSpaces within).bind_value _ fun _ => ?_
  refine (tracks_takeWord within).bind_value _ fun name => ?_
  refine .ite (tracks_reportHere _) (.ite (tracks_report _ _) ?_)
  refine (tracks_skipSpaces within).bind_value _ fun _ => ?_
  intro c (follows : Follows b c)
  have inside := follows.within within
  have taken : (c.rest?.map (·.take c.parametersLength)).getD [] =
      (c.rest?.getD []).take c.parametersLength := by
    cases c.rest? with
    | none => simp
    | some rest => rfl
  rw [bind_run, parameters_run inside]
  dsimp only
  rw [taken, isEmpty_parameters, ite_run]
  show Agrees id markOf b _ ((if c.parametersLength = 0 then _ else _ : Reading Text) c)
  rw [ite_run]
  by_cases none : c.parametersLength = 0
  · rw [if_pos (decide_eq_true none), if_pos none, none, move_zero]
    exact .error follows
  · rw [if_neg (by simpa using none), if_neg none]
    have brace : Tracks b
        (skipIdle lines >>= fun _ => eat lines "\x7b".toList >>= fun found =>
          if found then pure (name.getD []) else reportHere .expectedBrace)
        (modify Cursor.skipIdle >>= fun _ => Reading.eat "\x7b".toList >>= fun found =>
          if found then pure (name.getD []) else Reading.failHere .expectedBrace) := by
      refine (tracks_skipIdle within).bind fun _ => (tracks_eat within _).bind fun found => ?_
      exact .ite (.pure _) (tracks_reportHere _)
    exact brace _ (follows.trans (follows_move c c.parametersLength))

theorem tracks_terminator (within : Within lines b) (kind : Statement.Kind) :
    Tracks b (terminator lines kind) (Statement.readTerminator kind) := by
  intro c (follows : Follows b c)
  have spaces : Follows b c.skipSpaces := follows.trans (follows_skipSpaces c)
  have inside := spaces.within within
  have comment : trailingComment lines c.atSpace (markOf c.skipSpaces) =
      if c.atSpace && c.skipSpaces.atHash then .ok true (markOf c.skipSpaces.skipComment)
      else .ok false (markOf c.skipSpaces) := by
    rw [trailingComment]
    cases c.atSpace with
    | false => rfl
    | true =>
        rw [if_pos rfl, skipComment_run inside, Cursor.skipComment, Bool.true_and]
        cases c.skipSpaces.atHash <;> rfl
  rw [terminator, bind_run, skipSpaces_run (follows.within within), Statement.readTerminator_run]
  dsimp only
  rw [bind_run, comment]
  by_cases hash : (c.atSpace && c.skipSpaces.atHash) = true
  · rw [if_pos hash, if_pos hash]
    exact .ok (spaces.trans (follows_skipComment _))
  · rw [if_neg hash, if_neg hash]
    dsimp only
    rw [if_neg Bool.false_ne_true, bind_run, eat_run inside]
    by_cases semicolon : c.skipSpaces.startsWith ";".toList = true
    · rw [if_pos semicolon, if_pos semicolon]
      exact .ok (spaces.trans (follows_move _ 1))
    · rw [if_neg semicolon, if_neg semicolon]
      dsimp only
      rw [if_neg Bool.false_ne_true, bind_run, atLineEnd_run inside]
      dsimp only
      rw [ite_run]
      split
      · exact .ok spaces
      · rw [bind_run, rest?_run inside]
        exact .error spaces

theorem tracks_bodyEnd (within : Within lines b) (body : Body) :
    Tracks b (bodyEnd lines body) body.readEnd := by
  cases body with
  | function name => exact tracks_eat within _
  | conditional =>
      intro c (follows : Follows b c)
      have inside := follows.within within
      rw [bodyEnd, bind_run, peekWord_run inside, Body.readEnd_conditional_run]
      dsimp only
      rw [show c.word?.getD [] = c.word from rfl, ite_run]
      split
      · exact .error follows
      · rw [ite_run]
        split
        · rw [bind_run, takeWord_run inside]
          exact .ok (follows.trans (follows_skipWord c))
        · exact .ok follows

end

end ShellLift.Addressed
