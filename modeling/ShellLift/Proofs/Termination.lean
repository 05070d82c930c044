import ShellLift.Proofs.Spans

/-!
# Every run of the parser ends

The parser loops over the arguments of a command, over the statements of a body and over those of
a script, and a statement goes into its body. Nothing counts the turns. The relations here describe
what the loops do turn by turn, with every outcome and without an allowance, so that a derivation
is one finite run. Each state of a parser has exactly one run, also where the script is malformed
or breaks off, and it has the result that the parser gives.
-/

set_option autoImplicit false

namespace ShellLift

open Step Cursor

namespace Step

variable {ε σ α β : Type}

def andThen (result : EStateM.Result ε σ α) (next : α → EStateM ε σ β) : EStateM.Result ε σ β :=
  match result with
  | .ok value state => next value state
  | .error failure state => .error failure state

end Step

/-! ## Runs, turn by turn -/

inductive Statement.ArgumentRun (name : Text) :
    Nat → Cursor → EStateM.Result Diagnostic Cursor (List Expression) → Prop
  | stop {count : Nat} {c d : Cursor} : readArgument? name count c = .ok none d →
      ArgumentRun name count c (.ok [] d)
  | fail {count : Nat} {c d : Cursor} {diagnostic : Diagnostic} :
      readArgument? name count c = .error diagnostic d →
      ArgumentRun name count c (.error diagnostic d)
  | more {count : Nat} {c d : Cursor} {argument : Expression}
      {result : EStateM.Result Diagnostic Cursor (List Expression)} :
      readArgument? name count c = .ok (some argument) d →
      ArgumentRun name (count + 1) d result →
      ArgumentRun name count c (andThen result fun others => pure (argument :: others))

namespace Parser

abbrev Outcome (α : Type) := EStateM.Result Diagnostic Parser α

def onCursor {α : Type} (rules : RuleTable) : EStateM.Result Diagnostic Cursor α → Outcome α
  | .ok value c => .ok value ⟨c, rules⟩
  | .error diagnostic c => .error diagnostic ⟨c, rules⟩

theorem onCursor_run {α : Type} (step : Reading α) (p : Parser) :
    onCursor p.rules (step p.cursor) = reading step p := rfl

def invoked (c : Cursor) (kind : Callee) (arguments : List Expression) : Statement :=
  .invocation (Statement.invocationSpan c.location c.skipWord.location arguments)
    c.word arguments kind

def endConditional (start : Location) (condition : Expression) (body : List Statement) :
    Parsing Statement := do
  pure (.conditional ((← get).cursor.spanFrom start) condition body)

def endFunction (start : Location) (name : Text) (body : List Statement) : Parsing Statement := do
  let span := (← get).cursor.spanFrom start
  declare name start
  pure (.function span name body)

def endStatement (statement : Statement) : Parsing (Option Statement) := do
  reading (Statement.readTerminator statement.kind)
  pure (some statement)

mutual

inductive StatementRun : Parser → Outcome (Option Statement) → Prop
  | ended {p : Parser} : p.cursor.skipIdle.atEnd = true →
      StatementRun p (.ok none ⟨p.cursor.skipIdle, p.rules⟩)
  | wordless {p : Parser} : p.cursor.skipIdle.atEnd = false → p.cursor.skipIdle.word = [] →
      StatementRun p (.error (.located (.expectedStatement p.cursor.skipIdle.next?)
        p.cursor.skipIdle.location) ⟨p.cursor.skipIdle, p.rules⟩)
  | ruled {p : Parser} {result : Outcome Statement} : p.cursor.skipIdle.atEnd = false →
      p.cursor.skipIdle.word ≠ [] → RuleRun ⟨p.cursor.skipIdle, p.rules⟩ result →
      StatementRun p (andThen result endStatement)

inductive RuleRun : Parser → Outcome Statement → Prop
  | assignment {p : Parser} {kind : Binder} :
      p.rules.get? p.cursor.word = some (.assignment kind) →
      RuleRun p (reading (Statement.readAssignment (some kind)) p)
  | bare {p : Parser} : p.rules.get? p.cursor.word = none →
      isUnsupportedKeyword p.cursor.word = false →
      RuleRun p (reading (Statement.readAssignment none) p)
  | unsupported {p : Parser} : p.rules.get? p.cursor.word = none →
      isUnsupportedKeyword p.cursor.word = true →
      RuleRun p (.error (.located (.unsupportedConstruct p.cursor.word) p.cursor.location) p)
  | invocation {p : Parser} {kind : Callee}
      {result : EStateM.Result Diagnostic Cursor (List Expression)} :
      p.rules.get? p.cursor.word = some (.invocation kind) →
      Statement.ArgumentRun p.cursor.word 0 p.cursor.skipWord result →
      RuleRun p (onCursor p.rules
        (andThen result fun arguments => pure (invoked p.cursor kind arguments)))
  | noCondition {p : Parser} {diagnostic : Diagnostic} {c : Cursor} :
      p.rules.get? p.cursor.word = some .conditional →
      Statement.readCondition p.cursor = .error diagnostic c →
      RuleRun p (.error diagnostic ⟨c, p.rules⟩)
  | conditional {p : Parser} {condition : Expression} {c : Cursor}
      {result : Outcome (List Statement)} : p.rules.get? p.cursor.word = some .conditional →
      Statement.readCondition p.cursor = .ok condition c →
      BodyRun .conditional p.cursor.location ⟨c, p.rules⟩ result →
      RuleRun p (andThen result (endConditional p.cursor.location condition))
  | noSignature {p : Parser} {diagnostic : Diagnostic} {c : Cursor} :
      p.rules.get? p.cursor.word = some .function →
      Statement.readSignature p.rules p.cursor.location p.cursor = .error diagnostic c →
      RuleRun p (.error diagnostic ⟨c, p.rules⟩)
  | function {p : Parser} {name : Text} {c : Cursor} {result : Outcome (List Statement)} :
      p.rules.get? p.cursor.word = some .function →
      Statement.readSignature p.rules p.cursor.location p.cursor = .ok name c →
      BodyRun (.function name) p.cursor.location ⟨c, p.rules⟩ result →
      RuleRun p (andThen result (endFunction p.cursor.location name))

inductive BodyRun : Body → Location → Parser → Outcome (List Statement) → Prop
  | unclosed {body : Body} {start : Location} {p : Parser} : p.cursor.skipIdle.atEnd = true →
      BodyRun body start p (.error (.located body.unclosed start) ⟨p.cursor.skipIdle, p.rules⟩)
  | closed {body : Body} {start : Location} {p : Parser} {c : Cursor} :
      p.cursor.skipIdle.atEnd = false → body.readEnd p.cursor.skipIdle = .ok true c →
      BodyRun body start p (.ok [] ⟨c, p.rules⟩)
  | branch {body : Body} {start : Location} {p : Parser} {diagnostic : Diagnostic} {c : Cursor} :
      p.cursor.skipIdle.atEnd = false → body.readEnd p.cursor.skipIdle = .error diagnostic c →
      BodyRun body start p (.error diagnostic ⟨c, p.rules⟩)
  | fail {body : Body} {start : Location} {p q : Parser} {diagnostic : Diagnostic} {c : Cursor} :
      p.cursor.skipIdle.atEnd = false → body.readEnd p.cursor.skipIdle = .ok false c →
      StatementRun ⟨c, p.rules⟩ (.error diagnostic q) → BodyRun body start p (.error diagnostic q)
  | more {body : Body} {start : Location} {p q : Parser} {found : Option Statement} {c : Cursor}
      {result : Outcome (List Statement)} :
      p.cursor.skipIdle.atEnd = false → body.readEnd p.cursor.skipIdle = .ok false c →
      StatementRun ⟨c, p.rules⟩ (.ok found q) → BodyRun body start q result →
      BodyRun body start p (andThen result fun others => pure (found.toList ++ others))

end

inductive ScriptRun : Parser → Outcome (List Statement) → Prop
  | stop {p q : Parser} : StatementRun p (.ok none q) → ScriptRun p (.ok [] q)
  | fail {p q : Parser} {diagnostic : Diagnostic} : StatementRun p (.error diagnostic q) →
      ScriptRun p (.error diagnostic q)
  | more {p q : Parser} {first : Statement} {result : Outcome (List Statement)} :
      StatementRun p (.ok (some first) q) → ScriptRun q result →
      ScriptRun p (andThen result fun others => pure (first :: others))

end Parser

/-! ## Arguments -/

namespace Statement

theorem argumentRun_readArguments (name : Text) (n count : Nat) (c : Cursor) (enough : c.size < n) :
    ArgumentRun name count c (readArguments name n count c) := by
  induction n generalizing count c with
  | zero => omega
  | succ n ih =>
      rw [readArguments_run]
      rcases run : readArgument? name count c with ⟨_ | argument, d⟩ | ⟨diagnostic, d⟩
      · exact .stop run
      · have shorter := readArgument?_size_lt run
        exact .more run (ih (count + 1) d (by omega))
      · exact .fail run

theorem ArgumentRun.eq {name : Text} {count : Nat} {c : Cursor}
    {result : EStateM.Result Diagnostic Cursor (List Expression)}
    (turns : ArgumentRun name count c result) (n : Nat) (enough : c.size < n) :
    result = readArguments name n count c := by
  induction turns generalizing n with
  | stop run =>
      obtain ⟨n, rfl⟩ := Nat.exists_eq_succ_of_ne_zero (Nat.ne_of_gt (Nat.zero_lt_of_lt enough))
      rw [readArguments_run, run]
  | fail run =>
      obtain ⟨n, rfl⟩ := Nat.exists_eq_succ_of_ne_zero (Nat.ne_of_gt (Nat.zero_lt_of_lt enough))
      rw [readArguments_run, run]
  | more run _ ih =>
      obtain ⟨n, rfl⟩ := Nat.exists_eq_succ_of_ne_zero (Nat.ne_of_gt (Nat.zero_lt_of_lt enough))
      have shorter := readArgument?_size_lt run
      rw [readArguments_run, run, ih n (by omega)]
      rfl

end Statement

/-! ## Every state has a run -/

namespace Parser

theorem readConditional_andThen (step : Parsing (Option Statement)) (n : Nat) (p : Parser) :
    readConditional step n p =
      andThen (reading Statement.readCondition p) fun condition =>
        readBody step .conditional p.cursor.location n >>=
          endConditional p.cursor.location condition := rfl

theorem readFunction_andThen (step : Parsing (Option Statement)) (n : Nat) (p : Parser) :
    readFunction step n p =
      andThen (reading (Statement.readSignature p.rules p.cursor.location) p) fun name =>
        readBody step (.function name) p.cursor.location n >>=
          endFunction p.cursor.location name := rfl

theorem readInvocation_andThen (kind : Callee) (n : Nat) (c : Cursor) :
    Statement.readInvocation kind n c =
      andThen (Statement.readArguments c.word n 0 c.skipWord) fun arguments =>
        pure (invoked c kind arguments) := by
  rw [Statement.readInvocation_run]
  cases Statement.readArguments c.word n 0 c.skipWord <;> rfl

theorem statement?_andThen {p : Parser} (live : p.cursor.skipIdle.atEnd = false)
    (word : p.cursor.skipIdle.word ≠ []) :
    statement? p = andThen (readByRule statement? p.cursor.size p.cursor.skipIdle.word
      ⟨p.cursor.skipIdle, p.rules⟩) endStatement := by
  have notEmpty : ¬ List.isEmpty p.cursor.skipIdle.word = true := by simpa using word
  rw [statement?_run, if_neg (by simp [live]), if_neg notEmpty]
  rcases readByRule statement? p.cursor.size p.cursor.skipIdle.word
    ⟨p.cursor.skipIdle, p.rules⟩ with ⟨statement, q⟩ | ⟨diagnostic, q⟩
  · dsimp only [andThen, endStatement]
    rw [bind_run, reading_run]
    cases Statement.readTerminator statement.kind q.cursor <;> rfl
  · rfl

/-- The runs of the statements inside make the run of their body. -/
theorem bodyRun_readBody {bound : Nat}
    (step : ∀ q : Parser, q.cursor.size < bound → StatementRun q (statement? q))
    (body : Body) (start : Location) (n : Nat) (p : Parser) (within : p.cursor.size < bound)
    (enough : p.cursor.size < n) : BodyRun body start p (readBody statement? body start n p) := by
  induction n generalizing p with
  | zero => omega
  | succ n ih =>
      have idle := (follows_skipIdle p.cursor).size_le
      rw [readBody_run]
      split
      · rename_i atEnd
        exact .unclosed atEnd
      · rename_i notEnd
        have live : p.cursor.skipIdle.atEnd = false := by simpa using notEnd
        rcases closing : body.readEnd p.cursor.skipIdle with ⟨_ | _, c⟩ | ⟨diagnostic, c⟩
        · obtain rfl := Body.eq_of_readEnd_false closing
          have one := step ⟨p.cursor.skipIdle, p.rules⟩ (Nat.lt_of_le_of_lt idle within)
          dsimp only
          rw [bind_run]
          rcases run : statement? ⟨p.cursor.skipIdle, p.rules⟩ with ⟨_ | first, q⟩ | ⟨diagnostic, q⟩
          · have atEnd := (atEnd_of_readStatement?_none _ _ _ run).1
            rw [skipIdle_skipIdle] at atEnd
            exact absurd atEnd notEnd
          · rw [run] at one
            have shorter := readStatement?_size_lt _ _ _ _ run
            dsimp only at shorter
            exact .more live closing one (ih q (by omega) (by omega))
          · rw [run] at one
            exact .fail live closing one
        · exact .closed live closing
        · exact .branch live closing

theorem ruleRun_readByRule (p : Parser) (word : p.cursor.word ≠ [])
    (step : ∀ q : Parser, q.cursor.size < p.cursor.size → StatementRun q (statement? q)) (n : Nat)
    (enough : p.cursor.size ≤ n) : RuleRun p (readByRule statement? n p.cursor.word p) := by
  have shorter := skipWord_size_lt word
  rw [readByRule_run]
  rcases known : p.rules.get? p.cursor.word with _ | kind | _ | _ | kind
  · dsimp only
    split
    · rename_i unsupported
      exact .unsupported known unsupported
    · rename_i supported
      exact .bare known (by simpa using supported)
  · exact .assignment known
  · have head := (Statement.readCondition_follows word).size_le
    dsimp only
    rw [readConditional_andThen, reading_run]
    rcases run : Statement.readCondition p.cursor with ⟨condition, c⟩ | ⟨diagnostic, c⟩
    · rw [run] at head
      have behind : c.size < p.cursor.size := Nat.lt_of_le_of_lt head shorter
      exact .conditional known run
        (bodyRun_readBody step _ _ n ⟨c, p.rules⟩ behind (Nat.lt_of_lt_of_le behind enough))
    · exact .noCondition known run
  · have head := (Statement.readSignature_follows word p.rules p.cursor.location).size_le
    dsimp only
    rw [readFunction_andThen, reading_run]
    rcases run : Statement.readSignature p.rules p.cursor.location p.cursor with
      ⟨name, c⟩ | ⟨diagnostic, c⟩
    · rw [run] at head
      have behind : c.size < p.cursor.size := Nat.lt_of_le_of_lt head shorter
      exact .function known run
        (bodyRun_readBody step _ _ n ⟨c, p.rules⟩ behind (Nat.lt_of_lt_of_le behind enough))
    · exact .noSignature known run
  · dsimp only
    rw [← onCursor_run, readInvocation_andThen]
    exact .invocation known (Statement.argumentRun_readArguments _ n 0 _ (by omega))

theorem statementRun_statement? (p : Parser) : StatementRun p (statement? p) := by
  -- What a statement is read from becomes smaller with its first word, before it goes into a body.
  induction size : p.cursor.size using Nat.strongRecOn generalizing p with
  | _ bound ih =>
      subst size
      have idle := (follows_skipIdle p.cursor).size_le
      cases atEnd : p.cursor.skipIdle.atEnd with
      | true =>
          rw [statement?_run, if_pos atEnd]
          exact .ended atEnd
      | false =>
          by_cases word : p.cursor.skipIdle.word = []
          · rw [statement?_run, if_neg (by simp [atEnd]), if_pos (by simp [word])]
            exact .wordless atEnd word
          · rw [statement?_andThen atEnd word]
            refine .ruled atEnd word (ruleRun_readByRule ⟨p.cursor.skipIdle, p.rules⟩
              word ?_ _ idle)
            intro q smaller
            exact ih q.cursor.size (Nat.lt_of_lt_of_le smaller idle) q rfl

theorem scriptRun_statements (p : Parser) : ScriptRun p (statements p) := by
  induction size : p.cursor.size using Nat.strongRecOn generalizing p with
  | _ bound ih =>
      subst size
      have one := statementRun_statement? p
      rw [statements_run]
      rcases run : statement? p with ⟨_ | first, q⟩ | ⟨diagnostic, q⟩
      · rw [run] at one
        exact .stop one
      · rw [run] at one
        exact .more one (ih q.cursor.size (readStatement?_size_lt _ p q first run) q rfl)
      · rw [run] at one
        exact .fail one

/-! ## No state has another run -/

mutual

theorem StatementRun.eq : ∀ {p : Parser} {result : Outcome (Option Statement)},
    StatementRun p result → result = statement? p
  | p, _, .ended atEnd => by rw [statement?_run, if_pos atEnd]
  | p, _, .wordless live word => by
      rw [statement?_run, if_neg (by simp [live]), if_pos (by simp [word])]
  | p, _, .ruled live word inner => by
      have idle := (follows_skipIdle p.cursor).size_le
      rw [statement?_andThen live word, inner.eq word p.cursor.size idle]

theorem RuleRun.eq : ∀ {p : Parser} {result : Outcome Statement}, RuleRun p result →
    p.cursor.word ≠ [] → ∀ n, p.cursor.size ≤ n → result = readByRule statement? n p.cursor.word p
  | p, _, .assignment known, _, n, _ => by simp only [readByRule_run, known]
  | p, _, .bare known supported, _, n, _ => by simp [readByRule_run, known, supported]
  | p, _, .unsupported known unsupported, _, n, _ => by simp [readByRule_run, known, unsupported]
  | p, _, .invocation known turns, word, n, enough => by
      have shorter := skipWord_size_lt word
      simp only [readByRule_run, known]
      rw [← onCursor_run, readInvocation_andThen, turns.eq n (by omega)]
  | p, _, .noCondition known head, _, n, _ => by
      simp only [readByRule_run, known, readConditional_run, head]
  | p, _, .conditional known head inner, word, n, enough => by
      have shorter := skipWord_size_lt word
      have follows := (Statement.readCondition_follows word).size_le
      rw [head] at follows
      dsimp only [final] at follows
      simp only [readByRule_run, known]
      rw [readConditional_andThen, reading_run, head, inner.eq n (by dsimp only; omega)]
      rfl
  | p, _, .noSignature known head, _, n, _ => by
      simp only [readByRule_run, known, readFunction_run, head]
  | p, _, .function known head inner, word, n, enough => by
      have shorter := skipWord_size_lt word
      have follows := (Statement.readSignature_follows word p.rules p.cursor.location).size_le
      rw [head] at follows
      dsimp only [final] at follows
      simp only [readByRule_run, known]
      rw [readFunction_andThen, reading_run, head, inner.eq n (by dsimp only; omega)]
      rfl

theorem BodyRun.eq : ∀ {body : Body} {start : Location} {p : Parser}
    {result : Outcome (List Statement)}, BodyRun body start p result → ∀ n, p.cursor.size < n →
    result = readBody statement? body start n p
  | body, start, p, _, .unclosed atEnd, n + 1, _ => by rw [readBody_run, if_pos atEnd]
  | body, start, p, _, .closed live closing, n + 1, _ => by
      rw [readBody_run, if_neg (by simp [live]), closing]
  | body, start, p, _, .branch live closing, n + 1, _ => by
      rw [readBody_run, if_neg (by simp [live]), closing]
  | body, start, p, _, .fail live closing inner, n + 1, _ => by
      rw [readBody_run, if_neg (by simp [live]), closing]
      dsimp only
      rw [bind_run, ← inner.eq]
  | body, start, p, _, @BodyRun.more _ _ _ _ found _ _ live closing inner rest, n + 1, enough => by
      have idle := (follows_skipIdle p.cursor).size_le
      have one := inner.eq
      obtain rfl := Body.eq_of_readEnd_false closing
      rw [readBody_run, if_neg (by simp [live]), closing]
      dsimp only
      rw [bind_run, ← one]
      cases found with
      | none =>
          have atEnd := (atEnd_of_readStatement?_none _ _ _ one.symm).1
          rw [skipIdle_skipIdle] at atEnd
          simp [atEnd] at live
      | some first =>
          have shorter := readStatement?_size_lt _ _ _ _ one.symm
          dsimp only at shorter
          rw [rest.eq n (by omega)]
          rfl

end

theorem ScriptRun.eq {p : Parser} {result : Outcome (List Statement)} (turns : ScriptRun p result) :
    result = statements p := by
  induction turns with
  | stop one => rw [statements_run, ← one.eq]
  | fail one => rw [statements_run, ← one.eq]
  | more one _ ih =>
      rw [statements_run, ← one.eq, ih]
      rfl

/-! ## Progress -/

theorem advances_statement? : Advances statement? :=
  fun p => advances_readStatement? (p.cursor.size + 1) p

/-- A statement that was read has put the cursor at least behind its first word. -/
theorem location_lt_of_statement? {p q : Parser} {statement : Statement}
    (run : statement? p = .ok (some statement) q) : p.cursor.location < q.cursor.location := by
  obtain ⟨word, next, rule, stop, -⟩ := statement?_eq_some run
  have opened := readByRule_follows advances_statement? _ ⟨p.cursor.skipIdle, p.rules⟩ next
    statement word rule
  have stopped := (Forward.readTerminator statement.kind).of_ok stop
  calc p.cursor.location
    _ ≤ p.cursor.skipIdle.location := (follows_skipIdle p.cursor).location_le
    _ < q.cursor.location := (opened.trans stopped).location_lt word

/-- From every state of a parser a call for one statement has exactly one run, which is finite and
has the result of the call. The call never goes back, it goes forward with a statement, and it has
nothing to return only at the end of the script. So the loops over a script, a body and arguments
have one finite run from every state as well, and any allowance above the size of what is ahead
gives its result. -/
theorem statement?_progress (p : Parser) :
    (∀ result, StatementRun p result ↔ result = statement? p) ∧
      p.cursor.location ≤ (final (statement? p)).cursor.location ∧
      (∀ statement q, statement? p = .ok (some statement) q →
        p.cursor.location < q.cursor.location) ∧
      (∀ q, statement? p = .ok none q → q.cursor.atEnd = true) ∧
      (∀ result, ScriptRun p result ↔ result = statements p) ∧
      (∀ body start n, p.cursor.size < n →
        ∀ result, BodyRun body start p result ↔ result = readBody statement? body start n p) ∧
      ∀ name count n, p.cursor.size < n → ∀ result,
        Statement.ArgumentRun name count p.cursor result ↔
          result = Statement.readArguments name n count p.cursor := by
  refine ⟨?_, ?_, ?_, ?_, ?_, ?_, ?_⟩
  · intro result
    exact ⟨StatementRun.eq, fun same => same ▸ statementRun_statement? p⟩
  · exact (advances_statement? p).location_le
  · intro statement q run
    exact location_lt_of_statement? run
  · intro q run
    obtain ⟨atEnd, rfl⟩ := atEnd_of_readStatement?_none _ p q run
    exact atEnd
  · intro result
    exact ⟨ScriptRun.eq, fun same => same ▸ scriptRun_statements p⟩
  · intro body start n enough result
    refine ⟨fun turns => turns.eq n enough, fun same => same ▸ ?_⟩
    exact bodyRun_readBody (fun q _ => statementRun_statement? q) body start n p
      (Nat.lt_succ_self _) enough
  · intro name count n enough result
    refine ⟨fun turns => turns.eq n enough, fun same => same ▸ ?_⟩
    exact Statement.argumentRun_readArguments name n count p.cursor enough

/-- A script that breaks off inside a subcommand in a body: the call fails with all of the script
behind it, and the next call finds the end. -/
theorem statement?_progress_unclosed :
    ∃ p q, Parser.new (.ofLines ["if x; then".toList, "echo $(y".toList]) [] = .ok p ∧
      StatementRun p (.error (.located (.unclosed ")".toList) ⟨2, 6⟩) q) ∧
      p.cursor.location ≤ q.cursor.location ∧ q.cursor.location = ⟨3, 0⟩ ∧
      statement? q = .ok none q ∧ q.cursor.atEnd = true := by
  let p : Parser := ⟨.ofLines ["if x; then".toList, "echo $(y".toList], RuleTable.initial⟩
  let q : Parser := ⟨⟨2, [], []⟩, RuleTable.initial⟩
  have failed : statement? p = .error (.located (.unclosed ")".toList) ⟨2, 6⟩) q := by cbv
  have ended : statement? q = .ok none q := by cbv
  obtain ⟨runs, forward, -⟩ := statement?_progress p
  rw [failed] at runs forward
  exact ⟨p, q, rfl, (runs _).mpr rfl, forward, rfl, ended, (statement?_progress q).2.2.2.1 q ended⟩

end Parser

end ShellLift
