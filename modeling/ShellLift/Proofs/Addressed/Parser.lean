import ShellLift.Proofs.Addressed.Reader

/-!
# The parser in numbers

The parser with its position in numbers reads statements with bodies, and it goes on reading after
a diagnostic. From the start of every script, over every sequence of calls, it does what the parser
on cursors does. So no cut misses, no difference is below zero, no condition taken for granted
fails, no loop goes on for ever, and every position that it takes is one of the script.
-/

set_option autoImplicit false

namespace ShellLift.Addressed

open Step Cursor

structure Machine where
  mark : Mark
  rules : RuleTable
deriving DecidableEq

def machineOf (p : Parser) : Machine := ⟨markOf p.cursor, p.rules⟩

/-! ## Statements with bodies, checked -/

def onMark {α : Type} (step : Checked Mark α) : Checked Machine α := fun machine =>
  match step machine.mark with
  | .ok value mark => .ok value { machine with mark := mark }
  | .error stop mark => .error stop { machine with mark := mark }

section

variable (lines : List Text)

def bodyRound (statement : Checked Machine (Option Statement)) (body : Body) (start : Location)
    (done : List Statement) : Checked Machine (List Statement ⊕ List Statement) := do
  onMark (skipIdle lines)
  if ← onMark (atEnd lines) then onMark (report body.unclosed start)
  else if ← onMark (bodyEnd lines body) then pure (.inr done)
  else
    match ← statement with
    | some first => pure (.inl (done ++ [first]))
    | none => pure (.inl done)

def conditional (statement : Checked Machine (Option Statement)) : Checked Machine Statement := do
  let start ← onMark location
  let condition ← onMark (condition lines)
  let body ← loop (bodyRound lines statement .conditional start) (limit lines) []
  pure (.conditional (← onMark (spanFrom start)) condition body)

def declare (name : Text) (start : Location) : Checked Machine Unit := do
  let machine ← get
  match machine.rules.register name .declared with
  | .ok rules => set { machine with rules := rules }
  | .error _ => onMark (report (.nameTaken name) start)

def function (statement : Checked Machine (Option Statement)) : Checked Machine Statement := do
  let start ← onMark location
  let name ← onMark (signature lines (← get).rules start)
  let body ← loop (bodyRound lines statement (.function name) start) (limit lines) []
  let stop ← onMark location
  declare name start
  ensure .assertion (start ≤ stop)
  pure (.function ⟨start, stop⟩ name body)

def byRule (statement : Checked Machine (Option Statement)) (word : Text) (start : Location) :
    Checked Machine Statement := do
  match (← get).rules.get? word with
  | some (.assignment kind) => onMark (assignment lines (some kind))
  | some .conditional => conditional lines statement
  | some .function => function lines statement
  | some (.invocation kind) => onMark (invocation lines kind)
  | none =>
    if isUnsupportedKeyword word then onMark (report (.unsupportedConstruct word) start)
    else onMark (assignment lines none)

/-- Reads one statement, with bodies inside one another up to a depth. -/
def statement? : (depth : Nat) → Checked Machine (Option Statement)
  | 0 => throw (.fault .endless)
  | depth + 1 => do
    onMark (skipIdle lines)
    if ← onMark (atEnd lines) then pure none
    else
      let start ← onMark location
      let word := (← onMark (peekWord lines)).getD []
      if word.isEmpty then
        onMark (report (.expectedStatement (← onMark (next? lines))) start)
      else
        let statement ← byRule lines (statement? depth) word start
        onMark (terminator lines statement.kind)
        pure (some statement)

def scriptRound (done : List Statement) : Checked Machine (List Statement ⊕ List Statement) := do
  match ← statement? lines (limit lines) with
  | some first => pure (.inl (done ++ [first]))
  | none => pure (.inr done)

def statements : Checked Machine (List Statement) := loop (scriptRound lines) (limit lines) []

end

/-! ## Statements with bodies -/

section

variable {lines : List Text} {b : Cursor}

theorem agrees_onMark {α : Type} {checked : Checked Mark α} {step : Reading α} {p : Parser}
    (agrees : Agrees id markOf b (checked (markOf p.cursor)) (step p.cursor)) :
    Agrees Parser.cursor machineOf b (onMark checked (machineOf p)) (Parser.reading step p) := by
  obtain ⟨behind, same⟩ := agrees
  rw [onMark, show (machineOf p).mark = markOf p.cursor from rfl, same, Parser.reading_run]
  rcases run : step p.cursor with ⟨value, c⟩ | ⟨diagnostic, c⟩
  all_goals
    rw [run] at behind
    exact ⟨behind, rfl⟩

theorem onMark_run {α : Type} {checked : Checked Mark α} {value : α} {p : Parser} {c : Cursor}
    (run : checked (markOf p.cursor) = .ok value (markOf c)) :
    onMark checked (machineOf p) = .ok value (machineOf ⟨c, p.rules⟩) := by
  rw [onMark, show (machineOf p).mark = markOf p.cursor from rfl, run]
  rfl

theorem mirrors_declare (name : Text) (start : Location) :
    Mirrors Parser.cursor machineOf b (declare name start) (Parser.declare name start) := by
  intro p follows
  rw [declare, bind_run, get_run, Parser.declare_run]
  dsimp only [machineOf]
  cases p.rules.register name .declared with
  | ok rules => exact ⟨follows, rfl⟩
  | error refusal => exact ⟨follows, rfl⟩

/-- What the body of a statement needs of the step for one statement of it. -/
structure Steps (lines : List Text) (bound : Nat) (checked : Checked Machine (Option Statement))
    (step : Parsing (Option Statement)) : Prop where
  agrees : ∀ q : Parser, q.cursor.size < bound → Within lines q.cursor →
    Agrees Parser.cursor machineOf q.cursor (checked (machineOf q)) (step q)
  shrinks : ∀ (q q' : Parser) (s : Statement), step q = .ok (some s) q' →
    q'.cursor.size < q.cursor.size
  ends : ∀ q q' : Parser, step q = .ok none q' → q.cursor.skipIdle.atEnd = true

theorem bodyRound_run {p : Parser} (within : Within lines p.cursor)
    (checked : Checked Machine (Option Statement)) (body : Body) (start : Location)
    (done : List Statement) :
    bodyRound lines checked body start done (machineOf p) =
      if p.cursor.skipIdle.atEnd then
        .error (.reported (.located body.unclosed start)) (machineOf ⟨p.cursor.skipIdle, p.rules⟩)
      else
        match body.readEnd p.cursor.skipIdle with
        | .ok true c => .ok (.inr done) (machineOf ⟨c, p.rules⟩)
        | .ok false c =>
          match checked (machineOf ⟨c, p.rules⟩) with
          | .ok (some first) machine => .ok (.inl (done ++ [first])) machine
          | .ok none machine => .ok (.inl done) machine
          | .error stop machine => .error stop machine
        | .error diagnostic c => .error (.reported diagnostic) (machineOf ⟨c, p.rules⟩) := by
  have inside := (follows_skipIdle p.cursor).within within
  obtain ⟨-, same⟩ := agrees_onMark
    (p := ⟨p.cursor.skipIdle, p.rules⟩) (tracks_bodyEnd inside body _ (.refl _))
  rw [bodyRound, bind_run, onMark_run (skipIdle_run within)]
  dsimp only
  rw [bind_run, onMark_run (atEnd_run inside)]
  dsimp only
  rw [ite_run, bind_run, same, Parser.reading_run]
  split
  · rfl
  · rcases body.readEnd p.cursor.skipIdle with ⟨_ | _, c⟩ | ⟨diagnostic, c⟩
    · dsimp only [image]
      rw [if_neg Bool.false_ne_true, bind_run]
      rcases checked (machineOf ⟨c, p.rules⟩) with ⟨_ | first, machine⟩ | ⟨stop, machine⟩ <;> rfl
    · rfl
    · rfl

/-- Every round but the last reads one statement of the body, and what is ahead shrinks. -/
theorem agrees_loop_bodyRound {checked : Checked Machine (Option Statement)}
    {step : Parsing (Option Statement)} {bound : Nat} (steps : Steps lines bound checked step)
    (body : Body) (start : Location) {p : Parser} (within : Within lines p.cursor)
    (below : p.cursor.size < bound) (done : List Statement) {rounds allowance : Nat}
    (left : p.cursor.size < rounds) (right : p.cursor.size < allowance) :
    Agrees Parser.cursor machineOf p.cursor
      (loop (bodyRound lines checked body start) rounds done (machineOf p))
      (((done ++ ·) <$> Parser.readBody step body start allowance) p) := by
  induction rounds generalizing allowance p done with
  | zero => exact absurd left (Nat.not_lt_zero _)
  | succ rounds ih =>
      cases allowance with
      | zero => exact absurd right (Nat.not_lt_zero _)
      | succ allowance =>
          have idle := follows_skipIdle p.cursor
          have inside := idle.within within
          have shorter := idle.size_le
          rw [loop_run, bodyRound_run within, map_run, Parser.readBody_run]
          by_cases atEnd : p.cursor.skipIdle.atEnd = true
          · rw [if_pos atEnd, if_pos atEnd]
            exact .error idle
          · rw [if_neg atEnd, if_neg atEnd]
            have closing := Forward.readEnd body p.cursor.skipIdle
            rcases ended : body.readEnd p.cursor.skipIdle with ⟨_ | _, c⟩ | ⟨diagnostic, c⟩
            · obtain rfl := Body.eq_of_readEnd_false ended
              obtain ⟨behind, same⟩ := steps.agrees ⟨p.cursor.skipIdle, p.rules⟩
                (Nat.lt_of_le_of_lt shorter below) inside
              dsimp only
              rw [same, bind_run]
              rcases run : step ⟨p.cursor.skipIdle, p.rules⟩ with ⟨_ | first, q⟩ | ⟨diagnostic, q⟩
              · have atEnd' := steps.ends _ _ run
                rw [skipIdle_skipIdle] at atEnd'
                exact absurd atEnd' atEnd
              · rw [run] at behind
                change Follows p.cursor.skipIdle q.cursor at behind
                have fewer := steps.shrinks _ _ _ run
                dsimp only at fewer
                have rest := ih (behind.within inside) (by omega) (done ++ [first])
                  (show q.cursor.size < rounds by omega) (show q.cursor.size < allowance by omega)
                refine Agrees.of_follows ?_ (idle.trans behind)
                simp only [image, Parser.readRest, map_run] at rest ⊢
                rcases others : Parser.readBody step body start allowance q with ⟨_, _⟩ | ⟨_, _⟩
                · rw [others] at rest
                  simpa using rest
                · rw [others] at rest
                  exact rest
              · rw [run] at behind
                exact ⟨idle.trans behind, rfl⟩
            · rw [ended] at closing
              exact ⟨idle.trans closing, by simp [image]⟩
            · rw [ended] at closing
              exact ⟨idle.trans closing, rfl⟩

theorem agrees_body {checked : Checked Machine (Option Statement)}
    {step : Parsing (Option Statement)} {p q : Parser} (within : Within lines p.cursor)
    (steps : Steps lines p.cursor.size checked step) (follows : Follows p.cursor q.cursor)
    (below : q.cursor.size < p.cursor.size) (body : Body) (start : Location) {allowance : Nat}
    (enough : p.cursor.size ≤ allowance) :
    Agrees Parser.cursor machineOf p.cursor
      (loop (bodyRound lines checked body start) (limit lines) [] (machineOf q))
      (Parser.readBody step body start allowance q) := by
  have inside := follows.within within
  have agrees := agrees_loop_bodyRound steps body start inside below [] (size_lt_limit inside)
    (Nat.lt_of_lt_of_le below enough)
  simp only [List.nil_append, id_map'] at agrees
  exact agrees.of_follows follows

theorem agrees_conditional {checked : Checked Machine (Option Statement)}
    {step : Parsing (Option Statement)} {p : Parser} (within : Within lines p.cursor)
    (steps : Steps lines p.cursor.size checked step) (word : p.cursor.word ≠ []) {allowance : Nat}
    (enough : p.cursor.size ≤ allowance) :
    Agrees Parser.cursor machineOf p.cursor (conditional lines checked (machineOf p))
      (Parser.readConditional step allowance p) := by
  obtain ⟨headed, same⟩ := agrees_onMark (tracks_condition within p.cursor (.refl _))
  have head := (Statement.readCondition_follows word).size_le
  have shorter := skipWord_size_lt word
  rw [conditional, bind_run, onMark_run (location_run p.cursor), Parser.readConditional_run]
  dsimp only
  rw [bind_run, same, Parser.reading_run]
  rw [Parser.reading_run] at headed
  rcases run : Statement.readCondition p.cursor with ⟨condition, c⟩ | ⟨diagnostic, c⟩
  · rw [run] at headed head
    change Follows p.cursor c at headed
    obtain ⟨ended, same⟩ := agrees_body (q := ⟨c, p.rules⟩) within steps headed
      (Nat.lt_of_le_of_lt head shorter) .conditional p.cursor.location enough
    dsimp only [image]
    rw [bind_run, same]
    rcases body : Parser.readBody step .conditional p.cursor.location allowance ⟨c, p.rules⟩ with
      ⟨statements, q⟩ | ⟨diagnostic, q⟩
    · rw [body] at ended
      change Follows p.cursor q.cursor at ended
      dsimp only [image]
      rw [bind_run, onMark_run (spanFrom_run ended.location_le)]
      exact ⟨ended, rfl⟩
    · rw [body] at ended
      exact ⟨ended, rfl⟩
  · rw [run] at headed
    exact ⟨headed, rfl⟩

theorem agrees_function {checked : Checked Machine (Option Statement)}
    {step : Parsing (Option Statement)} {p : Parser} (within : Within lines p.cursor)
    (steps : Steps lines p.cursor.size checked step) (word : p.cursor.word ≠ []) {allowance : Nat}
    (enough : p.cursor.size ≤ allowance) :
    Agrees Parser.cursor machineOf p.cursor (function lines checked (machineOf p))
      (Parser.readFunction step allowance p) := by
  obtain ⟨headed, same⟩ := agrees_onMark
    (tracks_signature within p.rules p.cursor (.refl _))
  have head := (Statement.readSignature_follows word p.rules p.cursor.location).size_le
  have shorter := skipWord_size_lt word
  rw [function, bind_run, onMark_run (location_run p.cursor), Parser.readFunction_run]
  dsimp only
  rw [bind_run, get_run]
  dsimp only
  rw [bind_run, show (machineOf ⟨p.cursor, p.rules⟩).rules = p.rules from rfl, same,
    Parser.reading_run]
  rw [Parser.reading_run] at headed
  rcases run : Statement.readSignature p.rules p.cursor.location p.cursor with
    ⟨name, c⟩ | ⟨diagnostic, c⟩
  · rw [run] at headed head
    change Follows p.cursor c at headed
    obtain ⟨ended, same⟩ := agrees_body (q := ⟨c, p.rules⟩) within steps headed
      (Nat.lt_of_le_of_lt head shorter) (.function name) p.cursor.location enough
    dsimp only [image]
    rw [bind_run, same]
    rcases body : Parser.readBody step (.function name) p.cursor.location allowance
      ⟨c, p.rules⟩ with ⟨statements, q⟩ | ⟨diagnostic, q⟩
    · rw [body] at ended
      change Follows p.cursor q.cursor at ended
      obtain ⟨-, declared⟩ := mirrors_declare (b := q.cursor) name p.cursor.location q (.refl _)
      dsimp only [image]
      rw [bind_run, onMark_run (location_run q.cursor)]
      dsimp only
      rw [bind_run, declared, Parser.declare_run]
      cases q.rules.register name .declared with
      | ok rules =>
          dsimp only [image]
          rw [bind_run, ensure_run ended.location_le]
          exact ⟨ended, rfl⟩
      | error refusal => exact ⟨ended, rfl⟩
    · rw [body] at ended
      exact ⟨ended, rfl⟩
  · rw [run] at headed
    exact ⟨headed, rfl⟩

theorem agrees_byRule {checked : Checked Machine (Option Statement)}
    {step : Parsing (Option Statement)} {p : Parser} (within : Within lines p.cursor)
    (steps : Steps lines p.cursor.size checked step) (word : p.cursor.word ≠ []) {allowance : Nat}
    (enough : p.cursor.size ≤ allowance) :
    Agrees Parser.cursor machineOf p.cursor
      (byRule lines checked p.cursor.word p.cursor.location (machineOf p))
      (Parser.readByRule step allowance p.cursor.word p) := by
  have start := Follows.refl p.cursor
  rw [byRule, bind_run, get_run, Parser.readByRule_run]
  dsimp only [machineOf]
  rcases p.rules.get? p.cursor.word with _ | kind | _ | _ | kind
  · dsimp only
    rw [ite_run]
    split
    · exact .error start
    · exact agrees_onMark (tracks_assignment within none p.cursor start)
  · exact agrees_onMark (tracks_assignment within _ p.cursor start)
  · exact agrees_conditional within steps word enough
  · exact agrees_function within steps word enough
  · have shorter := skipWord_size_lt word
    exact agrees_onMark (agrees_invocation within kind (Nat.lt_of_lt_of_le shorter enough))

/-- One statement is read within every depth above the size of what is ahead. -/
theorem agrees_readStatement? {depth : Nat} {p : Parser} (within : Within lines p.cursor)
    (enough : p.cursor.size < depth) :
    Agrees Parser.cursor machineOf p.cursor (statement? lines depth (machineOf p))
      (Parser.readStatement? depth p) := by
  induction depth generalizing p with
  | zero => exact absurd enough (Nat.not_lt_zero _)
  | succ depth ih =>
      have idle := follows_skipIdle p.cursor
      have inside := idle.within within
      have shorter := idle.size_le
      rw [statement?, bind_run, onMark_run (skipIdle_run within), Parser.readStatement?_run]
      dsimp only
      rw [bind_run, onMark_run (atEnd_run inside)]
      dsimp only
      rw [ite_run]
      split
      · exact .ok idle
      · rw [bind_run, onMark_run (location_run p.cursor.skipIdle)]
        dsimp only
        rw [bind_run, onMark_run (peekWord_run inside)]
        dsimp only
        rw [show p.cursor.skipIdle.word?.getD [] = p.cursor.skipIdle.word from rfl, ite_run]
        split
        · rw [bind_run, onMark_run (next?_run inside)]
          exact .error idle
        · rename_i notEmpty
          have steps : Steps lines p.cursor.skipIdle.size (statement? lines depth)
              (Parser.readStatement? depth) :=
            { agrees := fun q fewer inside => ih inside (by omega)
              shrinks := Parser.readStatement?_size_lt depth
              ends := fun q q' none => (Parser.atEnd_of_readStatement?_none depth q q' none).1 }
          obtain ⟨behind, same⟩ := agrees_byRule (p := ⟨p.cursor.skipIdle, p.rules⟩) inside steps
            (by simpa using notEmpty) (show p.cursor.skipIdle.size ≤ depth by omega)
          dsimp only at behind same
          rw [bind_run, same]
          rcases run : Parser.readByRule (Parser.readStatement? depth) depth
            p.cursor.skipIdle.word ⟨p.cursor.skipIdle, p.rules⟩ with
            ⟨statement, q⟩ | ⟨diagnostic, q⟩
          · rw [run] at behind
            change Follows p.cursor.skipIdle q.cursor at behind
            obtain ⟨ended, same⟩ := agrees_onMark
              (tracks_terminator inside statement.kind q.cursor behind)
            dsimp only [image]
            rw [bind_run, same, Parser.reading_run]
            rw [Parser.reading_run] at ended
            rcases stop : Statement.readTerminator statement.kind q.cursor with
              ⟨_, c⟩ | ⟨diagnostic, c⟩
            · rw [stop] at ended
              exact ⟨idle.trans ended, rfl⟩
            · rw [stop] at ended
              exact ⟨idle.trans ended, rfl⟩
          · rw [run] at behind
            exact ⟨idle.trans behind, rfl⟩

theorem agrees_statement? {p : Parser} (within : Within lines p.cursor) :
    Agrees Parser.cursor machineOf p.cursor (statement? lines (limit lines) (machineOf p))
      (Parser.statement? p) := by
  rw [← Parser.statement?_eq (size_lt_limit within)]
  exact agrees_readStatement? within (size_lt_limit within)

theorem agrees_loop_scriptRound {p : Parser} (within : Within lines p.cursor)
    (done : List Statement) {rounds : Nat} (enough : p.cursor.size < rounds) :
    Agrees Parser.cursor machineOf p.cursor (loop (scriptRound lines) rounds done (machineOf p))
      (((done ++ ·) <$> Parser.statements) p) := by
  induction rounds generalizing p done with
  | zero => exact absurd enough (Nat.not_lt_zero _)
  | succ rounds ih =>
      obtain ⟨behind, same⟩ := agrees_statement? within
      rw [loop_run, scriptRound, bind_run, same, map_run, Parser.statements_run]
      rcases run : Parser.statement? p with ⟨_ | first, q⟩ | ⟨diagnostic, q⟩
      · rw [run] at behind
        exact ⟨behind, by simp [image, pure_run]⟩
      · rw [run] at behind
        change Follows p.cursor q.cursor at behind
        have fewer : q.cursor.size < p.cursor.size := Parser.readStatement?_size_lt _ p q first run
        have rest := ih (behind.within within) (done ++ [first])
          (show q.cursor.size < rounds by omega)
        refine Agrees.of_follows ?_ behind
        simp only [image, pure_run, map_run] at rest ⊢
        rcases others : Parser.statements q with ⟨_, _⟩ | ⟨_, _⟩
        · rw [others] at rest
          simpa using rest
        · rw [others] at rest
          exact rest
      · rw [run] at behind
        exact ⟨behind, rfl⟩

theorem agrees_statements {p : Parser} (within : Within lines p.cursor) :
    Agrees Parser.cursor machineOf p.cursor (statements lines (machineOf p))
      (Parser.statements p) := by
  have agrees := agrees_loop_scriptRound within [] (size_lt_limit within)
  simp only [List.nil_append, id_map'] at agrees
  exact agrees

end

/-! ## One call after the other -/

inductive Call
  | statement
  | script
deriving DecidableEq

def Call.read : Call → Parsing (List Statement)
  | statement => Option.toList <$> Parser.statement?
  | script => Parser.statements

def Call.check (lines : List Text) : Call → Checked Machine (List Statement)
  | statement => Option.toList <$> statement? lines (limit lines)
  | script => statements lines

/-- What comes of calls one after the other, which go on after a diagnostic. -/
def outcomes : List Call → Parser → List (Except Diagnostic (List Statement)) × Parser
  | [], p => ([], p)
  | call :: calls, p =>
    match call.read p with
    | .ok found q => ((outcomes calls q).1.cons (.ok found), (outcomes calls q).2)
    | .error diagnostic q => ((outcomes calls q).1.cons (.error diagnostic), (outcomes calls q).2)

/-- What comes of calls one after the other in numbers. A fault ends them. -/
def checkedOutcomes (lines : List Text) :
    List Call → Machine → Except Fault (List (Except Diagnostic (List Statement)) × Machine)
  | [], machine => .ok ([], machine)
  | call :: calls, machine =>
    match call.check lines machine with
    | .ok found next =>
      (checkedOutcomes lines calls next).map fun (rest, last) => (.ok found :: rest, last)
    | .error (.reported diagnostic) next =>
      (checkedOutcomes lines calls next).map fun (rest, last) => (.error diagnostic :: rest, last)
    | .error (.fault fault) _ => .error fault

theorem agrees_call {lines : List Text} {p : Parser} (within : Within lines p.cursor)
    (call : Call) :
    Agrees Parser.cursor machineOf p.cursor (call.check lines (machineOf p)) (call.read p) := by
  cases call with
  | statement => exact (agrees_statement? within).map _
  | script => exact agrees_statements within

theorem checkedOutcomes_eq {lines : List Text} {p : Parser} (within : Within lines p.cursor)
    (calls : List Call) :
    checkedOutcomes lines calls (machineOf p) =
        .ok ((outcomes calls p).1, machineOf (outcomes calls p).2) ∧
      Within lines (outcomes calls p).2.cursor := by
  induction calls generalizing p with
  | nil => exact ⟨rfl, within⟩
  | cons call calls ih =>
      obtain ⟨behind, same⟩ := agrees_call within call
      rw [checkedOutcomes, outcomes, same]
      rcases run : call.read p with ⟨found, q⟩ | ⟨diagnostic, q⟩
      · rw [run] at behind
        obtain ⟨rest, last⟩ := ih (p := q) (Follows.within behind within)
        dsimp only [image]
        rw [rest]
        exact ⟨rfl, last⟩
      · rw [run] at behind
        obtain ⟨rest, last⟩ := ih (p := q) (Follows.within behind within)
        dsimp only [image]
        rw [rest]
        exact ⟨rfl, last⟩

/-- From the start of every script, with every set of rules, over every sequence of calls: no step
in numbers goes wrong, each call comes to what it comes to on cursors, and the position is one of
the script. -/
theorem calls_faultless (lines : List Text) (rules : RuleTable) (calls : List Call) :
    ∃ last, checkedOutcomes lines calls ⟨⟨0, 0⟩, rules⟩ =
        .ok ((outcomes calls ⟨.ofLines lines, rules⟩).1, last) ∧
      last = machineOf (outcomes calls ⟨.ofLines lines, rules⟩).2 ∧
      last.mark.location.InScript lines := by
  obtain ⟨same, within⟩ := checkedOutcomes_eq (p := ⟨.ofLines lines, rules⟩)
    (within_ofLines lines) calls
  exact ⟨_, same, rfl, within.inScript⟩

-- A position inside a character is a fault, and so is a move to it.
example : rest? ["é".toList] ⟨0, 1⟩ = .error (.fault .slice) ⟨0, 1⟩ := by rfl

example : seek ["é".toList] 1 ⟨0, 0⟩ = .error (.fault .position) ⟨0, 0⟩ := by rfl

end ShellLift.Addressed
