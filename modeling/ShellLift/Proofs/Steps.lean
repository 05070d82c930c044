import Mathlib
import ShellLift.Script.Statement.Reader

/-!
# Steps, one at a time

A step runs on a state and ends with a value or a diagnostic, and in both cases with a state. The
equations here open a composed step into its parts; `bind_eq_ok` says what a composed step has
done when it succeeded. Behind them stand the equations of the small steps on a cursor, which are
all that later modules use of these steps.
-/

set_option autoImplicit false

namespace ShellLift

namespace Step

variable {ε σ α β : Type}

def final : EStateM.Result ε σ α → σ
  | .ok _ state => state
  | .error _ state => state

theorem get_run (state : σ) : (get : EStateM ε σ σ) state = .ok state state := rfl

theorem set_run (state next : σ) : (set next : EStateM ε σ PUnit) state = .ok ⟨⟩ next := rfl

theorem modify_run (f : σ → σ) (state : σ) :
    (modify f : EStateM ε σ PUnit) state = .ok ⟨⟩ (f state) := rfl

theorem pure_run (value : α) (state : σ) : (pure value : EStateM ε σ α) state = .ok value state :=
  rfl

theorem throw_run (failure : ε) (state : σ) :
    (throw failure : EStateM ε σ α) state = .error failure state := rfl

theorem bind_run (step : EStateM ε σ α) (next : α → EStateM ε σ β) (state : σ) :
    (step >>= next) state =
      match step state with
      | .ok value state => next value state
      | .error failure state => .error failure state := rfl

theorem map_run (step : EStateM ε σ α) (f : α → β) (state : σ) :
    (f <$> step) state =
      match step state with
      | .ok value state => .ok (f value) state
      | .error failure state => .error failure state := rfl

theorem bind_eq_ok {step : EStateM ε σ α} {next : α → EStateM ε σ β} {state last : σ} {value : β} :
    (step >>= next) state = .ok value last ↔
      ∃ first middle, step state = .ok first middle ∧ next first middle = .ok value last := by
  rw [bind_run]
  cases step state with
  | ok first middle => simp
  | error failure middle => simp

theorem map_eq_ok {step : EStateM ε σ α} {f : α → β} {state last : σ} {value : β} :
    (f <$> step) state = .ok value last ↔
      ∃ first, step state = .ok first last ∧ f first = value := by
  rw [map_run]
  cases step state with
  | ok first middle => simp [and_comm]
  | error failure middle => simp

theorem ite_run (condition : Prop) [Decidable condition] (yes no : EStateM ε σ α) (state : σ) :
    (if condition then yes else no) state = if condition then yes state else no state :=
  apply_ite (fun step : EStateM ε σ α => step state) condition yes no

end Step

open Step

/-! ## Small steps on a cursor -/

namespace Reading

theorem failHere_run {α : Type} (cause : Diagnostic.Cause) (c : Cursor) :
    (failHere cause : Reading α) c = .error (.located cause c.location) c := rfl

theorem failAt_run {α : Type} (location : Location) (cause : Diagnostic.Cause) (c : Cursor) :
    (failAt location cause : Reading α) c = .error (.located cause location) c := rfl

theorem eat_run (piece : Text) (c : Cursor) :
    eat piece c = if c.startsWith piece then .ok true (c.move piece.length) else .ok false c := by
  unfold eat
  rw [bind_run, get_run]
  exact ite_run ..

theorem eat_bind_run {α : Type} (piece : Text) (next : Bool → Reading α) (c : Cursor) :
    (eat piece >>= next) c =
      if c.startsWith piece then next true (c.move piece.length) else next false c := by
  rw [bind_run, eat_run]
  by_cases found : c.startsWith piece = true
  · rw [if_pos found, if_pos found]
  · rw [if_neg found, if_neg found]

theorem takeWord_run (c : Cursor) : takeWord c = .ok c.word c.skipWord := rfl

theorem expectWord_run (expected : Text) (c : Cursor) :
    expectWord expected c =
      if c.skipSpaces.word = expected then .ok () c.skipSpaces.skipWord
      else .error (.located (.expectedWord expected c.skipSpaces.word) c.skipSpaces.location)
        c.skipSpaces.skipWord := by
  unfold expectWord
  simp only [bind_run, modify_run, get_run, takeWord_run]
  exact ite_run ..

end Reading

theorem BracketPair.read_run (d : BracketPair) (c : Cursor) :
    d.read c =
      if c.startsWith d.opening then
        match d.close? 1 (c.move d.opening.length).row (c.move d.opening.length).before
            (c.move d.opening.length).ahead with
        | some (inside, stop) => .ok (d.wrap inside) stop
        | none => .error (.located (.unclosed d.closing) c.location)
            (if d.multiline then c.finish else c)
      else .error (.located (.expectedOpening d.opening) c.location) c := by
  unfold read
  simp only [bind_run, get_run, ite_run, Reading.failHere_run]
  cases d.close? 1 (c.move d.opening.length).row (c.move d.opening.length).before
    (c.move d.opening.length).ahead <;> rfl

def Quotation.openCause (style : Quotation) (later : List Text) : Diagnostic.Cause :=
  if later.any (·.contains style.mark) then .multilineQuote style else .unclosedQuote style

theorem Quotation.read_run (style : Quotation) (row : Nat) (before : Text) (first : Char)
    (line : Text) (later : List Text) :
    style.read ⟨row, before, (first :: line) :: later⟩ =
      if first = style.mark then
        match style.close? [] line with
        | some (inside, _) =>
          .ok inside (Cursor.move ⟨row, before, (first :: line) :: later⟩ (inside.length + 2))
        | none =>
          .error (.located (style.openCause later) ⟨row + 1, Text.byteSize before⟩)
            ⟨row, before, (first :: line) :: later⟩
      else
        .error (.located (.expectedQuote style) ⟨row + 1, Text.byteSize before⟩)
          ⟨row, before, (first :: line) :: later⟩ := by
  unfold read openCause
  simp only [bind_run, get_run, ite_run, Reading.failHere_run]
  cases style.close? [] line with
  | some found => rfl
  | none => cases later.any fun line => line.contains style.mark <;> rfl

namespace Expression

theorem readSubcommand_run (start : Location) (c : Cursor) :
    readSubcommand start c =
      if c.startsWith "((".toList then .error (.located .arithmetic start) c
      else if c.startsWith "(".toList then
        (BracketPair.parentheses.read >>= upTo start .subcommand) c
      else .error (.located .bareVariable start) c := by
  unfold readSubcommand
  simp only [bind_run, get_run, ite_run, Reading.failAt_run]

theorem readCommand?_run (start : Location) (c : Cursor) :
    readCommand? start c =
      if (Text.trimEnd ((c.run? isCommandChar).getD [])).isEmpty then
        .ok none (c.skipWhile isCommandChar)
      else
        .ok (some ⟨(c.skipWhile isCommandChar).spanFrom start, .test,
          Text.trimEnd ((c.run? isCommandChar).getD [])⟩) (c.skipWhile isCommandChar) := by
  unfold readCommand?
  simp only [bind_run, get_run, set_run, ite_run]
  rfl

theorem readLiteral_run (start : Location) (c : Cursor) :
    readLiteral start c =
      .ok ⟨(c.skipWhile Text.isPlainChar).spanFrom start, .literal,
        (c.run? Text.isPlainChar).getD []⟩ (c.skipWhile Text.isPlainChar) := rfl

theorem readValue?_run (start : Location) (spaced : Bool) (first : Char) (c : Cursor) :
    readValue? start spaced first c =
      if first = '#' then
        if spaced then .ok none c.skipComment else .error (.located .hashInWord start) c
      else if Text.isPlainChar first then (some <$> readLiteral start) c
      else
        match Quotation.ofMark? first with
        | some style => (some <$> readQuoted start style) c
        | none => .error (.located (.unreadableExpression first) start) c := by
  unfold readValue?
  simp only [ite_run]
  cases Quotation.ofMark? first <;> rfl

theorem read?_run (position : Position) (c : Cursor) :
    read? position c =
      match c.skipSpaces.next? with
      | none => .ok none c.skipSpaces
      | some first =>
        if first = '$' then
          (some <$> readSubcommand c.skipSpaces.location) (c.skipSpaces.move 1)
        else if c.skipSpaces.startsWith "[[".toList then
          (some <$> readTest c.skipSpaces.location) c.skipSpaces
        else if first = ';' then .ok none c.skipSpaces
        else
          match position with
          | .command => readCommand? c.skipSpaces.location c.skipSpaces
          | .value => readValue? c.skipSpaces.location c.atSpace first c.skipSpaces := by
  unfold read?
  simp only [bind_run, get_run, modify_run]
  cases c.skipSpaces.next? with
  | none => rfl
  | some first =>
      simp only [ite_run, bind_run, set_run, pure_run]
      cases position <;> rfl

theorem read_run (position : Position) (c : Cursor) :
    read position c =
      match read? position c with
      | .ok (some expression) d => .ok expression d
      | .ok none d => .error (.located .expectedExpression c.skipSpaces.location) d
      | .error diagnostic d => .error diagnostic d := by
  unfold read
  simp only [bind_run, get_run]
  rcases read? position c with ⟨_ | _, _⟩ | ⟨_, _⟩ <;> rfl

end Expression

/-! ## Statements -/

namespace Statement

theorem readAssigned_run (kind : Option Binder) (target : Text) (c : Cursor) :
    readAssigned kind target c =
      if c.startsWith "=".toList then
        if (c.move 1).next?.any Text.isBlank then
          .error (.located (.blankAfterEquals target) (c.move 1).location) (c.move 1)
        else (some <$> Expression.read .value) (c.move 1)
      else
        match kind with
        | some .exported => .ok none c
        | some _ => .error (.located .expectedEquals c.location) c
        | none => .error (.located (.unexpectedAfterWord c.next? target) c.location) c := by
  unfold readAssigned
  rw [Reading.eat_bind_run]
  simp only [if_true, bind_run, get_run, ite_run]
  rcases kind with _ | _ | _ | _ <;> rfl

/-- Where the target of an assignment starts: behind the keyword, if there is one. -/
def targetStart : Option Binder → Cursor → Cursor
  | some _, c => c.skipWord.skipSpaces
  | none, c => c

theorem readAssignment_run (kind : Option Binder) (c : Cursor) :
    readAssignment kind c =
      if (targetStart kind c).word.isEmpty then
        .error (.located (.expectedVariable kind) (targetStart kind c).skipWord.location)
          (targetStart kind c).skipWord
      else
        match readAssigned kind (targetStart kind c).word
            (targetStart kind c).skipWord.skipSpaces with
        | .ok value d =>
          .ok (.assignment ⟨c.location, d.location⟩ kind (targetStart kind c).word value) d
        | .error diagnostic d => .error diagnostic d := by
  unfold readAssignment
  simp only [bind_run, get_run, ite_run, modify_run, pure_run, Reading.takeWord_run,
    Reading.failHere_run, Cursor.spanFrom]
  cases kind with
  | none =>
      simp only [Option.isSome_none, Bool.false_eq_true, if_false, targetStart]
      cases readAssigned none c.word c.skipWord.skipSpaces <;> rfl
  | some binder =>
      simp only [Option.isSome_some, if_true, targetStart]
      cases readAssigned (some binder) c.skipWord.skipSpaces.word
        c.skipWord.skipSpaces.skipWord.skipSpaces <;> rfl

theorem readArgument?_run (name : Text) (count : Nat) (c : Cursor) :
    readArgument? name count c =
      match Expression.read? .value c with
      | .ok none d => .ok none d
      | .ok (some argument) d =>
        if endsArgument d.next? then .ok (some argument) d
        else .error (.located (.unseparatedArgument (count + 1) name) d.location) d
      | .error diagnostic d => .error diagnostic d := by
  unfold readArgument?
  rw [bind_run]
  rcases Expression.read? .value c with ⟨_ | argument, d⟩ | ⟨diagnostic, d⟩
  · rfl
  · simp only [bind_run, get_run, ite_run]
    rfl
  · rfl

theorem readArguments_run (name : Text) (allowance count : Nat) (c : Cursor) :
    readArguments name (allowance + 1) count c =
      match readArgument? name count c with
      | .ok none d => .ok [] d
      | .ok (some argument) d => (List.cons argument <$> readArguments name allowance (count + 1)) d
      | .error diagnostic d => .error diagnostic d := by
  rw [readArguments, bind_run]
  rcases readArgument? name count c with ⟨_ | argument, d⟩ | ⟨diagnostic, d⟩ <;> rfl

/-- The span of a command with its arguments, which starts and, without arguments, ends at the
given places. -/
def invocationSpan (start stop : Location) (arguments : List Expression) : Span :=
  ⟨start, (arguments.getLast?.map fun argument => argument.span.stop).getD stop⟩

theorem readInvocation_run (kind : Callee) (allowance : Nat) (c : Cursor) :
    readInvocation kind allowance c =
      match readArguments c.word allowance 0 c.skipWord with
      | .ok arguments d =>
        .ok (.invocation (invocationSpan c.location c.skipWord.location arguments) c.word arguments
          kind) d
      | .error diagnostic d => .error diagnostic d := by
  unfold readInvocation
  simp only [bind_run, get_run, Reading.takeWord_run]
  cases readArguments c.word allowance 0 c.skipWord <;> rfl

theorem readTerminator_run (kind : Kind) (c : Cursor) :
    readTerminator kind c =
      if c.atSpace && c.skipSpaces.atHash then .ok () c.skipSpaces.skipComment
      else if c.skipSpaces.startsWith ";".toList then .ok () (c.skipSpaces.move 1)
      else if c.skipSpaces.atLineEnd then .ok () c.skipSpaces
      else .error (.located (.trailingText (c.skipSpaces.rest?.getD []) kind) c.skipSpaces.location)
        c.skipSpaces := by
  unfold readTerminator
  rw [bind_run, get_run]
  show (if c.atSpace && c.skipSpaces.atHash then set c.skipSpaces.skipComment else _ : Reading Unit)
    c.skipSpaces = _
  simp only [ite_run, Reading.eat_bind_run]
  rfl

end Statement

theorem Body.readEnd_conditional_run (c : Cursor) :
    Body.readEnd .conditional c =
      if c.word = "else".toList ∨ c.word = "elif".toList then
        .error (.located (.unsupportedBranch c.word) c.location) c
      else if c.word = "fi".toList then .ok true c.skipWord
      else .ok false c := by
  unfold readEnd
  simp only [bind_run, get_run, ite_run]
  rfl

theorem Body.readEnd_function_run (name : Text) (c : Cursor) :
    Body.readEnd (.function name) c =
      if c.startsWith "\x7d".toList then .ok true (c.move 1) else .ok false c :=
  Reading.eat_run ..

namespace Parser

theorem reading_run {α : Type} (step : Reading α) (parser : Parser) :
    reading step parser =
      match step parser.cursor with
      | .ok value cursor => .ok value ⟨cursor, parser.rules⟩
      | .error diagnostic cursor => .error diagnostic ⟨cursor, parser.rules⟩ := rfl

theorem reading_eq_ok {α : Type} {step : Reading α} {parser last : Parser} {value : α} :
    reading step parser = .ok value last ↔
      step parser.cursor = .ok value last.cursor ∧ last.rules = parser.rules := by
  rw [reading_run]
  cases step parser.cursor with
  | ok first middle =>
      simp only [EStateM.Result.ok.injEq]
      constructor
      · rintro ⟨rfl, rfl⟩
        exact ⟨⟨rfl, rfl⟩, rfl⟩
      · rintro ⟨⟨rfl, rfl⟩, same⟩
        exact ⟨rfl, by rw [← same]⟩
  | error diagnostic middle => simp

theorem declare_run (name : Text) (start : Location) (parser : Parser) :
    declare name start parser =
      match parser.rules.register name .declared with
      | .ok rules => .ok () ⟨parser.cursor, rules⟩
      | .error _ => .error (.located (.nameTaken name) start) parser := by
  unfold declare
  rw [bind_run, get_run]
  cases run : parser.rules.register name .declared with
  | ok rules => simp only [run, set_run]
  | error refusal => simp only [run, throw_run]

def readRest (statement : Parsing (Option Statement)) (body : Body) (start : Location)
    (allowance : Nat) : Option Statement → Parsing (List Statement)
  | some first => List.cons first <$> readBody statement body start allowance
  | none => readBody statement body start allowance

theorem readBody_run (statement : Parsing (Option Statement)) (body : Body) (start : Location)
    (allowance : Nat) (parser : Parser) :
    readBody statement body start (allowance + 1) parser =
      if parser.cursor.skipIdle.atEnd then
        .error (.located body.unclosed start) ⟨parser.cursor.skipIdle, parser.rules⟩
      else
        match body.readEnd parser.cursor.skipIdle with
        | .ok true c => .ok [] ⟨c, parser.rules⟩
        | .ok false c => (statement >>= readRest statement body start allowance) ⟨c, parser.rules⟩
        | .error diagnostic c => .error diagnostic ⟨c, parser.rules⟩ := by
  rw [readBody, bind_run, reading_run, modify_run]
  dsimp only
  rw [bind_run, get_run]
  dsimp only
  rw [ite_run, bind_run, reading_run, reading_run, Reading.failAt_run]
  dsimp only
  rcases body.readEnd parser.cursor.skipIdle with ⟨_ | _, c⟩ | ⟨diagnostic, c⟩
  · simp only [Bool.false_eq_true, if_false, bind_run]
    rcases statement ⟨c, parser.rules⟩ with ⟨_ | first, next⟩ | ⟨diagnostic, next⟩ <;> rfl
  · rfl
  · rfl

theorem readStatement?_run (allowance : Nat) (parser : Parser) :
    readStatement? (allowance + 1) parser =
      if parser.cursor.skipIdle.atEnd then .ok none ⟨parser.cursor.skipIdle, parser.rules⟩
      else if parser.cursor.skipIdle.word.isEmpty then
        .error (.located (.expectedStatement parser.cursor.skipIdle.next?)
          parser.cursor.skipIdle.location) ⟨parser.cursor.skipIdle, parser.rules⟩
      else
        match readByRule (readStatement? allowance) allowance parser.cursor.skipIdle.word
            ⟨parser.cursor.skipIdle, parser.rules⟩ with
        | .ok statement next =>
          match Statement.readTerminator statement.kind next.cursor with
          | .ok _ c => .ok (some statement) ⟨c, next.rules⟩
          | .error diagnostic c => .error diagnostic ⟨c, next.rules⟩
        | .error diagnostic next => .error diagnostic next := by
  rw [readStatement?, bind_run, reading_run, modify_run]
  dsimp only
  rw [bind_run, get_run]
  dsimp only
  rw [ite_run, ite_run, bind_run, reading_run, Reading.failHere_run]
  rcases readByRule (readStatement? allowance) allowance parser.cursor.skipIdle.word
      ⟨parser.cursor.skipIdle, parser.rules⟩ with ⟨statement, next⟩ | ⟨diagnostic, next⟩
  · simp only [bind_run, reading_run]
    rcases Statement.readTerminator statement.kind next.cursor with ⟨_, c⟩ | ⟨diagnostic, c⟩ <;> rfl
  · rfl

theorem readConditional_run (statement : Parsing (Option Statement)) (allowance : Nat)
    (parser : Parser) :
    readConditional statement allowance parser =
      match Statement.readCondition parser.cursor with
      | .ok condition c =>
        match readBody statement .conditional parser.cursor.location allowance
            ⟨c, parser.rules⟩ with
        | .ok body next =>
          .ok (.conditional ⟨parser.cursor.location, next.cursor.location⟩ condition body) next
        | .error diagnostic next => .error diagnostic next
      | .error diagnostic c => .error diagnostic ⟨c, parser.rules⟩ := by
  unfold readConditional
  simp only [bind_run, get_run, reading_run]
  rcases Statement.readCondition parser.cursor with ⟨condition, c⟩ | ⟨diagnostic, c⟩
  · dsimp only
    rcases readBody statement .conditional parser.cursor.location allowance ⟨c, parser.rules⟩ with
      ⟨body, next⟩ | ⟨diagnostic, next⟩ <;> rfl
  · rfl

theorem readFunction_run (statement : Parsing (Option Statement)) (allowance : Nat)
    (parser : Parser) :
    readFunction statement allowance parser =
      match Statement.readSignature parser.rules parser.cursor.location parser.cursor with
      | .ok name c =>
        match readBody statement (.function name) parser.cursor.location allowance
            ⟨c, parser.rules⟩ with
        | .ok body next =>
          match next.rules.register name .declared with
          | .ok rules =>
            .ok (.function ⟨parser.cursor.location, next.cursor.location⟩ name body)
              ⟨next.cursor, rules⟩
          | .error _ => .error (.located (.nameTaken name) parser.cursor.location) next
        | .error diagnostic next => .error diagnostic next
      | .error diagnostic c => .error diagnostic ⟨c, parser.rules⟩ := by
  unfold readFunction
  simp only [bind_run, get_run, reading_run]
  rcases Statement.readSignature parser.rules parser.cursor.location parser.cursor with
    ⟨name, c⟩ | ⟨diagnostic, c⟩
  · dsimp only
    rcases readBody statement (.function name) parser.cursor.location allowance ⟨c, parser.rules⟩
      with ⟨body, next⟩ | ⟨diagnostic, next⟩
    · simp only [declare_run]
      cases next.rules.register name .declared <;> rfl
    · rfl
  · rfl

theorem readByRule_run (statement : Parsing (Option Statement)) (allowance : Nat) (word : Text)
    (parser : Parser) :
    readByRule statement allowance word parser =
      match parser.rules.get? word with
      | some (.assignment kind) => reading (Statement.readAssignment (some kind)) parser
      | some .conditional => readConditional statement allowance parser
      | some .function => readFunction statement allowance parser
      | some (.invocation kind) => reading (Statement.readInvocation kind allowance) parser
      | none =>
        if isUnsupportedKeyword word then
          .error (.located (.unsupportedConstruct word) parser.cursor.location) parser
        else reading (Statement.readAssignment none) parser := by
  unfold readByRule
  rw [bind_run, get_run]
  dsimp only
  rcases parser.rules.get? word with _ | _ | _ | _ | _
  · exact ite_run ..
  all_goals rfl

theorem readStatements_run (allowance : Nat) (parser : Parser) :
    readStatements (allowance + 1) parser =
      match readStatement? (allowance + 1) parser with
      | .ok (some first) next => (List.cons first <$> readStatements allowance) next
      | .ok none next => .ok [] next
      | .error diagnostic next => .error diagnostic next := by
  rw [readStatements, bind_run]
  rcases readStatement? (allowance + 1) parser with ⟨_ | first, next⟩ | ⟨diagnostic, next⟩ <;> rfl

theorem new_eq_ok {c : Cursor} {builtins : List Text} {p : Parser} :
    Parser.new c builtins = .ok p ↔
      registerBuiltins RuleTable.initial builtins = .ok p.rules ∧ p.cursor = c := by
  obtain ⟨cursor, rules⟩ := p
  unfold Parser.new
  cases registerBuiltins RuleTable.initial builtins with
  | error diagnostic => simp [Except.map]
  | ok table => simp [Except.map, and_comm, eq_comm]

end Parser

end ShellLift
