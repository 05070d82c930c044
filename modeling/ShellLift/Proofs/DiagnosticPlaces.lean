import ShellLift.Proofs.Expressible
import ShellLift.Proofs.Offsets

/-!
# Where diagnostics point

A step that fails blames a position that it has gone over: the one where the statement or the
opening mark stands, or the one where it stopped. So the place of a diagnostic lies between where
the step started and where it ended, and it is a place of the script. Code that stops names a place
as well, which is where the value of a short name starts.
-/

set_option autoImplicit false

namespace ShellLift

open Step Cursor

/-! ## Steps that blame a position on their way -/

section Blame

variable {σ α β : Type} (cursor : σ → Cursor)

/-- The result ends behind a position, and with a failure its place is between the two. -/
def Blames (b : Cursor) : EStateM.Result Diagnostic σ α → Prop
  | .ok _ t => Follows b (cursor t)
  | .error diagnostic t =>
    ∃ m, Follows b m ∧ Follows m (cursor t) ∧ diagnostic.place = some m.location

def BlamesFrom (b : Cursor) (step : EStateM Diagnostic σ α) : Prop :=
  ∀ s, Follows b (cursor s) → Blames cursor b (step s)

variable {cursor} {b : Cursor}

theorem Blames.of_follows {a : Cursor} {result : EStateM.Result Diagnostic σ α}
    (blames : Blames cursor b result) (follows : Follows a b) : Blames cursor a result := by
  cases result with
  | ok value t => exact follows.trans blames
  | error diagnostic t =>
      obtain ⟨m, front, back, place⟩ := blames
      exact ⟨m, follows.trans front, back, place⟩

theorem Blames.bind {step : EStateM Diagnostic σ α} {next : α → EStateM Diagnostic σ β} {s : σ}
    (first : Blames cursor b (step s)) (second : ∀ value, BlamesFrom cursor b (next value)) :
    Blames cursor b ((step >>= next) s) := by
  rw [bind_run]
  cases run : step s with
  | ok value t =>
      rw [run] at first
      exact second value t first
  | error diagnostic t =>
      rw [run] at first
      exact first

theorem Blames.map {step : EStateM Diagnostic σ α} {s : σ} (f : α → β)
    (blames : Blames cursor b (step s)) : Blames cursor b ((f <$> step) s) := by
  rw [map_run]
  cases run : step s with
  | ok value t =>
      rw [run] at blames
      exact blames
  | error diagnostic t =>
      rw [run] at blames
      exact blames

theorem BlamesFrom.bind {step : EStateM Diagnostic σ α} {next : α → EStateM Diagnostic σ β}
    (first : BlamesFrom cursor b step) (second : ∀ value, BlamesFrom cursor b (next value)) :
    BlamesFrom cursor b (step >>= next) :=
  fun s follows => (first s follows).bind second

theorem BlamesFrom.pure (value : α) : BlamesFrom cursor b (Pure.pure value) :=
  fun _ follows => follows

theorem BlamesFrom.get {next : σ → EStateM Diagnostic σ α}
    (blames : ∀ s, BlamesFrom cursor b (next s)) : BlamesFrom cursor b (MonadState.get >>= next) :=
  fun s follows => blames s s follows

theorem BlamesFrom.ite {condition : Prop} [Decidable condition] {yes no : EStateM Diagnostic σ α}
    (left : BlamesFrom cursor b yes) (right : BlamesFrom cursor b no) :
    BlamesFrom cursor b (if condition then yes else no) := by
  split
  · exact left
  · exact right

end Blame

namespace Reading

abbrev Local {α : Type} (b : Cursor) (step : Reading α) : Prop := BlamesFrom id b step

variable {α β : Type} {b : Cursor}

theorem local_failHere (cause : Diagnostic.Cause) : Local b (failHere cause : Reading α) :=
  fun c follows => ⟨c, follows, .refl c, rfl⟩

theorem local_failAt (cause : Diagnostic.Cause) :
    Local b (failAt b.location cause : Reading α) :=
  fun _ follows => ⟨b, .refl b, follows, rfl⟩

theorem local_modify {f : Cursor → Cursor} (forward : ∀ c, Follows c (f c)) :
    Local b (modify f : Reading Unit) :=
  fun c follows => follows.trans (forward c)

theorem local_eat (piece : Text) : Local b (eat piece) := by
  intro c follows
  rw [eat_run]
  split
  · exact follows.trans (follows_move c _)
  · exact follows

theorem local_takeWord : Local b takeWord :=
  fun c follows => follows.trans (follows_skipWord c)

theorem local_expectWord (expected : Text) : Local b (expectWord expected) := by
  intro c follows
  have start := follows.trans (follows_skipSpaces c)
  rw [expectWord_run]
  split
  · exact start.trans (follows_skipWord _)
  · exact ⟨c.skipSpaces, start, follows_skipWord _, rfl⟩

theorem local_bracketed (d : BracketPair) : Local b d.read := by
  intro c follows
  have forward := Forward.bracketed d c
  rw [BracketPair.read_run] at forward ⊢
  split
  · rename_i opened
    rw [if_pos opened] at forward
    cases found : d.close? 1 (c.move d.opening.length).row (c.move d.opening.length).before
        (c.move d.opening.length).ahead with
    | some pair =>
        rw [found] at forward
        exact follows.trans forward
    | none =>
        rw [found] at forward
        exact ⟨c, follows, forward, rfl⟩
  · exact ⟨c, follows, .refl c, rfl⟩

theorem local_quoted (style : Quotation) : Local b style.read := by
  rintro ⟨row, before, ahead⟩ follows
  rcases ahead with _ | ⟨_ | ⟨first, line⟩, later⟩
  · exact ⟨_, follows, .refl _, rfl⟩
  · exact ⟨_, follows, .refl _, rfl⟩
  · rw [Quotation.read_run]
    split
    · cases style.close? [] line with
      | some found => exact follows.trans (follows_move ..)
      | none => exact ⟨_, follows, .refl _, rfl⟩
    · exact ⟨_, follows, .refl _, rfl⟩

end Reading

/-! ## Expressions -/

namespace Expression

open Reading

variable {b : Cursor}

theorem local_upTo (start : Location) (form : Form) (text : Text) :
    Local b (upTo start form text) :=
  fun _ follows => follows

theorem local_readSubcommand : Local b (readSubcommand b.location) := by
  intro c follows
  rw [readSubcommand_run]
  split
  · exact ⟨b, .refl b, follows, rfl⟩
  · split
    · exact (local_bracketed _ c follows).bind fun text => local_upTo _ _ text
    · exact ⟨b, .refl b, follows, rfl⟩

theorem local_readTest (start : Location) : Local b (readTest start) :=
  (local_bracketed _).bind fun text => local_upTo start _ text

theorem local_readCommand? (start : Location) : Local b (readCommand? start) := by
  intro c follows
  have passed := follows.trans (follows_skipWhile c isCommandChar)
  rw [readCommand?_run]
  split
  · exact passed
  · exact passed

theorem local_readQuoted (start : Location) (style : Quotation) :
    Local b (readQuoted start style) :=
  (local_quoted style).bind fun text => local_upTo start _ text

theorem local_readValue? (spaced : Bool) (first : Char) :
    Local b (readValue? b.location spaced first) := by
  intro c follows
  rw [readValue?_run]
  split
  · split
    · exact follows.trans (follows_skipComment c)
    · exact ⟨b, .refl b, follows, rfl⟩
  · split
    · exact follows.trans (follows_skipWhile c _)
    · cases Quotation.ofMark? first with
      | some style => exact (local_readQuoted b.location style c follows).map some
      | none => exact ⟨b, .refl b, follows, rfl⟩

/-- The diagnostics of an expression point to its start or behind it. -/
theorem blames_read? (position : Position) (c : Cursor) :
    Blames id c.skipSpaces (read? position c) := by
  rw [read?_run]
  cases c.skipSpaces.next? with
  | none => exact .refl _
  | some first =>
      dsimp only
      split
      · exact (local_readSubcommand _ (follows_move _ 1)).map some
      · split
        · exact (local_readTest _ _ (.refl _)).map some
        · split
          · exact .refl _
          · cases position with
            | command => exact local_readCommand? _ _ (.refl _)
            | value => exact local_readValue? _ _ _ (.refl _)

theorem local_read? (position : Position) : Local b (read? position) :=
  fun c follows => (blames_read? position c).of_follows (follows.trans (follows_skipSpaces c))

theorem local_read (position : Position) : Local b (read position) := by
  intro c follows
  have blames := blames_read? position c
  refine Blames.of_follows ?_ (follows.trans (follows_skipSpaces c))
  rw [read_run]
  rcases run : read? position c with ⟨_ | expression, d⟩ | ⟨diagnostic, d⟩
  · rw [run] at blames
    exact ⟨c.skipSpaces, .refl _, blames, rfl⟩
  · rw [run] at blames
    exact blames
  · rw [run] at blames
    exact blames

end Expression

/-! ## Statements without a body, and heads of those with one -/

namespace Statement

open Reading Expression

variable {b : Cursor}

theorem local_readAssigned (kind : Option Binder) (target : Text) :
    Local b (readAssigned kind target) := by
  intro c follows
  have equals := follows.trans (follows_move c 1)
  rw [readAssigned_run]
  split
  · split
    · exact ⟨c.move 1, equals, .refl _, rfl⟩
    · exact (local_read .value _ equals).map some
  · rcases kind with _ | _ | _ | _
    · exact ⟨c, follows, .refl c, rfl⟩
    · exact follows
    · exact ⟨c, follows, .refl c, rfl⟩
    · exact ⟨c, follows, .refl c, rfl⟩

theorem local_readAssignment (kind : Option Binder) : Local b (readAssignment kind) := by
  intro c follows
  have target := follows.trans ((Forward.targetStart kind c).trans (follows_skipWord _))
  have value := local_readAssigned kind (targetStart kind c).word
    (targetStart kind c).skipWord.skipSpaces (target.trans (follows_skipSpaces _))
  rw [readAssignment_run]
  split
  · exact ⟨_, target, .refl _, rfl⟩
  · cases run : readAssigned kind (targetStart kind c).word
        (targetStart kind c).skipWord.skipSpaces with
    | ok found d =>
        rw [run] at value
        exact value
    | error diagnostic d =>
        rw [run] at value
        exact value

theorem local_readArgument? (name : Text) (count : Nat) : Local b (readArgument? name count) := by
  intro c follows
  have value := local_read? .value c follows
  rw [readArgument?_run]
  rcases run : read? .value c with ⟨_ | argument, d⟩ | ⟨diagnostic, d⟩
  · rw [run] at value
    exact value
  · rw [run] at value
    dsimp only
    split
    · exact value
    · exact ⟨d, value, .refl d, rfl⟩
  · rw [run] at value
    exact value

theorem local_readArguments (name : Text) (n count : Nat) :
    Local b (readArguments name n count) := by
  induction n generalizing count with
  | zero => exact local_failHere _
  | succ n ih =>
      intro c follows
      have one := local_readArgument? name count c follows
      rw [readArguments_run]
      rcases run : readArgument? name count c with ⟨_ | argument, d⟩ | ⟨diagnostic, d⟩
      · rw [run] at one
        exact one
      · rw [run] at one
        exact (ih (count + 1) d one).map _
      · rw [run] at one
        exact one

theorem local_readInvocation (kind : Callee) (n : Nat) : Local b (readInvocation kind n) := by
  intro c follows
  have arguments := local_readArguments c.word n 0 c.skipWord (follows.trans (follows_skipWord c))
  rw [readInvocation_run]
  cases run : readArguments c.word n 0 c.skipWord with
  | ok found d =>
      rw [run] at arguments
      exact arguments
  | error diagnostic d =>
      rw [run] at arguments
      exact arguments

theorem local_readCondition : Local b readCondition := by
  refine (local_expectWord _).bind fun _ => (local_read _).bind fun condition => ?_
  refine (local_modify follows_skipSpaces).bind fun _ => (local_eat _).bind fun found => ?_
  refine .ite ?_ (local_failHere _)
  exact (local_modify follows_skipIdle).bind fun _ => (local_expectWord _).bind fun _ => .pure _

/-- A name that is taken is reported where the declaration starts. -/
theorem local_readSignature (rules : RuleTable) : Local b (readSignature rules b.location) := by
  refine (local_expectWord _).bind fun _ => (local_modify follows_skipSpaces).bind fun _ => ?_
  refine local_takeWord.bind fun name => .ite (local_failHere _) (.ite (local_failAt _) ?_)
  refine (local_modify follows_skipSpaces).bind fun _ => fun c follows => ?_
  show Blames id b ((if c.parametersLength = 0 then _ else _ : Reading Text) c)
  rw [ite_run]
  split
  · exact ⟨c, follows, .refl c, rfl⟩
  · have opened := follows.trans ((follows_move c c.parametersLength).trans (follows_skipIdle _))
    exact (local_eat _).bind (fun found => .ite (.pure name) (local_failHere _)) _ opened

theorem local_readTerminator (kind : Kind) : Local b (readTerminator kind) := by
  intro c follows
  have spaces := follows.trans (follows_skipSpaces c)
  rw [readTerminator_run]
  split
  · exact spaces.trans (follows_skipComment _)
  · split
    · exact spaces.trans (follows_move _ 1)
    · split
      · exact spaces
      · exact ⟨_, spaces, .refl _, rfl⟩

theorem local_readEnd (body : Body) : Local b body.readEnd := by
  cases body with
  | conditional =>
      intro c follows
      rw [Body.readEnd_conditional_run]
      split
      · exact ⟨c, follows, .refl c, rfl⟩
      · split
        · exact follows.trans (follows_skipWord c)
        · exact follows
  | function name => exact local_eat _

end Statement

/-! ## Statements -/

namespace Parser

abbrev Local {α : Type} (b : Cursor) (step : Parsing α) : Prop := BlamesFrom Parser.cursor b step

variable {b : Cursor}

theorem local_reading {α : Type} {step : Reading α} (blames : Reading.Local b step) :
    Local b (reading step) := by
  intro p follows
  have result := blames p.cursor follows
  rw [reading_run]
  cases run : step p.cursor with
  | ok value c =>
      rw [run] at result
      exact result
  | error diagnostic c =>
      rw [run] at result
      exact result

theorem local_skipIdle : Local b (reading (modify Cursor.skipIdle)) :=
  local_reading (Reading.local_modify follows_skipIdle)

/-- A body that is never closed is reported where its statement starts. -/
theorem local_readBody {step : Parsing (Option Statement)} (blames : Local b step) (body : Body)
    (n : Nat) : Local b (readBody step body b.location n) := by
  induction n with
  | zero => exact local_reading (Reading.local_failAt _)
  | succ n ih =>
      refine local_skipIdle.bind fun _ => .get fun p => ?_
      refine .ite (local_reading (Reading.local_failAt _)) ?_
      refine (local_reading (Statement.local_readEnd body)).bind fun closed => .ite (.pure []) ?_
      refine blames.bind fun found => ?_
      cases found with
      | some first => exact ih.bind fun others => .pure (first :: others)
      | none => exact ih

theorem local_declare (name : Text) : Local b (declare name b.location) := by
  intro p follows
  rw [declare_run]
  cases p.rules.register name .declared with
  | ok rules => exact follows
  | error refusal => exact ⟨b, .refl b, follows, rfl⟩

theorem local_readByRule {step : Parsing (Option Statement)} (blames : ∀ c, Local c step) (n : Nat)
    (word : Text) : Local b (readByRule step n word) := by
  intro p follows
  rw [readByRule_run]
  rcases p.rules.get? word with _ | kind | _ | _ | kind
  · dsimp only
    split
    · exact ⟨p.cursor, follows, .refl _, rfl⟩
    · exact local_reading (Statement.local_readAssignment none) p follows
  · exact local_reading (Statement.local_readAssignment _) p follows
  · have steps : Local p.cursor (reading Statement.readCondition >>= fun condition =>
        readBody step .conditional p.cursor.location n >>= fun body => get >>= fun q =>
          pure (Statement.conditional (q.cursor.spanFrom p.cursor.location) condition body)) := by
      refine (local_reading Statement.local_readCondition).bind fun condition => ?_
      exact (local_readBody (blames _) _ n).bind fun body => .get fun q => .pure _
    exact (steps p (.refl _)).of_follows follows
  · have steps : Local p.cursor (reading (Statement.readSignature p.rules p.cursor.location) >>=
        fun name => readBody step (.function name) p.cursor.location n >>= fun body => get >>=
          fun q => declare name p.cursor.location >>= fun _ =>
            pure (Statement.function (q.cursor.spanFrom p.cursor.location) name body)) := by
      refine (local_reading (Statement.local_readSignature _)).bind fun name => ?_
      refine (local_readBody (blames _) _ n).bind fun body => .get fun q => ?_
      exact (local_declare name).bind fun _ => .pure _
    exact (steps p (.refl _)).of_follows follows
  · exact local_reading (Statement.local_readInvocation kind n) p follows

theorem local_readStatement? (n : Nat) (b : Cursor) : Local b (readStatement? n) := by
  induction n generalizing b with
  | zero => exact local_reading (Reading.local_failHere _)
  | succ n ih =>
      refine local_skipIdle.bind fun _ => .get fun p => ?_
      refine .ite (.pure none) (.ite (local_reading (Reading.local_failHere _)) ?_)
      refine (local_readByRule ih n _).bind fun statement => ?_
      exact (local_reading (Statement.local_readTerminator _)).bind fun _ => .pure _

theorem local_readStatements (n : Nat) (b : Cursor) : Local b (readStatements n) := by
  induction n with
  | zero => exact local_reading (Reading.local_failHere _)
  | succ n ih =>
      refine (local_readStatement? (n + 1) b).bind fun found => ?_
      cases found with
      | some first => exact ih.bind fun others => .pure (first :: others)
      | none => exact .pure []

/-- A call for a statement that fails blames a position on its way. -/
theorem blamed_of_statement? {p q : Parser} {diagnostic : Diagnostic}
    (failed : statement? p = .error diagnostic q) :
    ∃ m, Follows p.cursor m ∧ Follows m q.cursor ∧ diagnostic.place = some m.location := by
  have blames := local_readStatement? (p.cursor.size + 1) p.cursor p (.refl _)
  have run : readStatement? (p.cursor.size + 1) p = .error diagnostic q := failed
  rw [run] at blames
  exact blames

theorem blamed_of_statements {p q : Parser} {diagnostic : Diagnostic}
    (failed : statements p = .error diagnostic q) :
    ∃ m, Follows p.cursor m ∧ Follows m q.cursor ∧ diagnostic.place = some m.location := by
  have blames := local_readStatements (p.cursor.size + 1) p.cursor p (.refl _)
  have run : readStatements (p.cursor.size + 1) p = .error diagnostic q := failed
  rw [run] at blames
  exact blames

/-! ## Short names without code -/

theorem Simple.alias_start {rules : RuleTable} {c d : Cursor} {statement : Statement}
    (simple : Simple rules c statement d) (clean : c.Clean) :
    ∀ value ∈ Statement.commandAliases [statement],
      ∃ m, Follows c m ∧ value.span.start = m.location := by
  cases simple with
  | @assignment kind _ _ _ _ run =>
      obtain ⟨-, found, -, rfl⟩ := Statement.readAssignment_eq_ok.mp run
      intro value member
      rw [Statement.commandAliases_assignment, Option.mem_toList] at member
      obtain ⟨-, span, target, same⟩ := Statement.commandAlias?_eq_some.mp member
      cases same
      obtain ⟨start, reached, lexed⟩ := Statement.lexed_of_readAssignment clean run
      exact ⟨start, reached, by rw [lexed.span]⟩
  | invocation _ run =>
      obtain ⟨arguments, stop, -, rfl⟩ := Statement.arguments_of_readInvocation run
      exact fun value member => absurd member List.not_mem_nil

/-- The value of a short name starts at a position that the derivation goes over. -/
theorem Parsed.alias_start {place : Option Body} {p q : Parser} {read : List Statement}
    (parsed : Parsed place p read q) (clean : p.cursor.Clean) :
    ∀ value ∈ Statement.commandAliases read,
      ∃ m, Follows p.cursor m ∧ value.span.start = m.location := by
  have behind : ∀ {c d : Cursor} {values : List Expression}, Follows c d →
      (∀ value ∈ values, ∃ m, Follows d m ∧ value.span.start = m.location) →
      ∀ value ∈ values, ∃ m, Follows c m ∧ value.span.start = m.location := by
    intro c d values follows starts value member
    obtain ⟨m, reached, start⟩ := starts value member
    exact ⟨m, follows.trans reached, start⟩
  induction parsed with
  | finish _ => exact fun value member => absurd member List.not_mem_nil
  | close _ _ => exact fun value member => absurd member List.not_mem_nil
  | @simple place p q statement d e others continues read stop _ ih =>
      have idle := follows_skipIdle p.cursor
      have passed := idle.trans (read.follows.trans ((Forward.readTerminator _).of_ok stop))
      rw [Statement.commandAliases_cons, List.forall_mem_append]
      exact ⟨behind idle (read.alias_start (idle.clean clean)),
        behind passed (ih (passed.clean clean))⟩
  | @conditional place p inner q condition c e body others _ _ head within stop _ ihBody ih =>
      have opened := (follows_skipIdle p.cursor).trans (Forward.readCondition.of_ok head)
      have passed := opened.trans (within.follows.trans ((Forward.readTerminator _).of_ok stop))
      rw [Statement.commandAliases_cons, Statement.commandAliases_conditional,
        List.forall_mem_append]
      exact ⟨behind opened (ihBody (opened.clean clean)), behind passed (ih (passed.clean clean))⟩
  | @function place p inner q name c e rules body others _ _ head within _ stop _ ihBody ih =>
      have opened := (follows_skipIdle p.cursor).trans ((Forward.readSignature _ _).of_ok head)
      have passed := opened.trans (within.follows.trans ((Forward.readTerminator _).of_ok stop))
      rw [Statement.commandAliases_cons, Statement.commandAliases_function,
        List.forall_mem_append]
      exact ⟨behind opened (ihBody (opened.clean clean)), behind passed (ih (passed.clean clean))⟩

end Parser

/-- Whatever keeps a script from being turned into code is reported at a position of the script, and
a call for a statement that fails reports a position that it went over. -/
theorem lift_error_located (settings : Settings) (source : Text) (builtins : List Text)
    (start : Parser) (accepted : Parser.new (.ofSource source) builtins = .ok start) :
    (∀ diagnostic, lift settings source builtins = .error diagnostic →
        ∃ location, diagnostic.place = some location ∧ location.InScript (Text.lines source)) ∧
      ∀ p diagnostic q, Parser.statement? p = .error diagnostic q →
        ∃ location, diagnostic.place = some location ∧
          p.cursor.location ≤ location ∧ location ≤ q.cursor.location := by
  constructor
  · intro diagnostic failed
    have here : start.cursor = .ofSource source := (Parser.new_eq_ok.mp accepted).2
    have within : Cursor.Within (Text.lines source) start.cursor :=
      here ▸ Cursor.within_ofLines _
    cases run : Parser.statements start with
    | error refusal q =>
        obtain ⟨m, reached, -, place⟩ := Parser.blamed_of_statements run
        have same : refusal = diagnostic := by
          simpa [lift, parse, accepted, run] using failed
        exact ⟨m.location, same ▸ place, (reached.within within).inScript⟩
    | ok tree q =>
        have read : parse source builtins = .ok tree := parse_eq_ok.mpr ⟨start, q, accepted, run⟩
        have starts := (Parser.statements_eq_ok_iff.mp run).alias_start
          (here ▸ Cursor.clean_ofSource source)
        have reports := reports_lift settings read
        rw [failed] at reports
        cases values : Statement.commandAliases tree with
        | nil =>
            rw [values] at reports
            obtain ⟨code, lifted⟩ := reports
            cases lifted
        | cons first others =>
            rw [values] at reports starts
            obtain ⟨m, reached, place⟩ := starts first (List.mem_cons_self ..)
            cases (reports : Except.error diagnostic = .error (.located .aliasTarget _))
            exact ⟨first.span.start, rfl, place ▸ (reached.within within).inScript⟩
  · intro p diagnostic q failed
    obtain ⟨m, reached, passed, place⟩ := Parser.blamed_of_statement? failed
    exact ⟨m.location, place, reached.location_le, passed.location_le⟩

theorem lift_error_located_wideCharacter :
    ∃ start stop, Parser.new (.ofSource "if x; then\nalias l='é' k; fi".toList) [] = .ok start ∧
      (∃ diagnostic,
        lift .initial "if x; then\nalias l='é' k; fi".toList [] = .error diagnostic ∧
          Parser.statement? start = .error diagnostic stop ∧ diagnostic.place = some ⟨2, 13⟩) ∧
      Location.InScript (Text.lines "if x; then\nalias l='é' k; fi".toList) ⟨2, 13⟩ ∧
      start.cursor.location ≤ ⟨2, 13⟩ ∧ (⟨2, 13⟩ : Location) ≤ stop.cursor.location := by
  let start : Parser := ⟨.ofSource "if x; then\nalias l='é' k; fi".toList, RuleTable.initial⟩
  let stop : Parser := ⟨⟨1, "alias l='é' ".toList, ["k; fi".toList]⟩, RuleTable.initial⟩
  let diagnostic : Diagnostic := .located (.trailingText "k; fi".toList .assignment) ⟨2, 13⟩
  have accepted : Parser.new (.ofSource "if x; then\nalias l='é' k; fi".toList) [] =
      .ok start := rfl
  have lifted : lift .initial "if x; then\nalias l='é' k; fi".toList [] = .error diagnostic := by
    cbv
  have failed : Parser.statement? start = .error diagnostic stop := by cbv
  obtain ⟨inScript, between⟩ := lift_error_located .initial _ _ _ accepted
  obtain ⟨location, place, valid⟩ := inScript _ lifted
  obtain ⟨passed, same, bounds⟩ := between _ _ _ failed
  cases place
  cases same
  exact ⟨start, stop, accepted, ⟨diagnostic, lifted, failed, rfl⟩, valid, bounds⟩

end ShellLift
