import ShellLift.Proofs.Allowance

/-!
# Derivations

`Parsed place p statements q` says that a parser gets from `p` to `q` over a sequence of statements
in a place, which is the script itself or a body. It has one rule for each way in which a sequence
can go on, and no allowance. The parser succeeds exactly along such derivations, so that a fact
about all successful runs is proved by an induction with one case for each rule.
-/

set_option autoImplicit false

namespace ShellLift

open Step Cursor

namespace Parser

def Continues (place : Option Body) (c : Cursor) : Prop :=
  c.word ≠ [] ∧ ∀ body, place = some body → body.readEnd c = .ok false c

inductive Simple (rules : RuleTable) (c : Cursor) : Statement → Cursor → Prop
  | assignment {kind : Option Binder} {statement : Statement} {d : Cursor} :
      rules.get? c.word = kind.map Rule.assignment →
      (kind = none → ¬ isUnsupportedKeyword c.word = true) →
      Statement.readAssignment kind c = .ok statement d → Simple rules c statement d
  | invocation {kind : Callee} {statement : Statement} {d : Cursor} :
      rules.get? c.word = some (.invocation kind) →
      Statement.readInvocation kind c.size c = .ok statement d → Simple rules c statement d

/-- The statements of a place, up to the end of the script or past the end of the body. -/
inductive Parsed : Option Body → Parser → List Statement → Parser → Prop
  | finish {p : Parser} : p.cursor.skipIdle.ahead = [] →
      Parsed none p [] ⟨p.cursor.skipIdle, p.rules⟩
  | close {body : Body} {p : Parser} {d : Cursor} : p.cursor.skipIdle.ahead ≠ [] →
      body.readEnd p.cursor.skipIdle = .ok true d → Parsed (some body) p [] ⟨d, p.rules⟩
  | simple {place : Option Body} {p q : Parser} {statement : Statement} {d e : Cursor}
      {others : List Statement} :
      Continues place p.cursor.skipIdle → Simple p.rules p.cursor.skipIdle statement d →
      Statement.readTerminator statement.kind d = .ok () e → Parsed place ⟨e, p.rules⟩ others q →
      Parsed place p (statement :: others) q
  | conditional {place : Option Body} {p inner q : Parser} {condition : Expression}
      {c e : Cursor} {body others : List Statement} :
      Continues place p.cursor.skipIdle →
      p.rules.get? p.cursor.skipIdle.word = some .conditional →
      Statement.readCondition p.cursor.skipIdle = .ok condition c →
      Parsed (some .conditional) ⟨c, p.rules⟩ body inner →
      Statement.readTerminator .conditional inner.cursor = .ok () e →
      Parsed place ⟨e, inner.rules⟩ others q →
      Parsed place p
        (.conditional ⟨p.cursor.skipIdle.location, inner.cursor.location⟩ condition body
          :: others) q
  | function {place : Option Body} {p inner q : Parser} {name : Text} {c e : Cursor}
      {rules : RuleTable} {body others : List Statement} :
      Continues place p.cursor.skipIdle →
      p.rules.get? p.cursor.skipIdle.word = some .function →
      Statement.readSignature p.rules p.cursor.skipIdle.location p.cursor.skipIdle = .ok name c →
      Parsed (some (.function name)) ⟨c, p.rules⟩ body inner →
      inner.rules.register name .declared = .ok rules →
      Statement.readTerminator .function inner.cursor = .ok () e →
      Parsed place ⟨e, rules⟩ others q →
      Parsed place p
        (.function ⟨p.cursor.skipIdle.location, inner.cursor.location⟩ name body :: others) q

/-- A derivation depends on the position past the idle lines only. -/
theorem Parsed.congr {place : Option Body} {p p' q : Parser} {statements : List Statement}
    (parsed : Parsed place p statements q) (idle : p.cursor.skipIdle = p'.cursor.skipIdle)
    (rules : p.rules = p'.rules) : Parsed place p' statements q := by
  cases parsed with
  | finish atEnd =>
      rw [idle, rules]
      exact .finish (idle ▸ atEnd)
  | close notEnd closes =>
      rw [rules]
      exact .close (idle ▸ notEnd) (idle ▸ closes)
  | simple continues read stops others =>
      exact .simple (idle ▸ continues) (idle ▸ rules ▸ read) stops (rules ▸ others)
  | conditional continues rule head body stops others =>
      rw [idle]
      exact .conditional (idle ▸ continues) (idle ▸ rules ▸ rule) (idle ▸ head) (rules ▸ body) stops
        others
  | function continues rule head body declared stops others =>
      rw [idle]
      exact .function (idle ▸ continues) (idle ▸ rules ▸ rule) (idle ▸ rules ▸ head) (rules ▸ body)
        declared stops others

/-! ## From a run to its derivation -/

/-- The step for one statement puts it in front of every derivation that goes on behind it. -/
def Extends (p : Parser) : Prop :=
  ∀ (statement : Statement) (q r : Parser) (place : Option Body) (others : List Statement),
    statement? p = .ok (some statement) q → Continues place p.cursor.skipIdle →
      Parsed place q others r → Parsed place p (statement :: others) r

/-- What a step for one statement has done when it has read one. -/
theorem statement?_eq_some {p q : Parser} {statement : Statement}
    (run : statement? p = .ok (some statement) q) :
    p.cursor.skipIdle.word ≠ [] ∧ ∃ next,
      readByRule statement? p.cursor.size p.cursor.skipIdle.word ⟨p.cursor.skipIdle, p.rules⟩ =
        .ok statement next ∧
      Statement.readTerminator statement.kind next.cursor = .ok () q.cursor ∧
      q.rules = next.rules := by
  rw [statement?_run] at run
  split at run
  · simp at run
  · split at run
    · simp at run
    · rename_i notEmpty
      refine ⟨by simpa using notEmpty, ?_⟩
      rcases rule : readByRule statement? p.cursor.size p.cursor.skipIdle.word
        ⟨p.cursor.skipIdle, p.rules⟩ with ⟨found, next⟩ | ⟨diagnostic, next⟩
      · simp only [rule] at run
        rcases stop : Statement.readTerminator found.kind next.cursor with ⟨_, c⟩ | ⟨diagnostic, c⟩
        · simp only [stop] at run
          cases run
          exact ⟨next, rfl, stop, rfl⟩
        · simp [stop] at run
      · simp [rule] at run

theorem parsed_of_readBody {bound : Nat} (step : ∀ p : Parser, p.cursor.size < bound → Extends p)
    {body : Body} {start : Location} {n : Nat} {p q : Parser} {statements : List Statement}
    (small : p.cursor.size < bound)
    (run : readBody statement? body start n p = .ok statements q) :
    Parsed (some body) p statements q := by
  induction n generalizing p statements with
  | zero => simp [readBody, reading_run, Reading.failAt_run] at run
  | succ n ih =>
      have idle := (follows_skipIdle p.cursor).size_le
      rw [readBody_run] at run
      split at run
      · simp at run
      · rename_i notEnd
        rcases closing : body.readEnd p.cursor.skipIdle with ⟨_ | _, c⟩ | ⟨diagnostic, c⟩
        · obtain rfl := Body.eq_of_readEnd_false closing
          simp only [closing] at run
          obtain ⟨found, r, one, rest⟩ := bind_eq_ok.mp run
          cases found with
          | none =>
              have atEnd := (atEnd_of_readStatement?_none _ _ _ one).1
              rw [skipIdle_skipIdle] at atEnd
              exact absurd atEnd notEnd
          | some first =>
              obtain ⟨others, behind, rfl⟩ := map_eq_ok.mp rest
              have shorter := readStatement?_size_lt _ _ _ _ one
              dsimp only at shorter
              have word := (statement?_eq_some one).1
              have continues : Continues (some body) p.cursor.skipIdle.skipIdle := by
                refine ⟨word, fun other same => ?_⟩
                cases same
                rw [skipIdle_skipIdle]
                exact closing
              have tail := ih (by omega) behind
              have front := step ⟨p.cursor.skipIdle, p.rules⟩ (by dsimp only; omega) first r q
                (some body) others one continues tail
              exact front.congr (skipIdle_skipIdle p.cursor) rfl
        · simp only [closing] at run
          cases run
          exact .close (fun atEnd => notEnd ((atEnd_iff _).mpr atEnd)) closing
        · simp [closing] at run

theorem extends_all (p : Parser) : Extends p := by
  -- The body of a statement is shorter than what the statement starts from.
  induction size : p.cursor.size using Nat.strongRecOn generalizing p with
  | _ bound ih =>
      subst size
      intro statement q r place others run continues tail
      have idle := (follows_skipIdle p.cursor).size_le
      obtain ⟨word, next, rule, stop, rules⟩ := statement?_eq_some run
      obtain ⟨e, table⟩ := q
      obtain rfl : table = next.rules := rules
      rw [readByRule_run] at rule
      dsimp only at rule stop
      have shorter := skipWord_size_lt word
      rcases known : p.rules.get? p.cursor.skipIdle.word with _ | kind | _ | _ | kind
      · simp only [known] at rule
        split at rule
        · simp at rule
        · rename_i supported
          obtain ⟨read, same⟩ := reading_eq_ok.mp rule
          rw [same] at tail
          refine .simple continues (.assignment ?_ (fun _ => supported) read) stop tail
          exact known
      · simp only [known] at rule
        obtain ⟨read, same⟩ := reading_eq_ok.mp rule
        rw [same] at tail
        refine .simple continues (.assignment ?_ (fun none => ?_) read) stop tail
        · exact known
        · cases none
      · simp only [known, readConditional_run] at rule
        rcases head : Statement.readCondition p.cursor.skipIdle with
          ⟨condition, c⟩ | ⟨diagnostic, c⟩
        · have behind : c.size ≤ p.cursor.skipIdle.skipWord.size := by
            have follows := Statement.readCondition_follows word
            rw [head] at follows
            exact follows.size_le
          simp only [head] at rule
          rcases body : readBody statement? .conditional p.cursor.skipIdle.location p.cursor.size
            ⟨c, p.rules⟩ with ⟨inside, inner⟩ | ⟨diagnostic, inner⟩
          · simp only [body] at rule
            cases rule
            have within := parsed_of_readBody (fun q small => ih q.cursor.size small q rfl)
              (show c.size < p.cursor.size by omega) body
            exact .conditional continues known head within stop tail
          · simp [body] at rule
        · simp [head] at rule
      · simp only [known, readFunction_run] at rule
        rcases head : Statement.readSignature p.rules p.cursor.skipIdle.location
          p.cursor.skipIdle with ⟨name, c⟩ | ⟨diagnostic, c⟩
        · have behind : c.size ≤ p.cursor.skipIdle.skipWord.size := by
            have follows := Statement.readSignature_follows word p.rules p.cursor.skipIdle.location
            rw [head] at follows
            exact follows.size_le
          simp only [head] at rule
          rcases body : readBody statement? (.function name) p.cursor.skipIdle.location
            p.cursor.size ⟨c, p.rules⟩ with ⟨inside, inner⟩ | ⟨diagnostic, inner⟩
          · simp only [body] at rule
            cases declared : inner.rules.register name .declared with
            | ok table =>
                simp only [declared] at rule
                cases rule
                have within := parsed_of_readBody (fun q small => ih q.cursor.size small q rfl)
                  (show c.size < p.cursor.size by omega) body
                exact .function continues known head within declared stop tail
            | error refusal => simp [declared] at rule
          · simp [body] at rule
        · simp [head] at rule
      · simp only [known] at rule
        obtain ⟨read, same⟩ := reading_eq_ok.mp rule
        rw [same] at tail
        dsimp only at read
        rw [Statement.readInvocation_allowance kind _ p.cursor.skipIdle.size _ word idle
          (Nat.le_refl _)] at read
        exact .simple continues (.invocation known read) stop tail

theorem parsed_of_statements {p q : Parser} {read : List Statement}
    (run : statements p = .ok read q) : Parsed none p read q := by
  induction read generalizing p with
  | nil =>
      obtain ⟨atEnd, rfl⟩ := atEnd_of_readStatement?_none _ p q (statement?_of_statements_nil run)
      exact .finish ((atEnd_iff _).mp atEnd)
  | cons first others ih =>
      obtain ⟨r, one, rest⟩ := statement?_of_statements_cons run
      exact extends_all p first r q none others one
        ⟨(statement?_eq_some one).1, fun body place => nomatch place⟩ (ih rest)

/-! ## From a derivation to its run -/

def Ran : Option Body → Parser → List Statement → Parser → Prop
  | none, p, read, q => statements p = .ok read q
  | some body, p, read, q =>
    ∀ (start : Location) (n : Nat), p.cursor.size < n →
      readBody statement? body start n p = .ok read q

theorem not_atEnd_of_word {c : Cursor} (word : c.word ≠ []) : ¬ c.atEnd = true := by
  obtain ⟨x, next, -⟩ := exists_next_of_word word
  rw [atEnd_iff]
  intro atEnd
  simp [Cursor.next?, rest?, atEnd] at next

theorem statement?_eq_of_readByRule {p next : Parser} {statement : Statement} {e : Cursor}
    (word : p.cursor.skipIdle.word ≠ [])
    (rule : readByRule statement? p.cursor.size p.cursor.skipIdle.word
      ⟨p.cursor.skipIdle, p.rules⟩ = .ok statement next)
    (stop : Statement.readTerminator statement.kind next.cursor = .ok () e) :
    statement? p = .ok (some statement) ⟨e, next.rules⟩ := by
  have notEmpty : ¬ List.isEmpty p.cursor.skipIdle.word = true := by simpa using word
  rw [statement?_run, if_neg (not_atEnd_of_word word), if_neg notEmpty, rule]
  simp only [stop]

theorem statement?_eq_error_of_readByRule {p next : Parser} {diagnostic : Diagnostic}
    (word : p.cursor.skipIdle.word ≠ [])
    (rule : readByRule statement? p.cursor.size p.cursor.skipIdle.word
      ⟨p.cursor.skipIdle, p.rules⟩ = .error diagnostic next) :
    statement? p = .error diagnostic next := by
  have notEmpty : ¬ List.isEmpty p.cursor.skipIdle.word = true := by simpa using word
  rw [statement?_run, if_neg (not_atEnd_of_word word), if_neg notEmpty, rule]

theorem ran_cons {place : Option Body} {p q r : Parser} {statement : Statement}
    {others : List Statement} (continues : Continues place p.cursor.skipIdle)
    (one : statement? p = .ok (some statement) r) (rest : Ran place r others q) :
    Ran place p (statement :: others) q := by
  cases place with
  | none =>
      show statements p = _
      rw [statements_run, one]
      exact map_eq_ok.mpr ⟨others, rest, rfl⟩
  | some body =>
      intro start n small
      have shorter := readStatement?_size_lt _ _ _ _ one
      have notEnd : ¬ p.cursor.skipIdle.atEnd = true := by
        intro atEnd
        have none := statement?_run p
        rw [if_pos atEnd, one] at none
        simp at none
      have here : statement? ⟨p.cursor.skipIdle, p.rules⟩ = statement? p :=
        statement?_congr (skipIdle_skipIdle p.cursor) rfl
      cases n with
      | zero => omega
      | succ n =>
          rw [readBody_run, if_neg notEnd, continues.2 body rfl]
          refine bind_eq_ok.mpr ⟨some statement, r, here.trans one, ?_⟩
          exact map_eq_ok.mpr ⟨others, rest start n (by omega), rfl⟩

theorem statement?_of_simple {p : Parser} {statement : Statement} {d e : Cursor}
    (word : p.cursor.skipIdle.word ≠ []) (read : Simple p.rules p.cursor.skipIdle statement d)
    (stop : Statement.readTerminator statement.kind d = .ok () e) :
    statement? p = .ok (some statement) ⟨e, p.rules⟩ := by
  have rule : readByRule statement? p.cursor.size p.cursor.skipIdle.word
      ⟨p.cursor.skipIdle, p.rules⟩ = .ok statement ⟨d, p.rules⟩ := by
    rw [readByRule_run]
    cases read with
    | @assignment kind _ _ known supported read =>
        cases kind with
        | none =>
            rw [Option.map_none] at known
            simp only [known, if_neg (supported rfl)]
            exact reading_eq_ok.mpr ⟨read, rfl⟩
        | some binder =>
            rw [Option.map_some] at known
            simp only [known]
            exact reading_eq_ok.mpr ⟨read, rfl⟩
    | @invocation kind _ _ known read =>
        have idle := (follows_skipIdle p.cursor).size_le
        rw [Statement.readInvocation_allowance kind _ p.cursor.size _ word
          (Nat.le_refl _) idle] at read
        simp only [known]
        exact reading_eq_ok.mpr ⟨read, rfl⟩
  have one := statement?_eq_of_readByRule word rule stop
  exact one

theorem statement?_of_conditional {p inner : Parser} {condition : Expression} {c e : Cursor}
    {body : List Statement} (word : p.cursor.skipIdle.word ≠ [])
    (known : p.rules.get? p.cursor.skipIdle.word = some .conditional)
    (head : Statement.readCondition p.cursor.skipIdle = .ok condition c)
    (inside : Ran (some .conditional) ⟨c, p.rules⟩ body inner)
    (stop : Statement.readTerminator .conditional inner.cursor = .ok () e) :
    statement? p = .ok (some (.conditional ⟨p.cursor.skipIdle.location, inner.cursor.location⟩
      condition body)) ⟨e, inner.rules⟩ := by
  have behind : c.size < p.cursor.size := by
    have follows := Statement.readCondition_follows word
    rw [head] at follows
    have idle := (follows_skipIdle p.cursor).size_le
    exact Nat.lt_of_le_of_lt follows.size_le
      (Nat.lt_of_lt_of_le (skipWord_size_lt word) idle)
  have rule : readByRule statement? p.cursor.size p.cursor.skipIdle.word
      ⟨p.cursor.skipIdle, p.rules⟩ = .ok (.conditional
        ⟨p.cursor.skipIdle.location, inner.cursor.location⟩ condition body) inner := by
    rw [readByRule_run]
    simp only [known, readConditional_run, head]
    rw [inside p.cursor.skipIdle.location p.cursor.size behind]
  exact statement?_eq_of_readByRule word rule stop

theorem statement?_of_function {p inner : Parser} {name : Text} {c e : Cursor} {rules : RuleTable}
    {body : List Statement} (word : p.cursor.skipIdle.word ≠ [])
    (known : p.rules.get? p.cursor.skipIdle.word = some .function)
    (head : Statement.readSignature p.rules p.cursor.skipIdle.location p.cursor.skipIdle =
      .ok name c)
    (inside : Ran (some (.function name)) ⟨c, p.rules⟩ body inner)
    (declared : inner.rules.register name .declared = .ok rules)
    (stop : Statement.readTerminator .function inner.cursor = .ok () e) :
    statement? p = .ok (some (.function ⟨p.cursor.skipIdle.location, inner.cursor.location⟩
      name body)) ⟨e, rules⟩ := by
  have behind : c.size < p.cursor.size := by
    have follows := Statement.readSignature_follows word p.rules p.cursor.skipIdle.location
    rw [head] at follows
    have idle := (follows_skipIdle p.cursor).size_le
    exact Nat.lt_of_le_of_lt follows.size_le
      (Nat.lt_of_lt_of_le (skipWord_size_lt word) idle)
  have rule : readByRule statement? p.cursor.size p.cursor.skipIdle.word
      ⟨p.cursor.skipIdle, p.rules⟩ = .ok (.function
        ⟨p.cursor.skipIdle.location, inner.cursor.location⟩ name body)
        ⟨inner.cursor, rules⟩ := by
    rw [readByRule_run]
    simp only [known, readFunction_run, head]
    rw [inside p.cursor.skipIdle.location p.cursor.size behind]
    simp only [declared]
  have one := statement?_eq_of_readByRule word rule stop
  exact one

theorem Parsed.ran {place : Option Body} {p q : Parser} {read : List Statement}
    (parsed : Parsed place p read q) : Ran place p read q := by
  induction parsed with
  | finish atEnd =>
      show statements _ = _
      rw [statements_run, statement?_run, if_pos ((atEnd_iff _).mpr atEnd)]
  | @close body p d notEnd closes =>
      intro start n small
      cases n with
      | zero => omega
      | succ n => rw [readBody_run, if_neg (fun atEnd => notEnd ((atEnd_iff _).mp atEnd)), closes]
  | simple continues read stop _ ih =>
      exact ran_cons continues (statement?_of_simple continues.1 read stop) ih
  | conditional continues known head _ stop _ ihBody ih =>
      exact ran_cons continues (statement?_of_conditional continues.1 known head ihBody stop) ih
  | function continues known head _ declared stop _ ihBody ih =>
      exact ran_cons continues
        (statement?_of_function continues.1 known head ihBody declared stop) ih

/-- The parser succeeds exactly along the derivations of the script. -/
theorem statements_eq_ok_iff {p q : Parser} {read : List Statement} :
    statements p = .ok read q ↔ Parsed none p read q :=
  ⟨parsed_of_statements, fun parsed => parsed.ran⟩

end Parser

/-! ## The rules along a derivation -/

namespace RuleTable

/-- The keywords come first, and behind them there are commands only. -/
def Keyed (rules : RuleTable) : Prop :=
  ∃ commands : List (Text × Callee),
    rules.entries = initial.entries ++ commands.map fun entry => (entry.1, .invocation entry.2)

theorem keyed_initial : Keyed initial := ⟨[], (List.append_nil _).symm⟩

theorem Keyed.register {rules rules' : RuleTable} (keyed : Keyed rules) {name : Text}
    {kind : Callee} (added : rules.register name kind = .ok rules') : Keyed rules' := by
  obtain ⟨commands, entries⟩ := keyed
  unfold RuleTable.register at added
  split at added
  · split at added
    · cases added
    · cases added
      refine ⟨commands ++ [(name, kind)], ?_⟩
      simp only [entries, List.map_append, List.append_assoc, List.map_cons, List.map_nil]
  · cases added

/-- Only a keyword of assignment starts an assignment by its rule. -/
theorem Keyed.eq_keyword {rules : RuleTable} (keyed : Keyed rules) {word : Text} {kind : Binder}
    (found : rules.get? word = some (.assignment kind)) : word = kind.keyword := by
  obtain ⟨commands, entries⟩ := keyed
  obtain ⟨entry, first, rule⟩ := Option.map_eq_some_iff.mp found
  have same : entry.1 = word := by simpa using List.find?_some first
  have member := List.mem_of_find?_eq_some first
  rw [entries, List.mem_append] at member
  rcases member with known | command
  · simp only [initial, List.mem_cons, List.not_mem_nil, or_false] at known
    rcases known with rfl | rfl | rfl | rfl | rfl | rfl
    · cases rule; exact same.symm
    · cases rule; exact same.symm
    · cases rule; exact same.symm
    · cases rule
    · cases rule
    · cases rule
  · obtain ⟨other, -, rfl⟩ := List.mem_map.mp command
    cases rule

end RuleTable

namespace Parser

theorem keyed_registerBuiltins {rules rules' : RuleTable} {names : List Text}
    (keyed : rules.Keyed) (added : registerBuiltins rules names = .ok rules') : rules'.Keyed := by
  induction names generalizing rules with
  | nil =>
      cases added
      exact keyed
  | cons name names ih =>
      rw [registerBuiltins] at added
      cases first : rules.register name .extra with
      | ok table =>
          rw [first] at added
          exact ih (keyed.register first) added
      | error refusal =>
          rw [first] at added
          cases refusal <;> cases added

theorem keyed_new {c : Cursor} {builtins : List Text} {p : Parser}
    (accepted : Parser.new c builtins = .ok p) : p.rules.Keyed ∧ p.cursor = c := by
  obtain ⟨added, here⟩ := new_eq_ok.mp accepted
  exact ⟨keyed_registerBuiltins RuleTable.keyed_initial added, here⟩

theorem Parsed.keyed {place : Option Body} {p q : Parser} {read : List Statement}
    (parsed : Parsed place p read q) (keyed : p.rules.Keyed) : q.rules.Keyed := by
  induction parsed with
  | finish _ => exact keyed
  | close _ _ => exact keyed
  | simple _ _ _ _ ih => exact ih keyed
  | conditional _ _ _ _ _ _ ihBody ih => exact ih (ihBody keyed)
  | function _ _ _ _ declared _ _ ihBody ih => exact ih ((ihBody keyed).register declared)

theorem Simple.follows {rules : RuleTable} {c d : Cursor} {statement : Statement}
    (simple : Simple rules c statement d) : Follows c d := by
  cases simple with
  | @assignment kind _ _ _ _ run => exact (Forward.readAssignment kind).of_ok run
  | @invocation kind _ _ _ run => exact (Forward.readInvocation kind c.size).of_ok run

/-- A derivation only goes forward. -/
theorem Parsed.follows {place : Option Body} {p q : Parser} {read : List Statement}
    (parsed : Parsed place p read q) : Follows p.cursor q.cursor := by
  induction parsed with
  | finish _ => exact follows_skipIdle _
  | @close body p d _ closes =>
      exact (follows_skipIdle p.cursor).trans ((Forward.readEnd body).of_ok closes)
  | @simple place p q statement d e others _ read stop _ ih =>
      have stopped := (Forward.readTerminator statement.kind).of_ok stop
      exact (follows_skipIdle p.cursor).trans (read.follows.trans (stopped.trans ih))
  | @conditional place p inner q condition c e body others _ _ head _ stop _ ihBody ih =>
      have opened := Forward.readCondition.of_ok head
      have stopped := (Forward.readTerminator .conditional).of_ok stop
      exact (follows_skipIdle p.cursor).trans (opened.trans (ihBody.trans (stopped.trans ih)))
  | @function place p inner q name c e rules body others _ _ head _ _ stop _ ihBody ih =>
      have opened := (Forward.readSignature p.rules p.cursor.skipIdle.location).of_ok head
      have stopped := (Forward.readTerminator .function).of_ok stop
      exact (follows_skipIdle p.cursor).trans (opened.trans (ihBody.trans (stopped.trans ih)))

end Parser

theorem parse_eq_ok {source : Text} {builtins : List Text} {tree : List Statement} :
    parse source builtins = .ok tree ↔
      ∃ p q, Parser.new (.ofSource source) builtins = .ok p ∧ Parser.statements p = .ok tree q := by
  unfold parse
  cases Parser.new (.ofSource source) builtins with
  | error diagnostic => simp
  | ok p => cases run : Parser.statements p <;> simp [run]

end ShellLift
