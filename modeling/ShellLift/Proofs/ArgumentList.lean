import ShellLift.Code.Emission
import ShellLift.Proofs.Numeral
import ShellLift.Proofs.StringLiteral

/-!
# Argument lists are read back

The code of an expression is a string literal, an integer literal or a call of the context with one
string literal. A reader of argument lists that knows these forms, the separator, the context that a
declared function is handed, and the closing parenthesis gets back the form of each argument with
its text or number. So no text of an argument can pass for any other part of the call.
-/

set_option autoImplicit false

namespace ShellLift

/-! ## Forms of emitted code -/

inductive ContextMethod
  | expandLiteral
  | expandQuotation
  | capture
  | testCommand
deriving DecidableEq

def ContextMethod.name : ContextMethod → String
  | expandLiteral => "expand_literal"
  | expandQuotation => "zsh_expand_quote"
  | capture => "zsh"
  | testCommand => "zsh_test_command"

inductive Emitted
  | string (text : Text)
  | integer (value : Nat)
  | deferred (method : ContextMethod) (text : Text)
deriving DecidableEq

namespace Emitted

def code : Emitted → Text
  | string text => Code.stringLiteral text
  | integer value => Text.ofNat value
  | deferred method text => Code.contextCall method.name [Code.stringLiteral text]

end Emitted

def Expression.emitted (expression : Expression) : Emitted :=
  match expression.form with
  | .literal =>
    if startsWithTilde expression.text then .deferred .expandLiteral expression.text
    else if Text.isNumeral expression.text then .integer (Text.numeralValue expression.text)
    else .string expression.text
  | .quoted _ =>
    if Code.isSimpleQuoted expression.text then .string expression.text
    else .deferred .expandQuotation expression.text
  | .subcommand => .deferred .capture expression.text
  | .test => .deferred .testCommand expression.text

theorem Expression.code_eq (expression : Expression) :
    expression.code = expression.emitted.code := by
  unfold code emitted
  cases expression.form with
  | literal =>
      dsimp only
      split
      · rfl
      · split
        · rename_i numeral
          exact Code.integerLiteral_eq numeral
        · rfl
  | quoted style =>
      dsimp only
      split
      · rfl
      · rfl
  | subcommand => rfl
  | test => rfl

/-! ## Reading -/

namespace Code

def isNameChar (c : Char) : Bool := Text.isWordChar c || c == '.'

def method? (name : Text) : Option ContextMethod :=
  [.expandLiteral, .expandQuotation, .capture, .testCommand].find? fun method : ContextMethod =>
    name == "ctx.".toList ++ method.name.toList

def expect? (c : Char) : Text → Option Text
  | [] => none
  | first :: rest => if first = c then some rest else none

def readDeferred? (text : Text) : Option (Emitted × Text) := do
  let method ← method? (text.takeWhile isNameChar)
  let inside ← expect? '(' (text.dropWhile isNameChar)
  let (argument, rest) ← readString? inside
  let behind ← expect? ')' rest
  pure (.deferred method argument, behind)

def readOperand? (text : Text) : Option (Emitted × Text) :=
  match text with
  | [] => none
  | first :: _ =>
    if first = '\'' ∨ first = '"' then do
      let (inside, behind) ← readString? text
      pure (.string inside, behind)
    else if first.isDigit then
      some (.integer (Text.digitsValue 0 (text.takeWhile Char.isDigit)),
        text.dropWhile Char.isDigit)
    else readDeferred? text

def handedContext (declared : Bool) : List Text :=
  if declared then ["parent_ctx=ctx".toList] else []

/-- Arguments up to the closing parenthesis, at least one or the context that is handed over. -/
def readOperands? : (allowance : Nat) → Text → Option (List Emitted × Bool × Text)
  | 0, _ => none
  | allowance + 1, text =>
    if "parent_ctx=ctx)".toList.isPrefixOf text then
      some ([], true, text.drop "parent_ctx=ctx)".length)
    else
      match readOperand? text with
      | some (first, ')' :: behind) => some ([first], false, behind)
      | some (first, ',' :: ' ' :: rest) => do
        let (others, declared, behind) ← readOperands? allowance rest
        pure (first :: others, declared, behind)
      | _ => none

/-- The arguments behind an opening parenthesis, whether the context is handed over behind them, and
what stands behind the closing parenthesis. -/
def readArguments? (text : Text) : Option (List Emitted × Bool × Text) :=
  match text with
  | ')' :: behind => some ([], false, behind)
  | text => readOperands? (text.length + 1) text

theorem call_eq (callee : Text) (arguments : List Text) :
    call callee arguments =
      callee ++ '(' :: (List.intercalate ", ".toList arguments ++ [')']) := by
  simp [call]

/-! ## One argument -/

theorem takeWhile_append_stop {test : Char → Bool} {front : Text} {x : Char}
    (all : ∀ y ∈ front, test y = true) (stops : test x = false) (rest : Text) :
    (front ++ x :: rest).takeWhile test = front ∧
      (front ++ x :: rest).dropWhile test = x :: rest := by
  rw [List.takeWhile_append_of_pos all, List.dropWhile_append_of_pos all]
  simp [stops]

theorem readDeferred?_contextCall (method : ContextMethod) (text rest : Text) :
    readDeferred? (contextCall method.name [stringLiteral text] ++ rest) =
      some (.deferred method text, rest) := by
  have shape : contextCall method.name [stringLiteral text] ++ rest =
      ("ctx.".toList ++ method.name.toList) ++ '(' :: (stringLiteral text ++ ')' :: rest) := by
    rw [contextCall, call_eq, List.intercalate_singleton]
    simp
  have named : ∀ y ∈ "ctx.".toList ++ method.name.toList, isNameChar y = true := by
    cases method <;> exact List.all_eq_true.mp (by decide)
  have found : method? ("ctx.".toList ++ method.name.toList) = some method := by
    cases method <;> decide
  obtain ⟨name, call⟩ := takeWhile_append_stop named (by decide : isNameChar '(' = false)
    (stringLiteral text ++ ')' :: rest)
  rw [shape, readDeferred?, name, call, found]
  simp only [Option.bind_eq_bind, Option.bind_some, expect?, if_true, readString?_stringLiteral]
  rfl

/-- The first character tells the forms apart. -/
theorem readOperand?_code (emitted : Emitted) (x : Char) (stops : x.isDigit = false) (rest : Text) :
    readOperand? (emitted.code ++ x :: rest) = some (emitted, x :: rest) := by
  cases emitted with
  | string text =>
      have isQuote := literalQuote_cases text
      have read := readString?_stringLiteral text (x :: rest)
      simp only [Emitted.code]
      unfold stringLiteral at read ⊢
      rw [List.cons_append, List.cons_append] at read ⊢
      rw [readOperand?, if_pos isQuote, read]
      rfl
  | integer value =>
      have digits : ∀ y ∈ Text.ofNat value, y.isDigit = true := fun y member =>
        Nat.isDigit_of_mem_toDigits (by decide) (by decide) member
      obtain ⟨taken, left⟩ := takeWhile_append_stop digits stops rest
      have nonempty : Text.ofNat value ≠ [] := Nat.toDigits_ne_nil
      obtain ⟨first, others, shape⟩ := List.exists_cons_of_ne_nil nonempty
      have digit := digits first (shape ▸ List.mem_cons_self ..)
      have unquoted : ¬ (first = '\'' ∨ first = '"') := by
        rintro (rfl | rfl) <;> cases digit
      simp only [Emitted.code]
      rw [readOperand?.eq_def, taken, left, Text.digitsValue_ofNat, shape]
      simp only [List.cons_append, if_neg unquoted, digit, if_true]
  | deferred method text =>
      have read := readDeferred?_contextCall method text (x :: rest)
      simp only [Emitted.code]
      have first : ∃ others, contextCall method.name [stringLiteral text] ++ x :: rest =
          'c' :: others := ⟨_, rfl⟩
      obtain ⟨others, shape⟩ := first
      rw [shape] at read ⊢
      rw [readOperand?, if_neg (by decide), if_neg (by decide), read]

/-! ## All arguments -/

/-- The code of an argument starts neither like the context that is handed over nor like the end,
and with no sign of an assignment. -/
theorem code_head (emitted : Emitted) :
    ∃ first others, emitted.code = first :: others ∧ first ≠ 'p' ∧ first ≠ ')' ∧ first ≠ '=' := by
  cases emitted with
  | string text =>
      refine ⟨literalQuote text, _, rfl, ?_⟩
      rcases literalQuote_cases text with same | same
      · rw [same]
        decide
      · rw [same]
        decide
  | integer value =>
      have nonempty : Text.ofNat value ≠ [] := Nat.toDigits_ne_nil
      obtain ⟨first, others, shape⟩ := List.exists_cons_of_ne_nil nonempty
      have member : first ∈ Nat.toDigits 10 value := by
        rw [← Text.ofNat, shape]
        exact List.mem_cons_self ..
      have digit := Nat.isDigit_of_mem_toDigits (by decide) (by decide) member
      refine ⟨first, others, shape, ?_, ?_, ?_⟩ <;>
        · rintro rfl
          cases digit
  | deferred method text => exact ⟨'c', _, rfl, by decide⟩

theorem not_handed (emitted : Emitted) (behind : Text) :
    ¬ "parent_ctx=ctx)".toList.isPrefixOf (emitted.code ++ behind) = true := by
  obtain ⟨first, inside, shape, notHanded, -⟩ := code_head emitted
  intro handed
  obtain ⟨rest, whole⟩ := List.isPrefixOf_iff_prefix.mp handed
  rw [shape] at whole
  have same : 'p' = first := (List.cons.inj whole).1
  exact notHanded same.symm

theorem readOperands?_last (allowance : Nat) (emitted : Emitted) (rest : Text) :
    readOperands? (allowance + 1) (emitted.code ++ ')' :: rest) =
      some ([emitted], false, rest) := by
  rw [readOperands?, if_neg (not_handed emitted _), readOperand?_code emitted ')' (by decide)]
  rfl

theorem readOperands?_more (allowance : Nat) (emitted : Emitted) (text : Text) :
    readOperands? (allowance + 1) (emitted.code ++ ", ".toList ++ text) =
      (readOperands? allowance text).map fun (others, declared, behind) =>
        (emitted :: others, declared, behind) := by
  have separated : emitted.code ++ ", ".toList ++ text = emitted.code ++ ',' :: ' ' :: text := by
    rw [List.append_assoc]
    rfl
  rw [separated, readOperands?, if_neg (not_handed emitted _),
    readOperand?_code emitted ',' (by decide)]
  cases found : readOperands? allowance text <;> simp [found]

/-- The separator, the context that is handed over and the end are found where they are written. -/
theorem readOperands?_codes (emitted : List Emitted) (declared : Bool) (rest : Text)
    (nonempty : emitted.map Emitted.code ++ handedContext declared ≠ []) (allowance : Nat)
    (enough : emitted.length ≤ allowance) :
    readOperands? (allowance + 1)
        (List.intercalate ", ".toList (emitted.map Emitted.code ++ handedContext declared) ++
          ')' :: rest) = some (emitted, declared, rest) := by
  induction emitted generalizing allowance with
  | nil =>
      cases declared with
      | false => exact absurd rfl nonempty
      | true => rfl
  | cons first others ih =>
      rw [List.length_cons] at enough
      rw [List.map_cons, List.cons_append]
      by_cases more : others.map Emitted.code ++ handedContext declared = []
      · obtain ⟨none, nothing⟩ := List.append_eq_nil_iff.mp more
        obtain rfl : others = [] := List.map_eq_nil_iff.mp none
        obtain rfl : declared = false := by
          cases declared with
          | false => rfl
          | true => cases nothing
        rw [more, List.intercalate_singleton, readOperands?_last]
      · obtain ⟨fewer, rfl⟩ : ∃ fewer, allowance = fewer + 1 := ⟨allowance - 1, by omega⟩
        rw [List.intercalate_cons_of_ne_nil more, List.append_assoc, readOperands?_more,
          ih more fewer (by omega)]
        rfl

theorem length_le_intercalate (separator : Text) (texts : List Text)
    (nonempty : ∀ text ∈ texts, text ≠ []) :
    texts.length ≤ (List.intercalate separator texts).length := by
  induction texts with
  | nil => exact Nat.zero_le _
  | cons first others ih =>
      obtain ⟨solid, rest⟩ := List.forall_mem_cons.mp nonempty
      have positive := List.length_pos_of_ne_nil solid
      cases others with
      | nil =>
          rw [List.intercalate_singleton]
          exact positive
      | cons second others =>
          have tail := ih rest
          rw [List.intercalate_cons_cons, List.length_append, List.length_append]
          simp only [List.length_cons] at tail ⊢
          omega

/-- The arguments of a call are read back from behind its opening parenthesis. -/
theorem readArguments?_codes (emitted : List Emitted) (declared : Bool) (rest : Text) :
    readArguments?
        (List.intercalate ", ".toList (emitted.map Emitted.code ++ handedContext declared) ++
          ')' :: rest) = some (emitted, declared, rest) := by
  by_cases empty : emitted.map Emitted.code ++ handedContext declared = []
  · obtain ⟨none, nothing⟩ := List.append_eq_nil_iff.mp empty
    obtain rfl : emitted = [] := List.map_eq_nil_iff.mp none
    cases declared with
    | false => rfl
    | true => cases nothing
  · have solid : ∀ text ∈ emitted.map Emitted.code ++ handedContext declared,
        ∃ first others, text = first :: others ∧ first ≠ ')' := by
      intro text member
      rcases List.mem_append.mp member with code | handed
      · obtain ⟨form, -, rfl⟩ := List.mem_map.mp code
        obtain ⟨first, others, shape, -, notEnd, -⟩ := code_head form
        exact ⟨first, others, shape, notEnd⟩
      · cases declared with
        | false => cases handed
        | true =>
            rw [List.mem_singleton.mp handed]
            exact ⟨'p', _, rfl, by decide⟩
    have enough : emitted.length ≤
        (List.intercalate ", ".toList (emitted.map Emitted.code ++
          handedContext declared)).length := by
      have bound := length_le_intercalate ", ".toList
        (emitted.map Emitted.code ++ handedContext declared) fun text member => by
          obtain ⟨first, others, rfl, -⟩ := solid text member
          exact List.cons_ne_nil _ _
      rw [List.length_append, List.length_map] at bound
      omega
    unfold readArguments?
    split
    · rename_i behind ends
      obtain ⟨text, texts, shape⟩ := List.exists_cons_of_ne_nil empty
      obtain ⟨first, others, rfl, notEnd⟩ := solid text (shape ▸ List.mem_cons_self ..)
      rw [shape, List.intercalate_cons_cons_left] at ends
      exact absurd (List.cons.inj ends).1 notEnd
    · apply readOperands?_codes emitted declared rest empty
      rw [List.length_append]
      omega

end Code

/-! ## Calls -/

theorem Expression.map_code (expressions : List Expression) :
    expressions.map code = (expressions.map emitted).map Emitted.code := by
  rw [List.map_map]
  exact List.map_congr_left fun expression _ => expression.code_eq

/-- Only the call of a declared function is handed the context. -/
theorem Statement.eq_call_of_invocationCode {start : Location} {name text : Text}
    {arguments : List Expression} {kind : Callee}
    (emitted : invocationCode start name arguments kind = .ok text) :
    ∃ callee, (callee = name ∨ callee ∈ builtinNames.map Prod.snd) ∧
      text = callee ++ '(' :: (List.intercalate ", ".toList
        (arguments.map Expression.code ++ Code.handedContext (kind == .declared)) ++ [')']) := by
  have alone : ∀ codes : List Text, codes ++ Code.handedContext false = codes := List.append_nil
  unfold invocationCode at emitted
  cases kind with
  | extra =>
      cases emitted
      exact ⟨name, .inl rfl,
        by rw [Code.call_eq, show (Callee.extra == .declared) = false from rfl, alone]⟩
  | standard =>
      dsimp only at emitted
      split at emitted
      · rename_i key callee found
        cases emitted
        have listed := List.mem_map_of_mem (f := Prod.snd) (List.mem_of_find?_eq_some found)
        exact ⟨callee, .inr listed,
          by rw [Code.call_eq, show (Callee.standard == .declared) = false from rfl, alone]⟩
      · cases emitted
  | declared =>
      cases emitted
      exact ⟨name, .inl rfl, Code.call_eq name _⟩

/-- The codes of arguments with separators between them tell the forms of the arguments, one by one,
with their texts and numbers. In a call, the reader of arguments finds them whatever they hold: with
or without the context that is handed over, and up to the closing parenthesis of the call. -/
theorem arguments_decodable (es fs : List Expression) :
    (List.intercalate ", ".toList (es.map Expression.code) =
        List.intercalate ", ".toList (fs.map Expression.code) ↔
      es.map Expression.emitted = fs.map Expression.emitted) ∧
      (∀ declared rest, Code.readArguments? (List.intercalate ", ".toList
          (es.map Expression.code ++ Code.handedContext declared) ++ ')' :: rest) =
        some (es.map Expression.emitted, declared, rest)) ∧
      ∀ start name kind text, Statement.invocationCode start name es kind = .ok text →
        ∃ callee, text = callee ++ '(' :: (List.intercalate ", ".toList
          (es.map Expression.code ++ Code.handedContext (kind == .declared)) ++ [')']) := by
  have read : ∀ (es : List Expression) declared rest,
      Code.readArguments? (List.intercalate ", ".toList
          (es.map Expression.code ++ Code.handedContext declared) ++ ')' :: rest) =
        some (es.map Expression.emitted, declared, rest) := by
    intro es declared rest
    rw [Expression.map_code, Code.readArguments?_codes]
  have bare : ∀ codes : List Text, codes ++ Code.handedContext false = codes := List.append_nil
  refine ⟨⟨?_, ?_⟩, read es, ?_⟩
  · intro same
    have left := read es false []
    have right := read fs false []
    rw [bare] at left right
    rw [same, right] at left
    exact (Prod.mk.inj (Option.some.inj left)).1.symm
  · intro same
    rw [Expression.map_code es, Expression.map_code fs, same]
  · intro start name kind text emitted
    obtain ⟨callee, -, call⟩ := Statement.eq_call_of_invocationCode emitted
    exact ⟨callee, call⟩

/-- An argument that spells the end of a call with the context that is handed over. -/
theorem arguments_decodable_handed :
    Statement.invocationCode ⟨1, 0⟩ ['f']
        [⟨⟨⟨1, 2⟩, ⟨1, 22⟩⟩, .quoted .double, "', parent_ctx=ctx)".toList⟩] .declared =
      .ok "f(ctx.zsh_expand_quote(\"', parent_ctx=ctx)\"), parent_ctx=ctx)".toList ∧
    (∃ callee, "f(ctx.zsh_expand_quote(\"', parent_ctx=ctx)\"), parent_ctx=ctx)".toList =
      callee ++ '(' :: "ctx.zsh_expand_quote(\"', parent_ctx=ctx)\"), parent_ctx=ctx)".toList) ∧
    Code.readArguments? "ctx.zsh_expand_quote(\"', parent_ctx=ctx)\"), parent_ctx=ctx)".toList =
      some ([.deferred .expandQuotation "', parent_ctx=ctx)".toList], true, []) := by
  have emitted : Statement.invocationCode ⟨1, 0⟩ ['f']
        [⟨⟨⟨1, 2⟩, ⟨1, 22⟩⟩, .quoted .double, "', parent_ctx=ctx)".toList⟩] .declared =
      .ok "f(ctx.zsh_expand_quote(\"', parent_ctx=ctx)\"), parent_ctx=ctx)".toList := by
    rfl
  obtain ⟨-, read, call⟩ := arguments_decodable
    [⟨⟨⟨1, 2⟩, ⟨1, 22⟩⟩, .quoted .double, "', parent_ctx=ctx)".toList⟩] []
  exact ⟨emitted, call _ _ _ _ emitted, read true []⟩

end ShellLift
