import ShellLift.Proofs.LogicalLine
import ShellLift.Proofs.Outline
import ShellLift.Proofs.Rendering

/-!
# Lines of statements

Each line that a statement emits is a line of an outline and a logical line. What emits no block of
its own ends in an operand, which never ends in a colon. The headers end in one, and each begins
with its keyword.
-/

set_option autoImplicit false

namespace ShellLift

open Layout

/-! ## Regular lines -/

namespace Layout

structure Regular (text : Text) (block : Bool) : Prop extends Outline.Sound text block where
  phrase : Phrase text

theorem Regular.of_phrase {text : Text} {block : Bool} (started : Started text)
    (header : IsHeader text ↔ block = true) (phrase : Phrase text) : Regular text block := by
  have complete := phrase.complete
  exact ⟨⟨started, header, complete.unbroken (.inl rfl) List.not_mem_nil,
    complete.unbroken (.inr rfl) List.not_mem_nil⟩, phrase⟩

structure Operand (text : Text) : Prop where
  phrase : Phrase text
  last : ∃ front x, text = front ++ [x] ∧ x ≠ ':'

theorem not_isHeader {front : Text} {x : Char} (other : x ≠ ':') : ¬ IsHeader (front ++ [x]) := by
  rintro ⟨-, colon⟩
  rw [List.getLast?_concat] at colon
  exact other (Option.some.inj colon)

theorem Regular.simple {text : Text} (started : Started text) (operand : Operand text) :
    Regular text false := by
  refine .of_phrase started ⟨?_, fun impossible => by cases impossible⟩ operand.phrase
  obtain ⟨front, x, rfl, other⟩ := operand.last
  exact fun header => absurd header (not_isHeader other)

theorem Regular.opening {word : String} (keyword : word ∈ ["if ", "def ", "with "]) {inside : Text}
    (phrase : Phrase (word.toList ++ inside ++ ":".toList)) :
    Regular (word.toList ++ inside ++ ":".toList) true := by
  have started : Started (word.toList ++ inside ++ ":".toList) := by
    simp only [List.mem_cons, List.not_mem_nil, or_false] at keyword
    rcases keyword with rfl | rfl | rfl <;> exact ⟨_, _, rfl, by decide⟩
  have bare : content (word.toList ++ inside ++ ":".toList) = word.toList ++ inside ++ ":".toList :=
    (width_indentation started 0).2
  have front : word.toList <+: content (word.toList ++ inside ++ ":".toList) := by
    rw [bare, List.append_assoc]
    exact List.prefix_append _ _
  have last : (word.toList ++ inside ++ ":".toList).getLast? = some ':' := List.getLast?_concat
  refine .of_phrase started ⟨fun _ => rfl, fun _ => ⟨?_, last⟩⟩ phrase
  simp only [List.mem_cons, List.not_mem_nil, or_false] at keyword
  rcases keyword with rfl | rfl | rfl
  · exact .inl front
  · exact .inr (.inl front)
  · exact .inr (.inr front)

namespace Operand

theorem append {front text : Text} (phrase : Phrase (front ++ text)) (operand : Operand text) :
    Operand (front ++ text) := by
  obtain ⟨inside, x, rfl, other⟩ := operand.last
  exact ⟨phrase, front ++ inside, x, (List.append_assoc _ _ _).symm, other⟩

theorem prepend {front text : Text} (neutral : front.all isNeutral = true)
    (operand : Operand text) : Operand (front ++ text) :=
  operand.append (operand.phrase.prepend neutral)

theorem stringLiteral (text : Text) : Operand (Code.stringLiteral text) := by
  refine ⟨.stringLiteral text, _, _, rfl, ?_⟩
  rcases Code.literalQuote_cases text with same | same <;> rw [same] <;> decide

theorem call {callee : Text} (named : callee.all isNeutral = true) {arguments : List Text}
    (phrases : ∀ text ∈ arguments, Phrase text) : Operand (Code.call callee arguments) :=
  ⟨.call named phrases, _, _, rfl, by decide⟩

theorem listDisplay {items : List Text} (phrases : ∀ text ∈ items, Phrase text) :
    Operand (Code.listDisplay items) :=
  ⟨.listDisplay phrases, _, _, rfl, by decide⟩

theorem contextCall {method : String} (named : method.toList.all isNeutral = true)
    {arguments : List Text} (phrases : ∀ text ∈ arguments, Phrase text) :
    Operand (Code.contextCall method arguments) := by
  have receiver : "ctx.".toList.all isNeutral = true := by decide
  apply call _ phrases
  rw [List.all_append, receiver, named, Bool.true_and]

theorem code (expression : Expression) : Operand expression.code := by
  rw [expression.code_eq]
  cases expression.emitted with
  | string text => exact stringLiteral text
  | integer value =>
      refine ⟨.ofNat value, ?_⟩
      have nonempty : Text.ofNat value ≠ [] := Nat.toDigits_ne_nil
      obtain ⟨front, x, shape⟩ := List.eq_nil_or_concat (Text.ofNat value) |>.resolve_left nonempty
      refine ⟨front, x, shape.trans (List.concat_eq_append ..), ?_⟩
      rintro rfl
      have member : ':' ∈ Nat.toDigits 10 value := by
        rw [← Text.ofNat, shape]
        simp
      cases Nat.isDigit_of_mem_toDigits (by decide) (by decide) member
  | deferred method text =>
      refine contextCall ?_ (List.forall_mem_singleton.mpr (.stringLiteral text))
      cases method <;> decide

theorem stringCode (expression : Expression) : Operand expression.stringCode := by
  unfold Expression.stringCode
  split
  · exact stringLiteral _
  · exact code expression

end Operand

theorem neutral_of_isWord {name : Text} (word : Text.isWord name = true) :
    name.all isNeutral = true :=
  List.all_eq_true.mpr fun x member =>
    isNeutral_of_isWordChar ((Text.isWord_iff.mp word).2 x member)

theorem started_of_isWord {name : Text} (word : Text.isWord name = true) (behind : Text) :
    Started (name ++ behind) := by
  obtain ⟨nonempty, chars⟩ := Text.isWord_iff.mp word
  obtain ⟨first, rest, rfl⟩ := List.exists_cons_of_ne_nil nonempty
  refine ⟨first, rest ++ behind, rfl, Text.isBlank_of_isPlainChar ?_⟩
  simp [Text.isPlainChar, chars first (List.mem_cons_self ..)]

end Layout

/-! ## Lines of statements -/

theorem Code.map_eq_ok {α β : Type} {result : Except Diagnostic α} {f : α → β} {b : β} :
    result.map f = .ok b ↔ ∃ a, result = .ok a ∧ f a = b := by
  cases result <;> simp [Except.map]

namespace Statement

theorem operand_aliasCode {value : Expression} {text : Text}
    (emitted : aliasCode value = .ok text) :
    Operand text := by
  unfold aliasCode at emitted
  cases form : value.form with
  | literal =>
      rw [form] at emitted
      cases emitted
      exact .listDisplay (List.forall_mem_singleton.mpr (Operand.stringCode value).phrase)
  | quoted style =>
      rw [form] at emitted
      dsimp only at emitted
      split at emitted
      · cases emitted
        refine .listDisplay fun text member => ?_
        obtain ⟨piece, -, rfl⟩ := List.mem_map.mp member
        exact .stringLiteral piece
      · cases emitted
        exact .contextCall (by decide) (List.forall_mem_singleton.mpr (.stringLiteral _))
  | subcommand =>
      rw [form] at emitted
      cases emitted
  | test =>
      rw [form] at emitted
      cases emitted

theorem regular_assignmentCode {settings : Settings} {start : Location} {kind : Option Binder}
    {target : Text} {value : Option Expression} {text : Text} (word : Text.isWord target = true)
    (emitted : assignmentCode settings start kind target value = .ok text) :
    Regular text false := by
  have name := Phrase.stringLiteral target
  have equals : " = ".toList.all isNeutral = true := by decide
  unfold assignmentCode at emitted
  split at emitted
  · cases emitted
    refine .simple ⟨'c', _, rfl, by decide⟩ (.contextCall (by decide) ?_)
    exact List.forall_mem_singleton.mpr name
  · rename_i value
    split at emitted
    · cases emitted
      refine .simple ⟨'c', _, rfl, by decide⟩ (.contextCall (by decide) ?_)
      exact List.forall_mem_cons.mpr
        ⟨name, List.forall_mem_singleton.mpr (Operand.stringCode value).phrase⟩
    · cases emitted
      refine .simple ⟨'$', _, rfl, by decide⟩ ?_
      rw [List.append_assoc, List.append_assoc]
      apply Operand.prepend (by decide)
      apply Operand.prepend (neutral_of_isWord word)
      exact (Operand.code value).prepend equals
  · rename_i value
    split at emitted
    · obtain ⟨code, aliased, rfl⟩ := Code.map_eq_ok.mp emitted
      have operand := (operand_aliasCode aliased).prepend equals
      have bracketed : Phrase ("aliases".toList ++
          ('[' :: (List.intercalate ", ".toList [Code.stringLiteral target] ++ [']']))) :=
        (Phrase.listDisplay (List.forall_mem_singleton.mpr name)).prepend (by decide)
      have shape : "aliases[".toList ++ Code.stringLiteral target ++ "] = ".toList ++ code =
          ("aliases".toList ++ ('[' :: (List.intercalate ", ".toList [Code.stringLiteral target] ++
            [']']))) ++ (" = ".toList ++ code) := by
        rw [List.intercalate_singleton]
        simp
      rw [shape]
      exact .simple ⟨'a', _, rfl, by decide⟩ (operand.append (bracketed.append rfl operand.phrase))
    · cases emitted
  · rename_i value _ _
    cases emitted
    rw [List.append_assoc]
    refine .simple (started_of_isWord word _) ?_
    apply Operand.prepend (neutral_of_isWord word)
    apply Operand.prepend equals
    apply Operand.contextCall (by decide)
    exact List.forall_mem_cons.mpr
      ⟨name, List.forall_mem_singleton.mpr (Operand.code value).phrase⟩
  · cases emitted

theorem regular_invocationCode {start : Location} {name text : Text} {arguments : List Expression}
    {kind : Callee} (word : Text.isWord name = true)
    (emitted : invocationCode start name arguments kind = .ok text) : Regular text false := by
  obtain ⟨callee, known, rfl⟩ := eq_call_of_invocationCode emitted
  have word' : Text.isWord callee = true := by
    rcases known with rfl | builtin
    · exact word
    · obtain rfl := List.mem_singleton.mp builtin
      decide
  refine .simple (started_of_isWord word' _) ?_
  rw [← Code.call_eq]
  apply Operand.call (neutral_of_isWord word')
  intro code member
  rcases List.mem_append.mp member with code | handed
  · obtain ⟨argument, -, rfl⟩ := List.mem_map.mp code
    exact (Operand.code argument).phrase
  · unfold Code.handedContext at handed
    split at handed
    · rw [List.mem_singleton.mp handed]
      exact .of_neutral (by decide)
    · cases handed

theorem regular_conditional (condition : Expression) :
    Regular ("if ".toList ++ condition.code ++ ":".toList) true := by
  refine @Regular.opening "if " (by simp) condition.code ?_
  rw [List.append_assoc]
  apply Phrase.prepend (by decide)
  exact (Operand.code condition).phrase.append rfl (.of_neutral (by decide))

theorem regular_function {name : Text} (word : Text.isWord name = true) :
    Regular ("def ".toList ++ name ++ "(*args, parent_ctx):".toList) true := by
  have shape : "def ".toList ++ name ++ "(*args, parent_ctx):".toList =
      "def ".toList ++ Code.call name ["*args".toList, "parent_ctx".toList] ++ ":".toList := by
    rw [Code.call_eq]
    simp [List.intercalate]
  rw [shape]
  refine @Regular.opening "def " (by simp) _ ?_
  rw [List.append_assoc]
  apply Phrase.prepend (by decide)
  refine Phrase.append (.call (neutral_of_isWord word) ?_) rfl (.of_neutral (by decide))
  exact List.forall_mem_cons.mpr ⟨.of_neutral (by decide),
    List.forall_mem_singleton.mpr (.of_neutral (by decide))⟩

/-- Headers that bind the context to the result of a call. -/
theorem regular_binding {callee : Text} (named : callee.all isNeutral = true)
    {arguments : List Text} (phrases : ∀ text ∈ arguments, Phrase text) :
    Regular ("with ".toList ++ (Code.call callee arguments ++ " as ctx".toList) ++ ":".toList)
      true := by
  refine @Regular.opening "with " (by simp) _ ?_
  rw [List.append_assoc, List.append_assoc]
  apply Phrase.prepend (by decide)
  exact (Phrase.call named phrases).append rfl (.of_neutral (by decide))

def contextLine (name : Text) : Text :=
  "with parent_ctx.begin_function(".toList ++ Code.stringLiteral name ++ ", args) as ctx:".toList

theorem regular_contextLine (name : Text) : Regular (contextLine name) true := by
  have front : "with parent_ctx.begin_function(".toList =
      "with ".toList ++ ("parent_ctx.begin_function".toList ++ ['(']) := by decide
  have back : ", args) as ctx:".toList =
      ", ".toList ++ ("args".toList ++ ')' :: (" as ctx".toList ++ ":".toList)) := by decide
  have shape : contextLine name = "with ".toList ++ (Code.call "parent_ctx.begin_function".toList
      [Code.stringLiteral name, "args".toList] ++ " as ctx".toList) ++ ":".toList := by
    unfold contextLine
    rw [Code.call_eq, List.intercalate_cons_cons, List.intercalate_singleton, front, back]
    simp only [List.append_assoc, List.cons_append, List.nil_append]
  rw [shape]
  apply regular_binding (by decide)
  exact List.forall_mem_cons.mpr ⟨.stringLiteral name,
    List.forall_mem_singleton.mpr (.of_neutral (by decide))⟩

end Statement

end ShellLift
