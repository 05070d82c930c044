import ShellLift.Code.Emission
import ShellLift.Proofs.WellFormed
import ShellLift.Session.Basic

/-!
# Quotations that the shell expands

The text of a quotation that does not stand for itself is expanded by a command: `echo` and the
text between double quotes, whatever the quotes around it were in the script. The command is `echo`
with one word exactly if each double quote in the text is escaped. Between double quotes the script
cannot have any other text, between single quotes it can.
-/

set_option autoImplicit false

namespace ShellLift

open Step Cursor

namespace Session

/-- The command that expands a text has one word behind its name: the double quotes around the text
belong together. -/
def OneWord (text : Text) : Prop :=
  ∃ stop, Quotation.double.read ((Cursor.ofLines [echoCommand text]).skipWhile (· != '"')) =
    .ok text stop ∧ stop.rest? = some []

theorem skipWhile_echoCommand (text : Text) :
    (Cursor.ofLines [echoCommand text]).skipWhile (· != '"') =
      ⟨0, "echo ".toList, [Quotation.double.mark :: (text ++ [Quotation.double.mark])]⟩ :=
  rfl

theorem oneWord_iff (text : Text) : OneWord text ↔ Quotation.double.Escapes text := by
  rw [← Quotation.close?_mark_iff, OneWord, skipWhile_echoCommand, Quotation.read_run, if_pos rfl]
  constructor
  · rintro ⟨stop, run, -⟩
    cases found : Quotation.double.close? [] (text ++ [Quotation.double.mark]) with
    | none => simp [found] at run
    | some pair =>
        obtain ⟨inside, rest⟩ := pair
        simp only [found, EStateM.Result.ok.injEq] at run
        obtain ⟨rfl, -⟩ := run
        have shape := Quotation.double.close?_eq [] _ inside rest found
        have last := List.append_cancel_left shape
        rw [(List.cons.inj last).2]
  · intro found
    rw [found]
    refine ⟨_, rfl, ?_⟩
    show some ((Quotation.double.mark :: (text ++ [Quotation.double.mark])).drop
      (text.length + 2)) = some []
    rw [Quotation.double.length_spelled text, List.drop_length]

end Session

structure Deferred (tree : List Statement) (style : Quotation)
    (expression : Expression) : Prop where
  occurs : ∃ node ∈ Statement.nodesAll tree, expression ∈ node.operands
  quoted : expression.form = .quoted style
  code : expression.code =
    Code.contextCall "zsh_expand_quote" [Code.stringLiteral expression.text]

theorem escapes_of_parse {source : Text} {builtins : List Text} {tree : List Statement}
    (accepted : parse source builtins = .ok tree) {style : Quotation} {expression : Expression}
    (deferred : Deferred tree style expression) : style.Escapes expression.text := by
  obtain ⟨p, q, parsed, clean, keyed, -⟩ := Parser.parsed_of_parse accepted
  obtain ⟨node, within, member⟩ := deferred.occurs
  have text := (parsed.wellFormed clean keyed).operands node within expression member
  rw [Expression.IsValue, Expression.IsCondition, deferred.quoted] at text
  rcases text with escapes | impossible
  · exact escapes
  · cases impossible

/-- The command for a quotation of a script is `echo` with one word exactly if each double quote in
the text is escaped, which holds of every quotation with double quotes. -/
theorem oneWord_iff_of_deferred (source : Text) (builtins : List Text) (tree : List Statement)
    (accepted : parse source builtins = .ok tree) (style : Quotation) (expression : Expression)
    (deferred : Deferred tree style expression) :
    (∀ (σ : Type) (shell : Shell σ) (session : Session),
        session.expandQuotation shell expression.text =
          session.capture shell (Session.echoCommand expression.text) false) ∧
      (Session.OneWord expression.text ↔
        ∀ front back, expression.text = front ++ '"' :: back → Odd (Text.backslashes front)) ∧
      (style = .double → Session.OneWord expression.text) := by
  have escapes := escapes_of_parse accepted deferred
  refine ⟨fun _ _ _ => rfl, ?_, ?_⟩
  · rw [Session.oneWord_iff]
    exact ⟨fun inside => inside.1, fun marks => ⟨marks, escapes.2⟩⟩
  · rintro rfl
    exact (Session.oneWord_iff _).mpr escapes

/-- Text between single quotes that ends the word behind `echo` and starts another command. -/
theorem oneWord_iff_of_deferred_single :
    ∃ tree expression, parse "export A='\";y;\"'".toList [] = .ok tree ∧
      Deferred tree .single expression ∧ ¬ Session.OneWord expression.text ∧
      Session.echoCommand expression.text = "echo \"\";y;\"\"".toList ∧
      Quotation.double.read
          ((Cursor.ofLines [Session.echoCommand expression.text]).skipWhile (· != '"')) =
        .ok [] ⟨0, "echo \"\"".toList, [";y;\"\"".toList]⟩ := by
  have accepted : parse "export A='\";y;\"'".toList [] = .ok
      [.assignment ⟨⟨1, 0⟩, ⟨1, 16⟩⟩ (some .exported) "A".toList
        (some ⟨⟨⟨1, 9⟩, ⟨1, 16⟩⟩, .quoted .single, "\";y;\"".toList⟩)] := by
    cbv
  have deferred : Deferred
      [.assignment ⟨⟨1, 0⟩, ⟨1, 16⟩⟩ (some .exported) "A".toList
        (some ⟨⟨⟨1, 9⟩, ⟨1, 16⟩⟩, .quoted .single, "\";y;\"".toList⟩)] .single
      ⟨⟨⟨1, 9⟩, ⟨1, 16⟩⟩, .quoted .single, "\";y;\"".toList⟩ :=
    ⟨⟨_, List.mem_singleton_self _, List.mem_singleton_self _⟩, rfl, rfl⟩
  refine ⟨_, _, accepted, deferred, ?_, rfl, rfl⟩
  rw [(oneWord_iff_of_deferred _ _ _ accepted _ _ deferred).2.1]
  intro escaped
  exact absurd (escaped [] ";y;\"".toList rfl) (by decide)

end ShellLift
