import ShellLift.Proofs.CallWords

/-!
# The equals sign of an assignment

The value of an assignment starts right behind the equals sign: a blank there is refused, whatever
it is. In front of the equals sign the reader passes blanks, although the shell has a command or a
word of its own there. So the equals sign stands right behind the target exactly if no blank does,
and a blank between the two is never refused.
-/

set_option autoImplicit false

namespace ShellLift

open Step Cursor

/-! ## Statements at any depth -/

namespace Statement

/-- The concrete form of a statement is a part of a text that starts at a location. -/
def StandsIn (start : Location) (text : Text) (node : Statement) : Prop :=
  ∃ front piece back, text = front ++ (piece ++ back) ∧ node.Written (start.past front) piece

theorem Written.standsIn {start : Location} {text : Text} {node : Statement}
    (written : node.Written start text) : node.StandsIn start text :=
  ⟨[], text, [], by simp, written⟩

theorem StandsIn.within {start : Location} {left text : Text} {node : Statement}
    (stands : node.StandsIn (start.past left) text) (right : Text) :
    node.StandsIn start (left ++ text ++ right) := by
  obtain ⟨front, piece, back, rfl, written⟩ := stands
  rw [← Location.past_append] at written
  exact ⟨left ++ front, piece, back ++ right, by simp, written⟩

mutual

theorem Written.nodes_standIn : ∀ (statement : Statement) {start : Location} {text : Text},
    statement.Written start text → ∀ node ∈ nodes statement, node.StandsIn start text
  | assignment .., start, text => by
      intro written node member
      rw [nodes, List.mem_singleton] at member
      exact member ▸ written.standsIn
  | conditional span condition body, start, text => by
      intro written
      rw [nodes, List.forall_mem_cons]
      refine ⟨written.standsIn, fun node member => ?_⟩
      obtain ⟨-, head, inside, rfl, -, within⟩ := written
      exact (sequenceWritten_nodes body within node member).within "fi".toList
  | function span name body, start, text => by
      intro written
      rw [nodes, List.forall_mem_cons]
      refine ⟨written.standsIn, fun node member => ?_⟩
      obtain ⟨-, -, head, inside, rfl, -, within⟩ := written
      exact (sequenceWritten_nodes body within node member).within "\x7d".toList
  | invocation .., start, text => by
      intro written node member
      rw [nodes, List.mem_singleton] at member
      exact member ▸ written.standsIn

theorem sequenceWritten_nodes : ∀ (statements : List Statement) {closing : Text}
    {gap : Text → Text → Prop} {start : Location} {text : Text},
    sequenceWritten closing gap start statements text →
      ∀ node ∈ nodesAll statements, node.StandsIn start text
  | [], _, _, _, _ => fun _ _ member => absurd member List.not_mem_nil
  | statement :: others, closing, gap, start, text => by
      intro written
      obtain ⟨front, first, rest, rfl, -, one, more⟩ := written
      rw [nodesAll, List.forall_mem_append]
      constructor
      · intro node member
        exact (Written.nodes_standIn statement one node member).within rest
      · intro node member
        have behind := (sequenceWritten_nodes others more node member).within []
        rwa [List.append_nil] at behind

end

end Statement

theorem nodes_standIn_of_parse {source : Text} {builtins : List Text} {tree : List Statement}
    (accepted : parse source builtins = .ok tree) :
    ∀ node ∈ Statement.nodesAll tree, node.StandsIn ⟨1, 0⟩ (ofSource source).text := by
  obtain ⟨p, q, started, run⟩ := parse_eq_ok.mp accepted
  obtain ⟨keyed, here⟩ := Parser.keyed_new started
  have clean : p.cursor.Clean := here ▸ clean_ofSource source
  have parsed := Parser.statements_eq_ok_iff.mp run
  obtain ⟨text, passes, -, -, written⟩ := parsed.sequenceWritten clean (parsed.started clean keyed)
  rw [here] at passes written
  intro node member
  have stands : node.StandsIn ((ofSource source).location.past []) text :=
    Statement.sequenceWritten_nodes tree written node member
  rw [passes.text_eq, List.append_assoc]
  exact stands.within (closingOf none ++ q.cursor.text)

/-! ## The place of the equals sign -/

namespace Location

/-- Two starts of a text that end at the same location are the same. -/
theorem eq_of_past_eq {location : Location} {front back front' back' : Text}
    (whole : front ++ back = front' ++ back') (same : location.past front = location.past front') :
    front = front' := by
  rcases List.append_eq_append_iff.mp whole with ⟨more, rfl, -⟩ | ⟨more, rfl, -⟩
  · rw [past_append] at same
    rw [eq_nil_of_past_eq same.symm, List.append_nil]
  · rw [past_append] at same
    rw [eq_nil_of_past_eq same, List.append_nil]

end Location

namespace Text

/-- Between two locations of a script stands one piece of text only. -/
theorem Stands.unique {script piece piece' : Text} {start stop : Location}
    (stands : script.Stands start piece stop) (other : script.Stands start piece' stop) :
    piece = piece' := by
  obtain ⟨front, back, whole, begins, ends⟩ := stands
  obtain ⟨front', back', whole', begins', ends'⟩ := other
  rw [whole] at whole'
  obtain rfl := Location.eq_of_past_eq whole' (begins.symm.trans begins')
  exact Location.eq_of_past_eq (List.append_cancel_left whole') (ends.symm.trans ends')

/-- The equals sign of an assignment stands right behind the target, and the value right behind the
equals sign. -/
def Adjoined (script : Text) (span : Span) (kind : Option Binder) (target : Text)
    (value : Expression) : Prop :=
  ∃ front, keywordWritten kind front ∧
    script.Stands span.start (front ++ target ++ "=".toList) value.span.start

theorem eq_nil_of_append_word {front front' target blanks : Text} (word : isWord target = true)
    (spaces : Spaces blanks) (same : front' ++ target = front ++ target ++ blanks) :
    blanks = [] := by
  obtain ⟨nonempty, all⟩ := isWord_iff.mp word
  rcases List.eq_nil_or_concat blanks with empty | ⟨init, x, rfl⟩
  · exact empty
  · obtain ⟨init', y, rfl⟩ := (List.eq_nil_or_concat target).resolve_left nonempty
    -- the same text ends in a letter of the target and in a blank
    have last : y = x := by
      simp only [List.concat_eq_append, ← List.append_assoc] at same
      exact List.singleton_inj.mp (List.append_inj' same rfl).2
    have space := (spaces x (by simp)).1
    have letter := all y (by simp)
    rw [last] at letter
    rw [isSpace_of_isWordChar letter] at space
    cases space

end Text

/-- From the start of an assignment to its value there are its keyword, its target, blanks and the
equals sign, and nothing else. -/
theorem Statement.StandsIn.adjoined_iff {script : Text} {span : Span} {kind : Option Binder}
    {target : Text} {value : Expression}
    (stands : (assignment span kind target (some value)).StandsIn ⟨1, 0⟩ script) :
    ∃ front blanks, keywordWritten kind front ∧ Text.Spaces blanks ∧
      script.Stands span.start (front ++ target ++ blanks ++ "=".toList) value.span.start ∧
      (script.Adjoined span kind target value ↔ blanks = []) := by
  obtain ⟨before, piece, behind, whole, rfl, word, front, blanks, isFront, isBlanks, last, rfl,
    isValue⟩ := stands
  have layout : script.Stands ((⟨1, 0⟩ : Location).past before)
      (front ++ target ++ blanks ++ "=".toList) value.span.start :=
    ⟨before, last ++ behind, by rw [whole]; simp, rfl, congrArg Span.start isValue.1⟩
  refine ⟨front, blanks, isFront, isBlanks, layout, ?_⟩
  constructor
  · rintro ⟨other, -, adjoined⟩
    have same := List.append_cancel_right (adjoined.unique layout)
    exact Text.eq_nil_of_append_word word isBlanks same
  · rintro rfl
    rw [List.append_nil] at layout
    exact ⟨front, isFront, layout⟩

/-! ## Blanks on either side -/

namespace Parser

/-- An assignment starts at the parser, and between its target and the cursor there are blanks and
the equals sign. -/
structure Assigns (p : Parser) (kind : Option Binder) (target blanks : Text) (d : Cursor) :
    Prop where
  word : p.cursor.skipIdle.word ≠ []
  known : p.rules.get? p.cursor.skipIdle.word = kind.map Rule.assignment
  supported : kind = none → ¬ isUnsupportedKeyword p.cursor.skipIdle.word = true
  named : (Statement.targetStart kind p.cursor.skipIdle).word = target
  nonempty : target ≠ []
  spaces : Text.Spaces blanks
  passes : Passes (Statement.targetStart kind p.cursor.skipIdle).skipWord (blanks ++ "=".toList) d
  live : d.ahead ≠ []

namespace Assigns

variable {p : Parser} {kind : Option Binder} {target blanks : Text} {d : Cursor}

theorem clean (assigns : p.Assigns kind target blanks d) (clean : p.cursor.Clean) : d.Clean := by
  have behind := (Forward.targetStart kind p.cursor.skipIdle).trans (follows_skipWord _)
  exact assigns.passes.clean (((follows_skipIdle p.cursor).trans behind).clean clean)

/-- The blanks are passed on the way to the equals sign. -/
theorem equals (assigns : p.Assigns kind target blanks d) :
    (Statement.targetStart kind p.cursor.skipIdle).skipWord.skipSpaces.startsWith "=".toList =
        true ∧
      (Statement.targetStart kind p.cursor.skipIdle).skipWord.skipSpaces.move 1 = d := by
  obtain ⟨c, blank, mark⟩ := assigns.passes.split
  have next : c.next? = some '=' := mark.next?_eq (by decide)
  have reached := blank.skipWhile_eq (fun feed => (assigns.spaces _ feed).2 rfl) (live_of_next next)
    (fun x member => (assigns.spaces x member).1) (by rw [next]; rintro x ⟨⟩; decide)
  have here : (Statement.targetStart kind p.cursor.skipIdle).skipWord.skipSpaces = c := reached.2
  rw [here]
  exact mark.startsWith_eq (by decide) assigns.live

/-- An assignment whose value is read behind the equals sign is read, whatever blanks stand in front
of the equals sign. -/
theorem statement?_eq_ok {value : Expression} {e f : Cursor}
    (assigns : p.Assigns kind target blanks d) (notBlank : ¬ d.next?.any Text.isBlank = true)
    (read : Expression.read .value d = .ok value e)
    (terminated : Statement.readTerminator .assignment e = .ok () f) :
    statement? p = .ok (some (.assignment ⟨p.cursor.skipIdle.location, e.location⟩ kind target
      (some value))) ⟨f, p.rules⟩ := by
  obtain ⟨starts, moved⟩ := assigns.equals
  obtain ⟨word, known, supported, rfl, nonempty, -, -, -⟩ := assigns
  refine statement?_of_simple word (.assignment known supported ?_) terminated
  refine Statement.readAssignment_eq_ok.mpr ⟨nonempty, some value, ?_, rfl⟩
  refine Statement.readAssigned_eq_ok.mpr ⟨starts, ?_, ?_⟩
  · rwa [moved]
  · rwa [moved]

/-- A blank behind the equals sign is refused at its place. -/
theorem statement?_blank {x : Char} (assigns : p.Assigns kind target blanks d)
    (next : d.next? = some x) (blank : Text.isBlank x = true) :
    statement? p = .error (.located (.blankAfterEquals target) d.location) ⟨d, p.rules⟩ := by
  obtain ⟨starts, moved⟩ := assigns.equals
  obtain ⟨word, known, supported, rfl, nonempty, -, -, -⟩ := assigns
  have refused : Statement.readAssignment kind p.cursor.skipIdle = .error (.located
      (.blankAfterEquals (Statement.targetStart kind p.cursor.skipIdle).word) d.location) d := by
    have named : ¬ List.isEmpty (Statement.targetStart kind p.cursor.skipIdle).word = true := by
      simpa using nonempty
    have blank' : d.next?.any Text.isBlank = true := by rwa [next, Option.any_some]
    rw [Statement.readAssignment_run, if_neg named, Statement.readAssigned_run, if_pos starts,
      moved, if_pos blank']
  apply statement?_eq_error_of_readByRule word
  rw [readByRule_run]
  cases kind with
  | none => simp only [known, Option.map_none, if_neg (supported rfl), reading_run, refused]
  | some binder => simp only [known, Option.map_some, reading_run, refused]

end Assigns

end Parser

/-- In a script that is read the value of an assignment starts right behind the equals sign, and the
equals sign stands right behind the target exactly if no blanks do. Wherever an assignment starts,
blanks in front of the equals sign change nothing: a value behind the equals sign is read, and a
blank there is refused. -/
theorem assignment_adjoined_iff (source : Text) (builtins : List Text) (tree : List Statement)
    (accepted : parse source builtins = .ok tree) :
    (∀ span kind target value,
      Statement.assignment span kind target (some value) ∈ Statement.nodesAll tree →
        ∃ front blanks, keywordWritten kind front ∧ Text.Spaces blanks ∧
          (ofSource source).text.Stands span.start (front ++ target ++ blanks ++ "=".toList)
            value.span.start ∧
          ((ofSource source).text.Adjoined span kind target value ↔ blanks = [])) ∧
      ∀ (p : Parser) (kind : Option Binder) (target blanks : Text) (d : Cursor),
        p.cursor.Clean → p.Assigns kind target blanks d →
          (∀ (value : Expression) (e f : Cursor),
            Expression.Readable .value value.form value.text → Passes d value.spelling e →
            e.ahead ≠ [] → Expression.Position.Stops .value e.next? →
            Statement.readTerminator .assignment e = .ok () f →
            Parser.statement? p = .ok (some (.assignment ⟨p.cursor.skipIdle.location, e.location⟩
              kind target (some (value.moved d e)))) ⟨f, p.rules⟩) ∧
          ∀ x, d.next? = some x → Text.isBlank x = true →
            Parser.statement? p =
              .error (.located (.blankAfterEquals target) d.location) ⟨d, p.rules⟩ := by
  constructor
  · intro span kind target value member
    exact (nodes_standIn_of_parse accepted _ member).adjoined_iff
  intro p kind target blanks d clean assigns
  refine ⟨?_, fun x => assigns.statement?_blank⟩
  intro value e f readable passes live stops terminated
  obtain ⟨x, next, solid, notBlank⟩ := readable.next? passes
  have here : d.skipSpaces = d := skipSpaces_of_next next solid
  have read : Expression.read .value d = .ok (value.moved d e) e := by
    rw [Expression.read_of_passes readable (assigns.clean clean) (here.symm ▸ passes) live stops,
      here]
  refine assigns.statement?_eq_ok ?_ read terminated
  rw [next, Option.any_some, notBlank rfl]
  exact Bool.false_ne_true

/-- A blank in front of the equals sign is accepted, with a keyword and without one; the same blank
behind it is refused. -/
theorem assignment_adjoined_iff_blank :
    parse "export A =1".toList [] = .ok [.assignment ⟨⟨1, 0⟩, ⟨1, 11⟩⟩ (some .exported) ['A']
        (some ⟨⟨⟨1, 10⟩, ⟨1, 11⟩⟩, .literal, ['1']⟩)] ∧
      ¬ (ofSource "export A =1".toList).text.Adjoined ⟨⟨1, 0⟩, ⟨1, 11⟩⟩ (some .exported) ['A']
        ⟨⟨⟨1, 10⟩, ⟨1, 11⟩⟩, .literal, ['1']⟩ ∧
      Parser.statement? ⟨ofSource "x =foo".toList, RuleTable.initial⟩ =
        .ok (some (.assignment ⟨⟨1, 0⟩, ⟨1, 6⟩⟩ none ['x']
          (some ⟨⟨⟨1, 3⟩, ⟨1, 6⟩⟩, .literal, "foo".toList⟩)))
          ⟨⟨0, "x =foo".toList, [[]]⟩, RuleTable.initial⟩ ∧
      Parser.statement? ⟨ofSource "x = foo".toList, RuleTable.initial⟩ =
        .error (.located (.blankAfterEquals ['x']) ⟨1, 3⟩)
          ⟨⟨0, "x =".toList, [" foo".toList]⟩, RuleTable.initial⟩ := by
  have accepted : parse "export A =1".toList [] = .ok [.assignment ⟨⟨1, 0⟩, ⟨1, 11⟩⟩
      (some .exported) ['A'] (some ⟨⟨⟨1, 10⟩, ⟨1, 11⟩⟩, .literal, ['1']⟩)] := by
    cbv
  obtain ⟨marks, blanks⟩ := assignment_adjoined_iff _ _ _ accepted
  obtain ⟨front, between, -, -, stands, adjoined⟩ := marks _ _ _ _ (List.mem_singleton_self _)
  have spaces : Text.Spaces [' '] := by
    intro x member
    obtain rfl := List.mem_singleton.mp member
    exact ⟨by decide, by decide⟩
  refine ⟨accepted, ?_, ?_, ?_⟩
  · intro beside
    obtain rfl := adjoined.mp beside
    have script : (ofSource "export A =1".toList).text.Stands ⟨1, 0⟩
        (['e', 'x', 'p', 'o', 'r', 't', ' ', 'A'] ++ [' ', '=']) ⟨1, 10⟩ :=
      ⟨[], ['1'], by decide, rfl, by decide⟩
    have same : front ++ ['A', '='] = ['e', 'x', 'p', 'o', 'r', 't', ' ', 'A'] ++ [' ', '='] := by
      simpa using stands.unique script
    have last := (List.append_inj' same rfl).2
    exact absurd last (by decide)
  · have plain : ∀ x ∈ "foo".toList, Text.isPlainChar x = true := List.all_eq_true.mp rfl
    have ended : Expression.Position.Stops .value none := by
      intro x next
      cases next
    have assigns : Parser.Assigns ⟨ofSource "x =foo".toList, RuleTable.initial⟩ none ['x'] [' ']
        ⟨0, "x =".toList, ["foo".toList]⟩ :=
      ⟨by decide, by decide, fun _ => by decide, by decide, by decide, spaces,
        .char (.char (.stay _)), by decide⟩
    exact (blanks _ _ _ _ _ (clean_ofSource _) assigns).1
      ⟨⟨⟨1, 3⟩, ⟨1, 6⟩⟩, .literal, "foo".toList⟩ ⟨0, "x =foo".toList, [[]]⟩ _
      ⟨rfl, by decide, plain⟩ (.char (.char (.char (.stay _)))) (by decide) ended rfl
  · have assigns : Parser.Assigns ⟨ofSource "x = foo".toList, RuleTable.initial⟩ none ['x'] [' ']
        ⟨0, "x =".toList, [" foo".toList]⟩ :=
      ⟨by decide, by decide, fun _ => by decide, by decide, by decide, spaces,
        .char (.char (.stay _)), by decide⟩
    exact (blanks _ _ _ _ _ (clean_ofSource _) assigns).2 ' ' rfl (by decide)

end ShellLift
