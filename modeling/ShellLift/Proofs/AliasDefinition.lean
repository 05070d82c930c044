import ShellLift.Proofs.ArgumentList
import ShellLift.Proofs.Pieces
import ShellLift.Session.Basic

/-!
# Definitions of short names are read back

The emitted code of a short name is a list display of string literals, or a call that hands the text
over to be read by a shell at each use. A reader of this code tells what the short name will stand
for. For a quotation it is a list of fixed words exactly if single spaces cut the text into words
that a shell leaves as they are. These words are the pieces of the text; every other text is handed
over as it is.
-/

set_option autoImplicit false

namespace ShellLift

/-! ## Fixed words -/

namespace Text

/-- A word of plain characters without a tilde in front, which a shell leaves as it is. -/
structure FixedWord (word : Text) : Prop where
  nonempty : word ≠ []
  noTilde : word.head? ≠ some '~'
  plain : ∀ c ∈ word, c.isAlphanum = true ∨ c ∈ ['_', '~', '/', '.', '-']

structure FixedWords (text : Text) (words : List Text) : Prop where
  nonempty : words ≠ []
  fixed : ∀ word ∈ words, FixedWord word
  joined : List.intercalate [' '] words = text

/-- The space, and characters that mean something to a shell: quotes, the backslash, the dollar sign
and those of patterns. -/
def shellMarks : Text := " '\"`\\$*?[]()|<>#^".toList

theorem FixedWord.not_mem_shellMarks {word : Text} (fixed : FixedWord word) :
    ∀ c ∈ word, c ∉ shellMarks := by
  intro c member mark
  have all : shellMarks.all
      (fun x => !(x.isAlphanum || ['_', '~', '/', '.', '-'].contains x)) = true := by
    decide
  have other := List.all_eq_true.mp all c mark
  rcases fixed.plain c member with alphanumeric | listed
  · simp [alphanumeric] at other
  · simp [listed] at other

theorem isPlainChar_iff (c : Char) :
    isPlainChar c = true ∧ c ≠ '\\' ↔
      c.isAlphanum = true ∨ c ∈ ['_', '~', '/', '.', '-'] := by
  have backslash : '\\'.isAlphanum = false := by decide
  by_cases same : c = '\\'
  · simp [same, backslash]
  · simp [isPlainChar, isWordChar, same, or_assoc]

theorem isFixedWord_iff (word : Text) : Code.isFixedWord word = true ↔ FixedWord word := by
  have chars : word.all isPlainChar = true ∧ '\\' ∉ word ↔
      ∀ c ∈ word, c.isAlphanum = true ∨ c ∈ ['_', '~', '/', '.', '-'] := by
    simp only [← isPlainChar_iff, List.all_eq_true]
    constructor
    · rintro ⟨plain, free⟩ c member
      refine ⟨plain c member, ?_⟩
      rintro rfl
      exact free member
    · exact fun all => ⟨fun c member => (all c member).1, fun member => (all _ member).2 rfl⟩
  simp only [Code.isFixedWord, Code.isSimpleLiteral, Bool.and_eq_true, Bool.not_eq_true',
    List.contains_eq_mem, decide_eq_false_iff_not, Bool.false_or, bne_iff_ne,
    List.isEmpty_eq_false_iff]
  constructor
  · rintro ⟨free, ⟨noTilde, nonempty⟩, plain⟩
    exact ⟨nonempty, noTilde, chars.mp ⟨plain, free⟩⟩
  · rintro ⟨nonempty, noTilde, all⟩
    obtain ⟨plain, free⟩ := chars.mpr all
    exact ⟨free, ⟨noTilde, nonempty⟩, plain⟩

theorem fixedWords_iff {text : Text} {words : List Text} :
    FixedWords text words ↔ Code.isSplittable text = true ∧ words = pieces ' ' text := by
  constructor
  · rintro ⟨nonempty, fixed, rfl⟩
    have free : ∀ word ∈ words, ' ' ∉ word := fun word member space =>
      (fixed word member).not_mem_shellMarks ' ' space (by decide)
    have cut := pieces_intercalate nonempty free
    refine ⟨?_, cut.symm⟩
    rw [Code.isSplittable, cut, List.all_eq_true]
    exact fun word member => (isFixedWord_iff word).mpr (fixed word member)
  · rintro ⟨splittable, rfl⟩
    have fixed := List.all_eq_true.mp splittable
    exact ⟨pieces_ne_nil ' ' text, fun word member => (isFixedWord_iff word).mp (fixed word member),
      intercalate_pieces ' ' text⟩

end Text

/-! ## Reading -/

namespace Code

/-- String literals with separators between them up to a closing bracket, at least one, and what
stands behind the bracket. -/
def readItems? : (allowance : Nat) → Text → Option (List Text × Text)
  | 0, _ => none
  | allowance + 1, text =>
    match readString? text with
    | some (first, ']' :: behind) => some ([first], behind)
    | some (first, ',' :: ' ' :: rest) => do
      let (others, behind) ← readItems? allowance rest
      pure (first :: others, behind)
    | _ => none

def readList? : Text → Option (List Text × Text)
  | ']' :: behind => some ([], behind)
  | text => readItems? text.length text

/-- What a short name stands for by the code at the front of a text, and what stands behind it. -/
def readMeaning? : Text → Option (Alias × Text)
  | '[' :: rest => do
    let (words, behind) ← readList? rest
    pure (.fixed words, behind)
  | text => do
    let inside ← text.dropPrefix? "ctx.zsh_impl_complex_alias(".toList
    let (body, rest) ← readString? inside
    let behind ← expect? ')' rest
    pure (.command body, behind)

def readDefinition? (line : Text) : Option (Text × Alias) := do
  let inside ← line.dropPrefix? "aliases[".toList
  let (name, rest) ← readString? inside
  let value ← rest.dropPrefix? "] = ".toList
  let (meaning, behind) ← readMeaning? value
  if behind = [] then pure (name, meaning) else none

theorem dropPrefix?_append (front rest : Text) : (front ++ rest).dropPrefix? front = some rest :=
  List.dropPrefix?_eq_some_iff.mpr ⟨front, rfl, beq_self_eq_true front⟩

theorem readItems?_last (allowance : Nat) (word rest : Text) :
    readItems? (allowance + 1) (stringLiteral word ++ ']' :: rest) = some ([word], rest) := by
  rw [readItems?, readString?_stringLiteral]
  rfl

theorem readItems?_more (allowance : Nat) (word text : Text) :
    readItems? (allowance + 1) (stringLiteral word ++ ", ".toList ++ text) =
      (readItems? allowance text).map fun (others, behind) => (word :: others, behind) := by
  have separated : stringLiteral word ++ ", ".toList ++ text =
      stringLiteral word ++ ',' :: ' ' :: text := by
    rw [List.append_assoc]
    rfl
  rw [separated, readItems?, readString?_stringLiteral]
  cases found : readItems? allowance text <;> simp [found]

theorem readItems?_codes {words : List Text} (nonempty : words ≠ []) (rest : Text) (allowance : Nat)
    (enough : words.length ≤ allowance) :
    readItems? allowance (List.intercalate ", ".toList (words.map stringLiteral) ++ ']' :: rest) =
      some (words, rest) := by
  induction words generalizing allowance with
  | nil => exact absurd rfl nonempty
  | cons first others ih =>
      rw [List.length_cons] at enough
      obtain ⟨fewer, rfl⟩ : ∃ fewer, allowance = fewer + 1 := ⟨allowance - 1, by omega⟩
      rw [List.map_cons]
      by_cases last : others = []
      · rw [last, List.map_nil, List.intercalate_singleton, readItems?_last]
      · have more : others.map stringLiteral ≠ [] := by simpa using last
        rw [List.intercalate_cons_of_ne_nil more, List.append_assoc, readItems?_more,
          ih last fewer (by omega)]
        rfl

theorem readList?_codes {words : List Text} (nonempty : words ≠ []) (rest : Text) :
    readList? (List.intercalate ", ".toList (words.map stringLiteral) ++ ']' :: rest) =
      some (words, rest) := by
  have enough : words.length ≤ (List.intercalate ", ".toList (words.map stringLiteral)).length := by
    have bound := length_le_intercalate ", ".toList (words.map stringLiteral)
    rw [List.length_map] at bound
    apply bound
    intro text member
    obtain ⟨word, -, rfl⟩ := List.mem_map.mp member
    exact List.cons_ne_nil _ _
  unfold readList?
  split
  · -- a literal starts with its quote and not with the end of the list
    rename_i behind ends
    obtain ⟨first, others, rfl⟩ := List.exists_cons_of_ne_nil nonempty
    have quote : literalQuote first = ']' := by
      rw [List.map_cons, stringLiteral, List.cons_append, List.intercalate_cons_cons_left] at ends
      exact (List.cons.inj ends).1
    rcases literalQuote_cases first with same | same <;> rw [same] at quote <;> cases quote
  · apply readItems?_codes nonempty
    rw [List.length_append]
    omega

theorem readMeaning?_listDisplay {words : List Text} (nonempty : words ≠ []) (rest : Text) :
    readMeaning? (listDisplay (words.map stringLiteral) ++ rest) = some (.fixed words, rest) := by
  have shape : listDisplay (words.map stringLiteral) ++ rest =
      '[' :: (List.intercalate ", ".toList (words.map stringLiteral) ++ ']' :: rest) := by
    simp [listDisplay]
  rw [shape, readMeaning?, readList?_codes nonempty]
  rfl

theorem readMeaning?_contextCall (body rest : Text) :
    readMeaning? (contextCall "zsh_impl_complex_alias" [stringLiteral body] ++ rest) =
      some (.command body, rest) := by
  have shape : contextCall "zsh_impl_complex_alias" [stringLiteral body] ++ rest =
      "ctx.zsh_impl_complex_alias(".toList ++ (stringLiteral body ++ ')' :: rest) := by
    rw [contextCall, call_eq, List.intercalate_singleton]
    simp
  rw [shape]
  unfold readMeaning?
  split
  · rename_i display
    have first : 'c' = '[' := (List.cons.inj display).1
    cases first
  · simp only [dropPrefix?_append, Option.bind_eq_bind, Option.bind_some, readString?_stringLiteral,
      expect?, if_true]
    rfl

theorem readDefinition?_line (name value : Text) {meaning : Alias}
    (read : readMeaning? value = some (meaning, [])) :
    readDefinition? ("aliases[".toList ++ stringLiteral name ++ "] = ".toList ++ value) =
      some (name, meaning) := by
  rw [readDefinition?, List.append_assoc, List.append_assoc]
  simp only [dropPrefix?_append, Option.bind_eq_bind, Option.bind_some, readString?_stringLiteral,
    read, if_true]
  rfl

end Code

/-! ## Short names for quotations -/

def Code.quotedMeaning (text : Text) : Alias :=
  if isSplittable text then .fixed (Text.pieces ' ' text) else .command text

theorem Statement.aliasCode_quoted (span : Span) (style : Quotation) (text : Text) :
    ∃ value, aliasCode ⟨span, .quoted style, text⟩ = .ok value ∧
      Code.readMeaning? value = some (Code.quotedMeaning text, []) := by
  unfold aliasCode Code.quotedMeaning
  dsimp only
  split
  · have read := Code.readMeaning?_listDisplay (Text.pieces_ne_nil ' ' text) []
    rw [List.append_nil] at read
    exact ⟨_, rfl, read⟩
  · have read := Code.readMeaning?_contextCall text []
    rw [List.append_nil] at read
    exact ⟨_, rfl, read⟩

/-- A short name for a quotation always has code, from which the name and its meaning are read back.
It stands for fixed words exactly if the text is fixed words with single spaces between them, and
for these words, which have no character that means something to a shell. Else it stands for the
text. -/
theorem alias_quoted_reads (settings : Settings) (span valueSpan : Span) (style : Quotation)
    (target text : Text) (simple : Code.isSimpleQuoted target = true) :
    ∃ line meaning,
      (Statement.assignment span (some .aliased) target
        (some ⟨valueSpan, .quoted style, text⟩)).code settings = .ok line ∧
      Code.readDefinition? line = some (target, meaning) ∧
      (∀ words, meaning = .fixed words ↔ Text.FixedWords text words) ∧
      (∀ words, Text.FixedWords text words → ∀ word ∈ words, ∀ c ∈ word, c ∉ Text.shellMarks) ∧
      ((∀ words, ¬ Text.FixedWords text words) → meaning = .command text) := by
  obtain ⟨value, emitted, read⟩ := Statement.aliasCode_quoted valueSpan style text
  refine ⟨_, Code.quotedMeaning text, ?_, Code.readDefinition?_line target value read, ?_, ?_, ?_⟩
  · rw [Statement.code, Statement.assignmentCode, if_pos simple, emitted]
    rfl
  · intro words
    rw [Text.fixedWords_iff, Code.quotedMeaning]
    by_cases splittable : Code.isSplittable text = true
    · rw [if_pos splittable, Alias.fixed.injEq, eq_comm, and_iff_right splittable]
    · simp [splittable]
  · exact fun words fixed word member => (fixed.fixed word member).not_mem_shellMarks
  · intro other
    have unsplittable : ¬ Code.isSplittable text = true := fun splittable =>
      other _ (Text.fixedWords_iff.mpr ⟨splittable, rfl⟩)
    rw [Code.quotedMeaning, if_neg unsplittable]

/-- A tilde inside a word stays in the word; in front of a word it is left to the shell. -/
theorem alias_quoted_reads_tilde :
    Code.isSimpleQuoted "l-s".toList = true ∧
      (∃ line, (Statement.assignment ⟨⟨1, 0⟩, ⟨1, 18⟩⟩ (some .aliased) "l-s".toList
          (some ⟨⟨⟨1, 10⟩, ⟨1, 18⟩⟩, .quoted .single, "ls a~b".toList⟩)).code .initial = .ok line ∧
        Code.readDefinition? line =
          some ("l-s".toList, .fixed ["ls".toList, "a~b".toList])) ∧
      ∃ line, (Statement.assignment ⟨⟨1, 0⟩, ⟨1, 18⟩⟩ (some .aliased) "l-s".toList
          (some ⟨⟨⟨1, 10⟩, ⟨1, 18⟩⟩, .quoted .single, "ls ~ab".toList⟩)).code .initial = .ok line ∧
        Code.readDefinition? line = some ("l-s".toList, .command "ls ~ab".toList) := by
  have simple : Code.isSimpleQuoted "l-s".toList = true := by decide
  have words : Text.FixedWords "ls a~b".toList ["ls".toList, "a~b".toList] :=
    Text.fixedWords_iff.mpr (by decide)
  have unsplittable : ¬ Code.isSplittable "ls ~ab".toList = true := by decide
  refine ⟨simple, ?_, ?_⟩
  · obtain ⟨line, meaning, emitted, read, fixed, -, -⟩ := alias_quoted_reads .initial
      ⟨⟨1, 0⟩, ⟨1, 18⟩⟩ ⟨⟨1, 10⟩, ⟨1, 18⟩⟩ .single "l-s".toList "ls a~b".toList simple
    rw [(fixed _).mpr words] at read
    exact ⟨line, emitted, read⟩
  · obtain ⟨line, meaning, emitted, read, -, -, other⟩ := alias_quoted_reads .initial
      ⟨⟨1, 0⟩, ⟨1, 18⟩⟩ ⟨⟨1, 10⟩, ⟨1, 18⟩⟩ .single "l-s".toList "ls ~ab".toList simple
    rw [other fun _ fixed => unsplittable (Text.fixedWords_iff.mp fixed).1] at read
    exact ⟨line, emitted, read⟩

end ShellLift
