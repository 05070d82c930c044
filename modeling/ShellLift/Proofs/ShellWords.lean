import ShellLift.Proofs.ShellCalls

/-!
# Words of a command

A reader that cuts the text of a command into words as a shell does. Spaces separate words. Inside
single quotes everything stands for itself up to the next single quote, outside a backslash makes
the next character stand for itself, and parts that touch are one word. The arguments of a short
name are written so that this reader gets them back, one word for each, and none of them touches the
text that the short name stands for.
-/

set_option autoImplicit false

namespace ShellLift

namespace Text

/-! ## Reading -/

inductive WordPlace
  | between
  | inside
  | quoted
  | escaped
deriving DecidableEq

def WordPlace.ended : WordPlace → List Text
  | inside => [[]]
  | _ => []

/-- The words from a place on. In a word, the first of them is the rest of that word. A quotation or
an escape that does not end has no words. -/
def wordsFrom? : WordPlace → Text → Option (List Text)
  | .quoted, [] => none
  | .escaped, [] => none
  | place, [] => some place.ended
  | .quoted, c :: rest =>
    if c = '\'' then wordsFrom? .inside rest else (wordsFrom? .quoted rest).map (consFirst c)
  | .escaped, c :: rest => (wordsFrom? .inside rest).map (consFirst c)
  | place, c :: rest =>
    if c = ' ' then (wordsFrom? .between rest).map (place.ended ++ ·)
    else if c = '\'' then wordsFrom? .quoted rest
    else if c = '\\' then wordsFrom? .escaped rest
    else (wordsFrom? .inside rest).map (consFirst c)

def words? (command : Text) : Option (List Text) := wordsFrom? .between command

/-! ## Words of quoted texts -/

/-- A quoted text adds its characters, whatever they are, to the word behind its closing quote. -/
theorem wordsFrom?_quoted {rest first : Text} {others : List Text}
    (behind : wordsFrom? .inside rest = some (first :: others)) (text : Text) :
    wordsFrom? .quoted (text.flatMap shellQuotedChar ++ '\'' :: rest) =
      some ((text ++ first) :: others) := by
  induction text with
  | nil => simpa [wordsFrom?] using behind
  | cons c text ih =>
      rw [List.flatMap_cons, List.append_assoc]
      by_cases quote : c = '\''
      · -- out of the quotes, past the escaped quote, and into the quotes again
        simp [shellQuotedChar, quote, wordsFrom?, ih, consFirst]
      · simp [shellQuotedChar, quote, wordsFrom?, ih, consFirst]

theorem wordsFrom?_shellQuoted {place : WordPlace} (outside : place = .between ∨ place = .inside)
    {rest first : Text} {others : List Text}
    (behind : wordsFrom? .inside rest = some (first :: others)) (text : Text) :
    wordsFrom? place (shellQuoted text ++ rest) = some ((text ++ first) :: others) := by
  have inside := wordsFrom?_quoted behind text
  have shape : shellQuoted text ++ rest =
      '\'' :: (text.flatMap shellQuotedChar ++ '\'' :: rest) := by
    simp [shellQuoted]
  rcases outside with rfl | rfl <;> rw [shape] <;> simpa [wordsFrom?] using inside

/-- Outside of quotes a character means the same between words and in a word. -/
theorem wordsFrom?_cons {place : WordPlace} (outside : place = .between ∨ place = .inside)
    (c : Char) (rest : Text) :
    wordsFrom? place (c :: rest) =
      if c = ' ' then (wordsFrom? .between rest).map (place.ended ++ ·)
      else if c = '\'' then wordsFrom? .quoted rest
      else if c = '\\' then wordsFrom? .escaped rest
      else (wordsFrom? .inside rest).map (consFirst c) := by
  rcases outside with rfl | rfl <;> rfl

theorem WordPlace.outside_of_ne {place : WordPlace} (unquoted : place ≠ .quoted)
    (plain : place ≠ .escaped) : place = .between ∨ place = .inside := by
  cases place <;> simp_all

theorem consFirst_ne_nil (c : Char) (texts : List Text) : consFirst c texts ≠ [] := by
  cases texts <;> exact List.cons_ne_nil _ _

/-- Behind a place that is not between two words there is at least the rest of a word. -/
theorem wordsFrom?_ne_nil {place : WordPlace} (begun : place ≠ .between) {text : Text}
    {words : List Text} (read : wordsFrom? place text = some words) : words ≠ [] := by
  fun_induction wordsFrom? place text generalizing words with
  | case1 => cases read
  | case2 => cases read
  | case3 place unquoted plain =>
      obtain rfl := (WordPlace.outside_of_ne unquoted plain).resolve_left begun
      cases read
      exact List.cons_ne_nil _ _
  | case4 rest ih => exact ih (by decide) read
  | case5 c rest _ _ =>
      obtain ⟨found, -, rfl⟩ := Option.map_eq_some_iff.mp read
      exact consFirst_ne_nil c found
  | case6 c rest _ =>
      obtain ⟨found, -, rfl⟩ := Option.map_eq_some_iff.mp read
      exact consFirst_ne_nil c found
  | case7 place rest unquoted plain _ =>
      obtain rfl := (WordPlace.outside_of_ne unquoted plain).resolve_left begun
      obtain ⟨found, -, rfl⟩ := Option.map_eq_some_iff.mp read
      exact List.cons_ne_nil _ _
  | case8 place rest _ _ _ ih => exact ih (by decide) read
  | case9 place rest _ _ _ _ ih => exact ih (by decide) read
  | case10 place c rest _ _ _ _ _ _ =>
      obtain ⟨found, -, rfl⟩ := Option.map_eq_some_iff.mp read
      exact consFirst_ne_nil c found

/-- More words behind a text that begins in a word do not touch its first character. -/
theorem map_consFirst_append {place : WordPlace} (begun : place ≠ .between) {c : Char}
    {text more : Text} {words others : List Text}
    (longer : ∀ {found}, wordsFrom? place text = some found →
      wordsFrom? place (text ++ more) = some (found ++ others))
    (read : (wordsFrom? place text).map (consFirst c) = some words) :
    (wordsFrom? place (text ++ more)).map (consFirst c) = some (words ++ others) := by
  obtain ⟨found, tail, rfl⟩ := Option.map_eq_some_iff.mp read
  obtain ⟨first, later, rfl⟩ := List.exists_cons_of_ne_nil (wordsFrom?_ne_nil begun tail)
  rw [longer tail]
  rfl

end Text

namespace Session

open Shell Text

/-! ## Arguments of a short name -/

theorem argumentText_cons (argument : Text) (arguments : List Text) :
    argumentText (argument :: arguments) =
      ' ' :: (shellQuoted argument ++ argumentText arguments) := by
  simp [argumentText]

/-- The arguments are one word each. The word in front of them, if there is one, ends where they
start. -/
theorem wordsFrom?_argumentText {place : WordPlace} (outside : place = .between ∨ place = .inside)
    (arguments : List Text) :
    wordsFrom? place (argumentText arguments) = some (place.ended ++ arguments) := by
  induction arguments generalizing place with
  | nil => rcases outside with rfl | rfl <;> rfl
  | cons argument arguments ih =>
      have behind : wordsFrom? .inside (argumentText arguments) = some ([] :: arguments) :=
        ih (.inr rfl)
      have first := wordsFrom?_shellQuoted (.inl rfl) behind argument
      rw [List.append_nil] at first
      rw [argumentText_cons, wordsFrom?_cons outside, if_pos rfl, first, Option.map_some]

/-- Arguments behind a text that is read to its end leave the words of that text as they are. -/
theorem wordsFrom?_append_argumentText {place : WordPlace} {text : Text} {words : List Text}
    (read : wordsFrom? place text = some words) (arguments : List Text) :
    wordsFrom? place (text ++ argumentText arguments) = some (words ++ arguments) := by
  fun_induction wordsFrom? place text generalizing words with
  | case1 => cases read
  | case2 => cases read
  | case3 place unquoted plain =>
      cases read
      exact wordsFrom?_argumentText (WordPlace.outside_of_ne unquoted plain) arguments
  | case4 rest ih => exact ih read
  | case5 c rest other ih =>
      rw [List.cons_append, wordsFrom?, if_neg other]
      exact map_consFirst_append (by decide) ih read
  | case6 c rest ih => exact map_consFirst_append (by decide) ih read
  | case7 place rest unquoted plain ih =>
      obtain ⟨found, tail, rfl⟩ := Option.map_eq_some_iff.mp read
      rw [List.cons_append, wordsFrom?_cons (WordPlace.outside_of_ne unquoted plain), if_pos rfl,
        ih tail, Option.map_some, List.append_assoc]
  | case8 place rest unquoted plain _ ih =>
      rw [List.cons_append, wordsFrom?_cons (WordPlace.outside_of_ne unquoted plain)]
      exact ih read
  | case9 place rest unquoted plain _ _ ih =>
      rw [List.cons_append, wordsFrom?_cons (WordPlace.outside_of_ne unquoted plain)]
      exact ih read
  | case10 place c rest unquoted plain space quote backslash ih =>
      rw [List.cons_append, wordsFrom?_cons (WordPlace.outside_of_ne unquoted plain), if_neg space,
        if_neg quote, if_neg backslash]
      exact map_consFirst_append (by decide) ih read

variable {σ : Type}

/-- The use of a short name for a command hands the shell one command, which is the text that the
name stands for with more text behind it. That text has the arguments as its words, whatever is in
them, and a text in front of it that is read to its end keeps its own words. -/
theorem useAlias_words (shell : Shell σ) (session : Session) (name body : Text)
    (deferred : session.aliases.get? name = some (.command body)) (arguments : List Text) :
    ∃ tail,
      session.useAlias shell name arguments =
        Alias.Expansion.output <$> session.capture shell (body ++ tail) false ∧
      (∀ state calls, session.useAlias shell.listing name arguments (state, calls) =
        withCalls (calls ++ session.callsFor shell state (body ++ tail))
          (session.useAlias shell name arguments state)) ∧
      words? tail = some arguments ∧
      ∀ words, words? body = some words → words? (body ++ tail) = some (words ++ arguments) := by
  refine ⟨argumentText arguments, ?_, ?_, ?_, ?_⟩
  · unfold useAlias
    rw [deferred]
  · intro state calls
    have asks : (Operation.useAlias name arguments).command? session =
        some (body ++ argumentText arguments) := by
      simp [Operation.command?, deferred]
    rw [useAlias_listing, Operation.calls_of_some shell asks]
  · exact wordsFrom?_argumentText (.inl rfl) arguments
  · exact fun words read => wordsFrom?_append_argumentText read arguments

def listingFiles : Session :=
  (start (.ofBindings .empty) none).defineAlias "txt".toList (.command "echo *.txt".toList)

/-- Arguments with a quote, with nothing, with a line feed and a backslash, and of quotes alone. -/
theorem useAlias_words_quotes :
    listingFiles.aliases.get? "txt".toList = some (.command "echo *.txt".toList) ∧
      ∃ tail, words? tail = some ["it's".toList, [], "a\nb\\".toList, "''".toList] ∧
        words? ("echo *.txt".toList ++ tail) =
          some ["echo".toList, "*.txt".toList, "it's".toList, [], "a\nb\\".toList, "''".toList] ∧
        listingFiles.useAlias counting.listing "txt".toList
            ["it's".toList, [], "a\nb\\".toList, "''".toList] (0, []) =
          .ok (.output (some "x\n".toList)) (1,
            [.checked ("echo *.txt".toList ++ tail) none,
              .ran ("echo *.txt".toList ++ tail) ⟨[("SHELL".toList, "/bin/zsh".toList)]⟩ []]) := by
  have deferred : listingFiles.aliases.get? "txt".toList = some (.command "echo *.txt".toList) := by
    decide
  obtain ⟨tail, ran, listed, reads, behind⟩ := useAlias_words counting listingFiles "txt".toList _
    deferred ["it's".toList, [], "a\nb\\".toList, "''".toList]
  refine ⟨deferred, tail, reads, behind ["echo".toList, "*.txt".toList] (by decide), ?_⟩
  rw [listed, ran]
  rfl

end Session

end ShellLift
