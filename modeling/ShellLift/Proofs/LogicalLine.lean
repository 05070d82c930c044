import ShellLift.Proofs.ArgumentList

/-!
# Lines that are whole

Inside a string literal or between brackets a line end would not end a statement of the target.
`Layout.Complete` says that a line leaves no literal and no bracket open, has no comment and is not
continued, so that the line is a logical line. The emitted pieces are phrases: such a line stays one
when a phrase is put in front of it.
-/

set_option autoImplicit false

namespace ShellLift

namespace Layout

def brackets : List (Char × Char) := [('(', ')'), ('[', ']'), ('\x7b', '\x7d')]

def isQuote (c : Char) : Bool := c == '\'' || c == '"'

/-- Characters that mean something to the lines of the target, outside of string literals. -/
def specials : List Char :=
  ['\'', '"', '(', ')', '[', ']', '\x7b', '\x7d', '\\', '#', '\n', '\r']

def isNeutral (c : Char) : Bool := !specials.contains c

/-- The rest of a logical line behind brackets that are still to be closed. A literal has no quote
right behind it, which could make it a literal of several lines. -/
inductive Complete : List Char → Text → Prop
  | done : Complete [] []
  | neutral {closers : List Char} {c : Char} {rest : Text} :
      isNeutral c = true → Complete closers rest → Complete closers (c :: rest)
  | opened {closers : List Char} {bracket closer : Char} {rest : Text} :
      (bracket, closer) ∈ brackets → Complete (closer :: closers) rest →
      Complete closers (bracket :: rest)
  | closed {closers : List Char} {closer : Char} {rest : Text} :
      Complete closers rest → Complete (closer :: closers) (closer :: rest)
  | string {closers : List Char} {text inside rest : Text} :
      Code.readString? text = some (inside, rest) → (∀ x ∈ rest.head?, isQuote x = false) →
      Complete closers rest → Complete closers text

/-- A text that can be put in front of the rest of a logical line that starts with no quote. -/
def Phrase (text : Text) : Prop :=
  ∀ closers rest, (∀ x ∈ rest.head?, isQuote x = false) → Complete closers rest →
    Complete closers (text ++ rest)

/-! ## No line end -/

theorem isNeutral_of_isWordChar {x : Char} (word : Text.isWordChar x = true) :
    isNeutral x = true := by
  have others : specials.all (fun y => !Text.isWordChar y) = true := by decide
  cases special : specials.contains x with
  | false => rw [isNeutral, special, Bool.not_false]
  | true =>
      have found := List.all_eq_true.mp others x (List.contains_iff_mem.mp special)
      rw [word] at found
      cases found

theorem hexDigit?_break {x : Char} (ends : x = '\n' ∨ x = '\r') : Code.hexDigit? x = none := by
  rcases ends with rfl | rfl <;> rfl

theorem escaped?_break {x : Char} (ends : x = '\n' ∨ x = '\r') : Code.escaped? x = none := by
  rcases ends with rfl | rfl <;> rfl

/-- A line end in front of a string literal's end stops its reader. -/
theorem mem_of_readStringBody? {quote x : Char} {text inside rest : Text}
    (ends : x = '\n' ∨ x = '\r') (isQuote : quote = '\'' ∨ quote = '"')
    (read : Code.readStringBody? quote text = some (inside, rest)) (member : x ∈ text) :
    x ∈ rest := by
  fun_induction Code.readStringBody? quote text generalizing inside with
  | case1 => cases read
  | case2 high low others ih =>
      simp only [Option.bind_eq_bind, Option.bind_eq_some_iff] at read
      obtain ⟨first, isHigh, second, isLow, ⟨more, behind⟩, found, same⟩ := read
      cases same
      apply ih found
      rcases List.mem_cons.mp member with rfl | member
      · rcases ends with ends | ends <;> cases ends
      rcases List.mem_cons.mp member with rfl | member
      · rcases ends with ends | ends <;> cases ends
      rcases List.mem_cons.mp member with rfl | member
      · rw [hexDigit?_break ends] at isHigh
        cases isHigh
      rcases List.mem_cons.mp member with rfl | member
      · rw [hexDigit?_break ends] at isLow
        cases isLow
      · exact member
  | case3 c others _ ih =>
      simp only [Option.bind_eq_bind, Option.bind_eq_some_iff] at read
      obtain ⟨first, isEscape, ⟨more, behind⟩, found, same⟩ := read
      cases same
      apply ih found
      rcases List.mem_cons.mp member with rfl | member
      · rcases ends with ends | ends <;> cases ends
      rcases List.mem_cons.mp member with rfl | member
      · rw [escaped?_break ends] at isEscape
        cases isEscape
      · exact member
  | case4 others =>
      cases read
      rcases List.mem_cons.mp member with rfl | member
      · rcases ends with rfl | rfl <;> rcases isQuote with isQuote | isQuote <;> cases isQuote
      · exact member
  | case5 => cases read
  | case6 c others _ _ _ plain ih =>
      simp only [Option.bind_eq_bind, Option.bind_eq_some_iff] at read
      obtain ⟨⟨more, behind⟩, found, same⟩ := read
      cases same
      apply ih found
      rcases List.mem_cons.mp member with rfl | member
      · exact absurd ends plain
      · exact member

theorem mem_of_readString? {x : Char} {text inside rest : Text} (ends : x = '\n' ∨ x = '\r')
    (read : Code.readString? text = some (inside, rest)) (member : x ∈ text) : x ∈ rest := by
  cases text with
  | nil => cases member
  | cons quote text =>
      rw [Code.readString?] at read
      split at read
      · rename_i isQuote
        apply mem_of_readStringBody? ends isQuote read
        rcases List.mem_cons.mp member with rfl | member
        · rcases ends with rfl | rfl <;> rcases isQuote with isQuote | isQuote <;> cases isQuote
        · exact member
      · cases read

/-- A logical line has no line end in it. -/
theorem Complete.unbroken {closers : List Char} {text : Text} (complete : Complete closers text)
    {x : Char} (ends : x = '\n' ∨ x = '\r') (brackets_ne : x ∉ closers) : x ∉ text := by
  induction complete with
  | done => exact List.not_mem_nil
  | neutral neutral _ ih =>
      refine List.not_mem_cons_of_ne_of_not_mem ?_ (ih brackets_ne)
      rintro rfl
      rcases ends with rfl | rfl <;> cases neutral
  | @opened closers bracket closer rest pair _ ih =>
      have no_break : ∀ pair ∈ brackets, x ≠ pair.1 ∧ x ≠ pair.2 := by
        rcases ends with rfl | rfl <;> simp [brackets]
      obtain ⟨opens, closes⟩ := no_break _ pair
      apply List.not_mem_cons_of_ne_of_not_mem opens
      exact ih (List.not_mem_cons_of_ne_of_not_mem closes brackets_ne)
  | closed _ ih =>
      exact List.not_mem_cons_of_ne_of_not_mem (List.ne_of_not_mem_cons brackets_ne)
        (ih (List.not_mem_of_not_mem_cons brackets_ne))
  | string read _ _ ih => exact fun member => ih brackets_ne (mem_of_readString? ends read member)

/-! ## Phrases -/

theorem Complete.append_neutral {closers : List Char} {front rest : Text}
    (neutral : front.all isNeutral = true) (complete : Complete closers rest) :
    Complete closers (front ++ rest) := by
  induction front with
  | nil => exact complete
  | cons x front ih =>
      rw [List.all_cons, Bool.and_eq_true] at neutral
      exact .neutral neutral.1 (ih neutral.2)

namespace Phrase

theorem complete {text : Text} (phrase : Phrase text) : Complete [] text := by
  have whole := phrase [] [] (fun _ first => by cases first) .done
  rwa [List.append_nil] at whole

theorem of_neutral {text : Text} (neutral : text.all isNeutral = true) : Phrase text :=
  fun _ _ _ complete => complete.append_neutral neutral

theorem prepend {front text : Text} (neutral : front.all isNeutral = true)
    (phrase : Phrase text) : Phrase (front ++ text) := by
  intro closers rest unquoted complete
  rw [List.append_assoc]
  exact (phrase closers rest unquoted complete).append_neutral neutral

theorem append {text : Text} (phrase : Phrase text) {x : Char} {behind : Text}
    (unquoted : isQuote x = false) (phrase' : Phrase (x :: behind)) :
    Phrase (text ++ x :: behind) := by
  intro closers rest unquoted' complete
  rw [List.append_assoc]
  apply phrase
  · intro y first
    cases first
    exact unquoted
  · exact phrase' closers rest unquoted' complete

theorem stringLiteral (text : Text) : Phrase (Code.stringLiteral text) :=
  fun _ rest unquoted complete =>
    .string (Code.readString?_stringLiteral text rest) unquoted complete

theorem ofNat (value : Nat) : Phrase (Text.ofNat value) := by
  apply of_neutral
  rw [List.all_eq_true]
  intro x member
  have digit := Nat.isDigit_of_mem_toDigits (by decide) (by decide) member
  apply isNeutral_of_isWordChar
  simp [Text.isWordChar, Char.isAlphanum, digit]

theorem intercalate {texts : List Text} (phrases : ∀ text ∈ texts, Phrase text) :
    Phrase (List.intercalate ", ".toList texts) := by
  have separator : ", ".toList.all isNeutral = true := by decide
  induction texts with
  | nil => exact fun _ _ _ complete => complete
  | cons text others ih =>
      obtain ⟨first, rest⟩ := List.forall_mem_cons.mp phrases
      cases others with
      | nil =>
          rw [List.intercalate_singleton]
          exact first
      | cons second others =>
          rw [List.intercalate_cons_cons, List.append_assoc]
          exact first.append rfl ((ih rest).prepend separator)

/-- Phrases with separators between brackets. -/
theorem enclosed {bracket closer : Char} (pair : (bracket, closer) ∈ brackets) {texts : List Text}
    (phrases : ∀ text ∈ texts, Phrase text) :
    Phrase (bracket :: (List.intercalate ", ".toList texts ++ [closer])) := by
  have unquoted : ∀ pair ∈ brackets, isQuote pair.2 = false := by
    simp [brackets, isQuote]
  intro closers rest _ complete
  rw [List.cons_append, List.append_assoc]
  refine .opened pair (intercalate phrases _ _ ?_ (.closed complete))
  intro x first
  cases first
  exact unquoted _ pair

theorem call {callee : Text} (named : callee.all isNeutral = true) {arguments : List Text}
    (phrases : ∀ text ∈ arguments, Phrase text) : Phrase (Code.call callee arguments) := by
  rw [Code.call_eq]
  exact (enclosed (by simp [brackets]) phrases).prepend named

theorem listDisplay {items : List Text} (phrases : ∀ text ∈ items, Phrase text) :
    Phrase (Code.listDisplay items) :=
  @enclosed '[' ']' (by simp [brackets]) items phrases

end Phrase

end Layout

end ShellLift
