import Mathlib
import ShellLift.Code.Literal

/-!
# String literals are read back

A reader of string literals that follows the rules of the target: a literal ends at the first quote
of its kind that is not escaped, it does not go over a line end, and an escape stands for one
character. From the front of any text it takes a literal that was written here, and no more than
that, and gives the text of which the literal is made. So the literal of a text is its own, and it
has no control characters in it.
-/

set_option autoImplicit false

namespace ShellLift.Code

/-! ## Reading -/

def hexDigit? (c : Char) : Option Nat :=
  if c.isDigit then some (c.toNat - '0'.toNat)
  else if 'a' ≤ c ∧ c ≤ 'f' then some (c.toNat - 'a'.toNat + 10)
  else if 'A' ≤ c ∧ c ≤ 'F' then some (c.toNat - 'A'.toNat + 10)
  else none

def escaped? (c : Char) : Option Char :=
  if c = '\\' ∨ c = '\'' ∨ c = '"' then some c
  else if c = 'n' then some '\n'
  else if c = 'r' then some '\r'
  else if c = 't' then some '\t'
  else none

/-- The text of a literal behind its opening quote, and what stands behind its closing quote. -/
def readStringBody? (quote : Char) : Text → Option (Text × Text)
  | [] => none
  | '\\' :: 'x' :: high :: low :: rest => do
    let code := 16 * (← hexDigit? high) + (← hexDigit? low)
    let (text, behind) ← readStringBody? quote rest
    pure (Char.ofNat code :: text, behind)
  | '\\' :: c :: rest => do
    let first ← escaped? c
    let (text, behind) ← readStringBody? quote rest
    pure (first :: text, behind)
  | c :: rest =>
    if c = quote then some ([], rest)
    else if c = '\n' ∨ c = '\r' then none
    else do
      let (text, behind) ← readStringBody? quote rest
      pure (c :: text, behind)

def readString? : Text → Option (Text × Text)
  | [] => none
  | quote :: rest => if quote = '\'' ∨ quote = '"' then readStringBody? quote rest else none

/-! ## Written literals -/

theorem literalQuote_cases (text : Text) : literalQuote text = '\'' ∨ literalQuote text = '"' := by
  unfold literalQuote
  split
  · exact .inr rfl
  · exact .inl rfl

theorem hexDigit?_digitChar : ∀ n < 16, hexDigit? (Nat.digitChar n) = some n := by
  decide

theorem readStringBody?_hexByte (quote c : Char) (small : c.toNat < 256) (rest : Text) :
    readStringBody? quote ('\\' :: 'x' :: hexByte c.toNat ++ rest) =
      (readStringBody? quote rest).map fun (text, behind) => (c :: text, behind) := by
  have high := hexDigit?_digitChar (c.toNat / 16) (by omega)
  have low := hexDigit?_digitChar (c.toNat % 16) (by omega)
  have code : 16 * (c.toNat / 16) + c.toNat % 16 = c.toNat := Nat.div_add_mod _ _
  simp only [hexByte, List.cons_append, List.nil_append, readStringBody?, high, low,
    Option.bind_eq_bind, Option.bind_some, code, Char.ofNat_toNat]
  cases readStringBody? quote rest <;> rfl

theorem readStringBody?_escape (quote : Char) {letter c : Char} (stands : escaped? letter = some c)
    (rest : Text) :
    readStringBody? quote ('\\' :: letter :: rest) =
      (readStringBody? quote rest).map fun (text, behind) => (c :: text, behind) := by
  have letter_ne : letter ≠ 'x' := by
    rintro rfl
    cases stands
  cases found : readStringBody? quote rest <;> simp [readStringBody?, letter_ne, stands, found]

theorem readStringBody?_plain {quote c : Char} (backslash : c ≠ '\\') (closes : c ≠ quote)
    (feed : c ≠ '\n') (carriage : c ≠ '\r') (rest : Text) :
    readStringBody? quote (c :: rest) =
      (readStringBody? quote rest).map fun (text, behind) => (c :: text, behind) := by
  cases found : readStringBody? quote rest <;>
    simp [readStringBody?, backslash, closes, feed, carriage, found]

theorem readStringBody?_literalChar {quote : Char} (isQuote : quote = '\'' ∨ quote = '"') (c : Char)
    (rest : Text) :
    readStringBody? quote (literalChar quote c ++ rest) =
      (readStringBody? quote rest).map fun (text, behind) => (c :: text, behind) := by
  unfold literalChar
  split
  · rename_i backslash
    exact readStringBody?_escape quote (by rw [backslash]; rfl) rest
  rename_i backslash
  split
  · rename_i feed
    exact readStringBody?_escape quote (by rw [feed]; rfl) rest
  rename_i feed
  split
  · rename_i carriage
    exact readStringBody?_escape quote (by rw [carriage]; rfl) rest
  rename_i carriage
  split
  · rename_i tab
    exact readStringBody?_escape quote (by rw [tab]; rfl) rest
  split
  · rename_i closes
    have stands : escaped? c = some c := if_pos (.inr (closes ▸ isQuote))
    exact readStringBody?_escape quote stands rest
  rename_i closes
  split
  · exact readStringBody?_hexByte quote c (by omega) rest
  · exact readStringBody?_plain backslash closes feed carriage rest

theorem readStringBody?_literalBody {quote : Char} (isQuote : quote = '\'' ∨ quote = '"')
    (text rest : Text) :
    readStringBody? quote (literalBody quote text ++ quote :: rest) = some (text, rest) := by
  induction text with
  | nil =>
      have plain : quote ≠ '\\' := by
        rcases isQuote with rfl | rfl <;> decide
      simp [literalBody, readStringBody?, plain]
  | cons c text ih =>
      have first : literalBody quote (c :: text) =
          literalChar quote c ++ literalBody quote text := rfl
      rw [first, List.append_assoc, readStringBody?_literalChar isQuote, ih]
      rfl

/-- Whatever stands behind a literal, its reader stops right there. -/
theorem readString?_stringLiteral (text rest : Text) :
    readString? (stringLiteral text ++ rest) = some (text, rest) := by
  have isQuote := literalQuote_cases text
  unfold stringLiteral
  rw [List.cons_append, List.cons_append, List.append_assoc, List.singleton_append, readString?,
    if_pos isQuote]
  exact readStringBody?_literalBody isQuote text rest

/-! ## Characters of written literals -/

/-- A character that is not shown: one of the control characters of the first block, or delete. -/
def IsControl (c : Char) : Prop := c.toNat < 0x20 ∨ c.toNat = 0x7f

instance (c : Char) : Decidable (IsControl c) := inferInstanceAs (Decidable (_ ∨ _))

theorem not_isControl_digitChar : ∀ n < 16, ¬ IsControl (Nat.digitChar n) := by
  decide

theorem not_isControl_hexByte {n : Nat} (small : n < 256) : ∀ x ∈ hexByte n, ¬ IsControl x := by
  have high := not_isControl_digitChar (n / 16) (by omega)
  have low := not_isControl_digitChar (n % 16) (by omega)
  simp [hexByte, high, low]

/-- Every control character is written by other characters. -/
theorem not_isControl_literalChar {quote : Char} (isQuote : quote = '\'' ∨ quote = '"') (c : Char) :
    ∀ x ∈ literalChar quote c, ¬ IsControl x := by
  have backslash : ¬ IsControl '\\' := by decide
  have letters : ¬ IsControl 'n' ∧ ¬ IsControl 'r' ∧ ¬ IsControl 't' ∧ ¬ IsControl 'x' := by decide
  unfold literalChar
  split
  · simp [backslash]
  split
  · simp [backslash, letters]
  split
  · simp [backslash, letters]
  split
  · simp [backslash, letters]
  split
  · rename_i closes
    have shown : ¬ IsControl c := by
      rcases isQuote with rfl | rfl <;> rw [closes] <;> decide
    simp [backslash, shown]
  split
  · have digits := not_isControl_hexByte (n := c.toNat) (by omega)
    simpa [backslash, letters] using digits
  · rename_i shown
    simpa [IsControl] using shown

theorem not_isControl_stringLiteral (text : Text) : ∀ x ∈ stringLiteral text, ¬ IsControl x := by
  have isQuote := literalQuote_cases text
  have shown : ¬ IsControl (literalQuote text) := by
    rcases isQuote with quote | quote <;> rw [quote] <;> decide
  intro x member
  rw [stringLiteral, List.cons_append, List.mem_cons, List.mem_append, List.mem_singleton] at member
  rcases member with rfl | inside | rfl
  · exact shown
  · obtain ⟨c, -, written⟩ := List.mem_flatMap.mp inside
    exact not_isControl_literalChar isQuote c x written
  · exact shown

theorem literalQuote_eq_double_iff (text : Text) :
    literalQuote text = '"' ↔ '\'' ∈ text ∧ '"' ∉ text := by
  unfold literalQuote
  by_cases single : '\'' ∈ text ∧ '"' ∉ text
  · simp [single]
  · simp [single]

/-- From the front of any text the reader takes a literal as a whole and gives its text. A literal
is written without control characters, in double quotes exactly if the text has single quotes and no
double quote. Two texts never have the same literal. -/
theorem stringLiteral_decodes :
    (∀ text rest, readString? (stringLiteral text ++ rest) = some (text, rest)) ∧
      (∀ text, ∀ c ∈ stringLiteral text, ¬ (c.toNat < 0x20 ∨ c.toNat = 0x7f)) ∧
      (∀ text, (stringLiteral text).head? = some '"' ↔ '\'' ∈ text ∧ '"' ∉ text) ∧
      Function.Injective stringLiteral := by
  refine ⟨readString?_stringLiteral, not_isControl_stringLiteral, ?_, ?_⟩
  · intro text
    rw [← literalQuote_eq_double_iff, stringLiteral, List.cons_append, List.head?_cons,
      Option.some.injEq]
  · intro text other same
    have first := readString?_stringLiteral text []
    rw [same, readString?_stringLiteral other []] at first
    cases first
    rfl

/-- A text with a single quote, a tab and a control character without a letter of its own. -/
theorem stringLiteral_decodes_escapes :
    stringLiteral "it's\t\x01".toList = "\"it's\\t\\x01\"".toList ∧
      readString? ("\"it's\\t\\x01\"".toList ++ "', x".toList) =
        some ("it's\t\x01".toList, "', x".toList) ∧
      '1' ∈ stringLiteral "it's\t\x01".toList ∧ ¬ ('1'.toNat < 0x20 ∨ '1'.toNat = 0x7f) := by
  have written : stringLiteral "it's\t\x01".toList = "\"it's\\t\\x01\"".toList := by decide
  have digit : '1' ∈ stringLiteral "it's\t\x01".toList := by decide
  obtain ⟨reads, shown, -⟩ := stringLiteral_decodes
  exact ⟨written, written ▸ reads _ _, digit, shown _ _ digit⟩

end ShellLift.Code
