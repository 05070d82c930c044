import Mathlib
import ShellLift.Code.Literal

/-!
# Numerals and their values

The decimal numeral of a number, with or without a sign, is read back as that number. The integer
literal of a numeral, which has neither underscores nor leading zeros, is the decimal numeral of its
value.
-/

set_option autoImplicit false

namespace ShellLift

namespace Text

/-! ## Digits -/

theorem digitChar_of_isDigit {c : Char} (digit : c.isDigit = true) :
    c.toNat - '0'.toNat < 10 ∧ Nat.digitChar (c.toNat - '0'.toNat) = c := by
  obtain ⟨low, high⟩ := Char.isDigit_iff_toNat.mp digit
  have small : c.toNat - '0'.toNat < 10 := by
    have top : '9'.toNat = 57 := rfl
    have bottom : '0'.toNat = 48 := rfl
    omega
  have chars : ∀ n < 10, Nat.digitChar n = Char.ofNat ('0'.toNat + n) := by
    decide
  refine ⟨small, ?_⟩
  rw [chars _ small, Nat.add_sub_cancel' low, Char.ofNat_toNat]

theorem isDigit_or_of_isDigitTail {text : Text} (tail : isDigitTail text = true) :
    ∀ x ∈ text, x.isDigit = true ∨ x = '_' := by
  fun_induction isDigitTail text with
  | case1 => exact fun x member => absurd member List.not_mem_nil
  | case2 c rest ih =>
      obtain ⟨digit, tail⟩ := Bool.and_eq_true_iff.mp tail
      rw [List.forall_mem_cons, List.forall_mem_cons]
      exact ⟨.inr rfl, .inl digit, ih tail⟩
  | case3 c rest _ ih =>
      obtain ⟨digit, tail⟩ := Bool.and_eq_true_iff.mp tail
      rw [List.forall_mem_cons]
      exact ⟨.inl digit, ih tail⟩

theorem isDigit_of_mem_digits {text : Text} (numeral : isNumeral text = true) :
    ∀ x ∈ digits text, x.isDigit = true := by
  intro x member
  obtain ⟨occurs, other⟩ := List.mem_filter.mp member
  cases text with
  | nil => cases occurs
  | cons c rest =>
      obtain ⟨digit, tail⟩ := Bool.and_eq_true_iff.mp numeral
      have either : ∀ y ∈ c :: rest, y.isDigit = true ∨ y = '_' :=
        List.forall_mem_cons.mpr ⟨.inl digit, isDigit_or_of_isDigitTail tail⟩
      rcases either x occurs with isDigit | underscore
      · exact isDigit
      · exact absurd underscore (by simpa using other)

/-! ## Values -/

theorem digitsValue_nil (value : Nat) : digitsValue value [] = value := by
  rfl

theorem digitsValue_cons (value : Nat) (c : Char) (rest : Text) :
    digitsValue value (c :: rest) = digitsValue (value * 10 + (c.toNat - '0'.toNat)) rest := by
  rfl

theorem digitsValue_dropWhile (digits : Text) :
    digitsValue 0 (digits.dropWhile (· == '0')) = digitsValue 0 digits := by
  induction digits with
  | nil => rfl
  | cons c rest ih =>
      rw [List.dropWhile_cons]
      split
      · rename_i zero
        obtain rfl : c = '0' := by simpa using zero
        rw [ih]
        rfl
      · rfl

/-- More digits stand behind the numeral of what was read before. -/
theorem ofNat_digitsValue {value : Nat} (positive : 0 < value) {digits : Text}
    (all : ∀ x ∈ digits, x.isDigit = true) :
    ofNat (digitsValue value digits) = ofNat value ++ digits := by
  induction digits generalizing value with
  | nil => rw [digitsValue_nil, List.append_nil]
  | cons c rest ih =>
      obtain ⟨digit, others⟩ := List.forall_mem_cons.mp all
      obtain ⟨small, char⟩ := digitChar_of_isDigit digit
      have step : ofNat (value * 10 + (c.toNat - '0'.toNat)) = ofNat value ++ [c] := by
        unfold ofNat
        rw [Nat.toDigits_of_base_le (by decide) (by omega)]
        have quotient : (value * 10 + (c.toNat - '0'.toNat)) / 10 = value := by omega
        have remainder : (value * 10 + (c.toNat - '0'.toNat)) % 10 = c.toNat - '0'.toNat := by omega
        rw [quotient, remainder, char]
      rw [digitsValue_cons, ih (by omega) others, step, List.append_assoc, List.singleton_append]

theorem digitsValue_append (value : Nat) (front back : Text) :
    digitsValue value (front ++ back) = digitsValue (digitsValue value front) back := by
  induction front generalizing value with
  | nil => rfl
  | cons c rest ih => rw [List.cons_append, digitsValue_cons, digitsValue_cons, ih]

/-- The numeral of a number has that number as its value. -/
theorem digitsValue_ofNat (n : Nat) : digitsValue 0 (ofNat n) = n := by
  have digit : ∀ value, ∀ k < 10, digitsValue value [Nat.digitChar k] = value * 10 + k := by
    intro value k small
    have char : ∀ k < 10, (Nat.digitChar k).toNat - '0'.toNat = k := by
      decide
    rw [digitsValue_cons, digitsValue_nil, char k small]
  induction n using Nat.strongRecOn with
  | _ n ih =>
      unfold ofNat at ih ⊢
      by_cases small : n < 10
      · rw [Nat.toDigits_of_lt_base small, digit 0 n small, Nat.zero_mul, Nat.zero_add]
      · rw [Nat.toDigits_of_base_le (by decide) (by omega), digitsValue_append,
          ih (n / 10) (by omega), digit _ _ (by omega)]
        omega

/-! ## Integers -/

theorem isDigit_of_mem_ofNat {n : Nat} {c : Char} (member : c ∈ ofNat n) : c.isDigit = true :=
  Nat.isDigit_of_mem_toDigits (by decide) (by decide) member

theorem isDigitTail_of_isDigit {text : Text} (all : ∀ x ∈ text, x.isDigit = true) :
    isDigitTail text = true := by
  fun_induction isDigitTail text with
  | case1 => rfl
  | case2 c rest ih => exact absurd (all '_' (List.mem_cons_self ..)) (by decide)
  | case3 c rest _ ih =>
      obtain ⟨digit, others⟩ := List.forall_mem_cons.mp all
      rw [digit, ih others, Bool.and_self]

theorem isNumeral_ofNat (n : Nat) : isNumeral (ofNat n) = true := by
  obtain ⟨first, rest, shape⟩ := List.exists_cons_of_ne_nil (Nat.toDigits_ne_nil (n := n) (b := 10))
  have all : ∀ x ∈ ofNat n, x.isDigit = true := fun x member => isDigit_of_mem_ofNat member
  rw [ofNat, shape] at all ⊢
  obtain ⟨digit, others⟩ := List.forall_mem_cons.mp all
  rw [isNumeral, digit, isDigitTail_of_isDigit others, Bool.and_self]

theorem digits_eq_self {text : Text} (all : ∀ x ∈ text, x.isDigit = true) : digits text = text := by
  apply List.filter_eq_self.mpr
  intro x member
  have digit := all x member
  by_contra underscore
  obtain rfl : x = '_' := by simpa using underscore
  cases digit

theorem numeralValue_ofNat (n : Nat) : numeralValue (ofNat n) = n := by
  rw [numeralValue, digits_eq_self fun x member => isDigit_of_mem_ofNat member, digitsValue_ofNat]

/-- A numeral starts with a digit and so has no sign. -/
theorem readInt?_of_isNumeral {text : Text} (numeral : isNumeral text = true) :
    readInt? text = some (numeralValue text : Int) := by
  unfold readInt?
  split
  · cases numeral
  · cases numeral
  · rw [if_pos numeral]

/-- The numeral of an integer is read back as that integer. -/
theorem readInt?_ofInt (n : Int) : readInt? (ofInt n) = some n := by
  rw [ofInt]
  split
  · rename_i negative
    rw [readInt?, if_pos (isNumeral_ofNat _), numeralValue_ofNat]
    congr 1
    omega
  · rename_i positive
    have value : ((n.natAbs : Nat) : Int) = n := by omega
    rw [readInt?_of_isNumeral (isNumeral_ofNat _), numeralValue_ofNat, value]

end Text

namespace Code

theorem integerLiteral_digits {text : Text} (numeral : Text.isNumeral text = true) :
    (∀ x ∈ integerLiteral text, x.isDigit = true) ∧
      Text.digitsValue 0 (integerLiteral text) = Text.numeralValue text := by
  have value := Text.digitsValue_dropWhile (Text.digits text)
  have all : ∀ x ∈ (Text.digits text).dropWhile (· == '0'), x.isDigit = true :=
    fun x member =>
      Text.isDigit_of_mem_digits numeral x ((List.dropWhile_sublist _).mem member)
  unfold integerLiteral Text.numeralValue
  cases trimmed : (Text.digits text).dropWhile (· == '0') with
  | nil =>
      rw [trimmed] at value
      refine ⟨?_, ?_⟩
      · intro x member
        rw [List.mem_singleton.mp member]
        rfl
      · rw [← value]
        rfl
  | cons first others =>
      rw [trimmed] at value all
      exact ⟨all, value⟩

/-- The integer literal is the decimal numeral of the value. -/
theorem integerLiteral_eq {text : Text} (numeral : Text.isNumeral text = true) :
    integerLiteral text = Text.ofNat (Text.numeralValue text) := by
  obtain ⟨all, value⟩ := integerLiteral_digits numeral
  rw [← value]
  unfold integerLiteral at all ⊢
  cases trimmed : (Text.digits text).dropWhile (· == '0') with
  | nil =>
      have zero : Text.digitsValue 0 ['0'] = 0 := rfl
      dsimp only
      rw [zero, Text.ofNat, Nat.toDigits_of_lt_base (by decide)]
      rfl
  | cons first others =>
      rw [trimmed] at all
      obtain ⟨digit, rest⟩ := List.forall_mem_cons.mp all
      obtain ⟨small, char⟩ := Text.digitChar_of_isDigit digit
      -- The first digit is not a zero, so the digits behind it add to a positive number.
      have nonzero : first ≠ '0' := by
        have head := List.head?_dropWhile_not (· == '0') (Text.digits text)
        rw [trimmed] at head
        simpa using head
      have positive : 0 < first.toNat - '0'.toNat := by
        rw [Nat.pos_iff_ne_zero]
        intro zero
        rw [zero] at char
        exact nonzero char.symm
      dsimp only
      rw [Text.digitsValue_cons, Nat.zero_mul, Nat.zero_add, Text.ofNat_digitsValue positive rest,
        Text.ofNat, Nat.toDigits_of_lt_base small, char, List.singleton_append]

end Code

end ShellLift
