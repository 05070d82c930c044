import ShellLift.Proofs.Numeral
import ShellLift.Session.Value

/-!
# Two readers of integers

A numeral is read twice: as text, when it becomes an integer literal, and as a number of 64 bits,
when it becomes the value of a variable. Both take it for the same number, which has no bound in the
first case; the second refuses a number that does not fit and never changes one.
-/

set_option autoImplicit false

namespace ShellLift

/-! ## Groups of digits -/

namespace Text

def IsGroup (group : Text) : Prop := group ≠ [] ∧ ∀ c ∈ group, c.isDigit = true

structure Grouped (text : Text) (groups : List Text) : Prop where
  nonempty : groups ≠ []
  digits : ∀ group ∈ groups, IsGroup group
  joined : text = List.intercalate ['_'] groups

/-- The number whose decimal digits, most significant first, are those of the groups. -/
def groupsValue (groups : List Text) : Nat :=
  Nat.ofDigits 10 (groups.flatten.reverse.map fun c => c.toNat - '0'.toNat)

theorem isGroup_cons {c : Char} {rest : Text} :
    IsGroup (c :: rest) ↔ c.isDigit = true ∧ ∀ x ∈ rest, x.isDigit = true := by
  simp [IsGroup]

theorem intercalate_cons (separator : Char) (first : Text) (others : List Text) :
    List.intercalate [separator] (first :: others) =
      first ++ others.flatMap (separator :: ·) := by
  induction others generalizing first with
  | nil => simp
  | cons second others ih =>
      rw [List.intercalate_cons_cons, ih, List.flatMap_cons]
      simp

theorem isDigitTail_append {front rest : Text} (all : ∀ c ∈ front, c.isDigit = true)
    (tail : isDigitTail rest = true) : isDigitTail (front ++ rest) = true := by
  induction front with
  | nil => exact tail
  | cons c front ih =>
      obtain ⟨digit, others⟩ := List.forall_mem_cons.mp all
      have other : c ≠ '_' := by
        rintro rfl
        cases digit
      rw [List.cons_append, isDigitTail, digit, ih others, Bool.and_self]
      exact fun _ _ same _ => other same

theorem isDigitTail_flatMap {groups : List Text} (all : ∀ group ∈ groups, IsGroup group) :
    isDigitTail (groups.flatMap ('_' :: ·)) = true := by
  induction groups with
  | nil => rfl
  | cons group groups ih =>
      obtain ⟨first, others⟩ := List.forall_mem_cons.mp all
      obtain ⟨c, rest, rfl⟩ := List.exists_cons_of_ne_nil first.1
      obtain ⟨digit, digits⟩ := isGroup_cons.mp first
      rw [List.flatMap_cons, List.cons_append, List.cons_append, isDigitTail, digit,
        isDigitTail_append digits (ih others), Bool.and_self]

/-- Behind the first digit of a numeral are more digits of its group, and then the other groups. -/
theorem exists_groups_of_isDigitTail {text : Text} (tail : isDigitTail text = true) :
    ∃ (first : Text) (others : List Text), text = first ++ others.flatMap ('_' :: ·) ∧
      (∀ c ∈ first, c.isDigit = true) ∧ ∀ group ∈ others, IsGroup group := by
  fun_induction isDigitTail text with
  | case1 => exact ⟨[], [], rfl, by simp, by simp⟩
  | case2 c rest ih =>
      obtain ⟨digit, tail⟩ := Bool.and_eq_true_iff.mp tail
      obtain ⟨first, others, rfl, all, groups⟩ := ih tail
      have group : IsGroup (c :: first) := isGroup_cons.mpr ⟨digit, all⟩
      exact ⟨[], (c :: first) :: others, by simp, by simp, List.forall_mem_cons.mpr ⟨group, groups⟩⟩
  | case3 c rest _ ih =>
      obtain ⟨digit, tail⟩ := Bool.and_eq_true_iff.mp tail
      obtain ⟨first, others, rfl, all, groups⟩ := ih tail
      exact ⟨c :: first, others, by simp, List.forall_mem_cons.mpr ⟨digit, all⟩, groups⟩

theorem isNumeral_iff_grouped (text : Text) :
    isNumeral text = true ↔ ∃ groups, Grouped text groups := by
  constructor
  · intro numeral
    cases text with
    | nil => cases numeral
    | cons c rest =>
        obtain ⟨digit, tail⟩ := Bool.and_eq_true_iff.mp numeral
        obtain ⟨first, others, rfl, all, groups⟩ := exists_groups_of_isDigitTail tail
        have group : IsGroup (c :: first) := isGroup_cons.mpr ⟨digit, all⟩
        refine ⟨(c :: first) :: others, List.cons_ne_nil _ _,
          List.forall_mem_cons.mpr ⟨group, groups⟩, ?_⟩
        rw [intercalate_cons, List.cons_append]
  · rintro ⟨groups, nonempty, digits, rfl⟩
    obtain ⟨first, others, rfl⟩ := List.exists_cons_of_ne_nil nonempty
    obtain ⟨group, rest⟩ := List.forall_mem_cons.mp digits
    obtain ⟨c, first, rfl⟩ := List.exists_cons_of_ne_nil group.1
    obtain ⟨digit, all⟩ := isGroup_cons.mp group
    rw [intercalate_cons, List.cons_append, isNumeral, digit,
      isDigitTail_append all (isDigitTail_flatMap rest), Bool.and_self]

/-! ## The number of a numeral -/

theorem digits_append (left right : Text) : digits (left ++ right) = digits left ++ digits right :=
  List.filter_append ..

theorem digits_flatMap {groups : List Text} (all : ∀ group ∈ groups, IsGroup group) :
    digits (groups.flatMap ('_' :: ·)) = groups.flatten := by
  induction groups with
  | nil => rfl
  | cons group groups ih =>
      obtain ⟨first, others⟩ := List.forall_mem_cons.mp all
      have marked : digits ('_' :: group) = digits group := rfl
      rw [List.flatMap_cons, digits_append, marked, digits_eq_self first.2, ih others,
        List.flatten_cons]

/-- Without its underscores a numeral is its groups. -/
theorem Grouped.digits_eq {text : Text} {groups : List Text} (grouped : Grouped text groups) :
    Text.digits text = groups.flatten := by
  obtain ⟨nonempty, all, rfl⟩ := grouped
  obtain ⟨first, others, rfl⟩ := List.exists_cons_of_ne_nil nonempty
  obtain ⟨group, rest⟩ := List.forall_mem_cons.mp all
  rw [intercalate_cons, digits_append, digits_eq_self group.2, digits_flatMap rest,
    List.flatten_cons]

theorem digitsValue_eq_ofDigits (value : Nat) (text : Text) :
    digitsValue value text =
      value * 10 ^ text.length +
        Nat.ofDigits 10 (text.reverse.map fun c => c.toNat - '0'.toNat) := by
  induction text generalizing value with
  | nil => simp [digitsValue_nil]
  | cons c rest ih =>
      rw [digitsValue_cons, ih, List.reverse_cons, List.map_append, Nat.ofDigits_append,
        List.length_map, List.length_reverse, List.length_cons, List.map_singleton,
        Nat.ofDigits_singleton]
      ring

theorem Grouped.numeralValue_eq {text : Text} {groups : List Text} (grouped : Grouped text groups) :
    numeralValue text = groupsValue groups := by
  rw [numeralValue, grouped.digits_eq, digitsValue_eq_ofDigits, Nat.zero_mul, Nat.zero_add]
  rfl

/-! ## Signs -/

/-- The signs that may stand in front of a numeral, none among them, with their factors. -/
def signs : List (Text × Int) := [([], 1), (['+'], 1), (['-'], -1)]

theorem readInt?_signed {text : Text} (numeral : isNumeral text = true) :
    ∀ sign ∈ signs, readInt? (sign.1 ++ text) = some (sign.2 * numeralValue text) := by
  rw [signs, List.forall_mem_cons, List.forall_mem_cons, List.forall_mem_singleton]
  refine ⟨?_, ?_, ?_⟩
  · rw [List.nil_append, readInt?_of_isNumeral numeral, one_mul]
  · rw [List.singleton_append, readInt?, if_pos numeral, one_mul]
  · rw [List.singleton_append, readInt?, if_pos numeral, neg_one_mul]

theorem exists_sign_of_readInt? {text : Text} {n : Int} (read : readInt? text = some n) :
    ∃ sign ∈ signs, ∃ numeral, isNumeral numeral = true ∧ text = sign.1 ++ numeral := by
  unfold readInt? at read
  split at read <;> split at read <;> cases read
  · rename_i numeral isNumeral
    exact ⟨(['-'], -1), by simp [signs], numeral, isNumeral, rfl⟩
  · rename_i numeral isNumeral
    exact ⟨(['+'], 1), by simp [signs], numeral, isNumeral, rfl⟩
  · rename_i isNumeral
    exact ⟨([], 1), by simp [signs], text, isNumeral, rfl⟩

end Text

/-! ## Numbers of 64 bits -/

namespace Value

theorem toInt_of_number? {n : Int} {number : Int64} (found : number? n = some number) :
    number.toInt = n := by
  rw [number?, Int64.toInt_minValue, Int64.toInt_maxValue] at found
  split at found
  · cases found
    exact Int64.toInt_ofInt_of_le (by omega) (by omega)
  · cases found

theorem number?_of_mem {n : Int} (inside : -2 ^ 63 ≤ n ∧ n ≤ 2 ^ 63 - 1) :
    ∃ number, number? n = some number := by
  refine ⟨Int64.ofInt n, if_pos ?_⟩
  rw [Int64.toInt_minValue, Int64.toInt_maxValue]
  omega

theorem number?_of_not_mem {n : Int} (outside : ¬ (-2 ^ 63 ≤ n ∧ n ≤ 2 ^ 63 - 1)) :
    number? n = none := by
  refine if_neg ?_
  rw [Int64.toInt_minValue, Int64.toInt_maxValue]
  omega

/-- What a numeral with a sign is read as: its value if that is a number of 64 bits. -/
theorem read?_signed {text : Text} {groups : List Text} (grouped : text.Grouped groups)
    {sign : Text × Int} (isSign : sign ∈ Text.signs) :
    Kind.number.read? (sign.1 ++ text) =
      (number? (sign.2 * Text.groupsValue groups)).map .number := by
  have numeral := (Text.isNumeral_iff_grouped text).mpr ⟨groups, grouped⟩
  rw [Kind.read?, Text.readInt?_signed numeral sign isSign, Option.bind_some,
    grouped.numeralValue_eq]

theorem read?_of_not_signed {text : Text}
    (other : ∀ sign ∈ Text.signs, ∀ numeral groups, Text.Grouped numeral groups →
      text ≠ sign.1 ++ numeral) :
    Kind.number.read? text = none := by
  cases read : Text.readInt? text with
  | none =>
      rw [Kind.read?, read]
      rfl
  | some n =>
      obtain ⟨sign, isSign, numeral, isNumeral, shape⟩ := Text.exists_sign_of_readInt? read
      obtain ⟨groups, grouped⟩ := (Text.isNumeral_iff_grouped numeral).mp isNumeral
      exact absurd shape (other sign isSign numeral groups grouped)

/-- A numeral that is read as a number has its integer literal as the flat text of the number. -/
theorem flat_of_read? {text : Text} (numeral : Text.isNumeral text = true) {value : Value}
    (read : Kind.number.read? text = some value) : value.flat = Code.integerLiteral text := by
  rw [Kind.read?, Text.readInt?_of_isNumeral numeral, Option.bind_some] at read
  obtain ⟨number, found, rfl⟩ := Option.map_eq_some_iff.mp read
  show Text.ofInt number.toInt = _
  rw [Code.integerLiteral_eq numeral, toInt_of_number? found, Text.ofInt, if_neg (by omega),
    Int.natAbs_natCast]

end Value

namespace Code

theorem integerLiteral_ofNat (n : Nat) : integerLiteral (Text.ofNat n) = Text.ofNat n := by
  rw [integerLiteral_eq (Text.isNumeral_ofNat n), Text.numeralValue_ofNat]

/-- Only zero is written with a zero in front. -/
theorem integerLiteral_leadingZero {text : Text}
    (zero : (integerLiteral text).head? = some '0') : integerLiteral text = ['0'] := by
  unfold integerLiteral at zero ⊢
  have first := List.head?_dropWhile_not (· == '0') (Text.digits text)
  cases trimmed : (Text.digits text).dropWhile (· == '0') with
  | nil => rfl
  | cons digit others =>
      rw [trimmed] at first zero
      obtain rfl : digit = '0' := Option.some.inj zero
      simp at first

end Code

/-- The numerals are the groups of digits with single underscores between them. The integer literal
of a numeral is the decimal numeral of its value, whatever its size, and is its own integer literal.
With any sign a numeral is read as a number exactly if its value is one of 64 bits, and then as that
value, whose flat text without a sign is the integer literal. No other text is read as a number. -/
theorem integer_readers_agree :
    (∀ text, Text.isNumeral text = true ↔ ∃ groups, Text.Grouped text groups) ∧
      (∀ text groups, Text.Grouped text groups →
        Code.integerLiteral text = Nat.toDigits 10 (Text.groupsValue groups) ∧
        ((Code.integerLiteral text).head? = some '0' → Code.integerLiteral text = ['0']) ∧
        Text.isNumeral (Code.integerLiteral text) = true ∧
        Code.integerLiteral (Code.integerLiteral text) = Code.integerLiteral text ∧
        (∀ sign ∈ Text.signs,
          if -2 ^ 63 ≤ sign.2 * Text.groupsValue groups ∧
              sign.2 * Text.groupsValue groups ≤ 2 ^ 63 - 1 then
            ∃ number : Int64, number.toInt = sign.2 * Text.groupsValue groups ∧
              Value.Kind.number.read? (sign.1 ++ text) = some (.number number)
          else Value.Kind.number.read? (sign.1 ++ text) = none) ∧
        ∀ value, Value.Kind.number.read? text = some value →
          value.flat = Code.integerLiteral text) ∧
      ∀ text, (∀ sign ∈ Text.signs, ∀ numeral groups, Text.Grouped numeral groups →
        text ≠ sign.1 ++ numeral) → Value.Kind.number.read? text = none := by
  refine ⟨Text.isNumeral_iff_grouped, ?_, fun _ => Value.read?_of_not_signed⟩
  intro text groups grouped
  have numeral := (Text.isNumeral_iff_grouped text).mpr ⟨groups, grouped⟩
  have written : Code.integerLiteral text = Text.ofNat (Text.groupsValue groups) := by
    rw [Code.integerLiteral_eq numeral, grouped.numeralValue_eq]
  refine ⟨written, Code.integerLiteral_leadingZero, ?_, ?_, ?_, fun _ =>
    Value.flat_of_read? numeral⟩
  · rw [written]
    exact Text.isNumeral_ofNat _
  · rw [written]
    exact Code.integerLiteral_ofNat _
  · intro sign isSign
    rw [Value.read?_signed grouped isSign]
    split
    · rename_i inside
      obtain ⟨number, found⟩ := Value.number?_of_mem inside
      exact ⟨number, Value.toInt_of_number? found, by rw [found, Option.map_some]⟩
    · rename_i outside
      rw [Value.number?_of_not_mem outside, Option.map_none]

/-- The least number of 64 bits, behind a zero and with an underscore. Without the sign it is one
more than the greatest. -/
theorem integer_readers_agree_least :
    Text.Grouped "09_223372036854775808".toList ["09".toList, "223372036854775808".toList] ∧
      Code.integerLiteral "09_223372036854775808".toList =
        Nat.toDigits 10 (Text.groupsValue ["09".toList, "223372036854775808".toList]) ∧
      Value.Kind.number.read? "-09_223372036854775808".toList = some (.number Int64.minValue) ∧
      Value.Kind.number.read? "09_223372036854775808".toList = none ∧
      Value.Kind.number.read? "0x9".toList = none := by
  have grouped : Text.Grouped "09_223372036854775808".toList
      ["09".toList, "223372036854775808".toList] := by
    refine ⟨by decide, ?_, by decide⟩
    rw [List.forall_mem_cons, List.forall_mem_singleton]
    exact ⟨⟨by decide, List.all_eq_true.mp (by decide)⟩, by decide, List.all_eq_true.mp (by decide)⟩
  have value : Text.groupsValue ["09".toList, "223372036854775808".toList] = 2 ^ 63 := by
    rfl
  obtain ⟨characterized, numerals, refused⟩ := integer_readers_agree
  obtain ⟨written, -, -, -, signed, -⟩ := numerals _ _ grouped
  refine ⟨grouped, written, ?_, ?_, ?_⟩
  · have negative := signed (['-'], -1) (by simp [Text.signs])
    rw [value, if_pos (by norm_num)] at negative
    obtain ⟨number, same, read⟩ := negative
    have least : number = Int64.minValue := Int64.toInt_inj.mp (same.trans (by decide))
    rw [← least]
    exact read
  · have plain := signed ([], 1) (by simp [Text.signs])
    rw [value, if_neg (by norm_num)] at plain
    exact plain
  · have letters : "0x9".toList = ['0', 'x', '9'] := by decide
    rw [letters]
    apply refused
    rintro sign isSign numeral groups isGrouped same
    have isNumeral := (characterized numeral).mpr ⟨groups, isGrouped⟩
    simp only [Text.signs, List.mem_cons, List.not_mem_nil, or_false] at isSign
    rcases isSign with rfl | rfl | rfl <;> cases same
    cases isNumeral

end ShellLift
