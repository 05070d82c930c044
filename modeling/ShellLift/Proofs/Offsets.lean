import ShellLift.Proofs.ConcreteSyntax

/-!
# Offsets in bytes

A location counts the bytes in front of a position on its line. Only those numbers of bytes that end
between two characters are offsets of the line, and only these have a text in front and behind. A
location of a script has such an offset on one of the lines, or is the start of the line that would
come next; every position of a cursor has such a location.
-/

set_option autoImplicit false

namespace ShellLift

namespace Text

/-- The offset stands between two characters of the text, or at one of its ends. -/
def IsOffset (text : Text) (offset : Nat) : Prop :=
  ∃ front back, text = front ++ back ∧ byteSize front = offset

/-- The text behind a number of bytes, unless these end inside a character or past the end. -/
def dropBytes? : Text → Nat → Option Text
  | text, 0 => some text
  | [], _ + 1 => none
  | x :: rest, bytes + 1 =>
    if x.utf8Size ≤ bytes + 1 then dropBytes? rest (bytes + 1 - x.utf8Size) else none

def takeBytes? : Text → Nat → Option Text
  | _, 0 => some []
  | [], _ + 1 => none
  | x :: rest, bytes + 1 =>
    if x.utf8Size ≤ bytes + 1 then (takeBytes? rest (bytes + 1 - x.utf8Size)).map (x :: ·) else none

def slice? (text : Text) (start stop : Nat) : Option Text :=
  if start ≤ stop then (dropBytes? text start).bind fun rest => takeBytes? rest (stop - start)
  else none

theorem byteSize_cons_pos (x : Char) (rest : Text) : 0 < byteSize (x :: rest) :=
  Nat.add_pos_left x.utf8Size_pos _

theorem dropBytes?_append (front back : Text) :
    dropBytes? (front ++ back) (byteSize front) = some back := by
  induction front with
  | nil => cases back <;> rfl
  | cons x front ih =>
      obtain ⟨bytes, size⟩ := Nat.exists_eq_succ_of_ne_zero (byteSize_cons_pos x front).ne'
      have sum : bytes + 1 = x.utf8Size + byteSize front := size.symm
      rw [size, List.cons_append, Nat.succ_eq_add_one, dropBytes?, if_pos (by omega)]
      have rest : bytes + 1 - x.utf8Size = byteSize front := by omega
      rw [rest, ih]

theorem takeBytes?_append (front back : Text) :
    takeBytes? (front ++ back) (byteSize front) = some front := by
  induction front with
  | nil => cases back <;> rfl
  | cons x front ih =>
      obtain ⟨bytes, size⟩ := Nat.exists_eq_succ_of_ne_zero (byteSize_cons_pos x front).ne'
      have sum : bytes + 1 = x.utf8Size + byteSize front := size.symm
      rw [size, List.cons_append, Nat.succ_eq_add_one, takeBytes?, if_pos (by omega)]
      have rest : bytes + 1 - x.utf8Size = byteSize front := by omega
      rw [rest, ih]
      rfl

theorem slice?_append (front middle back : Text) :
    slice? (front ++ (middle ++ back)) (byteSize front) (byteSize front + byteSize middle) =
      some middle := by
  rw [slice?, if_pos (Nat.le_add_right _ _), dropBytes?_append, Option.bind_some,
    Nat.add_sub_cancel_left, takeBytes?_append]

theorem eq_append_of_dropBytes? {text back : Text} {offset : Nat}
    (dropped : dropBytes? text offset = some back) :
    ∃ front, text = front ++ back ∧ byteSize front = offset := by
  fun_induction dropBytes? text offset with
  | case1 text =>
      cases dropped
      exact ⟨[], rfl, rfl⟩
  | case2 => cases dropped
  | case3 x rest bytes fits ih =>
      obtain ⟨front, rfl, size⟩ := ih dropped
      refine ⟨x :: front, rfl, ?_⟩
      rw [byteSize, size]
      omega
  | case4 => cases dropped

theorem isOffset_iff {text : Text} {offset : Nat} :
    text.IsOffset offset ↔ (dropBytes? text offset).isSome = true := by
  constructor
  · rintro ⟨front, back, rfl, rfl⟩
    rw [dropBytes?_append]
    rfl
  · intro some
    obtain ⟨back, dropped⟩ := Option.isSome_iff_exists.mp some
    obtain ⟨front, whole, size⟩ := eq_append_of_dropBytes? dropped
    exact ⟨front, back, whole, size⟩

instance (text : Text) (offset : Nat) : Decidable (text.IsOffset offset) :=
  decidable_of_iff _ isOffset_iff.symm

end Text

/-! ## Places -/

instance : Preorder Location where
  le_refl a := .inr ⟨rfl, Nat.le_refl _⟩
  le_trans a b c := by
    intro before behind
    rcases before with above | ⟨same, left⟩
    · rcases behind with above' | ⟨same', -⟩
      · exact .inl (Nat.lt_trans above above')
      · exact .inl (same' ▸ above)
    · rcases behind with above' | ⟨same', left'⟩
      · exact .inl (same ▸ above')
      · exact .inr ⟨same.trans same', Nat.le_trans left left'⟩

theorem Cursor.Passes.location_le {c d : Cursor} {t : Text} (passes : Passes c t d) :
    c.location ≤ d.location := by
  induction passes with
  | stay c => exact le_refl _
  | char _ ih =>
      refine le_trans ?_ ih
      refine .inr ⟨rfl, ?_⟩
      simp only [location, Text.byteSize_append]
      exact Nat.le_add_right _ _
  | line _ ih => exact le_trans (.inl (Nat.lt_succ_self _)) ih
  | last => exact .inl (Nat.lt_succ_self _)

theorem Cursor.Follows.location_le {c d : Cursor} (follows : Follows c d) :
    c.location ≤ d.location :=
  follows.choose_spec.location_le

def Location.InScript (lines : List Text) (location : Location) : Prop :=
  1 ≤ location.line ∧ location.line ≤ lines.length + 1 ∧
    match lines[location.line - 1]? with
    | some line => line.IsOffset location.offset
    | none => location.offset = 0

instance (lines : List Text) (location : Location) : Decidable (location.InScript lines) :=
  have : Decidable (match lines[location.line - 1]? with
      | some line => line.IsOffset location.offset
      | none => location.offset = 0) :=
    match lines[location.line - 1]? with
    | some line => inferInstanceAs (Decidable (line.IsOffset location.offset))
    | none => inferInstanceAs (Decidable (location.offset = 0))
  inferInstanceAs (Decidable (1 ≤ location.line ∧ location.line ≤ lines.length + 1 ∧ _))

namespace Cursor

/-- The line of a cursor, and how much of it is behind. -/
theorem Within.line_eq {lines : List Text} {c : Cursor} {rest : Text} {later : List Text}
    (within : Within lines c) (ahead : c.ahead = rest :: later) :
    lines[c.row]? = some (c.before ++ rest) ∧ lines.drop (c.row + 1) = later := by
  have dropped : lines.drop c.row = (c.before ++ rest) :: later := by
    rw [Within, ahead] at within
    exact within
  constructor
  · rw [← List.head?_drop, dropped, List.head?_cons]
  · rw [← List.tail_drop, dropped, List.tail_cons]

theorem Within.at_end {lines : List Text} {c : Cursor} (within : Within lines c)
    (ahead : c.ahead = []) : c.before = [] ∧ c.row = lines.length := by
  rw [Within, ahead] at within
  exact within

theorem Within.row_lt {lines : List Text} {c : Cursor} (within : Within lines c)
    (live : c.ahead ≠ []) : c.row < lines.length := by
  obtain ⟨rest, later, ahead⟩ := List.exists_cons_of_ne_nil live
  exact (List.getElem?_eq_some_iff.mp (within.line_eq ahead).1).1

theorem Within.inScript {lines : List Text} {c : Cursor} (within : Within lines c) :
    c.location.InScript lines := by
  refine ⟨Nat.succ_pos _, ?_, ?_⟩
  · by_cases live : c.ahead = []
    · exact Nat.le_of_eq (congrArg (· + 1) (within.at_end live).2)
    · exact Nat.le_succ_of_le (within.row_lt live)
  · show match lines[c.row]? with
      | some line => line.IsOffset c.before.byteSize
      | none => c.before.byteSize = 0
    cases ahead : c.ahead with
    | nil =>
        obtain ⟨before, row⟩ := within.at_end ahead
        rw [List.getElem?_eq_none (Nat.le_of_eq row.symm), before]
        rfl
    | cons rest later =>
        rw [(within.line_eq ahead).1]
        exact ⟨c.before, rest, rfl, rfl⟩

end Cursor

end ShellLift
