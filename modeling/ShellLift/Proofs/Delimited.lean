import ShellLift.Proofs.Progress

/-!
# What a delimited span holds

The end of a span is decided by the span alone: whatever comes behind the closing token, the same
text is found inside. For parentheses the text inside is exactly a text in which they are balanced,
over as many lines as it takes.
-/

set_option autoImplicit false

namespace ShellLift

open Step Cursor

theorem isPrefixOf_append {piece left : Text} (short : piece.length ≤ left.length) (right : Text) :
    piece.isPrefixOf (left ++ right) = piece.isPrefixOf left := by
  induction piece generalizing left with
  | nil => simp
  | cons x piece ih =>
      cases left with
      | nil => simp at short
      | cons y left =>
          have shorter : piece.length ≤ left.length := by simpa using short
          simp only [List.cons_append, List.isPrefixOf_cons_cons, ih shorter]

/-! ## Tokens of a span -/

namespace BracketPair

/-- The search does not look behind the closing token that it finds. -/
theorem search_append (d : BracketPair) (closes : d.closing ≠ [])
    (opens : d.opening.length ≤ d.closing.length) (depth skip : Nat) (line inside rest : Text)
    (found : d.search depth skip line = .closed inside rest) (other : Text) :
    d.search depth skip (inside ++ d.closing ++ other) = .closed inside other := by
  induction line generalizing depth skip inside with
  | nil => simp [search] at found
  | cons x line ih =>
      have step : ∀ depth' skip', (d.search depth' skip' line).cons x = .closed inside rest →
          ∃ more, inside = x :: more ∧ x :: line = x :: (more ++ d.closing) ++ rest ∧
            (d.search depth' skip' (more ++ d.closing ++ other)).cons x =
              .closed inside other := by
        intro depth' skip' found
        cases run : d.search depth' skip' line with
        | pending depth => rw [run] at found; cases found
        | closed more left =>
            rw [run] at found
            cases found
            refine ⟨more, rfl, ?_, ?_⟩
            · rw [d.search_eq depth' skip' line more _ run, List.cons_append]
            · rw [ih depth' skip' more run]
              rfl
      -- Both tokens are compared with text that ends at the latest with the closing token.
      have window : ∀ (more token : Text), token.length ≤ d.closing.length → ∀ left : Text,
          token.isPrefixOf (x :: (more ++ d.closing) ++ left) =
            token.isPrefixOf (x :: (more ++ d.closing)) := by
        intro more token short left
        apply isPrefixOf_append
        simp only [List.length_cons, List.length_append]
        omega
      cases skip with
      | succ skip =>
          obtain ⟨more, rfl, -, same⟩ := step depth skip found
          exact same
      | zero =>
          rw [search] at found
          split at found
          · rename_i closing
            split at found
            · rename_i outer
              cases found
              obtain ⟨y, token, shape⟩ := List.exists_cons_of_ne_nil closes
              have again : d.closing.isPrefixOf (y :: (token ++ other)) = true := by
                rw [shape, ← List.cons_append]
                exact List.isPrefixOf_iff_prefix.mpr (List.prefix_append _ _)
              rw [List.nil_append, shape, List.cons_append, search, if_pos again, if_pos outer,
                shape, ← List.cons_append, List.drop_left]
            · rename_i deeper
              obtain ⟨more, rfl, shape, same⟩ := step _ _ found
              rw [shape, window more _ (Nat.le_refl _)] at closing
              have again := window more d.closing (Nat.le_refl _) other
              rw [closing] at again
              simp only [List.cons_append] at again ⊢
              rw [search, if_pos again, if_neg deeper]
              exact same
          · rename_i notClosing
            split at found
            · rename_i opening
              obtain ⟨more, rfl, shape, same⟩ := step _ _ found
              rw [shape, window more _ (Nat.le_refl _)] at notClosing
              rw [shape, window more _ opens] at opening
              have again := window more d.closing (Nat.le_refl _) other
              have again' := window more d.opening opens other
              rw [opening] at again'
              simp only [List.cons_append] at again again' ⊢
              rw [search, again, if_neg notClosing, if_pos again']
              exact same
            · rename_i notOpening
              obtain ⟨more, rfl, shape, same⟩ := step _ _ found
              rw [shape, window more _ (Nat.le_refl _)] at notClosing
              rw [shape, window more _ opens] at notOpening
              have again := window more d.closing (Nat.le_refl _) other
              have again' := window more d.opening opens other
              simp only [List.cons_append] at again again' ⊢
              rw [search, again, if_neg notClosing, again', if_neg notOpening]
              exact same

end BracketPair

namespace Quotation

theorem close?_eq (style : Quotation) (behind line inside rest : Text)
    (found : style.close? behind line = some (inside, rest)) :
    line = inside ++ style.mark :: rest := by
  induction line generalizing behind inside with
  | nil => simp [close?] at found
  | cons x line ih =>
      rw [close?] at found
      split at found
      · rename_i marks
        cases found
        rw [marks.1, List.nil_append]
      · obtain ⟨⟨more, left⟩, closed, same⟩ := Option.map_eq_some_iff.mp found
        cases same
        rw [ih (x :: behind) more closed, List.cons_append]

theorem close?_append (style : Quotation) (behind line inside rest : Text)
    (found : style.close? behind line = some (inside, rest)) (other : Text) :
    style.close? behind (inside ++ style.mark :: other) = some (inside, other) := by
  induction line generalizing behind inside with
  | nil => simp [close?] at found
  | cons x line ih =>
      rw [close?] at found
      split at found
      · rename_i marks
        cases found
        rw [List.nil_append, close?, if_pos ⟨rfl, marks.2⟩]
      · rename_i goesOn
        obtain ⟨⟨more, left⟩, closed, same⟩ := Option.map_eq_some_iff.mp found
        cases same
        rw [List.cons_append, close?, if_neg goesOn, ih (x :: behind) more closed]
        rfl

end Quotation

/-! ## Balanced parentheses -/

/-- Every closing parenthesis closes one that is open, of which some are open at the start, and at
the end none is open. -/
def balanced : Nat → Text → Bool
  | depth, [] => depth == 0
  | depth, x :: rest =>
    if x = ')' then
      match depth with
      | 0 => false
      | depth + 1 => balanced depth rest
    else if x = '(' then balanced (depth + 1) rest
    else balanced depth rest

namespace BracketPair

theorem parentheses_close?_lineEnd (depth row : Nat) (before : Text) (later : List Text) :
    parentheses.close? depth row before ([] :: later) =
      (parentheses.close? depth (row + 1) [] later).map fun (inside, stop) =>
        ('\n' :: inside, stop) := rfl

def nesting (depth : Nat) (x : Char) : Nat :=
  if x = ')' then depth - 1 else if x = '(' then depth + 1 else depth

theorem parentheses_search_char (depth : Nat) (line : Text) (x : Char) :
    parentheses.search depth 0 (x :: line) =
      if x = ')' ∧ depth ≤ 1 then .closed [] line
      else (parentheses.search (nesting depth x) 0 line).cons x := by
  rw [search]
  have closes : parentheses.closing.isPrefixOf (x :: line) = (x == ')') := by
    simp [parentheses, List.isPrefixOf, BEq.comm]
  have opens : parentheses.opening.isPrefixOf (x :: line) = (x == '(') := by
    simp [parentheses, List.isPrefixOf, BEq.comm]
  rw [closes, opens]
  unfold nesting
  by_cases closing : x = ')'
  · subst closing
    by_cases outer : depth ≤ 1
    · simp [outer, parentheses]
    · simp [outer, parentheses]
  · by_cases opening : x = '('
    · subst opening
      simp [parentheses]
    · simp [closing, opening]

theorem parentheses_close?_char (depth row : Nat) (before line : Text) (later : List Text)
    (x : Char) :
    parentheses.close? depth row before ((x :: line) :: later) =
      if x = ')' ∧ depth ≤ 1 then some ([], ⟨row, before ++ [x], line :: later⟩)
      else (parentheses.close? (nesting depth x) row (before ++ [x]) (line :: later)).map
        fun (inside, stop) => (x :: inside, stop) := by
  rw [close?, parentheses_search_char]
  by_cases closing : x = ')' ∧ depth ≤ 1
  · rw [if_pos closing, if_pos closing, closing.1]
    simp [parentheses]
  · rw [if_neg closing, if_neg closing, close?]
    cases parentheses.search (nesting depth x) 0 line with
    | closed inside rest => simp [Search.cons]
    | pending deeper =>
        simp only [Search.cons, parentheses, if_true]
        cases close? ⟨"(".toList, ")".toList, true, false⟩ deeper (row + 1) [] later <;> rfl

theorem balanced_cons (depth : Nat) (x : Char) (rest : Text) :
    balanced depth (x :: rest) = true ↔
      ¬ (x = ')' ∧ depth + 1 ≤ 1) ∧
        ∃ deeper, nesting (depth + 1) x = deeper + 1 ∧ balanced deeper rest = true := by
  unfold nesting
  by_cases closing : x = ')'
  · cases depth with
    | zero => simp [balanced, closing]
    | succ depth => simp [balanced, closing]
  · by_cases opening : x = '('
    · simp [balanced, opening]
    · simp [balanced, closing, opening]

/-- Inside the span the depth stays above zero. -/
theorem exists_nesting {depth : Nat} {x : Char} (inside : ¬ (x = ')' ∧ depth + 1 ≤ 1)) :
    ∃ deeper, nesting (depth + 1) x = deeper + 1 := by
  unfold nesting
  by_cases closing : x = ')'
  · have nested : ¬ depth + 1 ≤ 1 := fun outer => inside ⟨closing, outer⟩
    refine ⟨depth - 1, ?_⟩
    rw [if_pos closing]
    omega
  · rw [if_neg closing]
    split
    · exact ⟨depth + 1, rfl⟩
    · exact ⟨depth, rfl⟩

theorem balanced_of_close? (depth row : Nat) (before inside : Text) (lines : List Text)
    (stop : Cursor)
    (found : parentheses.close? (depth + 1) row before lines = some (inside, stop)) :
    balanced depth inside = true ∧ stop.ahead ≠ [] := by
  induction inside generalizing depth row before lines with
  | nil =>
      rcases lines with _ | ⟨_ | ⟨x, line⟩, later⟩
      · simp [close?] at found
      · rw [parentheses_close?_lineEnd] at found
        simp at found
      · rw [parentheses_close?_char] at found
        split at found
        · rename_i closing
          obtain rfl : depth = 0 := by omega
          cases found
          exact ⟨rfl, List.cons_ne_nil _ _⟩
        · simp at found
  | cons y inside ih =>
      rcases lines with _ | ⟨_ | ⟨x, line⟩, later⟩
      · simp [close?] at found
      · rw [parentheses_close?_lineEnd] at found
        obtain ⟨⟨more, last⟩, closed, same⟩ := Option.map_eq_some_iff.mp found
        cases same
        have rest := ih depth (row + 1) [] later closed
        refine ⟨(balanced_cons depth '\n' inside).mpr ⟨by simp, depth, rfl, rest.1⟩, rest.2⟩
      · rw [parentheses_close?_char] at found
        split at found
        · cases found
        · rename_i open_
          obtain ⟨⟨more, last⟩, closed, same⟩ := Option.map_eq_some_iff.mp found
          cases same
          obtain ⟨deeper, nested⟩ := exists_nesting open_
          rw [nested] at closed
          have rest := ih deeper row _ (line :: later) closed
          exact ⟨(balanced_cons depth y inside).mpr ⟨open_, deeper, nested, rest.1⟩, rest.2⟩

theorem close?_of_balanced (depth row : Nat) (before inside : Text) (lines : List Text)
    (stop : Cursor) (isBalanced : balanced depth inside = true)
    (passes : Passes ⟨row, before, lines⟩ (inside ++ [')']) stop) (live : stop.ahead ≠ []) :
    parentheses.close? (depth + 1) row before lines = some (inside, stop) := by
  induction inside generalizing depth row before lines with
  | nil =>
      obtain rfl : depth = 0 := by simpa [balanced] using isBalanced
      cases passes with
      | char rest =>
          rw [parentheses_close?_char, if_pos ⟨rfl, Nat.le_refl 1⟩]
          cases rest with
          | stay => rfl
          | last => exact absurd rfl live
  | cons y inside ih =>
      obtain ⟨open_, deeper, nested, rest⟩ := (balanced_cons depth y inside).mp isBalanced
      cases passes with
      | char tail =>
          rw [parentheses_close?_char, if_neg open_, nested, ih deeper _ _ _ rest tail]
          rfl
      | line tail =>
          obtain rfl : depth = deeper := by simpa [nesting] using nested
          rw [parentheses_close?_lineEnd, ih depth _ _ _ rest tail]
          rfl

/-- The text inside parentheses is the balanced text up to the parenthesis behind it. -/
theorem parentheses_close?_iff (depth row : Nat) (before inside : Text) (lines : List Text)
    (stop : Cursor) :
    parentheses.close? (depth + 1) row before lines = some (inside, stop) ↔
      balanced depth inside = true ∧ Passes ⟨row, before, lines⟩ (inside ++ [')']) stop ∧
        stop.ahead ≠ [] := by
  constructor
  · intro found
    obtain ⟨isBalanced, live⟩ := balanced_of_close? depth row before inside lines stop found
    exact ⟨isBalanced, parentheses.close?_passes _ row before lines inside stop found, live⟩
  · rintro ⟨isBalanced, passes, live⟩
    exact close?_of_balanced depth row before inside lines stop isBalanced passes live

end BracketPair

end ShellLift
