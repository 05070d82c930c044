import Mathlib
import ShellLift.Text.Basic

/-!
# Pieces of a text

What a cut of a text gives: lines and pieces have no separator in them, the pieces with the
separator between them are the text again, and so are the parts around the first occurrence of
another text with that text between them.
-/

set_option autoImplicit false

namespace ShellLift.Text

theorem not_mem_consFirst {separator x : Char} {texts : List Text} {text : Text}
    (other : x ≠ separator) (free : ∀ text ∈ texts, separator ∉ text)
    (member : text ∈ consFirst x texts) : separator ∉ text := by
  cases texts with
  | nil =>
      obtain rfl := List.mem_singleton.mp member
      simpa using Ne.symm other
  | cons first later =>
      rcases List.mem_cons.mp member with rfl | member
      · have others := free first (List.mem_cons_self ..)
        simpa [others] using Ne.symm other
      · exact free text (List.mem_cons_of_mem _ member)

theorem not_mem_lines (source line : Text) (member : line ∈ lines source) : '\n' ∉ line := by
  fun_induction lines source generalizing line with
  | case1 => cases member
  | case2 rest ih =>
      rcases List.mem_cons.mp member with rfl | member
      · exact List.not_mem_nil
      · exact ih line member
  | case3 rest ih =>
      rcases List.mem_cons.mp member with rfl | member
      · exact List.not_mem_nil
      · exact ih line member
  | case4 x rest noFeed _ ih => exact not_mem_consFirst noFeed ih member

theorem pieces_ne_nil (separator : Char) (text : Text) : pieces separator text ≠ [] := by
  cases text with
  | nil => exact List.cons_ne_nil _ _
  | cons x rest =>
      rw [pieces]
      split
      · exact List.cons_ne_nil _ _
      · cases pieces separator rest <;> exact List.cons_ne_nil _ _

theorem not_mem_pieces (separator : Char) (text piece : Text)
    (member : piece ∈ pieces separator text) : separator ∉ piece := by
  induction text generalizing piece with
  | nil =>
      obtain rfl := List.mem_singleton.mp member
      exact List.not_mem_nil
  | cons x rest ih =>
      rw [pieces] at member
      split at member
      · rcases List.mem_cons.mp member with rfl | member
        · exact List.not_mem_nil
        · exact ih piece member
      · rename_i other
        exact not_mem_consFirst other ih member

theorem intercalate_pieces (separator : Char) (text : Text) :
    List.intercalate [separator] (pieces separator text) = text := by
  induction text with
  | nil => rfl
  | cons x rest ih =>
      obtain ⟨first, others, shape⟩ := List.exists_cons_of_ne_nil (pieces_ne_nil separator rest)
      rw [shape] at ih
      rw [pieces, shape]
      split
      · rename_i same
        rw [List.intercalate_cons_cons, ih, same]
        rfl
      · rw [consFirst, List.intercalate_cons_cons_left, ih]

theorem consFirst_of_ne_nil (x : Char) {texts : List Text} (nonempty : texts ≠ []) :
    consFirst x texts = texts.modifyHead (x :: ·) := by
  cases texts with
  | nil => exact absurd rfl nonempty
  | cons first others => rfl

theorem pieces_eq_splitOn (separator : Char) (text : Text) :
    pieces separator text = text.splitOn separator := by
  induction text with
  | nil => rfl
  | cons x rest ih =>
      rw [pieces, List.splitOn_cons_eq_if_modifyHead,
        consFirst_of_ne_nil x (pieces_ne_nil separator rest), ih]
      simp only [beq_iff_eq]

/-- Pieces without the separator in them are the pieces of the text that they make. -/
theorem pieces_intercalate {separator : Char} {texts : List Text} (nonempty : texts ≠ [])
    (free : ∀ text ∈ texts, separator ∉ text) :
    pieces separator (List.intercalate [separator] texts) = texts := by
  rw [pieces_eq_splitOn, List.splitOn_intercalate separator free nonempty]

theorem intercalate_append {separator : Char} {front back : List Text} (nonempty : front ≠ [])
    (nonempty' : back ≠ []) :
    List.intercalate [separator] (front ++ back) =
      List.intercalate [separator] front ++ separator :: List.intercalate [separator] back := by
  induction front with
  | nil => exact absurd rfl nonempty
  | cons first others ih =>
      cases others with
      | nil =>
          rw [List.singleton_append, List.intercalate_cons_of_ne_nil nonempty',
            List.intercalate_singleton, List.append_assoc, List.singleton_append]
      | cons second others =>
          have tail := ih (List.cons_ne_nil _ _)
          rw [List.cons_append, List.cons_append, List.intercalate_cons_cons,
            List.intercalate_cons_cons, ← List.cons_append, tail, ← List.append_assoc]

theorem eq_of_cut? {piece text front back : Text} (cut : cut? piece text = some (front, back)) :
    text = front ++ (piece ++ back) := by
  induction text generalizing front with
  | nil =>
      rw [cut?] at cut
      split at cut
      · rename_i empty
        cases cut
        rw [List.isEmpty_iff.mp empty]
        rfl
      · cases cut
  | cons x rest ih =>
      rw [cut?] at cut
      split at cut
      · rename_i starts
        obtain ⟨behind, whole⟩ := List.isPrefixOf_iff_prefix.mp starts
        rw [← whole, List.drop_left] at cut
        cases cut
        exact whole.symm
      · obtain ⟨⟨before, after⟩, found, same⟩ := Option.map_eq_some_iff.mp cut
        cases same
        rw [List.cons_append, ← ih found]

theorem cut?_self (text : Text) : cut? text text = some ([], []) := by
  cases text with
  | nil => rfl
  | cons x rest =>
      have starts : (x :: rest).isPrefixOf (x :: rest) = true :=
        List.isPrefixOf_iff_prefix.mpr (List.prefix_refl _)
      rw [cut?, if_pos starts, List.drop_length]

end ShellLift.Text
