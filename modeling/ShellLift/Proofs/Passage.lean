import ShellLift.Proofs.Pieces
import ShellLift.Proofs.Steps

/-!
# The text that a cursor passes

`Passes c text d` says that a cursor gets from `c` to `d` by going over `text`, where the end of a
line counts as one line feed and the end of the last line as nothing. Every move of a cursor is
such a passage, so what holds of passages holds of all moves: nothing is read twice or left out,
the cursor stays in its script, and less of the script is ahead.
-/

set_option autoImplicit false

namespace ShellLift

open Step

namespace Cursor

/-- All that is ahead as one text, with a line feed between two lines. -/
def text (c : Cursor) : Text := List.intercalate ['\n'] c.ahead

inductive Passes : Cursor → Text → Cursor → Prop
  | stay (c : Cursor) : Passes c [] c
  | char {row : Nat} {before line t : Text} {x : Char} {later : List Text} {d : Cursor} :
      Passes ⟨row, before ++ [x], line :: later⟩ t d →
      Passes ⟨row, before, (x :: line) :: later⟩ (x :: t) d
  | line {row : Nat} {before next t : Text} {later : List Text} {d : Cursor} :
      Passes ⟨row + 1, [], next :: later⟩ t d →
      Passes ⟨row, before, [] :: next :: later⟩ ('\n' :: t) d
  | last {row : Nat} {before : Text} : Passes ⟨row, before, [[]]⟩ [] ⟨row + 1, [], []⟩

/-- One position is reached from another. -/
def Follows (c d : Cursor) : Prop := ∃ t, Passes c t d

theorem Passes.trans {c d e : Cursor} {t u : Text} (first : Passes c t d) (second : Passes d u e) :
    Passes c (t ++ u) e := by
  induction first with
  | stay c => exact second
  | char _ ih => exact .char (ih second)
  | line _ ih => exact .line (ih second)
  | last =>
      cases second with
      | stay => exact .last

theorem Follows.refl (c : Cursor) : Follows c c := ⟨[], .stay c⟩

theorem Follows.trans {c d e : Cursor} (first : Follows c d) (second : Follows d e) :
    Follows c e := by
  obtain ⟨t, first⟩ := first
  obtain ⟨u, second⟩ := second
  exact ⟨t ++ u, first.trans second⟩

/-! ## What a passage keeps -/

theorem Passes.text_eq {c d : Cursor} {t : Text} (passes : Passes c t d) :
    c.text = t ++ d.text := by
  induction passes with
  | stay c => rfl
  | @char row before line t x later d _ ih =>
      rw [List.cons_append, ← ih]
      exact List.intercalate_cons_cons_left
  | @line row before next t later d _ ih =>
      rw [List.cons_append, ← ih]
      exact List.intercalate_cons_cons
  | last => rfl

theorem Passes.size_le {c d : Cursor} {t : Text} (passes : Passes c t d) :
    d.size + t.length ≤ c.size := by
  induction passes with
  | stay c => simp
  | char _ ih => simp only [size, linesSize, List.length_cons] at ih ⊢; omega
  | line _ ih => simp only [size, linesSize, List.length_cons] at ih ⊢; omega
  | last => simp [size, linesSize]

theorem Follows.size_le {c d : Cursor} (follows : Follows c d) : d.size ≤ c.size := by
  obtain ⟨t, passes⟩ := follows
  have := passes.size_le
  omega

def Within (lines : List Text) (c : Cursor) : Prop :=
  match c.ahead with
  | [] => c.before = [] ∧ c.row = lines.length
  | rest :: later => lines.drop c.row = (c.before ++ rest) :: later

theorem within_ofLines (lines : List Text) : Within lines (ofLines lines) := by
  cases lines with
  | nil => exact ⟨rfl, rfl⟩
  | cons line later => rfl

theorem Passes.within {lines : List Text} {c d : Cursor} {t : Text} (passes : Passes c t d)
    (within : Within lines c) : Within lines d := by
  induction passes with
  | stay c => exact within
  | char _ ih =>
      apply ih
      simpa [Within] using within
  | @line row before next t later d _ ih =>
      apply ih
      have dropped : lines.drop row = (before ++ []) :: next :: later := within
      show lines.drop (row + 1) = next :: later
      rw [← List.tail_drop, dropped, List.tail_cons]
  | @last row before =>
      have dropped : lines.drop row = [before ++ []] := within
      have count := congrArg List.length dropped
      rw [List.length_drop, List.length_singleton] at count
      refine ⟨rfl, ?_⟩
      show row + 1 = lines.length
      omega

theorem Follows.within {lines : List Text} {c d : Cursor} (follows : Follows c d)
    (within : Within lines c) : Within lines d :=
  follows.choose_spec.within within

def Clean (c : Cursor) : Prop := ∀ line ∈ c.ahead, '\n' ∉ line

theorem Passes.clean {c d : Cursor} {t : Text} (passes : Passes c t d) (clean : c.Clean) :
    d.Clean := by
  induction passes with
  | stay c => exact clean
  | @char row before line t x later d _ ih =>
      apply ih
      intro other member
      rcases List.mem_cons.mp member with rfl | member
      · have whole := clean (x :: other) (List.mem_cons_self ..)
        exact fun inside => whole (List.mem_cons_of_mem _ inside)
      · exact clean other (List.mem_cons_of_mem _ member)
  | line _ ih => exact ih fun other member => clean other (List.mem_cons_of_mem _ member)
  | last => intro line member; cases member

theorem Follows.clean {c d : Cursor} (follows : Follows c d) (clean : c.Clean) : d.Clean :=
  follows.choose_spec.clean clean

theorem clean_ofSource (source : Text) : (ofSource source).Clean :=
  fun line member => Text.not_mem_lines source line member

/-! ## The moves are passages -/

theorem atEnd_iff (c : Cursor) : c.atEnd = true ↔ c.ahead = [] := List.isEmpty_iff

theorem startsWith_eq (c : Cursor) (piece : Text) :
    c.startsWith piece = c.rest?.any fun rest => piece.isPrefixOf rest := by
  unfold startsWith rest?
  cases c.ahead <;> rfl

theorem passes_append (row : Nat) (before t rest : Text) (later : List Text) :
    Passes ⟨row, before, (t ++ rest) :: later⟩ t ⟨row, before ++ t, rest :: later⟩ := by
  induction t generalizing before with
  | nil =>
      rw [List.append_nil]
      exact .stay _
  | cons x t ih =>
      have tail := ih (before ++ [x])
      rw [List.append_assoc] at tail
      exact .char tail

theorem passes_move (c : Cursor) (count : Nat) :
    Passes c ((c.rest?.getD []).take count) (c.move count) := by
  obtain ⟨row, before, ahead⟩ := c
  cases ahead with
  | nil => simpa [rest?, move] using Passes.stay _
  | cons rest later =>
      have passes := passes_append row before (rest.take count) (rest.drop count) later
      rwa [List.take_append_drop] at passes

theorem passes_skipWhile (c : Cursor) (test : Char → Bool) :
    Passes c ((c.run? test).getD []) (c.skipWhile test) := by
  obtain ⟨row, before, ahead⟩ := c
  cases ahead with
  | nil => exact .stay _
  | cons rest later =>
      have passes := passes_append row before (rest.takeWhile test) (rest.dropWhile test) later
      rwa [List.takeWhile_append_dropWhile] at passes

theorem follows_move (c : Cursor) (count : Nat) : Follows c (c.move count) :=
  ⟨_, passes_move c count⟩

theorem follows_skipWhile (c : Cursor) (test : Char → Bool) : Follows c (c.skipWhile test) :=
  ⟨_, passes_skipWhile c test⟩

theorem follows_skipSpaces (c : Cursor) : Follows c c.skipSpaces := follows_skipWhile c _

theorem follows_skipWord (c : Cursor) : Follows c c.skipWord := follows_skipWhile c _

theorem follows_skipComment (c : Cursor) : Follows c c.skipComment := by
  unfold skipComment
  split
  · exact follows_skipWhile c _
  · exact .refl c

/-- The end of a line leads to the start of the next one, or to the end of the script. -/
theorem follows_lineEnd (row : Nat) (before : Text) (later : List Text) :
    Follows ⟨row, before, [] :: later⟩ ⟨row + 1, [], later⟩ := by
  cases later with
  | nil => exact ⟨_, .last⟩
  | cons next later => exact ⟨_, .line (.stay _)⟩

theorem follows_nextRow (row : Nat) (before line : Text) (later : List Text) :
    Follows ⟨row, before, line :: later⟩ ⟨row + 1, [], later⟩ := by
  have across := passes_append row before line [] later
  rw [List.append_nil] at across
  exact .trans ⟨_, across⟩ (follows_lineEnd row _ later)

theorem follows_finish (c : Cursor) (inScript : c.ahead = [] → c.before = []) :
    Follows c c.finish := by
  obtain ⟨row, before, ahead⟩ := c
  induction ahead generalizing row before with
  | nil =>
      obtain rfl : before = [] := inScript rfl
      exact .refl _
  | cons line later ih =>
      have rest := ih (row + 1) [] fun _ => rfl
      have same : row + 1 + later.length = row + (later.length + 1) := by omega
      simp only [finish, same] at rest
      exact (follows_nextRow row before line later).trans rest

theorem follows_skipIdle (c : Cursor) : Follows c c.skipIdle := by
  obtain ⟨row, before, ahead⟩ := c
  unfold skipIdle
  induction ahead generalizing row before with
  | nil => exact .refl _
  | cons rest later ih =>
      simp only [skipIdleFrom] at ih ⊢
      split
      · exact (follows_nextRow row before rest later).trans (ih (row + 1) [])
      · exact follows_skipWhile ⟨row, before, rest :: later⟩ Text.isSpace

/-! ## Idle lines -/

theorem skipIdleFrom_atEnd_or (row : Nat) (before : Text) (lines : List Text) :
    (skipIdleFrom row before lines).ahead = [] ∨
      ∃ x, (skipIdleFrom row before lines).next? = some x ∧ Text.isSpace x = false ∧ x ≠ '#' := by
  induction lines generalizing row before with
  | nil => exact .inl rfl
  | cons line later ih =>
      rw [skipIdleFrom]
      split
      · exact ih (row + 1) []
      · rename_i busy
        right
        unfold isIdle at busy
        cases rest : line.dropWhile Text.isSpace with
        | nil => simp [rest] at busy
        | cons x rest' =>
            refine ⟨x, rfl, ?_, by simpa [rest] using busy⟩
            have first := List.head?_dropWhile_not Text.isSpace line
            rw [rest] at first
            simpa using first

/-- Past idle lines the script is at its end, or goes on with neither a blank nor a comment. -/
theorem skipIdle_atEnd_or (c : Cursor) :
    c.skipIdle.ahead = [] ∨
      ∃ x, c.skipIdle.next? = some x ∧ Text.isSpace x = false ∧ x ≠ '#' :=
  skipIdleFrom_atEnd_or ..

theorem skipIdle_of_next {c : Cursor} {x : Char} (next : c.next? = some x)
    (solid : Text.isSpace x = false) (code : x ≠ '#') : c.skipIdle = c := by
  obtain ⟨row, before, _ | ⟨_ | ⟨y, line⟩, later⟩⟩ := c
  · simp [next?, rest?] at next
  · simp [next?, rest?] at next
  · obtain rfl : y = x := by simpa [next?, rest?] using next
    simp [skipIdle, skipIdleFrom, isIdle, solid, code]

theorem skipIdle_skipIdle (c : Cursor) : c.skipIdle.skipIdle = c.skipIdle := by
  rcases c.skipIdle_atEnd_or with atEnd | ⟨x, next, solid, code⟩
  · generalize c.skipIdle = d at atEnd
    obtain ⟨row, before, ahead⟩ := d
    obtain rfl : ahead = [] := atEnd
    rfl
  · exact skipIdle_of_next next solid code

end Cursor

end ShellLift
