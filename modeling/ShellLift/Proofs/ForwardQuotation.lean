import ShellLift.Proofs.Addressed.Delimited

/-!
# Quotations from left to right

Whether a mark ends a quotation is decided by the run of backslashes before it, counted back from
the mark. A reader that only goes forward and skips the character behind a backslash finds the same
end: a mark is skipped exactly if the run before it has an odd length. Between two marks the text of
a quotation is read again as it is.
-/

set_option autoImplicit false

namespace ShellLift

open Step Cursor

namespace Quotation

/-- What stands before and behind the first mark that is not skipped. The character behind a
backslash is skipped, unless the backslash is skipped itself; `skips` says whether the first
character is. -/
def readForward? (style : Quotation) : (skips : Bool) → Text → Option (Text × Text)
  | _, [] => none
  | true, x :: rest =>
    (style.readForward? false rest).map fun (inside, after) => (x :: inside, after)
  | false, x :: rest =>
    if x = style.mark then some ([], rest)
    else (style.readForward? (x == '\\') rest).map fun (inside, after) => (x :: inside, after)

/-- One more character behind a run of backslashes ends the run or makes it one longer. -/
theorem isEscaped_cons (x : Char) (behind : Text) :
    isEscaped (x :: behind) = (x == '\\' && !isEscaped behind) := by
  unfold isEscaped
  rw [List.takeWhile_cons]
  cases x == '\\' with
  | false => rfl
  | true =>
      rw [if_pos rfl, Bool.true_and, List.length_cons]
      rcases Nat.mod_two_eq_zero_or_one (behind.takeWhile (· == '\\')).length with even | odd
      · simp [even, Nat.add_mod]
      · simp [odd, Nat.add_mod]

/-- The flag of the forward reader is the parity of the run of backslashes behind it. -/
theorem close?_eq_readForward? (style : Quotation) (behind line : Text) :
    style.close? behind line = style.readForward? (isEscaped behind) line := by
  induction line generalizing behind with
  | nil => rw [close?, readForward?]
  | cons x line ih =>
      rw [close?, ih, isEscaped_cons]
      cases isEscaped behind with
      | true => simp [readForward?]
      | false => simp [readForward?]

theorem kind_openCause (style : Quotation) (later : List Text) :
    (style.openCause later).kind =
      if ∃ line ∈ later, style.mark ∈ line then .unsupported else .malformed := by
  have same : (later.any (·.contains style.mark) = true) ↔ ∃ line ∈ later, style.mark ∈ line := by
    simp
  unfold openCause
  by_cases found : ∃ line ∈ later, style.mark ∈ line
  · rw [if_pos found, if_pos (same.mpr found)]
    rfl
  · rw [if_neg found, if_neg (mt same.mp found)]
    rfl

/-- What a reader does that stands on a mark, given by the forward reader. -/
theorem read_on_mark (style : Quotation) (row : Nat) (before line : Text) (later : List Text) :
    style.read ⟨row, before, (style.mark :: line) :: later⟩ =
      match style.readForward? false line with
      | some (inside, rest) =>
        .ok inside ⟨row, before ++ (style.mark :: (inside ++ [style.mark])), rest :: later⟩
      | none =>
        .error (.located (style.openCause later) ⟨row + 1, Text.byteSize before⟩)
          ⟨row, before, (style.mark :: line) :: later⟩ := by
  have forward : style.close? [] line = style.readForward? false line :=
    style.close?_eq_readForward? [] line
  rw [read_run, if_pos rfl, ← forward]
  cases found : style.close? [] line with
  | none => rfl
  | some closed =>
      obtain ⟨inside, rest⟩ := closed
      dsimp only
      rw [Addressed.move_of_close? found]

theorem readForward?_again {style : Quotation} {line inside rest : Text}
    (found : style.readForward? false line = some (inside, rest)) :
    style.readForward? false (inside ++ [style.mark]) = some (inside, []) := by
  have forward := style.close?_eq_readForward? []
  have closed : style.close? [] line = some (inside, rest) := (forward line).trans found
  exact (forward _).symm.trans (style.close?_append [] line inside rest closed [])

/-- A quotation ends on its line exactly if the forward reader finds a mark there, with the text
before that mark and the cursor behind it. Else the cursor stays, and it depends on the lines below
which kind of diagnostic there is. The text between two marks is read again as it is. -/
theorem read_eq_readForward (style : Quotation) (c : Cursor) (line : Text) (later : List Text)
    (onMark : c.ahead = (style.mark :: line) :: later) :
    (∀ inside stop, style.read c = .ok inside stop ↔
        ∃ rest, style.readForward? false line = some (inside, rest) ∧
          stop = ⟨c.row, c.before ++ (style.mark :: (inside ++ [style.mark])), rest :: later⟩) ∧
      (∀ diagnostic stop, style.read c = .error diagnostic stop →
        stop = c ∧ diagnostic.place = some c.location ∧
          diagnostic.cause.kind =
            if ∃ below ∈ later, style.mark ∈ below then .unsupported else .malformed) ∧
      ∀ inside stop, style.read c = .ok inside stop → ∀ row before below,
        style.read ⟨row, before, (style.mark :: (inside ++ [style.mark])) :: below⟩ =
          .ok inside ⟨row, before ++ (style.mark :: (inside ++ [style.mark])), [] :: below⟩ := by
  obtain ⟨row, before, ahead⟩ := c
  obtain rfl : ahead = (style.mark :: line) :: later := onMark
  have run := style.read_on_mark row before line later
  cases found : style.readForward? false line with
  | none =>
      rw [found] at run
      dsimp only at run
      rw [run]
      refine ⟨?_, ?_, ?_⟩
      · simp
      · rintro diagnostic stop ⟨⟩
        exact ⟨rfl, rfl, style.kind_openCause later⟩
      · rintro inside stop ⟨⟩
  | some closed =>
      obtain ⟨text, rest⟩ := closed
      rw [found] at run
      dsimp only at run
      rw [run]
      refine ⟨?_, ?_, ?_⟩
      · intro inside stop
        constructor
        · rintro ⟨⟩
          exact ⟨rest, rfl, rfl⟩
        · rintro ⟨rest', same, rfl⟩
          cases same
          rfl
      · rintro diagnostic stop ⟨⟩
      · rintro inside stop ⟨⟩ row before below
        rw [style.read_on_mark, readForward?_again found]

/-- A run of three backslashes before a mark, and one of two before the next. -/
theorem read_eq_readForward_runs :
    Quotation.double.read ⟨0, "x ".toList, ["\"é\\\\\\\"b\\\\\" \"".toList]⟩ =
        .ok "é\\\\\\\"b\\\\".toList ⟨0, "x \"é\\\\\\\"b\\\\\"".toList, [" \"".toList]⟩ ∧
      Quotation.double.read ⟨4, [], ["\"é\\\\\\\"b\\\\\"".toList]⟩ =
        .ok "é\\\\\\\"b\\\\".toList ⟨4, "\"é\\\\\\\"b\\\\\"".toList, [[]]⟩ := by
  have found : Quotation.double.readForward? false "é\\\\\\\"b\\\\\" \"".toList =
      some ("é\\\\\\\"b\\\\".toList, " \"".toList) := by decide
  obtain ⟨closes, -, again⟩ := read_eq_readForward .double
    ⟨0, "x ".toList, ["\"é\\\\\\\"b\\\\\" \"".toList]⟩ "é\\\\\\\"b\\\\\" \"".toList [] rfl
  have first := (closes _ _).mpr ⟨_, found, rfl⟩
  exact ⟨first, again _ _ first 4 [] []⟩

end Quotation

end ShellLift
