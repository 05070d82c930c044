import ShellLift.Proofs.InPlace
import ShellLift.Proofs.PathAssignment

/-!
# Splices of path lists

A splice is refused exactly if the new text does not have the old one in it, and then the list stays
as it is. Else the first occurrence of the old text decides: the text before it and the text behind
it are cut at their colons, and the parts go around the list in their order. An empty part next to
the list is not added, since the colon that makes it is the one that separates.
-/

set_option autoImplicit false

namespace ShellLift

open Step

/-! ## First occurrences and cuts -/

namespace Text

structure FirstAt (piece text front back : Text) : Prop where
  whole : text = front ++ (piece ++ back)
  least : ∀ front' back', text = front' ++ (piece ++ back') → front.length ≤ front'.length

theorem FirstAt.unique {piece text front back front' back' : Text}
    (first : FirstAt piece text front back) (other : FirstAt piece text front' back') :
    front = front' ∧ back = back' := by
  have same : front ++ (piece ++ back) = front' ++ (piece ++ back') :=
    first.whole.symm.trans other.whole
  have length : front.length = front'.length :=
    Nat.le_antisymm (first.least _ _ other.whole) (other.least _ _ first.whole)
  obtain ⟨fronts, rest⟩ := List.append_inj same length
  exact ⟨fronts, List.append_cancel_left rest⟩

theorem firstAt_of_cut? {piece text front back : Text}
    (cut : cut? piece text = some (front, back)) : FirstAt piece text front back := by
  refine ⟨eq_of_cut? cut, ?_⟩
  induction text generalizing front with
  | nil =>
      rw [cut?] at cut
      split at cut
      · cases cut
        exact fun _ _ _ => Nat.zero_le _
      · cases cut
  | cons x rest ih =>
      rw [cut?] at cut
      split at cut
      · cases cut
        exact fun _ _ _ => Nat.zero_le _
      · rename_i differs
        obtain ⟨⟨before, after⟩, found, same⟩ := Option.map_eq_some_iff.mp cut
        cases same
        intro front' back' whole
        cases front' with
        | nil =>
            have starts : piece <+: x :: rest := ⟨back', whole.symm⟩
            exact absurd (List.isPrefixOf_iff_prefix.mpr starts) differs
        | cons y front' =>
            have shorter := ih found front' back' (List.cons.inj whole).2
            exact Nat.succ_le_succ shorter

theorem cut?_eq_none_iff (piece text : Text) : cut? piece text = none ↔ ¬ piece <:+: text := by
  induction text with
  | nil => simp [cut?]
  | cons x rest ih =>
      rw [cut?, List.infix_cons_iff]
      by_cases starts : piece.isPrefixOf (x :: rest) = true
      · simp [starts, List.isPrefixOf_iff_prefix.mp starts]
      · rw [if_neg starts, Option.map_eq_none_iff, ih, ← List.isPrefixOf_iff_prefix]
        simp [starts]

end Text

/-! ## Parts around a list -/

namespace PathList

/-- The parts that a text before a list adds to it: the text cut at its colons, without one empty
part at the end. -/
def AddsBefore (text : Text) (parts : List Text) : Prop :=
  if text = [] then parts = []
  else text.splitOn ':' = parts ++ [[]] ∨ text.splitOn ':' = parts ∧ parts.getLast? ≠ some []

/-- The parts that a text behind a list adds to it: the text cut at its colons, without one empty
part at the start. -/
def AddsBehind (text : Text) (parts : List Text) : Prop :=
  if text = [] then parts = []
  else text.splitOn ':' = [] :: parts ∨ text.splitOn ':' = parts ∧ parts.head? ≠ some []

theorem addsBefore_parts (text : Text) : AddsBefore text (dropLastEmpty (parts text)) := by
  unfold AddsBefore
  by_cases empty : text = []
  · rw [if_pos empty, empty]
    rfl
  rw [if_neg empty, parts_of_ne_nil empty, Text.pieces_eq_splitOn, dropLastEmpty]
  by_cases last : (text.splitOn ':').getLast? = some []
  · rw [if_pos last]
    obtain ⟨init, shape⟩ := List.getLast?_eq_some_iff.mp last
    exact .inl (by rw [shape, List.dropLast_concat])
  · rw [if_neg last]
    exact .inr ⟨rfl, last⟩

theorem addsBehind_parts (text : Text) : AddsBehind text (dropFirstEmpty (parts text)) := by
  unfold AddsBehind
  by_cases empty : text = []
  · rw [if_pos empty, empty]
    rfl
  rw [if_neg empty, parts_of_ne_nil empty, Text.pieces_eq_splitOn]
  rcases text.splitOn ':' with _ | ⟨_ | ⟨x, first⟩, others⟩
  · exact .inr ⟨rfl, by simp [dropFirstEmpty]⟩
  · exact .inl rfl
  · exact .inr ⟨rfl, by simp [dropFirstEmpty]⟩

/-- A splice without an occurrence of the old text is refused and leaves the list. With one, the
parts before and behind the first occurrence go around the list in their order. If the list had the
old text, it has the new one exactly if a colon stands on each side of the occurrence that has
something on it. -/
theorem splice_exact (name : Text) (target : List Text) (old new : Text) :
    (¬ old <:+: new →
        splice name target old new = .error (.pathTooComplicated name old new) ∧
          InPlace.splice name old new target = .error (.pathTooComplicated name old new) target) ∧
      (old <:+: new → ∃ front back before behind,
        Text.FirstAt old new front back ∧ AddsBefore front before ∧ AddsBehind back behind ∧
          splice name target old new = .ok (before ++ target ++ behind) ∧
          InPlace.splice name old new target = .ok () (before ++ target ++ behind) ∧
          (target ≠ [] → old = (Value.paths target).flat →
            ((Value.paths (before ++ target ++ behind)).flat = new ↔ Separated front back))) := by
  have inPlace := InPlace.splice_run name old new target
  constructor
  · intro absent
    have refused : splice name target old new = .error (.pathTooComplicated name old new) := by
      rw [splice, (Text.cut?_eq_none_iff old new).mpr absent]
    rw [refused] at inPlace
    exact ⟨refused, inPlace⟩
  · intro occurs
    cases cut : Text.cut? old new with
    | none => exact absurd occurs ((Text.cut?_eq_none_iff old new).mp cut)
    | some ends =>
        obtain ⟨front, back⟩ := ends
        have first := Text.firstAt_of_cut? cut
        have spliced : splice name target old new =
            .ok (dropLastEmpty (parts front) ++ target ++ dropFirstEmpty (parts back)) := by
          rw [splice, cut]
        rw [spliced] at inPlace
        refine ⟨front, back, _, _, first, addsBefore_parts front, addsBehind_parts back, spliced,
          inPlace, ?_⟩
        rintro nonempty rfl
        rw [first.whole]
        exact flat_splice nonempty

/-- The old text occurs twice, between colons of which some are doubled. -/
theorem splice_exact_doubled :
    ∃ grown, splice "PATH".toList ["/bin".toList] "/bin".toList "/a::/bin:/bin:".toList =
      .ok grown ∧
      (Value.paths grown).flat = "/a::/bin:/bin:".toList := by
  have cut : Text.cut? "/bin".toList "/a::/bin:/bin:".toList =
      some ("/a::".toList, ":/bin:".toList) := by decide
  have occurs : "/bin".toList <:+: "/a::/bin:/bin:".toList :=
    ⟨"/a::".toList, ":/bin:".toList, by decide⟩
  obtain ⟨front, back, before, behind, first, -, -, run, -, same⟩ :=
    (splice_exact "PATH".toList ["/bin".toList] _ _).2 occurs
  obtain ⟨rfl, rfl⟩ := first.unique (Text.firstAt_of_cut? cut)
  exact ⟨_, run, (same (by decide) (by decide)).mpr (by decide)⟩

end PathList

end ShellLift
