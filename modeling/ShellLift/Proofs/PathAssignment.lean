import ShellLift.Proofs.Environment
import ShellLift.Proofs.Pieces
import ShellLift.Proofs.Steps

/-!
# Assignments to path lists

An assignment to a variable with a path list looks for the old text of the list in the new one, and
adds the parts before and behind it to the list. The old text is found as a piece of text, and its
place may be inside a part. The list has the new text exactly if a colon stands on each side of the
old text that has something on it.
-/

set_option autoImplicit false

namespace ShellLift

open Step

namespace PathList

def Separated (front back : Text) : Prop :=
  (front = [] ∨ front.getLast? = some ':') ∧ (back = [] ∨ back.head? = some ':')

instance (front back : Text) : Decidable (Separated front back) :=
  inferInstanceAs (Decidable (_ ∧ _))

theorem parts_of_ne_nil {text : Text} (nonempty : text ≠ []) :
    parts text = Text.pieces ':' text := by
  rw [parts, if_neg (by simpa using nonempty)]

/-- What the parts of a text have in front of other parts: the text, and one more colon unless the
text ends with one. -/
theorem intercalate_front (front : Text) {rest : List Text} (nonempty : rest ≠ []) :
    ∃ gap, List.intercalate [':'] (dropLastEmpty (parts front) ++ rest) =
        front ++ (gap ++ List.intercalate [':'] rest) ∧
      (gap = [] ↔ front = [] ∨ front.getLast? = some ':') := by
  by_cases empty : front = []
  · subst empty
    exact ⟨[], rfl, by simp⟩
  rw [parts_of_ne_nil empty]
  have whole := Text.intercalate_pieces ':' front
  have free := Text.not_mem_pieces ':' front
  rcases List.eq_nil_or_concat (Text.pieces ':' front) with none | ⟨init, last, shape⟩
  · exact absurd none (Text.pieces_ne_nil ':' front)
  rw [List.concat_eq_append] at shape
  rw [shape] at whole free ⊢
  rw [dropLastEmpty, List.getLast?_concat]
  -- The last piece is empty exactly if the text ends with a colon, which then is the separator.
  by_cases blank : last = []
  · subst blank
    have some : init ≠ [] := by
      rintro rfl
      exact empty whole.symm
    rw [Text.intercalate_append some (List.cons_ne_nil _ _), List.intercalate_singleton] at whole
    refine ⟨[], ?_, ?_⟩
    · rw [if_pos rfl, List.dropLast_concat, Text.intercalate_append some nonempty, ← whole]
      simp
    · rw [← whole, List.getLast?_concat]
      simp
  · rw [if_neg (by simpa using blank)]
    refine ⟨[':'], ?_, ?_⟩
    · rw [Text.intercalate_append (by simp) nonempty, whole]
      rfl
    · have ends : last.getLast? = some (last.getLast blank) := List.getLast?_eq_some_getLast blank
      generalize last.getLast blank = y at ends
      have behind : front.getLast? = some y := by
        rw [← whole]
        cases init with
        | nil => rw [List.nil_append, List.intercalate_singleton, ends]
        | cons first others =>
            rw [Text.intercalate_append (List.cons_ne_nil _ _) (List.cons_ne_nil _ _),
              List.intercalate_singleton, List.getLast?_append, List.getLast?_cons, ends]
            rfl
      have other : y ≠ ':' := by
        rintro rfl
        exact free last (by simp) (List.mem_of_getLast? ends)
      simp [empty, behind, other]

/-- What the parts of a text have behind other parts. -/
theorem intercalate_back (back : Text) {rest : List Text} (nonempty : rest ≠ []) :
    ∃ gap, List.intercalate [':'] (rest ++ dropFirstEmpty (parts back)) =
        List.intercalate [':'] rest ++ (gap ++ back) ∧
      (gap = [] ↔ back = [] ∨ back.head? = some ':') := by
  by_cases empty : back = []
  · subst empty
    refine ⟨[], ?_, by simp⟩
    have none : dropFirstEmpty (parts []) = [] := rfl
    rw [none, List.append_nil, List.append_nil, List.append_nil]
  rw [parts_of_ne_nil empty]
  have whole := Text.intercalate_pieces ':' back
  have free := Text.not_mem_pieces ':' back
  obtain ⟨first, others, shape⟩ :=
    List.exists_cons_of_ne_nil (Text.pieces_ne_nil ':' back)
  rw [shape] at whole free ⊢
  cases first with
  | nil =>
      have some : others ≠ [] := by
        rintro rfl
        exact empty whole.symm
      rw [List.intercalate_cons_of_ne_nil some] at whole
      refine ⟨[], ?_, ?_⟩
      · rw [dropFirstEmpty, Text.intercalate_append nonempty some, ← whole]
        rfl
      · rw [← whole]
        simp
  | cons x first =>
      refine ⟨[':'], ?_, ?_⟩
      · rw [dropFirstEmpty, Text.intercalate_append nonempty (List.cons_ne_nil _ _), whole]
        · rfl
        · exact fun rest => nofun
      · have starts : back.head? = some x := by
          rw [← whole, List.intercalate_cons_cons_left]
          rfl
        have other : x ≠ ':' := by
          rintro rfl
          exact free _ (List.mem_cons_self ..) (List.mem_cons_self ..)
        simp [empty, starts, other]

/-- The list that a change gives has the new text exactly if the additions are separated from the
old text. -/
theorem flat_splice {front back : Text} {target : List Text} (nonempty : target ≠ []) :
    (Value.paths (dropLastEmpty (parts front) ++ target ++ dropFirstEmpty (parts back))).flat =
        front ++ ((Value.paths target).flat ++ back) ↔
      Separated front back := by
  have some : target ++ dropFirstEmpty (parts back) ≠ [] := by simp [nonempty]
  obtain ⟨gap, joined, closed⟩ := intercalate_front front some
  obtain ⟨gap', joined', opened⟩ := intercalate_back back nonempty
  change List.intercalate [':'] (_ ++ target ++ _) =
    front ++ (List.intercalate [':'] target ++ back) ↔ _
  rw [List.append_assoc, joined, joined', Separated, ← closed, ← opened]
  constructor
  · -- A gap makes the text longer, so without a difference there is none.
    intro same
    have count := congrArg List.length same
    simp only [List.length_append] at count
    exact ⟨List.length_eq_zero_iff.mp (by omega), List.length_eq_zero_iff.mp (by omega)⟩
  · rintro ⟨rfl, rfl⟩
    rfl

end PathList

namespace Session

variable {σ : Type}

/-- The shell prints a variable as the command sees it, with a line end behind it, and succeeds. -/
def Prints (shell : Shell σ) (session : Session) (name : Text) (state after : σ) : Prop :=
  ∃ checked, shell.check (echoCommand ('$' :: name)) state = .ok () checked ∧
    shell.run (echoCommand ('$' :: name)) session.environment session.frame.positional checked =
      .ok ⟨some 0, (session.environment.get? name).getD [] ++ ['\n']⟩ after

theorem dropLineFeed_concat (text : Text) : dropLineFeed (text ++ ['\n']) = text := by
  rw [dropLineFeed, List.getLast?_concat, if_pos rfl, List.dropLast_concat]

theorem Prints.capture {shell : Shell σ} {session : Session} {name : Text} {state after : σ}
    (prints : Prints shell session name state after) :
    session.capture shell (echoCommand ('$' :: name)) true state =
      .ok (some ((session.environment.get? name).getD [])) after := by
  obtain ⟨checked, check, run⟩ := prints
  unfold Session.capture
  rw [bind_run, check]
  dsimp only
  rw [bind_run, run]
  dsimp only
  rw [dropLineFeed_concat]
  rfl

theorem setTyped_paths_run {shell : Shell σ} {session : Session} {name old : Text} (content : Text)
    {parts : List Text} {state after : σ} (held : session.store.read name = .ok (.paths parts))
    (captured : session.capture shell (echoCommand ('$' :: name)) true state =
      .ok (some old) after) :
    session.setTyped shell name content state =
      match PathList.splice name parts old content with
      | .ok parts => .ok (session.setVariable name (.paths parts)) after
      | .error failure => .error failure after := by
  have previous : session.previous? name = .ok (some (.paths parts)) := by
    rw [previous?, held]
  unfold setTyped
  rw [previous]
  dsimp only [typedValue]
  rw [bind_run, map_run, splicePaths, bind_run, captured]
  dsimp only [Option.getD_some]
  cases PathList.splice name parts old content <;> rfl

/-- An assignment to a variable with a path list is refused where the new text does not have the old
one in it. Else a child process sees the new text exactly if the additions before and behind the
first occurrence of the old text are separated from it by colons. -/
theorem setTyped_paths_flat_iff (shell : Shell σ) (session : Session) (name content : Text)
    (parts : List Text) (state after : σ) (held : session.store.read name = .ok (.paths parts))
    (nonempty : parts ≠ []) (free : session.local? name = none) (notFixed : name ≠ "SHELL".toList)
    (prints : Prints shell session name state after) :
    match Text.cut? (Value.paths parts).flat content with
    | none => session.setTyped shell name content state =
        .error (.pathTooComplicated name (Value.paths parts).flat content) after
    | some (front, back) =>
        ∃ session', session.setTyped shell name content state = .ok session' after ∧
          (session'.store.flat.get? name = some content ↔ PathList.Separated front back) := by
  have others : ∀ entry ∈ fixedVariables, entry.1 ≠ name := by
    intro entry member
    obtain rfl := List.mem_singleton.mp member
    exact notFixed.symm
  have captured := prints.capture
  rw [environment_get? held (by simp) free others, Option.getD_some] at captured
  have run := setTyped_paths_run content held captured
  rw [PathList.splice] at run
  cases cut : Text.cut? (Value.paths parts).flat content with
  | none =>
      rw [cut] at run
      exact run
  | some ends =>
      obtain ⟨front, back⟩ := ends
      rw [cut] at run
      refine ⟨_, run, ?_⟩
      rw [setVariable, Store.flat_get?_set _ _ (by simp), Option.some.injEq, Text.eq_of_cut? cut]
      exact PathList.flat_splice nonempty

def printer (name : Text) : Shell Unit where
  check _ := pure ()
  run _ environment _ := pure ⟨some 0, (environment.get? name).getD [] ++ ['\n']⟩

theorem setTyped_paths_flat_inside_part :
    ∃ session', setTyped (printer "PATH".toList)
        (start (.ofBindings ⟨[("PATH".toList, .paths ["/bin".toList])]⟩) none)
        "PATH".toList "/usr/bin".toList () = .ok session' () ∧
      session'.store.flat.get? "PATH".toList ≠ some "/usr/bin".toList := by
  have cut : Text.cut? (Value.paths ["/bin".toList]).flat "/usr/bin".toList =
      some ("/usr".toList, []) := by decide
  have assigned := setTyped_paths_flat_iff (printer "PATH".toList)
    (start (.ofBindings ⟨[("PATH".toList, .paths ["/bin".toList])]⟩) none)
    "PATH".toList "/usr/bin".toList ["/bin".toList] () () rfl (by decide) rfl (by decide)
    ⟨(), rfl, rfl⟩
  rw [cut] at assigned
  obtain ⟨session', run, same⟩ := assigned
  exact ⟨session', run, fun stored => absurd (same.mp stored) (by decide)⟩

end Session

end ShellLift
