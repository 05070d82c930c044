import ShellLift.Proofs.Framing

/-!
# A script continued by another

The statements of a script are those of its first lines and then those of the other lines, once the
first lines are a script of their own. The first part acts on the second only through the names it
declares, and the second part does not act on the first.
-/

set_option autoImplicit false

namespace ShellLift

open Step Cursor Enclosure

/-! ## Lines above -/

theorem Cursor.size_le_place (c : Cursor) (above : Nat) (below : List Text) :
    c.size ≤ (c.place above below).size := by
  obtain ⟨row, before, ahead⟩ := c
  show linesSize ahead ≤ linesSize (ahead ++ below)
  induction ahead with
  | nil => exact Nat.zero_le _
  | cons line later ih =>
      simp only [linesSize, List.cons_append]
      omega

namespace Parser

variable {above : Nat} {below : List Text}

theorem keepsStatement_statement? : KeepsStatement above below statement? statement? := by
  intro p inside
  have larger := p.cursor.size_le_place above below
  have keeps : KeepsStatement above below _ _ :=
    keepsStatement_readStatement? ((p.cursor.place above below).size + 1)
  exact (keeps p inside).congr (statement?_eq (Nat.lt_succ_of_le larger)).symm rfl

theorem framed_statements :
    (enclosure above []).Framed (Statement.shiftAll above) statements statements := by
  intro p inside
  induction size : p.cursor.size using Nat.strongRecOn generalizing p with
  | _ n ih =>
      have keeps : (enclosure above []).Keeps _ statement? statement? p :=
        keepsStatement_statement? p (.inl rfl)
      have run := statements_run p
      have run' : statements (p.place above []) = _ := statements_run _
      unfold Keeps at keeps
      rcases one : statement? p with ⟨_ | first, q⟩ | ⟨diagnostic, q⟩
      · simp only [one] at keeps run
        have one' : statement? (p.place above []) = _ := keeps.2
        simp only [one', Option.map_none] at run'
        exact Keeps.ok run keeps.1 run'
      · simp only [one] at keeps run
        have one' : statement? (p.place above []) = _ := keeps.2
        simp only [one', Option.map_some] at run'
        have shorter := readStatement?_size_lt _ p q first one
        have others := ih q.cursor.size (size ▸ shorter) q (.inl rfl) rfl
        have both : (enclosure above []).Keeps (Statement.shiftAll above)
            (List.cons first <$> statements) (List.cons (first.shift above) <$> statements) q :=
          others.map fun others => by rw [Statement.shiftAll]
        exact both.congr run run'
      · simp only [one] at keeps run
        have one' : statement? (p.place above []) = _ := keeps rfl
        simp only [one'] at run'
        exact Keeps.error run fun _ => run'

end Parser

/-! ## Lines below -/

namespace Cursor

theorem Within.finish {lines : List Text} {c : Cursor} (within : Within lines c) :
    c.finish = ⟨lines.length, [], []⟩ := by
  obtain ⟨row, before, ahead⟩ := c
  cases ahead with
  | nil =>
      obtain ⟨rfl, rfl⟩ : before = [] ∧ row = lines.length := within
      rfl
  | cons rest later =>
      have dropped : lines.drop row = (before ++ rest) :: later := within
      have count := congrArg List.length dropped
      rw [List.length_drop, List.length_cons] at count
      have last : row + (later.length + 1) = lines.length := by omega
      simp only [Cursor.finish, List.length_cons, last]

theorem Within.before_eq_nil {lines : List Text} {c : Cursor} (within : Within lines c)
    (atEnd : c.ahead = []) : c.before = [] := by
  unfold Within at within
  rw [atEnd] at within
  exact within.1

theorem skipIdleFrom_append (row : Nat) (before : Text) (lines below : List Text)
    (inScript : lines = [] → before = []) (idle : (skipIdleFrom row before lines).ahead = []) :
    skipIdleFrom row before (lines ++ below) = skipIdleFrom (row + lines.length) [] below := by
  induction lines generalizing row before with
  | nil =>
      rw [inScript rfl]
      rfl
  | cons line later ih =>
      rw [List.cons_append]
      simp only [skipIdleFrom] at idle ⊢
      split at idle
      · rename_i blank
        rw [if_pos blank, ih (row + 1) [] (fun _ => rfl) idle, List.length_cons]
        congr 1
        omega
      · exact absurd idle (List.cons_ne_nil _ _)

/-- Where only idle lines are left of a script, a longer one goes on at its next line. -/
theorem Within.skipIdle_place {lines : List Text} {c : Cursor} (within : Within lines c)
    (idle : c.skipIdle.ahead = []) (below : List Text) :
    (c.place 0 below).skipIdle = (⟨lines.length, [], below⟩ : Cursor).skipIdle := by
  have last : c.row + c.ahead.length = lines.length := congrArg Cursor.row within.finish
  have across := skipIdleFrom_append c.row c.before c.ahead below within.before_eq_nil idle
  rw [last] at across
  exact across

end Cursor

namespace Parser

theorem statement?_within {lines : List Text} {p q : Parser} {found : Option Statement}
    (within : Within lines p.cursor) (run : statement? p = .ok found q) :
    Within lines q.cursor := by
  have follows := advances_readStatement? (p.cursor.size + 1) p
  have last : final (readStatement? (p.cursor.size + 1) p) = q := by
    unfold statement? at run
    rw [run]
    rfl
  rw [last] at follows
  obtain ⟨t, passes⟩ := follows
  exact passes.within within

/-- Past the statements of a script that is complete, the longer script goes on at its next line,
with the rules that the statements have left. -/
theorem statements_place {lines : List Text} {p q : Parser} {read : List Statement}
    (within : Within lines p.cursor) (run : statements p = .ok read q) (below : List Text) :
    statements (p.place 0 below) =
      ((read ++ ·) <$> statements) ⟨⟨lines.length, [], below⟩, q.rules⟩ := by
  induction read generalizing p with
  | nil =>
      have none := statement?_of_statements_nil run
      obtain ⟨idle, rfl⟩ := atEnd_of_readStatement?_none _ p q none
      have idle' : p.cursor.skipIdle.ahead = [] := List.isEmpty_iff.mp idle
      have next : statements (p.place 0 below) =
          statements ⟨⟨lines.length, [], below⟩, p.rules⟩ :=
        statements_congr (within.skipIdle_place idle' below) rfl
      rw [next, map_run]
      cases statements ⟨⟨lines.length, [], below⟩, p.rules⟩ <;> rfl
  | cons first others ih =>
      obtain ⟨r, one, rest⟩ := statement?_of_statements_cons run
      have busy : Inside below p.cursor.skipIdle := by
        right
        intro atEnd
        have none := readStatement?_run p.cursor.size p
        rw [if_pos (by simp [atEnd, Cursor.atEnd])] at none
        have both := one.symm.trans none
        simp at both
      have keeps : (enclosure 0 below).Keeps _ statement? statement? p :=
        keepsStatement_statement? p busy
      unfold Keeps at keeps
      simp only [one, Option.map_some, Statement.shift_zero] at keeps
      have one' : statement? (p.place 0 below) = .ok (some first) (r.place 0 below) := keeps.2
      rw [statements_run, one']
      simp only [map_run]
      rw [ih (statement?_within within one) rest, map_run]
      cases statements ⟨⟨lines.length, [], below⟩, q.rules⟩ <;> rfl

/-- When the first lines of a script are a script of their own, the statements of the whole are
theirs and then those of the other lines, read with the rules that the first lines have left. A
failure in the other lines is the failure of the whole. -/
theorem statements_append (first second builtins : List Text) (p q : Parser)
    (read : List Statement) (accepted : Parser.new (.ofLines first) builtins = .ok p)
    (complete : statements p = .ok read q) :
    ∃ whole, Parser.new (.ofLines (first ++ second)) builtins = .ok whole ∧
      match statements ⟨.ofLines second, q.rules⟩ with
      | .ok others last =>
        statements whole =
          .ok (read ++ others.map (Statement.shift first.length)) (last.place first.length [])
      | .error diagnostic last =>
        statements whole = .error (diagnostic.shift first.length) (last.place first.length []) := by
  obtain ⟨added, here⟩ := new_eq_ok.mp accepted
  obtain ⟨c, table⟩ := p
  obtain rfl : c = ofLines first := here
  refine ⟨⟨ofLines (first ++ second), table⟩, new_eq_ok.mpr ⟨added, rfl⟩, ?_⟩
  have below := statements_place (within_ofLines first) complete second
  have start : (⟨ofLines first, table⟩ : Parser).place 0 second =
      ⟨ofLines (first ++ second), table⟩ := rfl
  rw [start, map_run] at below
  -- The other lines are read below the first ones as they are read alone.
  have above : (enclosure first.length []).Keeps _ statements statements
      ⟨ofLines second, q.rules⟩ := framed_statements _ (.inl rfl)
  have next : (enclosure first.length []).place ⟨ofLines second, q.rules⟩ =
      ⟨⟨first.length, [], second⟩, q.rules⟩ := by
    simp [enclosure, place, Cursor.place, ofLines]
  unfold Keeps at above
  rw [next] at above
  cases run : statements ⟨ofLines second, q.rules⟩ with
  | ok others last =>
      simp only [run] at above
      simp only [above.2, Statement.shiftAll_eq_map] at below
      exact below
  | error diagnostic last =>
      simp only [run] at above
      simp only [above rfl] at below
      exact below

/-- The name declared in the first lines makes a call of the other line. -/
theorem statements_append_declared_call :
    ∃ p q whole last,
      Parser.new (.ofLines ["function f() \x7b".toList, "\x7d".toList]) [] = .ok p ∧
      statements p = .ok [.function ⟨⟨1, 0⟩, ⟨2, 1⟩⟩ ['f'] []] q ∧
      Parser.new (.ofLines ["function f() \x7b".toList, "\x7d".toList, "f a".toList]) [] =
        .ok whole ∧
      statements whole = .ok
        [.function ⟨⟨1, 0⟩, ⟨2, 1⟩⟩ ['f'] [],
          .invocation ⟨⟨3, 0⟩, ⟨3, 3⟩⟩ ['f'] [⟨⟨⟨3, 2⟩, ⟨3, 3⟩⟩, .literal, ['a']⟩]
            .declared] last := by
  let declared : RuleTable := ⟨RuleTable.initial.entries ++ [(['f'], .invocation .declared)]⟩
  have accepted : Parser.new (.ofLines ["function f() \x7b".toList, "\x7d".toList]) [] =
      .ok ⟨.ofLines ["function f() \x7b".toList, "\x7d".toList], RuleTable.initial⟩ := rfl
  have complete : statements ⟨.ofLines ["function f() \x7b".toList, "\x7d".toList],
      RuleTable.initial⟩ = .ok [.function ⟨⟨1, 0⟩, ⟨2, 1⟩⟩ ['f'] []] ⟨⟨2, [], []⟩, declared⟩ := by
    cbv
  obtain ⟨whole, started, result⟩ := statements_append _ ["f a".toList] [] _ _ _ accepted complete
  have other : statements ⟨.ofLines ["f a".toList], declared⟩ = .ok
      [.invocation ⟨⟨1, 0⟩, ⟨1, 3⟩⟩ ['f'] [⟨⟨⟨1, 2⟩, ⟨1, 3⟩⟩, .literal, ['a']⟩] .declared]
      ⟨⟨1, [], []⟩, declared⟩ := by
    cbv
  simp only [other] at result
  exact ⟨_, _, whole, _, accepted, complete, started, result⟩

end Parser

end ShellLift
