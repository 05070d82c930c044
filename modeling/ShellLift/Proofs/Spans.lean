import ShellLift.Proofs.Expressible

/-!
# Where statements stand

The statements of a script stand one behind the other, and what is inside a statement stands between
its start and its end. Each takes room, since it starts with a word. Facts about what comes before
what in a script are read off this layout, without going back to how the script was read.
-/

set_option autoImplicit false

namespace ShellLift

open Step Cursor

/-! ## Layout -/

namespace Statement

def body : Statement → List Statement
  | assignment .. => []
  | conditional _ _ body => body
  | function _ _ body => body
  | invocation .. => []

theorem nodes_eq (statement : Statement) :
    nodes statement = statement :: nodesAll statement.body := by
  cases statement <;> rfl

theorem nodesAll_cons (statement : Statement) (others : List Statement) :
    nodesAll (statement :: others) = statement :: (nodesAll statement.body ++ nodesAll others) := by
  rw [nodesAll, nodes_eq, List.cons_append]

end Statement

/-- The statements stand one behind the other between two places, and so do those inside each of
them between its start and its end. -/
inductive Laid : Location → List Statement → Location → Prop
  | nil {start stop : Location} : start ≤ stop → Laid start [] stop
  | cons {start stop : Location} {statement : Statement} {others : List Statement} :
      start ≤ statement.span.start → statement.span.start < statement.span.stop →
      Laid statement.span.start statement.body statement.span.stop →
      Laid statement.span.stop others stop → Laid start (statement :: others) stop

namespace Laid

variable {start stop : Location} {statements : List Statement}

theorem of_le (laid : Laid start statements stop) {before : Location} (le : before ≤ start) :
    Laid before statements stop := by
  cases laid with
  | nil ends => exact .nil (le_trans le ends)
  | cons begins room inside rest => exact .cons (le_trans le begins) room inside rest

theorem le (laid : Laid start statements stop) : start ≤ stop := by
  induction laid with
  | nil ends => exact ends
  | cons begins room _ _ _ ih => exact le_trans begins (le_trans room.le ih)

/-- Statements at any depth stay between the two places. -/
theorem within (laid : Laid start statements stop) :
    ∀ node ∈ Statement.nodesAll statements,
      start ≤ node.span.start ∧ node.span.start < node.span.stop ∧ node.span.stop ≤ stop := by
  induction laid with
  | nil _ => exact fun node member => absurd member List.not_mem_nil
  | cons begins room _ rest ihBody ih =>
      rw [Statement.nodesAll_cons, List.forall_mem_cons, List.forall_mem_append]
      refine ⟨⟨begins, room, rest.le⟩, ?_, ?_⟩
      · intro node member
        obtain ⟨first, between, last⟩ := ihBody node member
        exact ⟨le_trans begins first, between, le_trans last rest.le⟩
      · intro node member
        obtain ⟨first, between, last⟩ := ih node member
        exact ⟨le_trans begins (le_trans room.le first), between, last⟩

end Laid

/-! ## Room for a word -/

namespace Location

theorem lt_of_line {a b : Location} (above : a.line < b.line) : a < b := by
  refine ⟨.inl above, ?_⟩
  rintro (below | ⟨same, -⟩)
  · exact Nat.lt_asymm above below
  · exact Nat.ne_of_gt above same

theorem lt_of_offset {a b : Location} (same : a.line = b.line) (left : a.offset < b.offset) :
    a < b := by
  refine ⟨.inr ⟨same, left.le⟩, ?_⟩
  rintro (below | ⟨-, right⟩)
  · exact Nat.ne_of_gt below same
  · exact Nat.not_le_of_lt left right

end Location

namespace Cursor

theorem Passes.location_lt {c d : Cursor} {x : Char} {t : Text} (passes : Passes c (x :: t) d) :
    c.location < d.location := by
  cases passes with
  | @char row before line _ _ later _ tail =>
      have wider : before.byteSize < Text.byteSize (before ++ [x]) := by
        rw [Text.byteSize_append]
        exact Nat.lt_add_of_pos_right x.utf8Size_pos
      have step : location ⟨row, before, (x :: line) :: later⟩ <
          location ⟨row, before ++ [x], line :: later⟩ := Location.lt_of_offset rfl wider
      exact lt_of_lt_of_le step tail.location_le
  | line tail =>
      exact lt_of_lt_of_le (Location.lt_of_line (Nat.lt_succ_self _)) tail.location_le

theorem Follows.location_lt {c d : Cursor} (word : c.word ≠ []) (follows : Follows c.skipWord d) :
    c.location < d.location := by
  have passes := passes_word c
  obtain ⟨x, rest, shape⟩ := List.exists_cons_of_ne_nil word
  rw [shape] at passes
  exact lt_of_lt_of_le passes.location_lt follows.location_le

end Cursor

/-- A statement with a body, from its first word over its head and its body to what is behind. -/
theorem Laid.block {c d inner e : Cursor} {statement : Statement} {others : List Statement}
    {stop : Location} (word : c.word ≠ []) (opened : Follows c.skipWord d)
    (within : Follows d inner) (stopped : Follows inner e)
    (span : statement.span = ⟨c.location, inner.location⟩)
    (body : Laid d.location statement.body inner.location) (rest : Laid e.location others stop) :
    Laid c.location (statement :: others) stop := by
  refine .cons ?_ ?_ ?_ ?_ <;> rw [span]
  · exact (opened.trans within).location_lt word
  · exact body.of_le (opened.location_lt word).le
  · exact rest.of_le stopped.location_le

/-! ## What a derivation reads -/

namespace Statement.Arguments

variable {c stop d : Cursor} {arguments : List Expression}

theorem follows (shape : Arguments c arguments stop d) : Follows c stop := by
  induction shape with
  | nil _ => exact .refl _
  | cons found _ _ ih => exact ((Forward.read? .value).of_ok found).trans ih

theorem read?_none (shape : Arguments c arguments stop d) :
    Expression.read? .value stop = .ok none d := by
  induction shape with
  | nil none => exact none
  | cons _ _ _ ih => exact ih

end Statement.Arguments

namespace Parser

theorem Simple.body_eq {rules : RuleTable} {c d : Cursor} {statement : Statement}
    (simple : Simple rules c statement d) : statement.body = [] := by
  cases simple with
  | assignment _ _ run =>
      obtain ⟨-, value, -, rfl⟩ := Statement.readAssignment_eq_ok.mp run
      rfl
  | invocation _ run =>
      obtain ⟨arguments, stop, -, rfl⟩ := Statement.arguments_of_readInvocation run
      rfl

theorem Simple.span_within {rules : RuleTable} {c d : Cursor} {statement : Statement}
    (simple : Simple rules c statement d) (clean : c.Clean) (word : c.word ≠ []) :
    c.location ≤ statement.span.start ∧ statement.span.start < statement.span.stop ∧
      statement.span.stop ≤ d.location := by
  cases simple with
  | @assignment kind _ _ _ _ run =>
      have follows := Statement.readAssignment_follows kind c
      rw [run] at follows
      obtain ⟨-, value, -, rfl⟩ := Statement.readAssignment_eq_ok.mp run
      exact ⟨le_refl _, follows.location_lt word, le_refl _⟩
  | invocation _ run =>
      obtain ⟨arguments, stop, shape, rfl⟩ := Statement.arguments_of_readInvocation run
      have span := shape.span ((follows_skipWord c).clean clean) c.location
      have behind := (Forward.read? .value).of_ok shape.read?_none
      rw [Statement.span, span]
      exact ⟨le_refl _, shape.follows.location_lt word, behind.location_le⟩

/-- What a derivation reads is laid out from its position to the position behind. -/
theorem Parsed.laid {place : Option Body} {p q : Parser} {read : List Statement}
    (parsed : Parsed place p read q) (clean : p.cursor.Clean) :
    Laid p.cursor.location read q.cursor.location := by
  induction parsed with
  | finish _ => exact .nil (follows_skipIdle _).location_le
  | @close body p d _ closes =>
      exact .nil ((follows_skipIdle _).trans ((Forward.readEnd body).of_ok closes)).location_le
  | @simple place p q statement d e others continues simple stop _ ih =>
      have idle := follows_skipIdle p.cursor
      have stopped := (Forward.readTerminator statement.kind).of_ok stop
      have front := idle.trans (simple.follows.trans stopped)
      obtain ⟨begins, room, ends⟩ := simple.span_within (idle.clean clean) continues.1
      refine .cons (le_trans idle.location_le begins) room ?_ ?_
      · rw [simple.body_eq]
        exact .nil room.le
      · exact (ih (front.clean clean)).of_le (le_trans ends stopped.location_le)
  | @conditional place p inner q _ c e body _ continues _ head within stop _ ihBody ih =>
      have idle := follows_skipIdle p.cursor
      have opened := Statement.readCondition_follows continues.1
      rw [head] at opened
      have stopped := (Forward.readTerminator .conditional).of_ok stop
      have cleanBody : c.Clean := (idle.trans ((follows_skipWord _).trans opened)).clean clean
      have cleanRest : e.Clean := (within.follows.trans stopped).clean cleanBody
      refine Laid.of_le ?_ idle.location_le
      exact .block continues.1 opened within.follows stopped rfl (ihBody cleanBody) (ih cleanRest)
  | @function place p inner q name c e rules body _ continues _ head within _ stop _ ihBody ih =>
      have idle := follows_skipIdle p.cursor
      have opened := Statement.readSignature_follows continues.1 p.rules p.cursor.skipIdle.location
      rw [head] at opened
      have stopped := (Forward.readTerminator .function).of_ok stop
      have cleanBody : c.Clean := (idle.trans ((follows_skipWord _).trans opened)).clean clean
      have cleanRest : e.Clean := (within.follows.trans stopped).clean cleanBody
      refine Laid.of_le ?_ idle.location_le
      exact .block continues.1 opened within.follows stopped rfl (ihBody cleanBody) (ih cleanRest)

end Parser

end ShellLift
