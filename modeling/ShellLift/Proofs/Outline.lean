import Mathlib
import ShellLift.Code.Emission
import ShellLift.Proofs.Heads

/-!
# Blocks by indentation

The target marks a block by the spaces in front of its lines. `Layout.tokens?` is its rule: the
columns of the open blocks are kept, a line in a larger column opens a block, and a line in a
smaller one closes blocks until its column is found. `Outline.read?` makes a tree of the marks.

An outline is such a tree. Its lines are four spaces deeper with each level, and the rule finds the
outline again.
-/

set_option autoImplicit false

namespace ShellLift

/-! ## The rule -/

namespace Layout

def width (line : Text) : Nat := (line.takeWhile (· == ' ')).length

def content (line : Text) : Text := line.dropWhile (· == ' ')

/-- The line opens a block: it begins with a keyword and ends in a colon. -/
def IsHeader (line : Text) : Prop :=
  ("if ".toList <+: content line ∨ "def ".toList <+: content line ∨
    "with ".toList <+: content line) ∧ line.getLast? = some ':'

inductive Token
  | line (text : Text)
  | indent
  | dedent
deriving DecidableEq

/-- Closes blocks down to a column, which has to be the column of one of them. -/
def close? (column : Nat) : List Nat → Option (List Token × List Nat)
  | [] => none
  | top :: below =>
    if column = top then some ([], top :: below)
    else if column < top then
      (close? column below).map fun (marks, columns) => (.dedent :: marks, columns)
    else none

/-- The marks in front of a line in a column, and the columns of the blocks that are open then. -/
def move? (column : Nat) : List Nat → Option (List Token × List Nat)
  | [] => none
  | top :: below =>
    if top < column then some ([.indent], column :: top :: below)
    else close? column (top :: below)

/-- The lines with the marks between them, when blocks in the given columns are open. A line of
blanks only does not count, and the end closes every block that is not in the first column. -/
def tokens? : (columns : List Nat) → List Text → Option (List Token)
  | columns, [] => some (List.replicate (columns.countP (0 < ·)) .dedent)
  | columns, line :: lines =>
    if line.all Text.isSpace then tokens? columns lines
    else do
      let (marks, columns) ← move? (width line) columns
      let others ← tokens? columns lines
      pure (marks ++ .line (content line) :: others)

/-- A line that opens a block has a line one level deeper behind it, and behind any other line there
is none that is deeper. -/
def BlockShaped (lines : List Text) : Prop :=
  ∀ front line back, lines = front ++ line :: back →
    (IsHeader line → ∃ next more, back = next :: more ∧ width next = width line + 4) ∧
    (¬ IsHeader line → ∀ next more, back = next :: more → width next ≤ width line)

end Layout

/-! ## Outlines -/

inductive Outline
  | line (text : Text) (block : List Outline)

namespace Outline

open Layout

mutual

def lines (level : Nat) : Outline → List Text
  | line text block => (Code.indentation level ++ text) :: linesAll (level + 1) block

def linesAll (level : Nat) : List Outline → List Text
  | [] => []
  | outline :: others => lines level outline ++ linesAll level others

end

mutual

def tokens : Outline → List Token
  | line text block =>
    .line text :: if block.isEmpty then [] else .indent :: (tokensAll block ++ [.dedent])

def tokensAll : List Outline → List Token
  | [] => []
  | outline :: others => tokens outline ++ tokensAll others

end

/-- One mark further: the outlines of each open block are kept, last one first. -/
def step : Token → List (List Outline) → Option (List (List Outline))
  | .line text, current :: outer => some ((line text [] :: current) :: outer)
  | .indent, outer => some ([] :: outer)
  | .dedent, block :: (line text [] :: current) :: outer =>
    some ((line text block.reverse :: current) :: outer)
  | _, _ => none

def run : List Token → List (List Outline) → Option (List (List Outline))
  | [], stack => some stack
  | token :: others, stack => (step token stack).bind (run others)

def read? (lines : List Text) : Option (List Outline) := do
  let tokens ← tokens? [0] lines
  match ← run tokens [[]] with
  | [outlines] => some outlines.reverse
  | _ => none

mutual

def All (property : Text → Bool → Prop) : Outline → Prop
  | line text block => property text (!block.isEmpty) ∧ Every property block

def Every (property : Text → Bool → Prop) : List Outline → Prop
  | [] => True
  | outline :: others => All property outline ∧ Every property others

end

end Outline

/-! ## The rule on one line -/

namespace Layout

def Started (text : Text) : Prop :=
  ∃ first rest, text = first :: rest ∧ Text.isBlank first = false

theorem Started.ne_nil {text : Text} (started : Started text) : text ≠ [] := by
  obtain ⟨first, rest, rfl, -⟩ := started
  exact List.cons_ne_nil _ _

theorem width_indentation {text : Text} (started : Started text) (level : Nat) :
    width (Code.indentation level ++ text) = 4 * level ∧
      content (Code.indentation level ++ text) = text := by
  obtain ⟨first, rest, rfl, solid⟩ := started
  have notSpace : (first == ' ') = false := by
    apply beq_false_of_ne
    rintro rfl
    cases solid
  have spaces : ∀ x ∈ Code.indentation level, (x == ' ') = true := by
    intro x member
    rw [List.eq_of_mem_replicate member]
    rfl
  unfold width content
  rw [List.takeWhile_append_of_pos spaces, List.dropWhile_append_of_pos spaces,
    List.takeWhile_cons_of_neg (by simp [notSpace]),
    List.dropWhile_cons_of_neg (by simp [notSpace]),
    List.append_nil]
  exact ⟨List.length_replicate, rfl⟩

theorem not_blank_indentation {text : Text} (started : Started text) (level : Nat) :
    (Code.indentation level ++ text).all Text.isSpace = false := by
  obtain ⟨first, rest, rfl, solid⟩ := started
  rw [List.all_eq_false]
  refine ⟨first, List.mem_append_right _ (List.mem_cons_self ..), ?_⟩
  intro space
  rw [Text.isBlank_of_isSpace space] at solid
  cases solid

theorem isHeader_indentation {text : Text} (started : Started text) (level : Nat) :
    IsHeader (Code.indentation level ++ text) ↔ IsHeader text := by
  have last : (Code.indentation level ++ text).getLast? = text.getLast? :=
    List.getLast?_append_of_ne_nil _ started.ne_nil
  have bare : content text = text := (width_indentation started 0).2
  unfold IsHeader
  rw [(width_indentation started level).2, bare, last]

theorem move?_same (column : Nat) (below : List Nat) :
    move? column (column :: below) = some ([], column :: below) := by
  rw [move?, if_neg (Nat.lt_irrefl _), close?, if_pos rfl]

theorem move?_deeper {column top : Nat} (deeper : top < column) (below : List Nat) :
    move? column (top :: below) = some ([.indent], column :: top :: below) :=
  if_pos deeper

/-- A line that is not in the last block closes it, whatever it does to the blocks around it. -/
theorem move?_outside {column top inner : Nat} (outside : column ≤ top) (inside : top < inner)
    (below : List Nat) :
    move? column (inner :: top :: below) =
      (move? column (top :: below)).map fun (marks, columns) => (.dedent :: marks, columns) := by
  rw [move?, if_neg (by omega), close?, if_neg (by omega), if_pos (by omega), move?,
    if_neg (by omega)]

theorem tokens?_cons {line : Text} (solid : line.all Text.isSpace = false) (columns : List Nat)
    (lines : List Text) :
    tokens? columns (line :: lines) =
      (move? (width line) columns).bind fun (marks, columns) =>
        (tokens? columns lines).map fun others => marks ++ .line (content line) :: others := by
  rw [tokens?, if_neg (by simp [solid])]
  cases move? (width line) columns with
  | none => rfl
  | some moved => cases found : tokens? moved.2 lines <;> simp [found]

theorem tokens?_same {line : Text} (solid : line.all Text.isSpace = false) (below : List Nat)
    (lines : List Text) :
    tokens? (width line :: below) (line :: lines) =
      (tokens? (width line :: below) lines).map (.line (content line) :: ·) := by
  rw [tokens?_cons solid, move?_same]
  rfl

theorem tokens?_indent {line : Text} (solid : line.all Text.isSpace = false) {top : Nat}
    (deeper : top < width line) (below : List Nat) (lines : List Text) :
    tokens? (top :: below) (line :: lines) =
      (tokens? (width line :: top :: below) (line :: lines)).map (.indent :: ·) := by
  rw [tokens?_same solid, tokens?_cons solid, move?_deeper deeper, Option.map_map]
  rfl

/-- The next line is in no column behind the given one. -/
def Within (column : Nat) (lines : List Text) : Prop :=
  ∀ line ∈ lines.head?, line.all Text.isSpace = false ∧ width line ≤ column

theorem Within.mono {column wider : Nat} {lines : List Text} (within : Within column lines)
    (le : column ≤ wider) : Within wider lines :=
  fun line first => ⟨(within line first).1, (within line first).2.trans le⟩

theorem tokens?_dedent {top inner : Nat} {lines : List Text} (within : Within top lines)
    (inside : top < inner) (below : List Nat) :
    tokens? (inner :: top :: below) lines =
      (tokens? (top :: below) lines).map (.dedent :: ·) := by
  cases lines with
  | nil =>
      have count : (inner :: top :: below).countP (0 < ·) = (top :: below).countP (0 < ·) + 1 :=
        List.countP_cons_of_pos (decide_eq_true (by omega))
      rw [tokens?, tokens?, count]
      rfl
  | cons line lines =>
      obtain ⟨solid, outside⟩ := within line rfl
      rw [tokens?_cons solid, tokens?_cons solid, move?_outside outside inside]
      cases move? (width line) (top :: below) with
      | none => rfl
      | some moved =>
          simp only [Option.map_some, Option.bind_some, Option.map_map]
          rfl

theorem BlockShaped.nil : BlockShaped [] := by
  intro front line back shape
  simp at shape

theorem BlockShaped.cons {line : Text} {lines : List Text} (shaped : BlockShaped lines)
    (header : IsHeader line → ∃ next more, lines = next :: more ∧ width next = width line + 4)
    (simple : ¬ IsHeader line → Within (width line) lines) : BlockShaped (line :: lines) := by
  intro front other back shape
  cases front with
  | nil =>
      obtain ⟨rfl, rfl⟩ := List.cons.inj shape
      refine ⟨header, ?_⟩
      rintro plain next more rfl
      exact (simple plain next rfl).2
  | cons first front => exact shaped front other back (List.cons.inj shape).2

end Layout

/-! ## The rule on outlines -/

namespace Outline

open Layout

structure Sound (text : Text) (block : Bool) : Prop where
  started : Started text
  header : IsHeader text ↔ block = true
  unbroken : '\n' ∉ text ∧ '\r' ∉ text

theorem lines_head {outline : Outline} (sound : All Sound outline) (level : Nat) :
    ∃ first more, lines level outline = first :: more ∧ first.all Text.isSpace = false ∧
      width first = 4 * level := by
  obtain ⟨text, block⟩ := outline
  rw [All] at sound
  have started := sound.1.started
  exact ⟨_, _, lines.eq_1 .., not_blank_indentation started level,
    (width_indentation started level).1⟩

theorem within_linesAll {outlines : List Outline} (sound : Every Sound outlines) {level : Nat}
    {rest : List Text} (within : Within (4 * level) rest) :
    Within (4 * level) (linesAll level outlines ++ rest) := by
  cases outlines with
  | nil => exact within
  | cons outline others =>
      rw [Every] at sound
      obtain ⟨first, more, shape, solid, width⟩ := lines_head sound.1 level
      rw [linesAll, shape]
      intro line found
      cases found
      exact ⟨solid, width.le⟩

mutual

/-- The marks of an outline stand around its lines, and the rule is then where it was. -/
theorem tokens?_lines : ∀ outline : Outline, All Sound outline → ∀ (level : Nat) (below : List Nat)
    (rest : List Text), Within (4 * level) rest →
    tokens? (4 * level :: below) (lines level outline ++ rest) =
      (tokens? (4 * level :: below) rest).map (tokens outline ++ ·)
  | line text block => by
      intro sound level below rest within
      rw [All] at sound
      obtain ⟨⟨started, -, -⟩, inside⟩ := sound
      obtain ⟨column, text_eq⟩ := width_indentation started level
      have solid := not_blank_indentation started level
      have first := tokens?_same solid below (linesAll (level + 1) block ++ rest)
      rw [column, text_eq] at first
      rw [lines, List.cons_append, first, tokens]
      cases block with
      | nil =>
          rw [linesAll, List.nil_append]
          rfl
      | cons outline others =>
          have deeper : 4 * level < 4 * (level + 1) := by omega
          have opened : tokens? (4 * level :: below)
              (linesAll (level + 1) (outline :: others) ++ rest) =
              (tokens? (4 * (level + 1) :: 4 * level :: below)
                (linesAll (level + 1) (outline :: others) ++ rest)).map (.indent :: ·) := by
            obtain ⟨next, more, shape, solid, column⟩ := lines_head inside.1 (level + 1)
            rw [linesAll, shape, List.cons_append, List.cons_append,
              tokens?_indent solid (column ▸ deeper), column]
          rw [opened, tokens?_linesAll (outline :: others) inside _ _ _ (within.mono deeper.le),
            tokens?_dedent within deeper, Option.map_map, Option.map_map, Option.map_map]
          congr 1
          funext others
          simp

theorem tokens?_linesAll : ∀ outlines : List Outline, Every Sound outlines → ∀ (level : Nat)
    (below : List Nat) (rest : List Text), Within (4 * level) rest →
    tokens? (4 * level :: below) (linesAll level outlines ++ rest) =
      (tokens? (4 * level :: below) rest).map (tokensAll outlines ++ ·)
  | [] => by
      intro _ level below rest _
      rw [linesAll, List.nil_append]
      exact Option.map_id'.symm
  | outline :: others => by
      intro sound level below rest within
      rw [Every] at sound
      rw [linesAll, List.append_assoc,
        tokens?_lines outline sound.1 _ _ _ (within_linesAll sound.2 within),
        tokens?_linesAll others sound.2 _ _ _ within, Option.map_map]
      congr 1
      funext rest
      exact (List.append_assoc _ _ _).symm

end

theorem run_append (front back : List Token) (stack : List (List Outline)) :
    run (front ++ back) stack = (run front stack).bind (run back) := by
  induction front generalizing stack with
  | nil => rfl
  | cons token front ih =>
      rw [List.cons_append, run, run]
      cases step token stack with
      | none => rfl
      | some next => exact ih next

mutual

theorem run_tokens : ∀ (outline : Outline) (current : List Outline) (outer : List (List Outline)),
    run (tokens outline) (current :: outer) = some ((outline :: current) :: outer)
  | line text block => by
      intro current outer
      rw [tokens]
      cases block with
      | nil => rfl
      | cons outline others =>
          rw [run, step, Option.bind_some, if_neg (by simp), run, step, Option.bind_some,
            run_append,
            run_tokensAll]
          simp [run, step]

theorem run_tokensAll : ∀ (outlines current : List Outline) (outer : List (List Outline)),
    run (tokensAll outlines) (current :: outer) = some ((outlines.reverse ++ current) :: outer)
  | [] => fun _ _ => rfl
  | outline :: others => by
      intro current outer
      rw [tokensAll, run_append, run_tokens, Option.bind_some, run_tokensAll, List.reverse_cons,
        List.append_assoc, List.singleton_append]

end

mutual

theorem blockShaped_lines : ∀ outline : Outline, All Sound outline → ∀ (level : Nat)
    (rest : List Text), Within (4 * level) rest → BlockShaped rest →
    BlockShaped (lines level outline ++ rest)
  | line text block => by
      intro sound level rest within shaped
      rw [All] at sound
      obtain ⟨⟨started, header, -⟩, inside⟩ := sound
      have column := (width_indentation started level).1
      rw [lines, List.cons_append]
      have behind := blockShaped_linesAll block inside (level + 1) rest
        (within.mono (by omega)) shaped
      refine behind.cons ?_ ?_
      · intro isHeader
        rw [isHeader_indentation started, header] at isHeader
        cases block with
        | nil => cases isHeader
        | cons outline others =>
            obtain ⟨next, more, shape, -, deeper⟩ := lines_head inside.1 (level + 1)
            rw [linesAll, shape]
            exact ⟨next, _, rfl, by rw [deeper, column]; omega⟩
      · intro simple
        rw [isHeader_indentation started, header] at simple
        cases block with
        | nil =>
            rw [linesAll, List.nil_append, column]
            exact within
        | cons outline others => exact absurd rfl simple

theorem blockShaped_linesAll : ∀ outlines : List Outline, Every Sound outlines → ∀ (level : Nat)
    (rest : List Text), Within (4 * level) rest → BlockShaped rest →
    BlockShaped (linesAll level outlines ++ rest)
  | [] => fun _ _ _ _ shaped => shaped
  | outline :: others => by
      intro sound level rest within shaped
      rw [Every] at sound
      rw [linesAll, List.append_assoc]
      apply blockShaped_lines outline sound.1 level _ (within_linesAll sound.2 within)
      exact blockShaped_linesAll others sound.2 level rest within shaped

end

/-! ## Lines as one text -/

theorem lines_zero (text : Text) (block : List Outline) :
    lines 0 (line text block) = text :: linesAll 1 block := rfl

theorem linesAll_singleton (level : Nat) (outline : Outline) :
    linesAll level [outline] = lines level outline := by
  rw [linesAll, linesAll, List.append_nil]

theorem linesAll_cons_ne_nil (level : Nat) (outline : Outline) (others : List Outline) :
    linesAll level (outline :: others) ≠ [] := by
  obtain ⟨text, block⟩ := outline
  rw [linesAll, lines]
  exact List.cons_ne_nil _ _

mutual

/-- Lines put at a level are the lines of the same outline at a level as much deeper. -/
theorem map_lines (level deeper : Nat) : ∀ outline : Outline,
    (lines deeper outline).map (Code.indentation level ++ ·) = lines (level + deeper) outline
  | line text block => by
      have spaces : Code.indentation level ++ Code.indentation deeper =
          Code.indentation (level + deeper) := by
        unfold Code.indentation
        rw [List.replicate_append_replicate, Nat.mul_add]
      rw [lines, lines, List.map_cons, map_linesAll, ← List.append_assoc, spaces, Nat.add_assoc]

theorem map_linesAll (level deeper : Nat) : ∀ outlines : List Outline,
    (linesAll deeper outlines).map (Code.indentation level ++ ·) =
      linesAll (level + deeper) outlines
  | [] => rfl
  | outline :: others => by
      rw [linesAll, linesAll, List.map_append, map_lines, map_linesAll]

end

mutual

theorem mem_lines {property : Text → Bool → Prop} {line : Text} :
    ∀ (outline : Outline) (level : Nat),
    All property outline → line ∈ lines level outline →
      ∃ deeper text block, property text block ∧ line = Code.indentation deeper ++ text
  | .line text block => by
      intro level all member
      rw [All] at all
      rw [lines] at member
      rcases List.mem_cons.mp member with rfl | member
      · exact ⟨level, text, _, all.1, rfl⟩
      · exact mem_linesAll block (level + 1) all.2 member

/-- Each line is one of the outline's texts, behind the spaces of some level. -/
theorem mem_linesAll {property : Text → Bool → Prop} {line : Text} : ∀ (outlines : List Outline)
    (level : Nat), Every property outlines → line ∈ linesAll level outlines →
      ∃ deeper text block, property text block ∧ line = Code.indentation deeper ++ text
  | [] => fun _ _ member => absurd member List.not_mem_nil
  | outline :: others => by
      intro level every member
      rw [Every] at every
      rw [linesAll] at member
      rcases List.mem_append.mp member with member | member
      · exact mem_lines outline level every.1 member
      · exact mem_linesAll others level every.2 member

end

mutual

theorem All.mono {property weaker : Text → Bool → Prop}
    (imp : ∀ text block, property text block → weaker text block) : ∀ outline : Outline,
    All property outline → All weaker outline
  | line text block => by
      intro all
      rw [All] at all ⊢
      exact ⟨imp text _ all.1, Every.mono imp block all.2⟩

theorem Every.mono {property weaker : Text → Bool → Prop}
    (imp : ∀ text block, property text block → weaker text block) : ∀ outlines : List Outline,
    Every property outlines → Every weaker outlines
  | [] => fun every => every
  | outline :: others => by
      intro every
      rw [Every] at every ⊢
      exact ⟨All.mono imp outline every.1, Every.mono imp others every.2⟩

end

end Outline

namespace Text

theorem lines_append_feed {line : Text} (feed : '\n' ∉ line) (carriage : '\r' ∉ line)
    (rest : Text) :
    lines (line ++ '\n' :: rest) = line :: lines rest := by
  induction line with
  | nil => rfl
  | cons x line ih =>
      rw [List.mem_cons, not_or] at feed carriage
      rw [List.cons_append, lines.eq_4, ih feed.2 carriage.2]
      · rfl
      · exact fun same => feed.1 same.symm
      · exact fun _ same _ => carriage.1 same.symm

theorem lines_of_unbroken {line : Text} (nonempty : line ≠ []) (feed : '\n' ∉ line)
    (carriage : '\r' ∉ line) : lines line = [line] := by
  induction line with
  | nil => exact absurd rfl nonempty
  | cons x line ih =>
      rw [List.mem_cons, not_or] at feed carriage
      rw [lines.eq_4]
      · cases line with
        | nil => rfl
        | cons y line =>
            rw [ih (List.cons_ne_nil _ _) feed.2 carriage.2]
            rfl
      · exact fun same => feed.1 same.symm
      · exact fun _ same _ => carriage.1 same.symm

/-- Lines that are joined can be told apart when none is empty or has a line end in it. -/
theorem lines_unlines {texts : List Text}
    (unbroken : ∀ text ∈ texts, text ≠ [] ∧ '\n' ∉ text ∧ '\r' ∉ text) :
    lines (Code.unlines texts) = texts := by
  unfold Code.unlines
  induction texts with
  | nil => rfl
  | cons text others ih =>
      obtain ⟨⟨nonempty, feed, carriage⟩, rest⟩ := List.forall_mem_cons.mp unbroken
      cases others with
      | nil =>
          rw [List.intercalate_singleton]
          exact lines_of_unbroken nonempty feed carriage
      | cons second others =>
          rw [List.intercalate_cons_cons, List.append_assoc, List.singleton_append,
            lines_append_feed feed carriage, ih rest]

end Text

namespace Outline

theorem unbroken_linesAll {outlines : List Outline} (sound : Every Sound outlines) (level : Nat)
    {line : Text} (member : line ∈ linesAll level outlines) :
    (∃ x ∈ line, Text.isBlank x = false) ∧ '\n' ∉ line ∧ '\r' ∉ line := by
  obtain ⟨deeper, text, block, ⟨started, -, feed, carriage⟩, rfl⟩ :=
    mem_linesAll outlines level sound member
  have spaces : ∀ x ∈ Code.indentation deeper, x = ' ' := fun x => List.eq_of_mem_replicate
  refine ⟨?_, ?_, ?_⟩
  · obtain ⟨first, rest, rfl, solid⟩ := started
    exact ⟨first, List.mem_append_right _ (List.mem_cons_self ..), solid⟩
  · intro member
    rcases List.mem_append.mp member with space | member
    · cases spaces _ space
    · exact feed member
  · intro member
    rcases List.mem_append.mp member with space | member
    · cases spaces _ space
    · exact carriage member

theorem lines_unlines_linesAll {outlines : List Outline} (sound : Every Sound outlines)
    (level : Nat) : Text.lines (Code.unlines (linesAll level outlines)) =
      linesAll level outlines := by
  apply Text.lines_unlines
  intro line member
  obtain ⟨⟨x, inside, -⟩, feed, carriage⟩ := unbroken_linesAll sound level member
  exact ⟨List.ne_nil_of_mem inside, feed, carriage⟩

end Outline

end ShellLift
