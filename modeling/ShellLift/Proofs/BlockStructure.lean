import ShellLift.Proofs.Expressible
import ShellLift.Proofs.LiteralSpans
import ShellLift.Proofs.StatementLine

/-!
# The blocks of emitted code

The outline of a script follows its statements: a conditional is a header with a block, and a
function is a header whose block is a second header with a block, since its body runs in a context
of its own. The lines of the emitted code are the lines of that outline. So the indentation rule
finds the nesting of the statements again, and where a statement starts follows from the
conditionals and functions around it.
-/

set_option autoImplicit false

namespace ShellLift

open Layout

/-! ## The outline of a script -/

def Code.given : Except Diagnostic Text → Text
  | .ok text => text
  | .error _ => []

def Outline.block (outlines : List Outline) : List Outline :=
  if outlines.isEmpty then [.line "pass".toList []] else outlines

namespace Statement

def headLine (settings : Settings) : Statement → Text
  | assignment span kind target value =>
    Code.given (assignmentCode settings span.start kind target value)
  | conditional _ condition _ => "if ".toList ++ condition.code ++ ":".toList
  | function _ name _ => "def ".toList ++ name ++ "(*args, parent_ctx):".toList
  | invocation span name arguments kind =>
    Code.given (invocationCode span.start name arguments kind)

mutual

def outline (settings : Settings) : Statement → Outline
  | assignment span kind target value =>
    .line ((assignment span kind target value).headLine settings) []
  | conditional span condition body =>
    .line ((conditional span condition body).headLine settings)
      (Outline.block (outlineAll settings body))
  | function span name body =>
    .line ((function span name body).headLine settings)
      [.line (contextLine name) (Outline.block (outlineAll settings body))]
  | invocation span name arguments kind =>
    .line ((invocation span name arguments kind).headLine settings) []

def outlineAll (settings : Settings) : List Statement → List Outline
  | [] => []
  | statement :: others => outline settings statement :: outlineAll settings others

end

end Statement

namespace Code

def importLine (settings : Settings) : Text :=
  "from ".toList ++ settings.runtimeModule ++ " import init_context".toList

def outline (settings : Settings) (statements : List Statement) : List Outline :=
  if settings.emitsPreamble then
    [.line (importLine settings) [],
      .line "with init_context() as ctx:".toList
        (Outline.block (Statement.outlineAll settings statements))]
  else Statement.outlineAll settings statements

def baseLevel (settings : Settings) : Nat := if settings.emitsPreamble then 1 else 0

end Code

/-! ## Where statements stand -/

structure Placed where
  statement : Statement
  conditionals : Nat
  functions : Nat

namespace Statement

mutual

/-- A statement and the statements inside it, in the order of the script. -/
def placed (conditionals functions : Nat) : Statement → List Placed
  | assignment span kind target value =>
    [⟨assignment span kind target value, conditionals, functions⟩]
  | conditional span condition body =>
    ⟨conditional span condition body, conditionals, functions⟩ ::
      placedAll (conditionals + 1) functions body
  | function span name body =>
    ⟨function span name body, conditionals, functions⟩ ::
      placedAll conditionals (functions + 1) body
  | invocation span name arguments kind =>
    [⟨invocation span name arguments kind, conditionals, functions⟩]

def placedAll (conditionals functions : Nat) : List Statement → List Placed
  | [] => []
  | statement :: others =>
    placed conditionals functions statement ++ placedAll conditionals functions others

end

def filler (level : Nat) (body : List Statement) : List Text :=
  if body.isEmpty then [Code.indentation level ++ "pass".toList] else []

/-- The lines behind the first line of a statement that belong to none of the statements inside. -/
def ownLines (level : Nat) : Statement → List Text
  | assignment .. => []
  | conditional _ _ body => filler (level + 1) body
  | function _ name body =>
    (Code.indentation (level + 1) ++ contextLine name) :: filler (level + 2) body
  | invocation .. => []

end Statement

namespace Placed

/-- The level of a statement: a function takes two levels for its body. -/
def level (settings : Settings) (place : Placed) : Nat :=
  Code.baseLevel settings + place.conditionals + 2 * place.functions

def firstLine (settings : Settings) (place : Placed) : Text :=
  Code.indentation (place.level settings) ++ place.statement.headLine settings

/-- The lines of a statement without those of the statements inside it. -/
def lines (settings : Settings) (place : Placed) : List Text :=
  place.firstLine settings :: place.statement.ownLines (place.level settings)

end Placed

def Code.preambleLines (settings : Settings) (statements : List Statement) : List Text :=
  if settings.emitsPreamble then
    importLine settings :: "with init_context() as ctx:".toList :: Statement.filler 1 statements
  else []

/-! ## Emission follows the outline -/

namespace Outline

theorem every_block {outlines : List Outline} (every : Every Regular outlines) :
    Every Regular (block outlines) := by
  unfold block
  split
  · have pass : Operand "pass".toList :=
      ⟨.of_neutral (by decide), "pas".toList, 's', rfl, by decide⟩
    exact ⟨⟨.simple ⟨'p', _, rfl, by decide⟩ pass, trivial⟩, trivial⟩
  · exact every

theorem isEmpty_block (outlines : List Outline) : (block outlines).isEmpty = false := by
  cases outlines <;> rfl

theorem block_linesAll (level : Nat) (outlines : List Outline) :
    Code.block level (linesAll 0 outlines) = linesAll level (block outlines) := by
  cases outlines with
  | nil => rfl
  | cons outline others =>
      have moved := map_linesAll level 0 (outline :: others)
      obtain ⟨text, inside⟩ := outline
      exact moved

theorem sound_of_regular {outlines : List Outline} (every : Every Regular outlines) :
    Every Sound outlines :=
  every.mono (fun _ _ regular => regular.toSound) outlines

theorem unlines_leaf (text : Text) : Code.unlines (lines 0 (line text [])) = text := by
  rw [lines_zero, linesAll]
  exact List.intercalate_singleton ..

/-- The lines of the codes of several outlines. -/
theorem flatMap_lines {outlines : List Outline} (sound : Every Sound outlines) :
    (outlines.map fun outline => Code.unlines (outline.lines 0)).flatMap Text.lines =
      linesAll 0 outlines := by
  induction outlines with
  | nil => rfl
  | cons outline others ih =>
      rw [Every] at sound
      have alone : Every Sound [outline] := ⟨sound.1, trivial⟩
      have first := lines_unlines_linesAll alone 0
      rw [linesAll_singleton] at first
      rw [List.map_cons, List.flatMap_cons, first, ih sound.2, linesAll]

theorem unlines_map (outlines : List Outline) :
    Code.unlines (outlines.map fun outline => Code.unlines (outline.lines 0)) =
      Code.unlines (linesAll 0 outlines) := by
  have solid : ∀ outline : Outline, outline.lines 0 ≠ [] := by
    rintro ⟨text, inside⟩
    exact List.cons_ne_nil _ _
  induction outlines with
  | nil => rfl
  | cons outline others ih =>
      cases others with
      | nil =>
          rw [linesAll_singleton]
          exact List.intercalate_singleton ..
      | cons second others =>
          have rest : linesAll 0 (second :: others) ≠ [] := by
            rw [linesAll]
            exact List.append_ne_nil_of_left_ne_nil (solid second) _
          unfold Code.unlines at ih ⊢
          rw [linesAll, Text.intercalate_append (solid outline) rest, ← ih]
          rfl

end Outline

theorem Code.ofStatements_cons_eq_ok {settings : Settings} {statement : Statement}
    {others : List Statement} {codes : List Text} :
    ofStatements settings (statement :: others) = .ok codes ↔
      ∃ text rest, statement.code settings = .ok text ∧ ofStatements settings others = .ok rest ∧
        codes = text :: rest := by
  rw [ofStatements]
  cases statement.code settings with
  | error diagnostic => simp
  | ok text =>
      constructor
      · intro emitted
        obtain ⟨rest, later, rfl⟩ := map_eq_ok.mp emitted
        exact ⟨text, rest, rfl, later, rfl⟩
      · rintro ⟨_, rest, first, later, rfl⟩
        cases first
        exact map_eq_ok.mpr ⟨rest, later, rfl⟩

namespace Statement

structure Outlined (settings : Settings) (statements : List Statement)
    (codes : List Text) : Prop where
  regular : Outline.Every Regular (outlineAll settings statements)
  codes_eq : codes =
    (outlineAll settings statements).map fun outline => Code.unlines (outline.lines 0)

theorem Outlined.cons {settings : Settings} {statement : Statement} {others : List Statement}
    {text : Text} {codes : List Text} (regular : (outline settings statement).All Regular)
    (first : text = Code.unlines ((outline settings statement).lines 0))
    (rest : Outlined settings others codes) :
    Outlined settings (statement :: others) (text :: codes) := by
  refine ⟨⟨regular, rest.regular⟩, ?_⟩
  rw [outlineAll, List.map_cons, ← first, ← rest.codes_eq]

/-- The lines of a body, cut from the codes of its statements, are those of its outline. -/
theorem block_bodyLines {settings : Settings} {body : List Statement} {lines : List Text}
    (outlined : ∀ {codes : List Text}, Code.ofStatements settings body = .ok codes →
      Outlined settings body codes)
    (found : bodyLines settings body = .ok lines) :
    Outline.Every Regular (Outline.block (outlineAll settings body)) ∧
      ∀ level, Code.block level lines =
        Outline.linesAll level (Outline.block (outlineAll settings body)) := by
  rw [bodyLines_eq] at found
  obtain ⟨codes, emitted, rfl⟩ := Code.map_eq_ok.mp found
  obtain ⟨regular, rfl⟩ := outlined emitted
  refine ⟨Outline.every_block regular, fun level => ?_⟩
  rw [Outline.flatMap_lines (Outline.sound_of_regular regular), Outline.block_linesAll]

theorem outlined_of_leaf {settings : Settings} {statement : Statement} {others : List Statement}
    {text : Text} {codes : List Text}
    (leaf : outline settings statement = .line (Code.given (statement.code settings)) [])
    (first : statement.code settings = .ok text) (regular : Regular text false)
    (rest : Outlined settings others codes) :
    Outlined settings (statement :: others) (text :: codes) := by
  rw [first] at leaf
  refine .cons ?_ ?_ rest
  · rw [leaf]
    exact ⟨regular, trivial⟩
  · rw [leaf, Outline.unlines_leaf]
    rfl

end Statement

theorem WellFormed.outlined {rules last : RuleTable} {statements : List Statement}
    (wellFormed : WellFormed rules statements last) {settings : Settings} {codes : List Text}
    (emitted : Code.ofStatements settings statements = .ok codes) :
    Statement.Outlined settings statements codes := by
  induction wellFormed generalizing codes with
  | nil =>
      cases emitted
      exact ⟨trivial, rfl⟩
  | assignment word _ _ _ _ ih =>
      obtain ⟨text, rest, first, later, rfl⟩ := Code.ofStatements_cons_eq_ok.mp emitted
      exact Statement.outlined_of_leaf rfl first (Statement.regular_assignmentCode word first)
        (ih later)
  | @conditional _ _ _ span condition body others _ _ _ _ ihBody ih =>
      obtain ⟨text, rest, first, later, rfl⟩ := Code.ofStatements_cons_eq_ok.mp emitted
      rw [Statement.code] at first
      obtain ⟨lines, found, rfl⟩ := Code.map_eq_ok.mp first
      obtain ⟨regularBody, block⟩ := Statement.block_bodyLines ihBody found
      refine .cons ?_ ?_ (ih later)
      · rw [Statement.outline, Outline.All, Outline.isEmpty_block]
        exact ⟨Statement.regular_conditional condition, regularBody⟩
      · rw [Statement.outline, Outline.lines_zero, block]
        rfl
  | @function _ _ _ span name body others word _ _ _ ihBody ih =>
      obtain ⟨text, rest, first, later, rfl⟩ := Code.ofStatements_cons_eq_ok.mp emitted
      rw [Statement.code] at first
      obtain ⟨lines, found, rfl⟩ := Code.map_eq_ok.mp first
      obtain ⟨regularBody, block⟩ := Statement.block_bodyLines ihBody found
      -- The second header is the only line of the first one's block.
      have context : (Outline.line (Statement.contextLine name)
          (Outline.block (Statement.outlineAll settings body))).All Regular := by
        rw [Outline.All, Outline.isEmpty_block]
        exact ⟨Statement.regular_contextLine name, regularBody⟩
      refine .cons ?_ ?_ (ih later)
      · rw [Statement.outline]
        exact ⟨Statement.regular_function word, context, trivial⟩
      · rw [Statement.outline, Outline.lines_zero, Outline.linesAll_singleton, Outline.lines, block]
        unfold Statement.headLine Statement.contextLine
        simp only [List.append_assoc]
  | invocation word _ _ _ ih =>
      obtain ⟨text, rest, first, later, rfl⟩ := Code.ofStatements_cons_eq_ok.mp emitted
      exact Statement.outlined_of_leaf rfl first (Statement.regular_invocationCode word first)
        (ih later)

namespace Code

theorem importLine_concat (settings : Settings) : importLine settings =
    ("from ".toList ++ settings.runtimeModule ++ " import init_contex".toList) ++ ['t'] := by
  have back : " import init_context".toList = " import init_contex".toList ++ ['t'] := by decide
  unfold importLine
  rw [back]
  simp only [List.append_assoc]

theorem sound_importLine {settings : Settings} (feed : '\n' ∉ settings.runtimeModule)
    (carriage : '\r' ∉ settings.runtimeModule) : Outline.Sound (importLine settings) false := by
  have free : ∀ x : Char, x ∉ settings.runtimeModule → x ∉ "from ".toList →
      x ∉ " import init_context".toList → x ∉ importLine settings := by
    intro x inside front back member
    unfold importLine at member
    rw [List.mem_append, List.mem_append] at member
    rcases member with (member | member) | member
    · exact front member
    · exact inside member
    · exact back member
  refine ⟨⟨'f', _, rfl, by decide⟩, ⟨?_, fun impossible => by cases impossible⟩,
    free _ feed (by decide) (by decide), free _ carriage (by decide) (by decide)⟩
  rw [importLine_concat]
  exact fun header => absurd header (not_isHeader (by decide))

theorem outline_preamble {settings : Settings} {statements : List Statement}
    (regular : Outline.Every Regular (Statement.outlineAll settings statements))
    (preamble : settings.emitsPreamble = true) :
    ∃ context others, Outline.Every Regular (context :: others) ∧
      outline settings statements = .line (importLine settings) [] :: context :: others := by
  unfold outline
  rw [if_pos preamble]
  refine ⟨_, _, ?_, rfl⟩
  refine ⟨⟨?_, Outline.every_block regular⟩, trivial⟩
  have shape : "with init_context() as ctx:".toList =
      "with ".toList ++ (call "init_context".toList [] ++ " as ctx".toList) ++ ":".toList := by
    decide
  rw [Outline.isEmpty_block, shape]
  exact Statement.regular_binding (by decide) (fun _ none => by cases none)

theorem outline_bare (settings : Settings) (statements : List Statement)
    (bare : settings.emitsPreamble = false) :
    outline settings statements = Statement.outlineAll settings statements := by
  unfold outline
  rw [bare]
  rfl

/-- The code of a script is its outline as a text. -/
theorem eq_unlines_outline {rules last : RuleTable} {statements : List Statement}
    (wellFormed : WellFormed rules statements last) {settings : Settings} {text : Text}
    (emitted : ofScript settings statements = .ok text) :
    Outline.Every Regular (Statement.outlineAll settings statements) ∧
      text = unlines (Outline.linesAll 0 (outline settings statements)) := by
  obtain ⟨codes, found, rfl⟩ := map_eq_ok.mp emitted
  obtain ⟨regular, rfl⟩ := wellFormed.outlined found
  refine ⟨regular, ?_⟩
  unfold outline
  rw [Outline.unlines_map]
  split
  · have sound := Outline.sound_of_regular regular
    have solid : ((Outline.linesAll 0 (Statement.outlineAll settings statements)).filter
        fun line => !line.isEmpty) =
        Outline.linesAll 0 (Statement.outlineAll settings statements) := by
      rw [List.filter_eq_self]
      intro line member
      obtain ⟨⟨x, inside, -⟩, -⟩ := Outline.unbroken_linesAll sound 0 member
      have nonempty := List.ne_nil_of_mem inside
      simpa using nonempty
    unfold withPreamble
    rw [Outline.lines_unlines_linesAll sound, solid, Outline.block_linesAll, Outline.linesAll,
      Outline.linesAll_singleton, Outline.lines_zero, Outline.lines_zero, Outline.linesAll]
    rfl
  · rfl

end Code

/-! ## Statements and their lines -/

namespace Statement

theorem linesAll_block (settings : Settings) (level : Nat) (body : List Statement) :
    Outline.linesAll level (Outline.block (outlineAll settings body)) =
      filler level body ++ Outline.linesAll level (outlineAll settings body) := by
  cases body with
  | nil => rfl
  | cons statement others => rfl

mutual

/-- The lines of an outline are those of the statements in it, each at the level of its place. -/
theorem lines_outline (settings : Settings) (conditionals functions : Nat) :
    ∀ statement : Statement,
      (outline settings statement).lines (Code.baseLevel settings + conditionals + 2 * functions) =
        (placed conditionals functions statement).flatMap (Placed.lines settings)
  | assignment span kind target value => rfl
  | conditional span condition body => by
      have deeper : Code.baseLevel settings + conditionals + 2 * functions + 1 =
          Code.baseLevel settings + (conditionals + 1) + 2 * functions := by omega
      rw [outline, placed, Outline.lines, linesAll_block, List.flatMap_cons,
        ← linesAll_outlineAll settings (conditionals + 1) functions body, ← deeper]
      rfl
  | function span name body => by
      have deeper : Code.baseLevel settings + conditionals + 2 * functions + 1 + 1 =
          Code.baseLevel settings + conditionals + 2 * (functions + 1) := by omega
      rw [outline, placed, Outline.lines, Outline.linesAll_singleton, Outline.lines, linesAll_block,
        List.flatMap_cons, ← linesAll_outlineAll settings conditionals (functions + 1) body,
        ← deeper]
      rfl
  | invocation span name arguments kind => rfl

theorem linesAll_outlineAll (settings : Settings) (conditionals functions : Nat) :
    ∀ statements : List Statement,
      Outline.linesAll (Code.baseLevel settings + conditionals + 2 * functions)
          (outlineAll settings statements) =
        (placedAll conditionals functions statements).flatMap (Placed.lines settings)
  | [] => rfl
  | statement :: others => by
      rw [outlineAll, placedAll, Outline.linesAll, List.flatMap_append,
        lines_outline settings conditionals functions statement,
        linesAll_outlineAll settings conditionals functions others]

end

mutual

theorem map_placed (conditionals functions : Nat) : ∀ statement : Statement,
    (placed conditionals functions statement).map Placed.statement = nodes statement
  | assignment .. => rfl
  | conditional span condition body => by
      rw [placed, nodes, List.map_cons, map_placedAll]
  | function span name body => by
      rw [placed, nodes, List.map_cons, map_placedAll]
  | invocation .. => rfl

theorem map_placedAll (conditionals functions : Nat) : ∀ statements : List Statement,
    (placedAll conditionals functions statements).map Placed.statement = nodesAll statements
  | [] => rfl
  | statement :: others => by
      rw [placedAll, nodesAll, List.map_append, map_placed, map_placedAll]

end

theorem every_of_block {property : Text → Bool → Prop} {outlines : List Outline}
    (every : Outline.Every property (Outline.block outlines)) :
    Outline.Every property outlines := by
  cases outlines with
  | nil => trivial
  | cons outline others => exact every

mutual

theorem headLine_of_placed {property : Text → Bool → Prop} (settings : Settings) {place : Placed}
    (conditionals functions : Nat) : ∀ statement : Statement,
      (outline settings statement).All property → place ∈ placed conditionals functions statement →
        ∃ block, property (place.statement.headLine settings) block
  | assignment span kind target value => by
      intro all member
      rw [outline] at all
      obtain rfl := List.mem_singleton.mp member
      exact ⟨_, all.1⟩
  | conditional span condition body => by
      intro all member
      rw [outline] at all
      rcases List.mem_cons.mp member with rfl | inside
      · exact ⟨_, all.1⟩
      · exact headLine_of_placedAll settings _ _ body (every_of_block all.2) inside
  | function span name body => by
      intro all member
      rw [outline] at all
      rcases List.mem_cons.mp member with rfl | inside
      · exact ⟨_, all.1⟩
      · exact headLine_of_placedAll settings _ _ body (every_of_block all.2.1.2) inside
  | invocation span name arguments kind => by
      intro all member
      rw [outline] at all
      obtain rfl := List.mem_singleton.mp member
      exact ⟨_, all.1⟩

/-- What holds of the lines of an outline holds of the first lines of its statements. -/
theorem headLine_of_placedAll {property : Text → Bool → Prop} (settings : Settings) {place : Placed}
    (conditionals functions : Nat) : ∀ statements : List Statement,
      Outline.Every property (outlineAll settings statements) →
      place ∈ placedAll conditionals functions statements →
        ∃ block, property (place.statement.headLine settings) block
  | [] => fun _ member => absurd member List.not_mem_nil
  | statement :: others => by
      intro every member
      rcases List.mem_append.mp member with first | later
      · exact headLine_of_placed settings _ _ statement every.1 first
      · exact headLine_of_placedAll settings _ _ others every.2 later

end

end Statement

/-! ## Emitted code -/

namespace Code

theorem linesAll_outline (settings : Settings) (statements : List Statement) :
    Outline.linesAll 0 (outline settings statements) =
      preambleLines settings statements ++
        (Statement.placedAll 0 0 statements).flatMap (Placed.lines settings) := by
  rw [← Statement.linesAll_outlineAll settings 0 0 statements]
  unfold outline preambleLines baseLevel
  cases settings.emitsPreamble with
  | false => rfl
  | true =>
      simp only [if_true, Outline.linesAll, Outline.lines_zero, Statement.linesAll_block,
        List.append_nil, List.cons_append, List.nil_append]

end Code

end ShellLift
