import Mathlib
import ShellLift.Proofs.Addressed.Delimited

/-!
# Spans over joined lines

A span that may run over line ends is searched for line by line. Its tokens have no line feed in
them, so the search comes to what it comes to on one line that has all lines ahead joined by line
feeds. For parentheses the text inside is then exactly a balanced text: as many parentheses are
opened as closed, and none is closed that is not open.
-/

set_option autoImplicit false

namespace ShellLift

open Step Cursor

/-! ## Joined lines -/

theorem isPrefixOf_lineFeed {token : Text} (clean : '\n' ∉ token) (line rest : Text) :
    token.isPrefixOf (line ++ '\n' :: rest) = token.isPrefixOf line := by
  induction token generalizing line with
  | nil => simp
  | cons x token ih =>
      rw [List.mem_cons, not_or] at clean
      cases line with
      | nil => simp [List.isPrefixOf, Ne.symm clean.1]
      | cons y line =>
          rw [List.cons_append, List.isPrefixOf_cons_cons, List.isPrefixOf_cons_cons,
            ih clean.2]

theorem Cursor.text_cons_append (row : Nat) (before front back : Text) (later : List Text) :
    text ⟨row, before, (front ++ back) :: later⟩ =
      front ++ text ⟨row, before ++ front, back :: later⟩ :=
  (passes_append row before front back later).text_eq

namespace BracketPair

structure OnOneLine (d : BracketPair) : Prop where
  opens : d.opening ≠ []
  closes : d.closing ≠ []
  openingClean : '\n' ∉ d.opening
  closingClean : '\n' ∉ d.closing

variable {d : BracketPair}

theorem search_lineFeed (tokens : d.OnOneLine) (depth : Nat) (rest : Text) :
    d.search depth 0 ('\n' :: rest) = (d.search depth 0 rest).prepend ['\n'] := by
  have notClosing : ¬ d.closing.isPrefixOf ('\n' :: rest) = true := by
    rw [← List.nil_append ('\n' :: rest), isPrefixOf_lineFeed tokens.closingClean]
    simpa using tokens.closes
  have notOpening : ¬ d.opening.isPrefixOf ('\n' :: rest) = true := by
    rw [← List.nil_append ('\n' :: rest), isPrefixOf_lineFeed tokens.openingClean]
    simpa using tokens.opens
  rw [search, if_neg notClosing, if_neg notOpening]
  cases d.search depth 0 rest <;> rfl

/-- What the search on a line comes to if the line goes on with a line feed and more text. -/
def Search.extend (d : BracketPair) (line rest : Text) : Search → Search
  | closed inside left => closed inside (left ++ '\n' :: rest)
  | pending depth => (d.search depth 0 rest).prepend (line ++ ['\n'])

theorem Search.extend_cons (x : Char) (line rest : Text) (found : Search) :
    (found.cons x).extend d (x :: line) rest = (found.extend d line rest).cons x := by
  cases found with
  | closed inside left => rfl
  | pending depth =>
      show (d.search depth 0 rest).prepend (x :: (line ++ ['\n'])) = _
      rw [← Search.prepend_cons]
      rfl

/-- A token that has been counted ends on its line, so no part of it is left to skip behind the line
feed. -/
theorem search_append_lineFeed (tokens : d.OnOneLine) (depth skip : Nat) (line rest : Text)
    (onLine : skip ≤ line.length) :
    d.search depth skip (line ++ '\n' :: rest) = (d.search depth skip line).extend d line rest := by
  induction line generalizing depth skip with
  | nil =>
      obtain rfl : skip = 0 := Nat.le_zero.mp onLine
      rw [List.nil_append, search_lineFeed tokens, search]
      rfl
  | cons x line ih =>
      have within : ∀ {token : Text}, token.isPrefixOf (x :: line) = true →
          token.length - 1 ≤ line.length := by
        intro token starts
        have short := (List.isPrefixOf_iff_prefix.mp starts).length_le
        rw [List.length_cons] at short
        omega
      cases skip with
      | succ skip =>
          rw [List.cons_append, search, search, ih depth skip (Nat.le_of_succ_le_succ onLine),
            Search.extend_cons]
      | zero =>
          have closing := isPrefixOf_lineFeed tokens.closingClean (x :: line) rest
          have opening := isPrefixOf_lineFeed tokens.openingClean (x :: line) rest
          rw [List.cons_append] at closing opening
          rw [List.cons_append, search, search, closing, opening]
          split
          · rename_i closes
            split
            · have short := (List.isPrefixOf_iff_prefix.mp closes).length_le
              rw [← List.cons_append, List.drop_append_of_le_length short]
              rfl
            · rw [ih _ _ (within closes), Search.extend_cons]
          · split
            · rename_i opens
              rw [ih _ _ (within opens), Search.extend_cons]
            · rw [ih _ _ (Nat.zero_le _), Search.extend_cons]

def Search.span? : Search → Option (Text × Text)
  | closed inside rest => some (inside, rest)
  | pending _ => none

theorem Search.span?_prepend (front : Text) (found : Search) :
    (found.prepend front).span? = found.span?.map fun span => (front ++ span.1, span.2) := by
  cases found <;> rfl

theorem close?_line_eq_span? (d : BracketPair) (depth row : Nat) (before line : Text) :
    (d.close? depth row before [line]).map (fun span => (span.1, span.2.text)) =
      (d.search depth 0 line).span? := by
  rw [close?]
  cases d.search depth 0 line with
  | closed inside rest => simp [Search.span?, text]
  | pending deeper => cases d.multiline <;> rfl

/-- The search line by line finds what the search of the joined lines finds. -/
theorem close?_eq_span? (tokens : d.OnOneLine) (multiline : d.multiline = true) (depth row : Nat)
    (before line : Text) (later : List Text) :
    (d.close? depth row before (line :: later)).map (fun span => (span.1, span.2.text)) =
      (d.search depth 0 (text ⟨row, before, line :: later⟩)).span? := by
  induction later generalizing depth row before line with
  | nil => rw [close?_line_eq_span?, text, List.intercalate_singleton]
  | cons next later ih =>
      rw [close?, text, List.intercalate_cons_cons, List.append_assoc, List.singleton_append,
        search_append_lineFeed tokens depth 0 line _ (Nat.zero_le _)]
      cases d.search depth 0 line with
      | closed inside rest =>
          dsimp only [Search.extend, Search.span?, Option.map_some]
          rw [text, List.intercalate_cons_cons, List.append_assoc, List.singleton_append]
      | pending deeper =>
          have below := ih deeper (row + 1) [] next
          dsimp only [Search.extend]
          rw [text] at below
          rw [if_pos multiline, Search.span?_prepend, ← below, Option.map_map, Option.map_map]
          congr 1
          funext span
          simp

/-- What a reading came to: the text it gave and the text left to read, or the kind and the wording
of its diagnostic. -/
def outcome : EStateM.Result Diagnostic Cursor Text →
    Except (Diagnostic.Kind × String) (Text × Text)
  | .ok text stop => .ok (text, stop.text)
  | .error diagnostic _ => .error (diagnostic.cause.kind, diagnostic.cause.message)

def opened (d : BracketPair) : Option (Text × Text) →
    Except (Diagnostic.Kind × String) (Text × Text)
  | some (inside, left) => .ok (d.wrap inside, left)
  | none =>
    .error ((Diagnostic.Cause.unclosed d.closing).kind,
      (Diagnostic.Cause.unclosed d.closing).message)

theorem outcome_read_opened (d : BracketPair) (row : Nat) (before left : Text)
    (later : List Text) :
    outcome (d.read ⟨row, before, (d.opening ++ left) :: later⟩) =
      d.opened ((d.close? 1 row (before ++ d.opening) (left :: later)).map
        fun span => (span.1, span.2.text)) := by
  have starts : startsWith ⟨row, before, (d.opening ++ left) :: later⟩ d.opening = true :=
    List.isPrefixOf_iff_prefix.mpr (List.prefix_append _ _)
  have moved : move ⟨row, before, (d.opening ++ left) :: later⟩ d.opening.length =
      ⟨row, before ++ d.opening, left :: later⟩ := by
    simp [move]
  rw [read_run, if_pos starts, moved]
  cases d.close? 1 row (before ++ d.opening) (left :: later) <;> rfl

theorem outcome_read_other (d : BracketPair) {c : Cursor}
    (other : ¬ c.startsWith d.opening = true) :
    outcome (d.read c) =
      .error ((Diagnostic.Cause.expectedOpening d.opening).kind,
        (Diagnostic.Cause.expectedOpening d.opening).message) := by
  rw [read_run, if_neg other]
  rfl

theorem startsWith_joined {token : Text} (nonempty : token ≠ []) (clean : '\n' ∉ token)
    (c : Cursor) : (ofLines [c.text]).startsWith token = c.startsWith token := by
  obtain ⟨row, before, _ | ⟨line, _ | ⟨next, later⟩⟩⟩ := c
  · cases token with
    | nil => exact absurd rfl nonempty
    | cons x token => rfl
  · simp [startsWith, ofLines, text]
  · show token.isPrefixOf (List.intercalate ['\n'] (line :: next :: later)) = token.isPrefixOf line
    rw [List.intercalate_cons_cons, List.append_assoc, List.singleton_append,
      isPrefixOf_lineFeed clean]

section

-- One pair of tokens with two ways to treat line ends.
variable {across along : BracketPair} (opening : along.opening = across.opening)
  (closing : along.closing = across.closing) (outer : along.keepsOuter = across.keepsOuter)

include opening closing

theorem search_of_same_tokens (depth skip : Nat) (line : Text) :
    along.search depth skip line = across.search depth skip line := by
  induction line generalizing depth skip with
  | nil => rw [search, search]
  | cons x line ih =>
      cases skip with
      | zero => rw [search, search, opening, closing, ih, ih, ih]
      | succ skip => rw [search, search, ih]

include outer

theorem opened_of_same_tokens (found : Option (Text × Text)) :
    along.opened found = across.opened found := by
  unfold opened wrap
  rw [opening, closing, outer]

theorem outcome_read_joined (tokens : across.OnOneLine) (multiline : across.multiline = true)
    (c : Cursor) : outcome (across.read c) = outcome (along.read (ofLines [c.text])) := by
  have joined := startsWith_joined tokens.opens tokens.openingClean c
  by_cases starts : c.startsWith across.opening = true
  · obtain ⟨row, before, _ | ⟨line, later⟩⟩ := c
    · cases starts
    · obtain ⟨left, rfl⟩ := List.isPrefixOf_iff_prefix.mp starts
      rw [outcome_read_opened, close?_eq_span? tokens multiline, text_cons_append, ← opening,
        ofLines, outcome_read_opened, close?_line_eq_span?,
        search_of_same_tokens opening closing, opened_of_same_tokens opening closing outer]
  · have other : ¬ (ofLines [c.text]).startsWith along.opening = true := by rwa [opening, joined]
    rw [outcome_read_other across starts, outcome_read_other along other, opening]

end

/-- To read a span over the lines ahead comes to what it comes to on the one line that joins them:
to the same text with the same text left to read, or to a diagnostic of the same kind and
wording. -/
theorem read_multiline_eq_joined (d : BracketPair) (tokens : d.OnOneLine) (c : Cursor) :
    outcome ({ d with multiline := true }.read c) =
      outcome ({ d with multiline := false }.read (ofLines [c.text])) := by
  have tokens' : OnOneLine { d with multiline := true } :=
    ⟨tokens.opens, tokens.closes, tokens.openingClean, tokens.closingClean⟩
  exact @outcome_read_joined { d with multiline := true } { d with multiline := false } rfl rfl rfl
    tokens' rfl c

/-- A bar that opens and closes, over the end of a line. -/
theorem read_multiline_eq_joined_bars :
    outcome (read ⟨"||".toList, "|".toList, true, true⟩ ⟨0, [], ["||a".toList, "b|c".toList]⟩) =
        .ok ("||a\nb|".toList, "c".toList) ∧
      outcome (read ⟨"||".toList, "|".toList, false, true⟩ (ofLines ["||a\nb|c".toList])) =
        .ok ("||a\nb|".toList, "c".toList) := by
  have same := read_multiline_eq_joined ⟨"||".toList, "|".toList, true, true⟩
    ⟨by decide, by decide, by decide, by decide⟩ ⟨0, [], ["||a".toList, "b|c".toList]⟩
  have found : outcome (read ⟨"||".toList, "|".toList, true, true⟩
      ⟨0, [], ["||a".toList, "b|c".toList]⟩) = .ok ("||a\nb|".toList, "c".toList) := by rfl
  exact ⟨found, same.symm.trans found⟩

end BracketPair

/-! ## Balanced parentheses -/

/-- As many parentheses are opened as closed, and no start of the text closes more than it opens. -/
def Balanced (t : Text) : Prop :=
  t.count '(' = t.count ')' ∧ ∀ front, front <+: t → front.count ')' ≤ front.count '('

theorem forall_prefix_cons {P : Text → Prop} {x : Char} {t : Text} :
    (∀ front, front <+: x :: t → P front) ↔ P [] ∧ ∀ front, front <+: t → P (x :: front) := by
  constructor
  · intro all
    exact ⟨all [] List.nil_prefix,
      fun front inside => all _ (List.cons_prefix_cons.mpr ⟨rfl, inside⟩)⟩
  · rintro ⟨empty, more⟩ front inside
    rcases List.prefix_cons_iff.mp inside with rfl | ⟨rest, rfl, inside'⟩
    · exact empty
    · exact more rest inside'

theorem balanced_iff_counts (depth : Nat) (t : Text) :
    balanced depth t = true ↔
      depth + t.count '(' = t.count ')' ∧
        ∀ front, front <+: t → front.count ')' ≤ depth + front.count '(' := by
  induction t generalizing depth with
  | nil => simp [balanced]
  | cons x t ih =>
      rw [forall_prefix_cons]
      by_cases closing : x = ')'
      · subst closing
        simp only [List.count_cons_self, List.count_cons_of_ne (show ')' ≠ '(' by decide),
          List.count_nil]
        cases depth with
        | zero =>
            -- This parenthesis alone is a start that closes more than it opens.
            have refused : balanced 0 (')' :: t) = false := by simp [balanced]
            rw [refused]
            constructor
            · rintro ⟨⟩
            · rintro ⟨-, -, starts⟩
              simpa using starts [] List.nil_prefix
        | succ depth =>
            have step : balanced (depth + 1) (')' :: t) = balanced depth t := by simp [balanced]
            rw [step, ih, and_iff_right (Nat.zero_le _)]
            exact and_congr (by omega) (forall₂_congr fun front _ => by omega)
      · by_cases opening : x = '('
        · subst opening
          have step : balanced depth ('(' :: t) = balanced (depth + 1) t := by simp [balanced]
          simp only [List.count_cons_self, List.count_cons_of_ne (show '(' ≠ ')' by decide),
            List.count_nil]
          rw [step, ih, and_iff_right (Nat.zero_le _)]
          exact and_congr (by omega) (forall₂_congr fun front _ => by omega)
        · have step : balanced depth (x :: t) = balanced depth t := by
            simp [balanced, closing, opening]
          simp only [List.count_cons_of_ne closing, List.count_cons_of_ne opening, List.count_nil]
          rw [step, ih, and_iff_right (Nat.zero_le _)]

theorem balanced_iff (t : Text) : balanced 0 t = true ↔ Balanced t := by
  rw [balanced_iff_counts, Nat.zero_add]
  simp only [Nat.zero_add]
  rfl

instance : DecidablePred Balanced := fun t => decidable_of_iff _ (balanced_iff t)

/-- A cursor can go over every start of the text ahead of it and stop before the end of the
script. -/
theorem Cursor.exists_passes {c : Cursor} {t r : Text} (ahead : c.text = t ++ r)
    (live : c.ahead ≠ []) : ∃ stop, Passes c t stop ∧ stop.ahead ≠ [] := by
  induction t generalizing c with
  | nil => exact ⟨c, .stay c, live⟩
  | cons x t ih =>
      obtain ⟨row, before, _ | ⟨_ | ⟨y, line⟩, later⟩⟩ := c
      · exact absurd rfl live
      · cases later with
        | nil => cases ahead
        | cons next later =>
            have passed : Passes ⟨row, before, [] :: next :: later⟩ ['\n'] _ := .line (.stay _)
            rw [passed.text_eq] at ahead
            obtain ⟨rfl, behind⟩ := List.cons.inj ahead
            obtain ⟨stop, passes, live⟩ := ih behind (List.cons_ne_nil _ _)
            exact ⟨stop, .line passes, live⟩
      · have passed : Passes ⟨row, before, (y :: line) :: later⟩ [y] _ := .char (.stay _)
        rw [passed.text_eq] at ahead
        obtain ⟨rfl, behind⟩ := List.cons.inj ahead
        obtain ⟨stop, passes, live⟩ := ih behind (List.cons_ne_nil _ _)
        exact ⟨stop, .char passes, live⟩

theorem Cursor.Within.row_add_length {lines : List Text} {c : Cursor} (within : Within lines c) :
    c.row + c.ahead.length = lines.length := by
  obtain ⟨row, before, _ | ⟨rest, later⟩⟩ := c
  · exact within.2
  · have count := congrArg List.length (show lines.drop row = (before ++ rest) :: later from within)
    rw [List.length_drop, List.length_cons] at count
    rw [List.length_cons]
    show row + (later.length + 1) = lines.length
    omega

theorem Cursor.startsWith_iff_prefix {token : Text} (nonempty : token ≠ []) (clean : '\n' ∉ token)
    (c : Cursor) : c.startsWith token = true ↔ token <+: c.text := by
  rw [← BracketPair.startsWith_joined nonempty clean]
  exact List.isPrefixOf_iff_prefix

namespace BracketPair

theorem parentheses_read_eq_ok_iff {c stop : Cursor} {t : Text} :
    parentheses.read c = .ok t stop ↔
      Balanced t ∧ Passes c ('(' :: (t ++ [')'])) stop ∧ stop.ahead ≠ [] := by
  obtain ⟨row, before, _ | ⟨_ | ⟨x, line⟩, later⟩⟩ := c
  · constructor
    · rintro ⟨⟩
    · rintro ⟨-, ⟨⟩, -⟩
  · constructor
    · rintro ⟨⟩
    · rintro ⟨-, ⟨⟩, -⟩
  · rw [read_run]
    by_cases opens : x = '('
    · subst opens
      have starts : startsWith ⟨row, before, ('(' :: line) :: later⟩
          parentheses.opening = true := by
        simp [startsWith, parentheses]
      have moved : move ⟨row, before, ('(' :: line) :: later⟩ parentheses.opening.length =
          ⟨row, before ++ ['('], line :: later⟩ := rfl
      have inside := parentheses_close?_iff 0 row (before ++ ['(']) t (line :: later) stop
      rw [balanced_iff] at inside
      rw [if_pos starts, moved]
      constructor
      · intro read
        cases found : parentheses.close? 1 row (before ++ ['(']) (line :: later) with
        | none => simp [found] at read
        | some span =>
            simp only [found] at read
            cases read
            obtain ⟨isBalanced, passes, live⟩ := inside.mp found
            exact ⟨isBalanced, .char passes, live⟩
      · rintro ⟨isBalanced, passes, live⟩
        cases passes with
        | char rest =>
            have found := inside.mpr ⟨isBalanced, rest, live⟩
            simp only [found]
            rfl
    · have starts : ¬ startsWith ⟨row, before, (x :: line) :: later⟩
          parentheses.opening = true := by
        simp [startsWith, parentheses, List.isPrefixOf, Ne.symm opens]
      rw [if_neg starts]
      constructor
      · rintro ⟨⟩
      · rintro ⟨-, passes, -⟩
        cases passes
        exact absurd rfl opens

theorem parentheses_read_of_text {c : Cursor} {t r : Text}
    (ahead : c.text = '(' :: (t ++ ')' :: r)) (isBalanced : Balanced t) :
    ∃ stop, parentheses.read c = .ok t stop := by
  have live : c.ahead ≠ [] := by
    intro atEnd
    rw [text, atEnd] at ahead
    cases ahead
  have split : c.text = '(' :: (t ++ [')']) ++ r := by simp [ahead]
  obtain ⟨stop, passes, live⟩ := exists_passes split live
  exact ⟨stop, parentheses_read_eq_ok_iff.mpr ⟨isBalanced, passes, live⟩⟩

theorem text_of_parentheses_read {c stop : Cursor} {t : Text}
    (read : parentheses.read c = .ok t stop) : c.text = '(' :: (t ++ ')' :: stop.text) := by
  obtain ⟨-, passes, -⟩ := parentheses_read_eq_ok_iff.mp read
  simpa using passes.text_eq

theorem parentheses_read_error {c : Cursor} (failed : ∀ t stop, parentheses.read c ≠ .ok t stop) :
    ∃ cause, cause.kind = .malformed ∧
      parentheses.read c =
        .error (.located cause c.location) (if ['('] <+: c.text then c.finish else c) := by
  have starts := startsWith_iff_prefix (show parentheses.opening ≠ [] by decide) (by decide) c
  rw [read_run] at failed ⊢
  by_cases opens : c.startsWith parentheses.opening = true
  · rw [if_pos (show ['('] <+: c.text from starts.mp opens)]
    rw [if_pos opens] at failed ⊢
    cases found : parentheses.close? 1 (c.move parentheses.opening.length).row
        (c.move parentheses.opening.length).before (c.move parentheses.opening.length).ahead with
    | none => exact ⟨_, rfl, rfl⟩
    | some span =>
        rw [found] at failed
        exact absurd rfl (failed _ _)
  · rw [if_neg (show ¬ ['('] <+: c.text from fun begins => opens (starts.mpr begins)), if_neg opens]
    exact ⟨_, rfl, rfl⟩

/-- A span of parentheses is read exactly if the text ahead is a balanced text between parentheses
and some rest. That text is the only one, it is what is read, and the cursor goes over it and the
two parentheses and nothing else. Otherwise a diagnostic names the place where the reading started.
Without an opening parenthesis the cursor stays there, and without a closing one it goes to the end
of the script. -/
theorem parentheses_read_balanced (lines : List Text) (c : Cursor) (within : Within lines c) :
    (∀ t, (∃ stop, parentheses.read c = .ok t stop) ↔
      ∃ r, c.text = '(' :: (t ++ ')' :: r) ∧ Balanced t) ∧
    (∀ t t' r r', c.text = '(' :: (t ++ ')' :: r) → c.text = '(' :: (t' ++ ')' :: r') →
      Balanced t → Balanced t' → t = t' ∧ r = r') ∧
    (∀ t stop, parentheses.read c = .ok t stop →
      Within lines stop ∧ stop.atEnd = false ∧ Passes c ('(' :: (t ++ [')'])) stop ∧
        c.text = '(' :: (t ++ ')' :: stop.text)) ∧
    ((¬ ∃ t r, c.text = '(' :: (t ++ ')' :: r) ∧ Balanced t) →
      ∃ cause stop, parentheses.read c = .error (.located cause c.location) stop ∧
        cause.kind = .malformed ∧
        if ['('] <+: c.text then stop.atEnd = true ∧ stop.location = ⟨lines.length + 1, 0⟩
        else stop = c) := by
  refine ⟨?_, ?_, ?_, ?_⟩
  · intro t
    constructor
    · rintro ⟨stop, read⟩
      exact ⟨stop.text, text_of_parentheses_read read, (parentheses_read_eq_ok_iff.mp read).1⟩
    · rintro ⟨r, ahead, isBalanced⟩
      exact parentheses_read_of_text ahead isBalanced
  · intro t t' r r' ahead ahead' isBalanced isBalanced'
    obtain ⟨stop, read⟩ := parentheses_read_of_text ahead isBalanced
    obtain ⟨stop', read'⟩ := parentheses_read_of_text ahead' isBalanced'
    rw [read] at read'
    cases read'
    rw [ahead] at ahead'
    simpa using ahead'
  · intro t stop read
    obtain ⟨-, passes, live⟩ := parentheses_read_eq_ok_iff.mp read
    exact ⟨passes.within within, by simpa [atEnd] using live, passes, text_of_parentheses_read read⟩
  · intro none
    obtain ⟨cause, kind, read⟩ := parentheses_read_error fun t stop read =>
      none ⟨t, stop.text, text_of_parentheses_read read, (parentheses_read_eq_ok_iff.mp read).1⟩
    refine ⟨cause, _, read, kind, ?_⟩
    by_cases opens : ['('] <+: c.text
    · rw [if_pos opens, if_pos opens]
      refine ⟨rfl, ?_⟩
      rw [location, finish, within.row_add_length]
      rfl
    · rw [if_neg opens, if_neg opens]

def nestedLines : List Text := ["x$(a (b".toList, [], "c)) (".toList]

theorem parentheses_read_balanced_nested :
    (∃ stop, parentheses.read ⟨0, "x$".toList, ["(a (b".toList, [], "c)) (".toList]⟩ =
        .ok "a (b\n\nc)".toList stop ∧ stop.text = " (".toList) ∧
    ∃ cause stop, parentheses.read ⟨2, "c)) ".toList, ["(".toList]⟩ =
        .error (.located cause ⟨3, 4⟩) stop ∧ cause.kind = .malformed ∧ stop.location = ⟨4, 0⟩ := by
  constructor
  · obtain ⟨read, -, passed, -⟩ := parentheses_read_balanced nestedLines
      ⟨0, "x$".toList, ["(a (b".toList, [], "c)) (".toList]⟩ rfl
    obtain ⟨stop, found⟩ := (read "a (b\n\nc)".toList).mpr ⟨" (".toList, by decide, by decide⟩
    obtain ⟨-, -, -, ahead⟩ := passed _ _ found
    exact ⟨stop, found, (List.append_cancel_left
      (show "(a (b\n\nc))".toList ++ " (".toList = _ from ahead)).symm⟩
  · obtain ⟨-, -, -, failed⟩ := parentheses_read_balanced nestedLines
      ⟨2, "c)) ".toList, ["(".toList]⟩ rfl
    obtain ⟨cause, stop, found, kind, place⟩ := failed (by
      rintro ⟨t, r, ahead, -⟩
      cases t <;> cases ahead)
    rw [if_pos (by decide)] at place
    exact ⟨cause, stop, found, kind, place.2⟩

end BracketPair

end ShellLift
