import ShellLift.Proofs.Addressed.Cursor
import ShellLift.Proofs.Delimited
import ShellLift.Proofs.Pieces

/-!
# Delimited spans in numbers

With numbers the end of a span is found by jumps: the rest of the line is searched for the first
occurrence of each token, and the search goes on behind the nearer one. The text of a span is then
cut out of the lines between two positions. Both come to what the search character by character on
cursors comes to.
-/

set_option autoImplicit false

namespace ShellLift

open Step Cursor

/-! ## From token to token -/

theorem Text.cut?_cons_of_starts {piece rest : Text} {x : Char}
    (starts : piece.isPrefixOf (x :: rest) = true) :
    cut? piece (x :: rest) = some ([], (x :: rest).drop piece.length) := by
  rw [cut?, if_pos starts]

theorem Text.cut?_cons_of_differs {piece rest : Text} {x : Char}
    (other : ¬ piece.isPrefixOf (x :: rest) = true) :
    cut? piece (x :: rest) =
      (cut? piece rest).map fun (front, back) => (x :: front, back) := by
  rw [cut?, if_neg other]

namespace BracketPair

def Search.prepend (front : Text) : Search → Search
  | closed inside rest => closed (front ++ inside) rest
  | pending depth => pending depth

theorem Search.prepend_cons (x : Char) (front : Text) (found : Search) :
    (found.prepend front).cons x = found.prepend (x :: front) := by
  cases found <;> rfl

theorem search_skip (d : BracketPair) (depth skip : Nat) (line : Text) :
    d.search depth skip line = (d.search depth 0 (line.drop skip)).prepend (line.take skip) := by
  induction line generalizing skip with
  | nil =>
      rw [List.drop_nil, List.take_nil, search, search]
      rfl
  | cons x line ih =>
      cases skip with
      | zero =>
          rw [List.drop_zero, List.take_zero]
          cases d.search depth 0 (x :: line) <;> rfl
      | succ skip =>
          rw [search, ih skip, Search.prepend_cons, List.drop_succ_cons, List.take_succ_cons]

/-- A token at the head of a line is passed as a whole. -/
theorem search_behind (d : BracketPair) (depth : Nat) {token : Text} (nonempty : token ≠ [])
    {x : Char} {line : Text} (starts : token.isPrefixOf (x :: line) = true) :
    (d.search depth (token.length - 1) line).cons x =
      (d.search depth 0 ((x :: line).drop token.length)).prepend token := by
  obtain ⟨y, rest, rfl⟩ := List.exists_cons_of_ne_nil nonempty
  obtain ⟨back, whole⟩ := List.isPrefixOf_iff_prefix.mp starts
  rw [List.cons_append, List.cons.injEq] at whole
  obtain ⟨rfl, rfl⟩ := whole
  rw [search_skip, Search.prepend_cons, List.length_cons, Nat.add_sub_cancel, List.drop_succ_cons,
    List.drop_left, List.take_left]

variable {d : BracketPair}

/-- The next token of a line is an opening one, between these two parts. -/
def OpensNext (d : BracketPair) (line front back : Text) : Prop :=
  Text.cut? d.opening line = some (front, back) ∧
    ∀ front' back', Text.cut? d.closing line = some (front', back') →
      Text.byteSize front < Text.byteSize front'

def ClosesNext (d : BracketPair) (line front back : Text) : Prop :=
  Text.cut? d.closing line = some (front, back) ∧
    ∀ front' back', Text.cut? d.opening line = some (front', back') →
      Text.byteSize front ≤ Text.byteSize front'

theorem next_token (d : BracketPair) (line : Text) :
    (Text.cut? d.opening line = none ∧ Text.cut? d.closing line = none) ∨
      (∃ front back, d.OpensNext line front back) ∨ ∃ front back, d.ClosesNext line front back := by
  unfold OpensNext ClosesNext
  rcases Text.cut? d.opening line with _ | ⟨front, back⟩
  · rcases Text.cut? d.closing line with _ | ⟨front', back'⟩
    · exact .inl ⟨rfl, rfl⟩
    · exact .inr (.inr ⟨front', back', rfl, nofun⟩)
  · rcases Text.cut? d.closing line with _ | ⟨front', back'⟩
    · exact .inr (.inl ⟨front, back, rfl, nofun⟩)
    · by_cases nearer : Text.byteSize front < Text.byteSize front'
      · exact .inr (.inl ⟨front, back, rfl, by rintro _ _ ⟨⟩; exact nearer⟩)
      · exact .inr (.inr ⟨front', back', rfl, by rintro _ _ ⟨⟩; exact Nat.le_of_not_lt nearer⟩)

theorem search_of_no_token (depth : Nat) {line : Text} (noOpening : Text.cut? d.opening line = none)
    (noClosing : Text.cut? d.closing line = none) : d.search depth 0 line = .pending depth := by
  induction line with
  | nil => rw [search]
  | cons x line ih =>
      by_cases closing : d.closing.isPrefixOf (x :: line) = true
      · rw [Text.cut?_cons_of_starts closing] at noClosing
        cases noClosing
      · by_cases opening : d.opening.isPrefixOf (x :: line) = true
        · rw [Text.cut?_cons_of_starts opening] at noOpening
          cases noOpening
        · rw [Text.cut?_cons_of_differs closing, Option.map_eq_none_iff] at noClosing
          rw [Text.cut?_cons_of_differs opening, Option.map_eq_none_iff] at noOpening
          rw [search, if_neg closing, if_neg opening, ih noOpening noClosing]
          rfl

theorem search_of_opensNext (depth : Nat) (token : d.opening ≠ []) {line front back : Text}
    (next : d.OpensNext line front back) :
    d.search depth 0 line = (d.search (depth + 1) 0 back).prepend (front ++ d.opening) := by
  obtain ⟨cut, nearer⟩ := next
  induction line generalizing front with
  | nil =>
      rw [Text.cut?, if_neg (by simpa using token)] at cut
      cases cut
  | cons x line ih =>
      have notClosing : ¬ d.closing.isPrefixOf (x :: line) = true := by
        intro closing
        exact absurd (nearer _ _ (Text.cut?_cons_of_starts closing)) (Nat.not_lt_zero _)
      by_cases opening : d.opening.isPrefixOf (x :: line) = true
      · rw [Text.cut?_cons_of_starts opening] at cut
        cases cut
        rw [search, if_neg notClosing, if_pos opening, search_behind d _ token opening,
          List.nil_append]
      · rw [Text.cut?_cons_of_differs opening] at cut
        obtain ⟨⟨rest, back'⟩, found, same⟩ := Option.map_eq_some_iff.mp cut
        cases same
        rw [search, if_neg notClosing, if_neg opening, ih found, Search.prepend_cons]
        · rfl
        · intro front' back' closes
          have farther := nearer (x :: front') back' (by
            rw [Text.cut?_cons_of_differs notClosing, closes]
            rfl)
          simp only [Text.byteSize] at farther
          omega

theorem search_of_closesNext (depth : Nat) (token : d.closing ≠ []) {line front back : Text}
    (next : d.ClosesNext line front back) :
    d.search depth 0 line =
      if depth ≤ 1 then .closed front back
      else (d.search (depth - 1) 0 back).prepend (front ++ d.closing) := by
  obtain ⟨cut, nearer⟩ := next
  induction line generalizing front with
  | nil =>
      rw [Text.cut?, if_neg (by simpa using token)] at cut
      cases cut
  | cons x line ih =>
      by_cases closing : d.closing.isPrefixOf (x :: line) = true
      · rw [Text.cut?_cons_of_starts closing] at cut
        cases cut
        rw [search, if_pos closing, search_behind d _ token closing, List.nil_append]
      · rw [Text.cut?_cons_of_differs closing] at cut
        obtain ⟨⟨rest, back'⟩, found, same⟩ := Option.map_eq_some_iff.mp cut
        cases same
        have notOpening : ¬ d.opening.isPrefixOf (x :: line) = true := by
          intro opening
          have farther := nearer _ _ (Text.cut?_cons_of_starts opening)
          have := Text.byteSize_cons_pos x rest
          simp only [Text.byteSize] at farther this
          omega
        rw [search, if_neg closing, if_neg notOpening, ih found]
        · split
          · rfl
          · rw [Search.prepend_cons]
            rfl
        · intro front' back' opens
          have farther := nearer (x :: front') back' (by
            rw [Text.cut?_cons_of_differs notOpening, opens]
            rfl)
          simp only [Text.byteSize] at farther
          omega

/-- A search that goes on behind a part of the line closes the span where the rest does. -/
theorem close?_of_prepend {depth deeper row : Nat} {before front back : Text} {later : List Text}
    (search : d.search depth 0 (front ++ back) = (d.search deeper 0 back).prepend front) :
    d.close? depth row before ((front ++ back) :: later) =
      (d.close? deeper row (before ++ front) (back :: later)).map fun (inside, stop) =>
        (front ++ inside, stop) := by
  rw [close?, close?, search]
  cases d.search deeper 0 back with
  | closed inside rest => simp [Search.prepend]
  | pending depth =>
      dsimp only [Search.prepend]
      split
      · rw [Option.map_map]
        congr 1
        funext span
        obtain ⟨inside, stop⟩ := span
        simp
      · rfl

theorem close?_live {depth row : Nat} {before inside : Text} {lines : List Text} {stop : Cursor}
    (found : d.close? depth row before lines = some (inside, stop)) : stop.ahead ≠ [] := by
  induction lines generalizing depth row before inside with
  | nil => cases found
  | cons line later ih =>
      rw [close?] at found
      split at found
      · cases found
        exact List.cons_ne_nil _ _
      · split at found
        · obtain ⟨⟨rest, stop'⟩, below, same⟩ := Option.map_eq_some_iff.mp found
          cases same
          exact ih below
        · cases found

end BracketPair

namespace Quotation

/-- The first mark closes the quotation unless it is escaped; then the search goes on behind it. -/
theorem close?_eq_cut (style : Quotation) (behind line : Text) :
    style.close? behind line =
      match Text.cut? [style.mark] line with
      | none => none
      | some (front, back) =>
        if isEscaped (front.reverse ++ behind) then
          (style.close? (style.mark :: (front.reverse ++ behind)) back).map fun (inside, after) =>
            (front ++ style.mark :: inside, after)
        else some (front, back) := by
  induction line generalizing behind with
  | nil => rfl
  | cons x line ih =>
      by_cases marks : x = style.mark
      · subst marks
        have starts : [style.mark].isPrefixOf (style.mark :: line) = true := by
          simp [List.isPrefixOf]
        rw [Text.cut?_cons_of_starts starts, close?]
        cases escaped : isEscaped behind <;> simp [escaped]
      · have other : ¬ [style.mark].isPrefixOf (x :: line) = true := by
          simp [List.isPrefixOf, Ne.symm marks]
        rw [Text.cut?_cons_of_differs other, close?, if_neg (by simp [marks]), ih]
        cases Text.cut? [style.mark] line with
        | none => rfl
        | some cut =>
            obtain ⟨front, back⟩ := cut
            simp only [Option.map_some, List.reverse_cons, List.append_assoc, List.singleton_append]
            split
            · rw [Option.map_map]
              rfl
            · rfl

theorem isEscaped_concat_mark (style : Quotation) (behind : Text) :
    isEscaped (behind ++ [style.mark]) = isEscaped behind := by
  have stops : (style.mark == '\\') = false := by cases style <;> rfl
  unfold isEscaped
  congr 2
  induction behind with
  | nil => simp [stops]
  | cons x behind ih =>
      rw [List.cons_append, List.takeWhile_cons, List.takeWhile_cons]
      split
      · rw [List.length_cons, List.length_cons, ih]
      · rfl

end Quotation

/-! ## The text between two positions -/

namespace Cursor

theorem Passes.row_le {c d : Cursor} {t : Text} (passes : Passes c t d) : c.row ≤ d.row := by
  induction passes with
  | stay c => exact Nat.le_refl _
  | char _ ih => exact ih
  | line _ ih => exact Nat.le_of_succ_le ih
  | last => exact Nat.le_succ _

theorem Passes.on_row {c d : Cursor} {t : Text} (passes : Passes c t d) (row : d.row = c.row)
    (live : d.ahead ≠ []) :
    ∃ rest later, c.ahead = (t ++ rest) :: later ∧ d = ⟨c.row, c.before ++ t, rest :: later⟩ := by
  induction passes with
  | stay c =>
      obtain ⟨rest, later, ahead⟩ := List.exists_cons_of_ne_nil live
      refine ⟨rest, later, ahead, ?_⟩
      rw [List.append_nil, ← ahead]
  | char _ ih =>
      obtain ⟨rest, later, ahead, rfl⟩ := ih row live
      cases ahead
      exact ⟨rest, _, rfl, by simp⟩
  | line passes _ =>
      have := passes.row_le
      dsimp only at this row
      omega
  | last => exact absurd rfl live

/-- The text between positions on different lines: the end of the first line, the lines between, and
the start of the last line. -/
theorem Passes.between_rows {lines : List Text} {c d : Cursor} {t : Text} (passes : Passes c t d)
    (within : Within lines c) (rows : c.row < d.row) (live : d.ahead ≠ []) :
    ∃ left later, c.ahead = left :: later ∧
      t = List.intercalate ['\n']
        (left :: ((lines.drop (c.row + 1)).take (d.row - (c.row + 1)) ++ [d.before])) := by
  induction passes with
  | stay c => exact absurd rows (Nat.lt_irrefl _)
  | @char row before line t x later d passes ih =>
      have moved : Within lines ⟨row, before ++ [x], line :: later⟩ :=
        (Passes.char (.stay _)).within within
      obtain ⟨left, later, ahead, rfl⟩ := ih moved rows live
      cases ahead
      refine ⟨_, _, rfl, ?_⟩
      rw [List.intercalate_cons_of_ne_nil (by simp), List.intercalate_cons_of_ne_nil (by simp)]
      rfl
  | @line row before next t later d passes ih =>
      have moved : Within lines ⟨row + 1, [], next :: later⟩ :=
        (Passes.line (.stay _)).within within
      refine ⟨_, _, rfl, ?_⟩
      dsimp only at rows ⊢
      have below : lines.drop (row + 1) = next :: later := moved
      rcases Nat.eq_or_lt_of_le passes.row_le with same | further
      · obtain ⟨rest, later, ahead, rfl⟩ := passes.on_row same.symm live
        simp [List.intercalate]
      · obtain ⟨left, later', ahead, rfl⟩ := ih moved further live
        cases ahead
        dsimp only at further ⊢
        obtain ⟨count, more⟩ := Nat.exists_eq_add_of_lt further
        have first : d.row - (row + 1) = count + 1 := by omega
        have others : d.row - (row + 1 + 1) = count := by omega
        rw [below, first, others, List.take_succ_cons, ← List.drop_drop, below, List.drop_succ_cons,
          List.drop_zero]
        simp [List.intercalate]
  | last => exact absurd rfl live

end Cursor

namespace Addressed

/-! ## Balanced spans, checked -/

def find? (piece text : Text) : Option Nat :=
  (Text.cut? piece text).map fun (front, _) => Text.byteSize front

def rows? (lines : List Text) (start stop : Nat) : Option (List Text) :=
  if start ≤ stop ∧ stop ≤ lines.length then some ((lines.drop start).take (stop - start)) else none

section

variable (lines : List Text)

def passOpening (d : BracketPair) (offset depth : Nat) : Checked Mark (Nat × Nat ⊕ Nat) :=
  pure (.inl (offset + Text.byteSize d.opening, depth + 1))

/-- Goes past a closing token at an offset, which may be the end of the span. -/
def passClosing (d : BracketPair) (offset depth : Nat) : Checked Mark (Nat × Nat ⊕ Nat) := do
  let outer ← difference depth 1
  let behind := offset + Text.byteSize d.closing
  if outer = 0 then pure (.inr behind) else pure (.inl (behind, outer))

/-- Goes past the next token from an offset of the line on, or to the next line. -/
def bracketRound (d : BracketPair) (start : Location) (work : Nat × Nat) :
    Checked Mark (Nat × Nat ⊕ Nat) := do
  match ← line? lines with
  | none => report (.unclosed d.closing) start
  | some line =>
    let rest ← orFault .slice (Text.dropBytes? line work.1)
    match find? d.opening rest, find? d.closing rest with
    | none, none =>
      if d.multiline then
        if ← nextLine lines then pure (.inl (0, work.2))
        else report (.unclosed d.closing) start
      else report (.unclosed d.closing) start
    | some opening, some closing =>
      if opening + work.1 < closing + work.1 then passOpening d (opening + work.1) work.2
      else passClosing d (closing + work.1) work.2
    | some opening, none => passOpening d (opening + work.1) work.2
    | none, some closing => passClosing d (closing + work.1) work.2

/-- The text from a mark up to an offset of the line. -/
def textFrom (d : BracketPair) (start : Mark) (stop : Nat) : Checked Mark Text := do
  let row := (← get).row
  if row = start.row then
    match ← line? lines with
    | none => report (.unclosed d.closing) start.location
    | some line => orFault .slice (Text.slice? line start.offset stop)
  else
    let _ ← difference row start.row
    let first ← orFault .slice (Text.dropBytes? (← orFault .index lines[start.row]?) start.offset)
    let between ← orFault .index (rows? lines (start.row + 1) row)
    let last ← orFault .slice (Text.takeBytes? (← orFault .index lines[row]?) stop)
    pure (List.intercalate ['\n'] (first :: (between ++ [last])))

def takeSpan (d : BracketPair) (start : Mark) (stop : Nat) : Checked Mark Text := do
  let text ← textFrom lines d start stop
  seek lines stop
  ensure .assertion (d.opening.isPrefixOf text ∧ d.closing.isSuffixOf text)
  if d.keepsOuter then pure text
  else
    let inner ← difference (Text.byteSize text) (Text.byteSize d.closing)
    orFault .slice (Text.slice? text (Text.byteSize d.opening) inner)

def bracketed (d : BracketPair) : Checked Mark Text := do
  ensure .assertion (d.opening ≠ [] ∧ d.closing ≠ [])
  let start ← get
  if ← startsWith lines d.opening then
    let stop ← loop (bracketRound lines d start.location) (limit lines)
      (start.offset + Text.byteSize d.opening, 1)
    takeSpan lines d start stop
  else report (.expectedOpening d.opening) start.location

/-! ## Quotations, checked -/

def quoteRound (style : Quotation) (start : Location) (rest : Text) (work : Nat) :
    Checked Mark (Nat ⊕ Nat) := do
  let tail ← orFault .slice (Text.dropBytes? rest work)
  match find? [style.mark] tail with
  | none =>
    if (lines.drop ((← get).row + 1)).any (·.contains style.mark) then
      report (.multilineQuote style) start
    else report (.unclosedQuote style) start
  | some found =>
    let front ← orFault .slice (Text.takeBytes? rest (found + work))
    if Quotation.isEscaped front.reverse then pure (.inl (found + work + 1))
    else pure (.inr (found + work))

def quoted (style : Quotation) : Checked Mark Text := do
  let start ← location
  let rest := (← rest? lines).getD []
  if rest.head? = some style.mark then
    let stop ← loop (quoteRound lines style start rest) (limit lines) 1
    let inside ← orFault .slice (Text.slice? rest 1 stop)
    advance lines (stop + 1)
    pure inside
  else report (.expectedQuote style) start

end

/-! ## Balanced spans -/

section

variable {lines : List Text} {d : BracketPair} {start : Location}

/-- What the search for the end of a span comes to. The position is still at the start of its line,
or where the span starts. -/
def scanned (d : BracketPair) (start : Location) (c : Cursor) :
    Option (Text × Cursor) → EStateM.Result Stop Mark Nat
  | some (_, stop) =>
    .ok (Text.byteSize stop.before) (if stop.row = c.row then markOf c else ⟨stop.row, 0⟩)
  | none =>
    .error (.reported (.located (.unclosed d.closing) start))
      (if d.multiline then markOf c.finish else markOf c)

theorem scanned_map (c : Cursor) (front : Text) (found : Option (Text × Cursor)) :
    scanned d start c (found.map fun (inside, stop) => (front ++ inside, stop)) =
      scanned d start c found := by
  cases found <;> rfl

structure OnLine (lines : List Text) (c : Cursor) (done rest : Text)
    (later : List Text) : Prop where
  within : Within lines c
  ahead : ∃ left, c.ahead = left :: later ∧ c.before ++ left = done ++ rest

theorem OnLine.currentLine {c : Cursor} {done rest : Text} {later : List Text}
    (onLine : OnLine lines c done rest later) : c.currentLine? = some (done ++ rest) := by
  obtain ⟨left, ahead, whole⟩ := onLine.ahead
  rw [currentLine?, Cursor.rest?, ahead, List.head?_cons, Option.map_some, whole]

theorem OnLine.pass {c : Cursor} {done rest : Text} {later : List Text}
    (onLine : OnLine lines c done rest later) {front back : Text} (shape : rest = front ++ back) :
    OnLine lines c (done ++ front) back later := by
  obtain ⟨left, ahead, whole⟩ := onLine.ahead
  exact ⟨onLine.within, left, ahead, by rw [whole, shape, List.append_assoc]⟩

theorem OnLine.nextLine {c : Cursor} {done rest next : Text} {below : List Text}
    (onLine : OnLine lines c done rest (next :: below)) :
    OnLine lines c.nextLine [] next below := by
  obtain ⟨left, ahead, -⟩ := onLine.ahead
  have moved := follows_nextRow c.row c.before left (next :: below)
  rw [← ahead] at moved
  have same : c.nextLine = ⟨c.row + 1, [], next :: below⟩ := by simp [Cursor.nextLine, ahead]
  rw [same]
  exact ⟨moved.within onLine.within, next, rfl, rfl⟩

variable {c : Cursor} {done rest : Text} {later : List Text}

theorem bracketRound_no_token (onLine : OnLine lines c done rest later) (depth : Nat)
    (noOpening : Text.cut? d.opening rest = none) (noClosing : Text.cut? d.closing rest = none) :
    bracketRound lines d start (Text.byteSize done, depth) (markOf c) =
      if d.multiline ∧ later ≠ [] then .ok (.inl (0, depth)) (markOf c.nextLine)
      else .error (.reported (.located (.unclosed d.closing) start))
        (if d.multiline then markOf c.nextLine else markOf c) := by
  obtain ⟨left, ahead, -⟩ := onLine.ahead
  rw [bracketRound, bind_run, line?_run onLine.within, onLine.currentLine]
  dsimp only
  rw [Text.dropBytes?_append, bind_run, orFault_run]
  simp only [find?, noOpening, noClosing, Option.map_none]
  rw [ite_run, bind_run, nextLine_run onLine.within ahead]
  cases d.multiline with
  | false => rfl
  | true => cases later <;> rfl

theorem bracketRound_opensNext (onLine : OnLine lines c done rest later) (depth : Nat)
    {front back : Text} (next : d.OpensNext rest front back) :
    bracketRound lines d start (Text.byteSize done, depth) (markOf c) =
      .ok (.inl (Text.byteSize (done ++ (front ++ d.opening)), depth + 1)) (markOf c) := by
  obtain ⟨cut, nearer⟩ := next
  have offset : Text.byteSize (done ++ (front ++ d.opening)) =
      Text.byteSize front + Text.byteSize done + Text.byteSize d.opening := by
    simp only [Text.byteSize_append]
    omega
  rw [bracketRound, bind_run, line?_run onLine.within, onLine.currentLine, offset]
  dsimp only
  rw [Text.dropBytes?_append, bind_run, orFault_run]
  simp only [find?, cut, Option.map_some]
  rcases closed : Text.cut? d.closing rest with _ | ⟨front', back'⟩
  · rfl
  · have before := nearer front' back' closed
    simp only [Option.map_some]
    rw [if_pos (Nat.add_lt_add_right before _)]
    rfl

theorem bracketRound_closesNext (onLine : OnLine lines c done rest later) {depth : Nat}
    (positive : 0 < depth) {front back : Text} (next : d.ClosesNext rest front back) :
    bracketRound lines d start (Text.byteSize done, depth) (markOf c) =
      if depth ≤ 1 then .ok (.inr (Text.byteSize (done ++ (front ++ d.closing)))) (markOf c)
      else
        .ok (.inl (Text.byteSize (done ++ (front ++ d.closing)), depth - 1)) (markOf c) := by
  obtain ⟨cut, nearer⟩ := next
  have offset : Text.byteSize (done ++ (front ++ d.closing)) =
      Text.byteSize front + Text.byteSize done + Text.byteSize d.closing := by
    simp only [Text.byteSize_append]
    omega
  have passed : passClosing d (Text.byteSize front + Text.byteSize done) depth (markOf c) =
      if depth ≤ 1 then .ok (.inr (Text.byteSize (done ++ (front ++ d.closing)))) (markOf c)
      else
        .ok (.inl (Text.byteSize (done ++ (front ++ d.closing)), depth - 1)) (markOf c) := by
    rw [passClosing, bind_run, difference_run positive, offset]
    simp only [ite_run, Nat.sub_eq_zero_iff_le]
    rfl
  rw [bracketRound, bind_run, line?_run onLine.within, onLine.currentLine]
  dsimp only
  rw [Text.dropBytes?_append, bind_run, orFault_run]
  simp only [find?, cut, Option.map_some]
  rcases opened : Text.cut? d.opening rest with _ | ⟨front', back'⟩
  · exact passed
  · have after := nearer front' back' opened
    simp only [Option.map_some]
    rw [if_neg (by omega)]
    exact passed

/-- A search that goes over the end of a line ends below it. -/
theorem scanned_nextLine {next : Text} {below : List Text}
    (onLine : OnLine lines c done rest (next :: below)) (multiline : d.multiline = true)
    (depth : Nat) :
    scanned d start c.nextLine (d.close? depth c.nextLine.row [] (next :: below)) =
      scanned d start c ((d.close? depth (c.row + 1) [] (next :: below)).map
        fun (inside, stop) => (rest ++ '\n' :: inside, stop)) := by
  obtain ⟨left, ahead, -⟩ := onLine.ahead
  have moved : c.nextLine = ⟨c.row + 1, [], next :: below⟩ := by simp [Cursor.nextLine, ahead]
  rw [moved]
  cases found : d.close? depth (c.row + 1) [] (next :: below) with
  | none =>
      simp only [scanned, Option.map_none, multiline, if_true, finish, ahead, List.length_cons,
        markOf, Nat.add_assoc, Nat.add_comm 1]
  | some span =>
      obtain ⟨inside, stop⟩ := span
      have lower : c.row + 1 ≤ stop.row := (d.close?_passes _ _ _ _ _ _ found).row_le
      have other : ¬ stop.row = c.row := by omega
      simp only [scanned, Option.map_some, if_neg other, markOf]
      split
      · rename_i same
        rw [same]
        rfl
      · rfl

theorem loop_bracketRound (opens : d.opening ≠ []) (closes : d.closing ≠ []) {rounds depth : Nat}
    (onLine : OnLine lines c done rest later) (positive : 0 < depth)
    (enough : linesSize (rest :: later) < rounds) :
    loop (bracketRound lines d start) rounds (Text.byteSize done, depth) (markOf c) =
      scanned d start c (d.close? depth c.row done (rest :: later)) := by
  induction rounds generalizing depth c done rest later with
  | zero => exact absurd enough (Nat.not_lt_zero _)
  | succ rounds ih =>
      simp only [linesSize] at enough
      -- Behind a token the rest of the line is shorter.
      have passed : ∀ (deeper : Nat) (front token back : Text), 0 < deeper → token ≠ [] →
          rest = front ++ token ++ back →
          d.search depth 0 rest = (d.search deeper 0 back).prepend (front ++ token) →
          loop (bracketRound lines d start) rounds
            (Text.byteSize (done ++ (front ++ token)), deeper)
              (markOf c) =
            scanned d start c (d.close? depth c.row done (rest :: later)) := by
        intro deeper front token back positive' nonempty shape search
        have length := List.length_pos_iff.mpr nonempty
        have behind := onLine.pass shape
        subst shape
        rw [d.close?_of_prepend search, scanned_map]
        refine ih behind positive' ?_
        simp only [linesSize, List.length_append] at enough ⊢
        omega
      rw [loop_run]
      rcases d.next_token rest with ⟨noOpening, noClosing⟩ |
        ⟨front, back, next⟩ | ⟨front, back, next⟩
      · rw [bracketRound_no_token onLine depth noOpening noClosing, BracketPair.close?,
          BracketPair.search_of_no_token depth noOpening noClosing]
        by_cases multiline : d.multiline = true
        · cases later with
          | nil =>
              obtain ⟨left, ahead, -⟩ := onLine.ahead
              simp [multiline, BracketPair.close?, scanned, Cursor.nextLine, finish, ahead]
          | cons next below =>
              simp only [multiline, ne_eq, reduceCtorEq, not_false_eq_true, and_self, if_true]
              rw [← scanned_nextLine onLine multiline]
              refine ih onLine.nextLine positive ?_
              simp only [linesSize] at enough ⊢
              omega
        · simp [multiline, scanned]
      · have search := BracketPair.search_of_opensNext depth opens next
        rw [bracketRound_opensNext onLine depth next]
        exact passed _ _ _ _ (Nat.succ_pos _) opens
          (by rw [List.append_assoc, ← Text.eq_of_cut? next.1]) search
      · have search := BracketPair.search_of_closesNext depth closes next
        rw [bracketRound_closesNext onLine positive next]
        by_cases outer : depth ≤ 1
        · rw [if_pos outer] at search ⊢
          rw [BracketPair.close?, search]
          simp only [scanned, if_true, List.append_assoc]
        · rw [if_neg outer] at search ⊢
          exact passed _ _ _ _ (by omega) closes
            (by rw [List.append_assoc, ← Text.eq_of_cut? next.1]) search

theorem textFrom_run {t : Text} {stop : Cursor} (within : Within lines c) (passes : Passes c t stop)
    (live : stop.ahead ≠ []) :
    textFrom lines d (markOf c) (Text.byteSize stop.before)
        (if stop.row = c.row then markOf c else ⟨stop.row, 0⟩) =
      .ok t (if stop.row = c.row then markOf c else ⟨stop.row, 0⟩) := by
  by_cases row : stop.row = c.row
  · obtain ⟨rest, later, ahead, rfl⟩ := passes.on_row row live
    have line : c.currentLine? = some (c.before ++ (t ++ rest)) := by
      rw [currentLine?, Cursor.rest?, ahead]
      rfl
    rw [if_pos rfl, textFrom, bind_run, get_run]
    dsimp only
    rw [if_pos rfl, bind_run, line?_run within, line]
    dsimp only [markOf]
    rw [Text.byteSize_append, Text.slice?_append]
    rfl
  · have below : c.row < stop.row := by
      have := passes.row_le
      omega
    obtain ⟨left, later, ahead, text⟩ := passes.between_rows within below live
    have inside : Within lines stop := passes.within within
    have bound := inside.row_lt live
    obtain ⟨rest, later', ahead'⟩ := List.exists_cons_of_ne_nil live
    have between : rows? lines (c.row + 1) stop.row =
        some ((lines.drop (c.row + 1)).take (stop.row - (c.row + 1))) := if_pos ⟨below, bound.le⟩
    rw [if_neg row, textFrom, bind_run, get_run]
    dsimp only
    rw [if_neg (show ¬ stop.row = (markOf c).row from row)]
    dsimp only [markOf]
    rw [(within.line_eq ahead).1, (inside.line_eq ahead').1, between, bind_run,
      difference_run below.le]
    dsimp only
    rw [bind_run, orFault_run]
    dsimp only
    rw [Text.dropBytes?_append, bind_run, orFault_run]
    dsimp only
    rw [bind_run, orFault_run]
    dsimp only
    rw [bind_run, orFault_run]
    dsimp only
    rw [Text.takeBytes?_append, bind_run, orFault_run, text]
    rfl

/-- The position goes behind the span only now. -/
theorem seek_run {stop : Cursor} (forward : c.location ≤ stop.location)
    (inside : Within lines stop) :
    seek lines (Text.byteSize stop.before) (if stop.row = c.row then markOf c else ⟨stop.row, 0⟩) =
      .ok () (markOf stop) := by
  have ahead : (if stop.row = c.row then markOf c else (⟨stop.row, 0⟩ : Mark)).offset ≤
      Text.byteSize stop.before := by
    split
    · rename_i same
      rcases forward with below | ⟨-, further⟩
      · dsimp only [Cursor.location] at below
        omega
      · exact further
    · exact Nat.zero_le _
  have row : (if stop.row = c.row then markOf c else (⟨stop.row, 0⟩ : Mark)).row = stop.row := by
    split
    · rename_i same
      exact same.symm
    · rfl
  rw [seek, bind_run, get_run]
  dsimp only
  rw [bind_run, ensure_run ahead, row]
  exact moveTo_run inside _

/-- Without its outer tokens the text of a span is the text inside. -/
theorem slice?_inside (d : BracketPair) (inside : Text) :
    Text.slice? (d.opening ++ (inside ++ d.closing)) (Text.byteSize d.opening)
        (Text.byteSize (d.opening ++ (inside ++ d.closing)) - Text.byteSize d.closing) =
      some inside := by
  have stop : Text.byteSize (d.opening ++ (inside ++ d.closing)) - Text.byteSize d.closing =
      Text.byteSize d.opening + Text.byteSize inside := by
    simp only [Text.byteSize_append]
    omega
  rw [stop, Text.slice?_append]

theorem takeSpan_run {inside : Text} {stop : Cursor} (within : Within lines c)
    (passes : Passes c (d.opening ++ (inside ++ d.closing)) stop) (live : stop.ahead ≠ []) :
    takeSpan lines d (markOf c) (Text.byteSize stop.before)
        (if stop.row = c.row then markOf c else ⟨stop.row, 0⟩) =
      .ok (d.wrap inside) (markOf stop) := by
  have tokens : d.opening.isPrefixOf (d.opening ++ (inside ++ d.closing)) = true ∧
      d.closing.isSuffixOf (d.opening ++ (inside ++ d.closing)) = true := by
    rw [List.isPrefixOf_iff_prefix, List.isSuffixOf_iff_suffix]
    refine ⟨List.prefix_append _ _, ?_⟩
    rw [← List.append_assoc]
    exact List.suffix_append _ _
  have fits : Text.byteSize d.closing ≤ Text.byteSize (d.opening ++ (inside ++ d.closing)) := by
    simp only [Text.byteSize_append]
    omega
  rw [takeSpan, bind_run, textFrom_run within passes live]
  dsimp only
  rw [bind_run, seek_run passes.location_le (passes.within within)]
  dsimp only
  rw [bind_run, ensure_run tokens]
  dsimp only
  rw [ite_run, BracketPair.wrap]
  split
  · rw [List.append_assoc]
    rfl
  · rw [bind_run, difference_run fits]
    dsimp only
    rw [slice?_inside]
    rfl

theorem tracks_bracketed {b : Cursor} (within : Within lines b) (opens : d.opening ≠ [])
    (closes : d.closing ≠ []) : Tracks b (bracketed lines d) d.read := by
  intro c (follows : Follows b c)
  have inside := follows.within within
  rw [bracketed, bind_run, ensure_run ⟨opens, closes⟩, BracketPair.read_run]
  dsimp only
  rw [bind_run, get_run]
  dsimp only
  rw [bind_run, startsWith_run inside]
  dsimp only
  rw [ite_run]
  split
  · rename_i starts
    cases ahead : c.ahead with
    | nil => simp [Cursor.startsWith, ahead] at starts
    | cons line later =>
        rw [Cursor.startsWith, ahead, List.isPrefixOf_iff_prefix] at starts
        obtain ⟨rest, rfl⟩ := starts
        have moved : c.move d.opening.length = ⟨c.row, c.before ++ d.opening, rest :: later⟩ := by
          simp [move, ahead]
        have onLine : OnLine lines c (c.before ++ d.opening) rest later :=
          ⟨inside, _, ahead, by rw [List.append_assoc]⟩
        have enough : linesSize (rest :: later) < limit lines := by
          have := size_lt_limit inside
          simp only [size, ahead, linesSize, List.length_append] at this ⊢
          omega
        have scan : loop (bracketRound lines d (markOf c).location) (limit lines)
            ((markOf c).offset + Text.byteSize d.opening, 1) (markOf c) =
            scanned d c.location c (d.close? 1 c.row (c.before ++ d.opening) (rest :: later)) := by
          rw [← loop_bracketRound opens closes onLine Nat.one_pos enough, Text.byteSize_append]
          rfl
        rw [bind_run, moved, scan]
        cases found : d.close? 1 c.row (c.before ++ d.opening) (rest :: later) with
        | none =>
            dsimp only [scanned]
            rw [← apply_ite markOf]
            refine .error ?_
            show Follows b (if d.multiline then c.finish else c)
            split
            · refine follows.trans (follows_finish c fun atEnd => ?_)
              rw [ahead] at atEnd
              cases atEnd
            · exact follows
        | some span =>
            obtain ⟨text, stop⟩ := span
            have opened := passes_append c.row c.before d.opening rest later
            rw [← ahead] at opened
            have passes := opened.trans (d.close?_passes _ _ _ _ _ _ found)
            dsimp only [scanned]
            rw [takeSpan_run inside passes (BracketPair.close?_live found)]
            exact .ok (follows.trans ⟨_, passes⟩)
  · exact .error follows

/-! ## Quotations -/

theorem Quotation.byteSize_mark (style : Quotation) : Text.byteSize [style.mark] = 1 := by
  cases style <;> rfl

theorem quoteRound_run (style : Quotation) {left : Text} (within : Within lines c)
    (ahead : c.ahead = left :: later) (done todo : Text) :
    quoteRound lines style start (style.mark :: (done ++ todo)) (Text.byteSize (style.mark :: done))
        (markOf c) =
      match Text.cut? [style.mark] todo with
      | none => .error (.reported (.located (style.openCause later) start)) (markOf c)
      | some (front, _) =>
        if Quotation.isEscaped (front.reverse ++ done.reverse) then
          .ok (.inl (Text.byteSize (style.mark :: (done ++ (front ++ [style.mark]))))) (markOf c)
        else .ok (.inr (Text.byteSize (style.mark :: (done ++ front)))) (markOf c) := by
  rw [quoteRound, bind_run, ← List.cons_append, Text.dropBytes?_append, orFault_run]
  dsimp only
  unfold find?
  rcases cut : Text.cut? [style.mark] todo with _ | ⟨front, back⟩
  · dsimp only [Option.map_none]
    rw [bind_run, get_run]
    dsimp only [markOf]
    rw [(within.line_eq ahead).2, ite_run, Quotation.openCause]
    split <;> rfl
  · have shape := Text.eq_of_cut? cut
    have offset : Text.byteSize front + Text.byteSize (style.mark :: done) =
        Text.byteSize (style.mark :: (done ++ front)) := by
      simp only [Text.byteSize, Text.byteSize_append]
      omega
    have taken : Text.takeBytes? (style.mark :: done ++ todo)
        (Text.byteSize (style.mark :: (done ++ front))) = some (style.mark :: (done ++ front)) := by
      have taken := Text.takeBytes?_append (style.mark :: (done ++ front)) ([style.mark] ++ back)
      rwa [List.cons_append, List.append_assoc, ← shape, ← List.cons_append] at taken
    have escaped : Quotation.isEscaped (style.mark :: (done ++ front)).reverse =
        Quotation.isEscaped (front.reverse ++ done.reverse) := by
      rw [List.reverse_cons, Quotation.isEscaped_concat_mark, List.reverse_append]
    have behind : Text.byteSize (style.mark :: (done ++ front)) + 1 =
        Text.byteSize (style.mark :: (done ++ (front ++ [style.mark]))) := by
      have one := Quotation.byteSize_mark style
      simp only [Text.byteSize, Text.byteSize_append] at one ⊢
      omega
    dsimp only [Option.map_some]
    rw [offset, taken, bind_run, orFault_run]
    dsimp only
    rw [escaped, ite_run, behind]
    rfl

/-- The search for the end of a quotation whose first part is done. -/
theorem loop_quoteRound (style : Quotation) {left : Text} (within : Within lines c)
    (ahead : c.ahead = left :: later) (done todo : Text) {rounds : Nat}
    (enough : todo.length < rounds) :
    loop (quoteRound lines style start (style.mark :: (done ++ todo))) rounds
        (Text.byteSize (style.mark :: done)) (markOf c) =
      match style.close? done.reverse todo with
      | some (inside, _) => .ok (Text.byteSize (style.mark :: (done ++ inside))) (markOf c)
      | none => .error (.reported (.located (style.openCause later) start)) (markOf c) := by
  induction rounds generalizing done todo with
  | zero => exact absurd enough (Nat.not_lt_zero _)
  | succ rounds ih =>
      rw [loop_run, quoteRound_run style within ahead, style.close?_eq_cut]
      rcases cut : Text.cut? [style.mark] todo with _ | ⟨front, back⟩
      · rfl
      · have shape := Text.eq_of_cut? cut
        dsimp only
        by_cases escaped : Quotation.isEscaped (front.reverse ++ done.reverse) = true
        · have again := ih (done ++ (front ++ [style.mark])) back (by
            rw [shape] at enough
            simp only [List.length_append, List.length_singleton] at enough
            omega)
          have same : done ++ (front ++ [style.mark]) ++ back = done ++ todo := by
            rw [shape, List.append_assoc, List.append_assoc]
          have reversed : (done ++ (front ++ [style.mark])).reverse =
              style.mark :: (front.reverse ++ done.reverse) := by simp
          rw [same, reversed] at again
          rw [if_pos escaped, if_pos escaped]
          dsimp only
          rw [again]
          cases style.close? (style.mark :: (front.reverse ++ done.reverse)) back <;> simp
        · rw [if_neg escaped, if_neg escaped]

section

variable {style : Quotation} {line text back : Text}

theorem slice?_of_close? (found : style.close? [] line = some (text, back)) :
    Text.slice? (style.mark :: line) 1 (Text.byteSize (style.mark :: text)) = some text := by
  have cut := Text.slice?_append [style.mark] text (style.mark :: back)
  rw [← Text.byteSize_append, Quotation.byteSize_mark,
    ← Quotation.close?_eq style [] line text back found] at cut
  exact cut

theorem move_of_close? (found : style.close? [] line = some (text, back)) (row : Nat)
    (before : Text) (later : List Text) :
    Cursor.move ⟨row, before, (style.mark :: line) :: later⟩ (text.length + 2) =
      ⟨row, before ++ (style.mark :: (text ++ [style.mark])), back :: later⟩ := by
  have whole : style.mark :: line = style.mark :: (text ++ [style.mark]) ++ back := by
    rw [Quotation.close?_eq style [] line text back found]
    simp
  have long : text.length + 2 = (style.mark :: (text ++ [style.mark])).length := by simp
  rw [whole, long, move_append]

end

theorem tracks_quoted {b : Cursor} (within : Within lines b) (style : Quotation) :
    Tracks b (quoted lines style) style.read := by
  intro c (follows : Follows b c)
  have inside := follows.within within
  have one := Quotation.byteSize_mark style
  rw [quoted, bind_run, location_run]
  dsimp only
  rw [bind_run, rest?_run inside]
  dsimp only
  obtain ⟨row, before, ahead⟩ := c
  rcases ahead with _ | ⟨_ | ⟨first, line⟩, later⟩
  · exact .error follows
  · exact .error follows
  · have rest : Cursor.rest? ⟨row, before, (first :: line) :: later⟩ = some (first :: line) := rfl
    rw [Quotation.read_run]
    by_cases marks : first = style.mark
    · subst marks
      have enough : line.length < limit lines := by
        have := size_lt_limit inside
        simp only [size, linesSize, List.length_cons] at this
        omega
      have scan : ∀ start, loop (quoteRound lines style start (style.mark :: line)) (limit lines) 1
          (markOf ⟨row, before, (style.mark :: line) :: later⟩) =
            match style.close? [] line with
            | some (text, _) => .ok (Text.byteSize (style.mark :: text))
                (markOf ⟨row, before, (style.mark :: line) :: later⟩)
            | none => .error (.reported (.located (style.openCause later) start))
                (markOf ⟨row, before, (style.mark :: line) :: later⟩) := by
        intro start
        rw [← one]
        exact loop_quoteRound style inside rfl [] line enough
      rw [rest, Option.getD_some, List.head?_cons, if_pos rfl, if_pos rfl, bind_run, scan]
      cases found : style.close? [] line with
      | none => exact .error follows
      | some closed =>
          obtain ⟨text, back⟩ := closed
          have whole : style.mark :: line = style.mark :: (text ++ [style.mark]) ++ back := by
            rw [Quotation.close?_eq style [] line text back found]
            simp
          have behind : Text.byteSize (style.mark :: text) + 1 =
              Text.byteSize (style.mark :: (text ++ [style.mark])) := by
            simp only [Text.byteSize, Text.byteSize_append] at one ⊢
            omega
          have moved := follows_move ⟨row, before, (style.mark :: line) :: later⟩ (text.length + 2)
          have place := move_of_close? found row before later
          dsimp only
          rw [bind_run, slice?_of_close? found, orFault_run]
          dsimp only
          rw [behind, bind_run, advance_run inside (by rw [whole]), place]
          rw [place] at moved
          exact .ok (follows.trans moved)
    · rw [rest, Option.getD_some, List.head?_cons, if_neg (by simpa using marks), if_neg marks]
      exact .error follows

end

end Addressed

end ShellLift
