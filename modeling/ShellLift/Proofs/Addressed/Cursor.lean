import ShellLift.Proofs.Offsets

/-!
# Positions as numbers

A position can also be kept as two numbers beside the lines of the script: a line, and how many
bytes of it are behind. Every look at the script is then a cut out of a line, and a cut by numbers
can go wrong. It may end inside a character or behind the end of the line, a difference may be below
zero, and a position may be none of the script. Here each of these is checked when it happens, and
a step that would go wrong stops with a fault, which is never a diagnostic of a script.

A checked step mirrors a step on cursors if from every position it comes to the same value or the
same diagnostic at the same position. So it stops with no fault.
-/

set_option autoImplicit false

namespace ShellLift.Addressed

open Step Cursor

/-! ## Faults -/

/-- A line, from zero, and a number of bytes of that line. -/
structure Mark where
  row : Nat
  offset : Nat
deriving DecidableEq

def Mark.location (mark : Mark) : Location := ⟨mark.row + 1, mark.offset⟩

inductive Fault
  /-- A cut that is not between two characters, or not in its text. -/
  | slice
  | index
  | underflow
  /-- A condition that is taken for granted and does not hold. -/
  | assertion
  /-- A position that is none of the script. -/
  | position
  /-- More rounds of a loop than the script has characters and lines. -/
  | endless
deriving DecidableEq

inductive Stop
  | reported (diagnostic : Diagnostic)
  | fault (fault : Fault)
deriving DecidableEq

abbrev Checked (τ : Type) := EStateM Stop τ

section

variable {τ α κ : Type}

def orFault (fault : Fault) : Option α → Checked τ α
  | some value => pure value
  | none => throw (.fault fault)

def ensure (fault : Fault) (condition : Prop) [Decidable condition] : Checked τ Unit :=
  if condition then pure () else throw (.fault fault)

def difference (left right : Nat) : Checked τ Nat := do
  ensure .underflow (right ≤ left)
  pure (left - right)

def report (cause : Diagnostic.Cause) (location : Location) : Checked τ α :=
  throw (.reported (.located cause location))

/-- Goes on until a round gives a value, with the rest of the work as the state of the loop. -/
def loop (round : κ → Checked τ (κ ⊕ α)) : (rounds : Nat) → κ → Checked τ α
  | 0, _ => throw (.fault .endless)
  | rounds + 1, work => do
    match ← round work with
    | .inl work => loop round rounds work
    | .inr value => pure value

theorem orFault_run (fault : Fault) (value : α) (state : τ) :
    orFault fault (some value) state = .ok value state := rfl

theorem ensure_run {fault : Fault} {condition : Prop} [Decidable condition] (holds : condition)
    (state : τ) : ensure fault condition state = .ok () state := by
  rw [ensure, if_pos holds, pure_run]

theorem difference_run {left right : Nat} (le : right ≤ left) (state : τ) :
    difference left right state = .ok (left - right) state := by
  rw [difference, bind_run, ensure_run le]
  rfl

theorem loop_run (round : κ → Checked τ (κ ⊕ α)) (rounds : Nat) (work : κ) (state : τ) :
    loop round (rounds + 1) work state =
      match round work state with
      | .ok (.inl work) state => loop round rounds work state
      | .ok (.inr value) state => .ok value state
      | .error stop state => .error stop state := by
  rw [loop, bind_run]
  rcases round work state with ⟨_ | _, _⟩ | ⟨_, _⟩ <;> rfl

end

/-! ## The cursor, checked -/

section

variable (lines : List Text)

def limit : Nat := linesSize lines + 1

def moveTo (mark : Mark) : Checked Mark Unit := do
  ensure .position (mark.location.InScript lines)
  set mark

def location : Checked Mark Location := do
  pure (← get).location

def atEnd : Checked Mark Bool := do
  pure (decide (lines.length ≤ (← get).row))

def line? : Checked Mark (Option Text) := do
  pure lines[(← get).row]?

def rest? : Checked Mark (Option Text) := do
  match ← line? lines with
  | none => pure none
  | some line => some <$> orFault .slice (Text.dropBytes? line (← get).offset)

def next? : Checked Mark (Option Char) := do
  pure ((← rest? lines).bind List.head?)

def startsWith (piece : Text) : Checked Mark Bool := do
  pure ((← rest? lines).any piece.isPrefixOf)

def atLineEnd : Checked Mark Bool := do
  pure ((← rest? lines).all List.isEmpty)

def advance (bytes : Nat) : Checked Mark Unit := do
  match ← line? lines with
  | none => pure ()
  | some line =>
    let mark ← get
    ensure .assertion (mark.offset + bytes ≤ Text.byteSize line)
    moveTo lines ⟨mark.row, min (mark.offset + bytes) (Text.byteSize line)⟩

def seek (offset : Nat) : Checked Mark Unit := do
  let mark ← get
  ensure .assertion (mark.offset ≤ offset)
  moveTo lines ⟨mark.row, offset⟩

def eat (piece : Text) : Checked Mark Bool := do
  if ← startsWith lines piece then
    advance lines (Text.byteSize piece)
    pure true
  else pure false

/-- Reads the part of the line that a rule selects from its rest. -/
def take (rule : Text → Text) : Checked Mark (Option Text) := do
  let start := (← get).offset
  match ← rest? lines with
  | none => pure none
  | some rest =>
    let stop := start + Text.byteSize (rule rest)
    moveTo lines ⟨(← get).row, stop⟩
    match ← line? lines with
    | none => pure none
    | some line => some <$> orFault .slice (Text.slice? line start stop)

def nextLine : Checked Mark Bool := do
  if ← atEnd lines then pure false
  else
    moveTo lines ⟨(← get).row + 1, 0⟩
    pure !(← atEnd lines)

def skipSpaces : Checked Mark Bool := do
  pure ((← take lines (List.takeWhile Text.isSpace)).any fun blanks => !blanks.isEmpty)

/-- Moves past blanks, and on to the next line if nothing but a comment is left. -/
def idleRound (_ : Unit) : Checked Mark (Unit ⊕ Unit) := do
  if ← atEnd lines then pure (.inr ())
  else
    let _ ← skipSpaces lines
    if (← atLineEnd lines) || (← startsWith lines "#".toList) then
      let _ ← nextLine lines
      pure (.inl ())
    else pure (.inr ())

def skipIdle : Checked Mark Unit := loop (idleRound lines) (limit lines) ()

def skipComment : Checked Mark Bool := do
  if ← startsWith lines "#".toList then
    advance lines (((← rest? lines).map Text.byteSize).getD 0)
    pure true
  else pure false

def takeWord : Checked Mark (Option Text) := take lines (List.takeWhile Text.isWordChar)

/-- The word ahead. The position from before is restored. -/
def peekWord : Checked Mark (Option Text) := do
  let mark ← get
  let word ← takeWord lines
  moveTo lines mark
  pure word

def expectWord (expected : Text) : Checked Mark Unit := do
  let _ ← skipSpaces lines
  let start ← location
  let found ← takeWord lines
  if found = some expected then pure ()
  else report (.expectedWord expected (found.getD [])) start

/-- The span from a location to the position, which may not be before it. -/
def spanFrom (start : Location) : Checked Mark Span := do
  let stop ← location
  ensure .assertion (start ≤ stop)
  pure ⟨start, stop⟩

def reportHere {α : Type} (cause : Diagnostic.Cause) : Checked Mark α := do
  report cause (← location)

end

/-! ## What the checked cursor does at a position of a script -/

def markOf (c : Cursor) : Mark := ⟨c.row, Text.byteSize c.before⟩

section

variable {lines : List Text} {c : Cursor}

theorem getElem?_row (within : Within lines c) : lines[c.row]? = c.currentLine? := by
  cases ahead : c.ahead with
  | nil =>
      rw [(within.at_end ahead).2, List.getElem?_eq_none (Nat.le_refl _), currentLine?,
        Cursor.rest?, ahead]
      rfl
  | cons rest later =>
      rw [(within.line_eq ahead).1, currentLine?, Cursor.rest?, ahead]
      rfl

theorem location_run (c : Cursor) : location (markOf c) = .ok c.location (markOf c) := rfl

theorem line?_run (within : Within lines c) :
    line? lines (markOf c) = .ok c.currentLine? (markOf c) := by
  rw [← getElem?_row within]
  rfl

theorem atEnd_run (within : Within lines c) : atEnd lines (markOf c) = .ok c.atEnd (markOf c) := by
  have same : decide (lines.length ≤ c.row) = c.atEnd := by
    rw [Bool.eq_iff_iff, decide_eq_true_iff, atEnd_iff]
    constructor
    · intro past
      by_contra live
      have := within.row_lt live
      omega
    · intro atEnd
      exact Nat.le_of_eq (within.at_end atEnd).2.symm
  rw [← same]
  rfl

theorem rest?_run (within : Within lines c) : rest? lines (markOf c) = .ok c.rest? (markOf c) := by
  rw [rest?, bind_run, line?_run within]
  cases ahead : c.ahead with
  | nil =>
      simp only [currentLine?, Cursor.rest?, ahead]
      rfl
  | cons rest later =>
      simp only [currentLine?, Cursor.rest?, ahead, List.head?_cons, Option.map_some]
      rw [bind_run, get_run]
      dsimp only [markOf]
      rw [Text.dropBytes?_append]
      rfl

theorem next?_run (within : Within lines c) : next? lines (markOf c) = .ok c.next? (markOf c) := by
  rw [next?, bind_run, rest?_run within]
  rfl

theorem startsWith_run (within : Within lines c) (piece : Text) :
    startsWith lines piece (markOf c) = .ok (c.startsWith piece) (markOf c) := by
  rw [startsWith, bind_run, rest?_run within, startsWith_eq]
  rfl

theorem startsWith_char (c : Cursor) (x : Char) : c.startsWith [x] = (c.next? == some x) := by
  unfold Cursor.startsWith Cursor.next? Cursor.rest?
  rcases c.ahead with _ | ⟨_ | ⟨y, rest⟩, later⟩
  · rfl
  · rfl
  · simp [List.isPrefixOf, BEq.comm]

theorem atLineEnd_run (within : Within lines c) :
    atLineEnd lines (markOf c) = .ok c.atLineEnd (markOf c) := by
  have same : c.rest?.all List.isEmpty = c.atLineEnd := by
    unfold Cursor.atLineEnd Cursor.next?
    cases c.rest? with
    | none => rfl
    | some rest => cases rest <;> rfl
  rw [atLineEnd, bind_run, rest?_run within, ← same]
  rfl

theorem moveTo_run {d : Cursor} (within : Within lines d) (mark : Mark) :
    moveTo lines (markOf d) mark = .ok () (markOf d) := by
  have inScript : (markOf d).location.InScript lines := within.inScript
  rw [moveTo, bind_run, ensure_run inScript]
  rfl

theorem markOf_append (row : Nat) (before front : Text) (ahead : List Text) :
    markOf ⟨row, before ++ front, ahead⟩ =
      ⟨row, Text.byteSize before + Text.byteSize front⟩ := by
  rw [markOf, Text.byteSize_append]

/-- The rest of the line is cut in two. -/
theorem within_append {front back : Text} {later : List Text} (within : Within lines c)
    (ahead : c.ahead = (front ++ back) :: later) :
    Within lines ⟨c.row, c.before ++ front, back :: later⟩ := by
  have passes := passes_append c.row c.before front back later
  rw [← ahead] at passes
  exact passes.within within

theorem advance_run {front back : Text} {later : List Text} (within : Within lines c)
    (ahead : c.ahead = (front ++ back) :: later) :
    advance lines (Text.byteSize front) (markOf c) =
      .ok () (markOf ⟨c.row, c.before ++ front, back :: later⟩) := by
  have fits : Text.byteSize c.before + Text.byteSize front ≤
      Text.byteSize (c.before ++ (front ++ back)) := by
    simp only [Text.byteSize_append]
    omega
  have moved := within_append within ahead
  rw [advance, bind_run, line?_run within]
  simp only [currentLine?, Cursor.rest?, ahead, List.head?_cons, Option.map_some]
  rw [bind_run, get_run]
  dsimp only [markOf]
  rw [bind_run, ensure_run fits, Nat.min_eq_left fits, ← markOf_append c.row c.before front _]
  exact moveTo_run moved _

theorem take_run {rule : Text → Text} {front back : Text} {later : List Text}
    (within : Within lines c) (ahead : c.ahead = (front ++ back) :: later)
    (selects : rule (front ++ back) = front) :
    take lines rule (markOf c) =
      .ok (some front) (markOf ⟨c.row, c.before ++ front, back :: later⟩) := by
  have moved := within_append within ahead
  rw [take, bind_run, get_run]
  dsimp only
  rw [bind_run, rest?_run within]
  simp only [Cursor.rest?, ahead, List.head?_cons, selects]
  rw [bind_run, get_run]
  dsimp only [markOf]
  rw [← markOf_append c.row c.before front (back :: later), bind_run, moveTo_run moved]
  dsimp only
  rw [bind_run, line?_run moved]
  simp only [currentLine?, Cursor.rest?, List.head?_cons, Option.map_some, List.append_assoc]
  rw [Text.slice?_append]
  rfl

theorem take_run_end (rule : Text → Text) (within : Within lines c) (ahead : c.ahead = []) :
    take lines rule (markOf c) = .ok none (markOf c) := by
  rw [take, bind_run, get_run]
  dsimp only
  rw [bind_run, rest?_run within]
  simp only [Cursor.rest?, ahead]
  rfl

theorem takeWhile_run (within : Within lines c) (test : Char → Bool) :
    take lines (List.takeWhile test) (markOf c) =
      .ok (c.run? test) (markOf (c.skipWhile test)) := by
  cases ahead : c.ahead with
  | nil =>
      rw [take_run_end _ within ahead]
      simp [run?, Cursor.rest?, skipWhile, ahead]
  | cons rest later =>
      have cut : c.ahead = (rest.takeWhile test ++ rest.dropWhile test) :: later := by
        rw [List.takeWhile_append_dropWhile, ahead]
      rw [take_run within cut (by rw [List.takeWhile_append_dropWhile])]
      simp [run?, Cursor.rest?, skipWhile, ahead]

theorem skipSpaces_run (within : Within lines c) :
    skipSpaces lines (markOf c) = .ok c.atSpace (markOf c.skipSpaces) := by
  have same : ((c.run? Text.isSpace).any fun blanks => !blanks.isEmpty) = c.atSpace := by
    unfold run? atSpace Cursor.next?
    rcases c.rest? with _ | _ | ⟨x, rest⟩
    · rfl
    · rfl
    · cases blank : Text.isSpace x <;> simp [blank]
  rw [skipSpaces, bind_run, takeWhile_run within, ← same]
  rfl

theorem takeWord_run (within : Within lines c) :
    takeWord lines (markOf c) = .ok c.word? (markOf c.skipWord) :=
  takeWhile_run within Text.isWordChar

theorem peekWord_run (within : Within lines c) :
    peekWord lines (markOf c) = .ok c.word? (markOf c) := by
  rw [peekWord, bind_run, get_run]
  dsimp only
  rw [bind_run, takeWord_run within]
  dsimp only
  rw [bind_run, moveTo_run within]
  rfl

theorem eat_run (within : Within lines c) (piece : Text) :
    eat lines piece (markOf c) =
      if c.startsWith piece then .ok true (markOf (c.move piece.length))
      else .ok false (markOf c) := by
  rw [eat, bind_run, startsWith_run within]
  dsimp only
  rw [ite_run]
  split
  · rename_i found
    cases ahead : c.ahead with
    | nil => simp [Cursor.startsWith, ahead] at found
    | cons rest later =>
        rw [Cursor.startsWith, ahead, List.isPrefixOf_iff_prefix] at found
        obtain ⟨back, rfl⟩ := found
        rw [bind_run, advance_run within ahead]
        simp [move, ahead, pure_run]
  · rfl

theorem nextLine_run {rest : Text} {later : List Text} (within : Within lines c)
    (ahead : c.ahead = rest :: later) :
    nextLine lines (markOf c) = .ok (!later.isEmpty) (markOf c.nextLine) := by
  have live : c.atEnd = false := by simp [Cursor.atEnd, ahead]
  have moved : c.nextLine = ⟨c.row + 1, [], later⟩ := by simp [Cursor.nextLine, ahead]
  have inside : Within lines c.nextLine := by
    have follows := follows_nextRow c.row c.before rest later
    rw [← ahead] at follows
    rw [moved]
    exact follows.within within
  rw [nextLine, bind_run, atEnd_run within, live]
  dsimp only
  rw [if_neg Bool.false_ne_true, bind_run, get_run]
  dsimp only
  have mark : (⟨(markOf c).row + 1, 0⟩ : Mark) = markOf c.nextLine := by
    rw [moved]
    rfl
  rw [mark, bind_run, moveTo_run inside]
  dsimp only
  rw [bind_run, atEnd_run inside, moved]
  rfl

theorem skipComment_run (within : Within lines c) :
    skipComment lines (markOf c) = .ok c.atHash (markOf c.skipComment) := by
  rw [skipComment, bind_run, startsWith_run within]
  dsimp only
  have hash : c.startsWith "#".toList = c.atHash := startsWith_char c '#'
  rw [hash, Cursor.skipComment, ite_run]
  split
  · rename_i found
    cases ahead : c.ahead with
    | nil => simp [atHash, Cursor.next?, Cursor.rest?, ahead] at found
    | cons rest later =>
        have whole : c.ahead = (rest ++ []) :: later := by rw [List.append_nil, ahead]
        rw [bind_run, rest?_run within]
        simp only [Cursor.rest?, ahead, List.head?_cons, Option.map_some, Option.getD_some]
        have all : rest.takeWhile (fun _ => true) = rest :=
          List.takeWhile_eq_self_iff.mpr fun _ _ => rfl
        rw [bind_run, advance_run within whole]
        simp only [skipLineRest, skipWhile, ahead, pure_run, found, all, markOf]
  · rename_i other
    rw [Bool.not_eq_true] at other
    rw [other]
    rfl

theorem idleRound_run {rest : Text} {later : List Text} (within : Within lines c)
    (ahead : c.ahead = rest :: later) :
    idleRound lines () (markOf c) =
      if isIdle rest then .ok (.inl ()) (markOf c.nextLine)
      else .ok (.inr ()) (markOf c.skipSpaces) := by
  have live : c.atEnd = false := by simp [Cursor.atEnd, ahead]
  have spaces := (follows_skipSpaces c).within within
  have left : c.skipSpaces.ahead = rest.dropWhile Text.isSpace :: later := by
    simp [Cursor.skipSpaces, skipWhile, ahead]
  have hash : c.skipSpaces.startsWith "#".toList = _ := startsWith_char c.skipSpaces '#'
  have idle : (c.skipSpaces.atLineEnd || c.skipSpaces.startsWith "#".toList) = isIdle rest := by
    simp only [hash, Cursor.atLineEnd, Cursor.next?, Cursor.rest?, left, isIdle, List.head?_cons,
      Option.bind_some]
    cases rest.dropWhile Text.isSpace <;> rfl
  have same : c.skipSpaces.nextLine = c.nextLine := by
    simp [Cursor.nextLine, Cursor.skipSpaces, skipWhile, ahead]
  rw [idleRound, bind_run, atEnd_run within, live]
  dsimp only
  rw [if_neg Bool.false_ne_true, bind_run, skipSpaces_run within]
  dsimp only
  rw [bind_run, atLineEnd_run spaces]
  dsimp only
  rw [bind_run, startsWith_run spaces]
  dsimp only
  rw [idle, ite_run, bind_run, nextLine_run spaces left, same]
  rfl

theorem idleRound_run_end (within : Within lines c) (ahead : c.ahead = []) :
    idleRound lines () (markOf c) = .ok (.inr ()) (markOf c) := by
  have ended : c.atEnd = true := by simp [Cursor.atEnd, ahead]
  rw [idleRound, bind_run, atEnd_run within, ended]
  rfl

theorem loop_idleRound (within : Within lines c) {rounds : Nat} (enough : c.size < rounds) :
    loop (idleRound lines) rounds () (markOf c) = .ok () (markOf c.skipIdle) := by
  obtain ⟨row, before, ahead⟩ := c
  -- Every round but the last leaves one line behind.
  induction ahead generalizing row before rounds with
  | nil =>
      obtain ⟨rounds, rfl⟩ := Nat.exists_eq_add_one_of_ne_zero (Nat.ne_zero_of_lt enough)
      rw [loop_run, idleRound_run_end within rfl]
      rfl
  | cons rest later ih =>
      obtain ⟨rounds, rfl⟩ := Nat.exists_eq_add_one_of_ne_zero (Nat.ne_zero_of_lt enough)
      have below := (follows_nextRow row before rest later).within within
      have fewer : linesSize later < rounds := by
        simp only [size, linesSize] at enough
        omega
      rw [loop_run, idleRound_run within rfl, Cursor.skipIdle, skipIdleFrom]
      by_cases idle : isIdle rest = true
      · rw [if_pos idle, if_pos idle]
        exact ih (row + 1) [] below fewer
      · rw [if_neg idle, if_neg idle]
        rfl

theorem linesSize_drop_le (lines : List Text) (count : Nat) :
    linesSize (lines.drop count) ≤ linesSize lines := by
  induction lines generalizing count with
  | nil => simp
  | cons line lines ih =>
      cases count with
      | zero => simp
      | succ count =>
          have shorter := ih count
          simp only [List.drop_succ_cons, linesSize]
          omega

theorem size_le_linesSize (within : Within lines c) : c.size ≤ linesSize lines := by
  cases ahead : c.ahead with
  | nil => simp [size, ahead, linesSize]
  | cons rest later =>
      have dropped := linesSize_drop_le lines c.row
      rw [Within, ahead] at within
      simp only [within, linesSize, List.length_append] at dropped
      simp only [size, ahead, linesSize]
      omega

theorem size_lt_limit (within : Within lines c) : c.size < limit lines :=
  Nat.lt_succ_of_le (size_le_linesSize within)

theorem skipIdle_run (within : Within lines c) :
    skipIdle lines (markOf c) = .ok () (markOf c.skipIdle) :=
  loop_idleRound within (size_lt_limit within)

theorem spanFrom_run {start : Location} (le : start ≤ c.location) :
    spanFrom start (markOf c) = .ok (c.spanFrom start) (markOf c) := by
  rw [spanFrom, bind_run, location_run]
  dsimp only
  rw [bind_run, ensure_run le]
  rfl

end

/-! ## Mirrored steps -/

section

variable {σ τ α β γ : Type}

/-- What a checked step comes to if it does what a step on cursors has come to. -/
def image (into : σ → τ) : EStateM.Result Diagnostic σ α → EStateM.Result Stop τ α
  | .ok value state => .ok value (into state)
  | .error diagnostic state => .error (.reported diagnostic) (into state)

/-- The checked step does what the step on cursors does, and this one does not go back behind a
given position. -/
def Agrees (cursor : σ → Cursor) (into : σ → τ) (b : Cursor) (checked : EStateM.Result Stop τ α)
    (result : EStateM.Result Diagnostic σ α) : Prop :=
  Follows b (cursor (final result)) ∧ checked = image into result

/-- From every position behind a given one the checked step does what the other step does. -/
def Mirrors (cursor : σ → Cursor) (into : σ → τ) (b : Cursor) (checked : Checked τ α)
    (step : EStateM Diagnostic σ α) : Prop :=
  ∀ state, Follows b (cursor state) → Agrees cursor into b (checked (into state)) (step state)

variable {cursor : σ → Cursor} {into : σ → τ} {b : Cursor}

theorem Agrees.ok {value : α} {state : σ} (follows : Follows b (cursor state)) :
    Agrees cursor into b (.ok value (into state)) (.ok value state) := ⟨follows, rfl⟩

theorem Agrees.error {diagnostic : Diagnostic} {state : σ} (follows : Follows b (cursor state)) :
    Agrees cursor into b (.error (.reported diagnostic) (into state) : EStateM.Result Stop τ α)
      (.error diagnostic state) := ⟨follows, rfl⟩

theorem Agrees.of_follows {b' : Cursor} {checked : EStateM.Result Stop τ α}
    {result : EStateM.Result Diagnostic σ α} (agrees : Agrees cursor into b checked result)
    (follows : Follows b' b) : Agrees cursor into b' checked result :=
  ⟨follows.trans agrees.1, agrees.2⟩

/-- A composed step agrees if its parts do. The parts may hand on different values. -/
theorem Agrees.bind {checked : Checked τ α} {step : EStateM Diagnostic σ β} {value : α → β}
    {next : α → Checked τ γ} {next' : β → EStateM Diagnostic σ γ} {state : σ}
    (first : Agrees cursor into b ((value <$> checked) (into state)) (step state))
    (second : ∀ found last, step state = .ok (value found) last → Follows b (cursor last) →
      Agrees cursor into b (next found (into last)) (next' (value found) last)) :
    Agrees cursor into b ((checked >>= next) (into state)) ((step >>= next') state) := by
  obtain ⟨follows, same⟩ := first
  rw [map_run] at same
  rw [bind_run, bind_run]
  cases run : step state with
  | ok found last =>
      rw [run] at same follows
      cases run' : checked (into state) with
      | ok seen last' =>
          rw [run'] at same
          cases same
          exact second seen last run follows
      | error stop last' =>
          rw [run'] at same
          cases same
  | error diagnostic last =>
      rw [run] at same follows
      cases run' : checked (into state) with
      | ok seen last' =>
          rw [run'] at same
          cases same
      | error stop last' =>
          rw [run'] at same
          cases same
          exact ⟨follows, rfl⟩

theorem Agrees.map {checked : Checked τ α} {step : EStateM Diagnostic σ α} {state : σ} (f : α → β)
    (agrees : Agrees cursor into b (checked (into state)) (step state)) :
    Agrees cursor into b ((f <$> checked) (into state)) ((f <$> step) state) := by
  obtain ⟨behind, same⟩ := agrees
  rw [map_run, map_run, same]
  cases run : step state with
  | ok value last =>
      rw [run] at behind
      exact ⟨behind, rfl⟩
  | error diagnostic last =>
      rw [run] at behind
      exact ⟨behind, rfl⟩

namespace Mirrors

variable {checked : Checked τ α}

theorem bind_value {step : EStateM Diagnostic σ β} (value : α → β) {next : α → Checked τ γ}
    {next' : β → EStateM Diagnostic σ γ} (first : Mirrors cursor into b (value <$> checked) step)
    (second : ∀ found, Mirrors cursor into b (next found) (next' (value found))) :
    Mirrors cursor into b (checked >>= next) (step >>= next') :=
  fun state follows => (first state follows).bind fun found last _ => second found last

theorem bind {step : EStateM Diagnostic σ α} {next : α → Checked τ γ}
    {next' : α → EStateM Diagnostic σ γ} (first : Mirrors cursor into b checked step)
    (second : ∀ value, Mirrors cursor into b (next value) (next' value)) :
    Mirrors cursor into b (checked >>= next) (step >>= next') := by
  refine bind_value id ?_ second
  rw [id_map]
  exact first

theorem map {step : EStateM Diagnostic σ α} (f : α → β)
    (mirrors : Mirrors cursor into b checked step) :
    Mirrors cursor into b (f <$> checked) (f <$> step) :=
  fun state follows => (mirrors state follows).map f

theorem pure (value : α) :
    Mirrors cursor into b (Pure.pure value : Checked τ α)
      (Pure.pure value : EStateM Diagnostic σ α) :=
  fun _ follows => .ok follows

theorem ite {condition : Prop} [Decidable condition] {yes no : Checked τ α}
    {yes' no' : EStateM Diagnostic σ α} (left : Mirrors cursor into b yes yes')
    (right : Mirrors cursor into b no no') :
    Mirrors cursor into b (if condition then yes else no) (if condition then yes' else no') := by
  split
  · exact left
  · exact right

end Mirrors

end

/-! ## Small steps on a cursor -/

abbrev Tracks {α : Type} (b : Cursor) (checked : Checked Mark α) (step : Reading α) : Prop :=
  Mirrors id markOf b checked step

section

variable {α : Type} {lines : List Text} {b : Cursor}

theorem tracks_report (cause : Diagnostic.Cause) (place : Location) :
    Tracks b (report cause place : Checked Mark α) (Reading.failAt place cause) :=
  fun _ follows => .error follows

theorem tracks_reportHere (cause : Diagnostic.Cause) :
    Tracks b (reportHere cause : Checked Mark α) (Reading.failHere cause) :=
  fun _ follows => .error follows

theorem tracks_eat (within : Within lines b) (piece : Text) :
    Tracks b (eat lines piece) (Reading.eat piece) := by
  intro c (follows : Follows b c)
  rw [eat_run (follows.within within), Reading.eat_run]
  split
  · exact .ok (follows.trans (follows_move c _))
  · exact .ok follows

theorem tracks_skipSpaces (within : Within lines b) :
    Tracks b ((fun _ => ()) <$> skipSpaces lines) (modify Cursor.skipSpaces) := by
  intro c (follows : Follows b c)
  rw [map_run, skipSpaces_run (follows.within within)]
  exact .ok (follows.trans (follows_skipSpaces c))

theorem tracks_skipIdle (within : Within lines b) :
    Tracks b (skipIdle lines) (modify Cursor.skipIdle) := by
  intro c (follows : Follows b c)
  rw [skipIdle_run (follows.within within)]
  exact .ok (follows.trans (follows_skipIdle c))

theorem tracks_takeWord (within : Within lines b) :
    Tracks b ((·.getD []) <$> takeWord lines) Reading.takeWord := by
  intro c (follows : Follows b c)
  rw [map_run, takeWord_run (follows.within within)]
  exact .ok (follows.trans (follows_skipWord c))

theorem tracks_expectWord (within : Within lines b) {expected : Text} (word : expected ≠ []) :
    Tracks b (expectWord lines expected) (Reading.expectWord expected) := by
  intro c (follows : Follows b c)
  have spaces := follows.trans (follows_skipSpaces c)
  have behind := spaces.trans (follows_skipWord c.skipSpaces)
  have same : c.skipSpaces.word? = some expected ↔ c.skipSpaces.word = expected := by
    unfold Cursor.word
    cases c.skipSpaces.word? with
    | none => simp [word.symm]
    | some found => simp
  rw [expectWord, bind_run, skipSpaces_run (follows.within within), Reading.expectWord_run]
  dsimp only
  rw [bind_run, location_run]
  dsimp only
  rw [bind_run, takeWord_run (spaces.within within)]
  dsimp only
  rw [ite_run]
  by_cases found : c.skipSpaces.word = expected
  · rw [if_pos (same.mpr found), if_pos found]
    exact .ok behind
  · rw [if_neg (mt same.mp found), if_neg found]
    exact .error behind

end

end ShellLift.Addressed
