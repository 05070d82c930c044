import ShellLift.Proofs.Passage

/-!
# A script inside a longer one

A script keeps its meaning when lines are put above it or below it. `place above below` is the
position of a cursor in the longer script. A step that succeeds without coming to the end of the
script does the same there, up to the numbers of the lines; with no lines below, a step that fails
fails in the same way. `Enclosure.Keeps` says so for one run of a step, and a rule for each way to
compose steps carries it to all of them.
-/

set_option autoImplicit false

namespace ShellLift

open Step

/-! ## Shifted places -/

def Location.shift (above : Nat) (location : Location) : Location :=
  ⟨location.line + above, location.offset⟩

def Span.shift (above : Nat) (span : Span) : Span :=
  ⟨span.start.shift above, span.stop.shift above⟩

def Expression.shift (above : Nat) (expression : Expression) : Expression :=
  ⟨expression.span.shift above, expression.form, expression.text⟩

namespace Statement

mutual

def shift (above : Nat) : Statement → Statement
  | assignment span kind target value =>
    assignment (span.shift above) kind target (value.map (·.shift above))
  | conditional span condition body =>
    conditional (span.shift above) (condition.shift above) (shiftAll above body)
  | function span name body => function (span.shift above) name (shiftAll above body)
  | invocation span name arguments kind =>
    invocation (span.shift above) name (arguments.map (·.shift above)) kind

def shiftAll (above : Nat) : List Statement → List Statement
  | [] => []
  | statement :: statements => shift above statement :: shiftAll above statements

end

mutual

theorem shift_zero : ∀ statement : Statement, statement.shift 0 = statement
  | assignment span kind target value => by cases value <;> rfl
  | conditional span condition body => by
      rw [shift, shiftAll_zero body]
      rfl
  | function span name body => by
      rw [shift, shiftAll_zero body]
      rfl
  | invocation span name arguments kind => by
      have same : arguments.map (Expression.shift 0) = arguments := List.map_id arguments
      rw [shift, same]
      rfl

theorem shiftAll_zero : ∀ statements : List Statement, shiftAll 0 statements = statements
  | [] => rfl
  | statement :: statements => by rw [shiftAll, shift_zero statement, shiftAll_zero statements]

end

theorem shiftAll_eq_map (above : Nat) (statements : List Statement) :
    shiftAll above statements = statements.map (shift above) := by
  induction statements with
  | nil => rfl
  | cons statement statements ih => rw [shiftAll, ih, List.map_cons]

theorem kind_shift (above : Nat) (statement : Statement) :
    (statement.shift above).kind = statement.kind := by
  cases statement <;> rfl

end Statement

def Diagnostic.shift (above : Nat) (diagnostic : Diagnostic) : Diagnostic :=
  ⟨diagnostic.cause, diagnostic.place.map (Location.shift above)⟩

/-! ## Frames -/

/-- Two scripts, of which one holds the other: where a state of the inner script stands in the
outer one, which states count as inside, and whether failures are kept as well. -/
structure Enclosure (σ : Type) where
  inside : σ → Prop
  place : σ → σ
  shift : Diagnostic → Diagnostic
  exact : Prop

namespace Enclosure

variable {σ α β γ δ : Type} (F : Enclosure σ)

/-- From one state, the second step does in the outer script what the first does in the inner. -/
def Keeps (f : α → β) (inner : EStateM Diagnostic σ α) (outer : EStateM Diagnostic σ β)
    (state : σ) : Prop :=
  match inner state with
  | .ok value last => F.inside last ∧ outer (F.place state) = .ok (f value) (F.place last)
  | .error diagnostic last =>
    F.exact → outer (F.place state) = .error (F.shift diagnostic) (F.place last)

def Framed (f : α → β) (inner : EStateM Diagnostic σ α) (outer : EStateM Diagnostic σ β) : Prop :=
  ∀ state, F.inside state → F.Keeps f inner outer state

variable {F}

theorem Keeps.ok {f : α → β} {inner : EStateM Diagnostic σ α} {outer : EStateM Diagnostic σ β}
    {state last : σ} {value : α} (run : inner state = .ok value last) (inside : F.inside last)
    (same : outer (F.place state) = .ok (f value) (F.place last)) :
    F.Keeps f inner outer state := by
  unfold Keeps
  rw [run]
  exact ⟨inside, same⟩

theorem Keeps.error {f : α → β} {inner : EStateM Diagnostic σ α} {outer : EStateM Diagnostic σ β}
    {state last : σ} {diagnostic : Diagnostic} (run : inner state = .error diagnostic last)
    (same : F.exact → outer (F.place state) = .error (F.shift diagnostic) (F.place last)) :
    F.Keeps f inner outer state := by
  unfold Keeps
  rw [run]
  exact same

/-- Two runs that are equal to a pair that is kept are kept. -/
theorem Keeps.congr {f : α → β} {inner inner' : EStateM Diagnostic σ α}
    {outer outer' : EStateM Diagnostic σ β} {state state' : σ} (keeps : F.Keeps f inner outer state)
    (left : inner' state' = inner state) (right : outer' (F.place state') = outer (F.place state)) :
    F.Keeps f inner' outer' state' := by
  unfold Keeps at keeps ⊢
  rw [left, right]
  exact keeps

theorem Keeps.bind {f : α → β} {g : γ → δ} {inner : EStateM Diagnostic σ α}
    {outer : EStateM Diagnostic σ β} {next : α → EStateM Diagnostic σ γ}
    {next' : β → EStateM Diagnostic σ δ} {state : σ} (first : F.Keeps f inner outer state)
    (second : ∀ value last, inner state = .ok value last → F.inside last →
      F.Keeps g (next value) (next' (f value)) last) :
    F.Keeps g (inner >>= next) (outer >>= next') state := by
  unfold Keeps at first
  cases run : inner state with
  | ok value last =>
      simp only [run] at first
      refine (second value last run first.1).congr ?_ ?_
      · rw [bind_run, run]
      · rw [bind_run, first.2]
  | error diagnostic last =>
      simp only [run] at first
      have stopped : (inner >>= next) state = .error diagnostic last := by rw [bind_run, run]
      exact .error stopped fun exact => by rw [bind_run, first exact]

theorem Framed.bind {f : α → β} {g : γ → δ} {inner : EStateM Diagnostic σ α}
    {outer : EStateM Diagnostic σ β} {next : α → EStateM Diagnostic σ γ}
    {next' : β → EStateM Diagnostic σ δ} (first : F.Framed f inner outer)
    (second : ∀ value, F.Framed g (next value) (next' (f value))) :
    F.Framed g (inner >>= next) (outer >>= next') :=
  fun state inside => (first state inside).bind fun value last _ within => second value last within

theorem Keeps.map {f : α → β} {g : γ → δ} {h : α → γ} {h' : β → δ}
    {inner : EStateM Diagnostic σ α} {outer : EStateM Diagnostic σ β} {state : σ}
    (keeps : F.Keeps f inner outer state) (natural : ∀ value, g (h value) = h' (f value)) :
    F.Keeps g (h <$> inner) (h' <$> outer) state := by
  unfold Keeps at keeps ⊢
  rw [map_run, map_run]
  cases run : inner state with
  | ok value last =>
      simp only [run] at keeps ⊢
      rw [keeps.2, natural]
      exact ⟨keeps.1, rfl⟩
  | error diagnostic last =>
      simp only [run] at keeps ⊢
      intro exact
      rw [keeps exact]

theorem Framed.map {f : α → β} {g : γ → δ} {h : α → γ} {h' : β → δ}
    {inner : EStateM Diagnostic σ α} {outer : EStateM Diagnostic σ β}
    (framed : F.Framed f inner outer) (natural : ∀ value, g (h value) = h' (f value)) :
    F.Framed g (h <$> inner) (h' <$> outer) :=
  fun state inside => (framed state inside).map natural

theorem Framed.pure {f : α → β} (value : α) :
    F.Framed f (Pure.pure value) (Pure.pure (f value)) :=
  fun _ inside => ⟨inside, rfl⟩

/-- A step that looks at the state sees the state in its place. -/
theorem Framed.get {g : γ → δ} {next : σ → EStateM Diagnostic σ γ}
    {outer : σ → EStateM Diagnostic σ δ}
    (framed : ∀ state, F.inside state → F.Keeps g (next state) (outer (F.place state)) state) :
    F.Framed g (MonadState.get >>= next) (MonadState.get >>= outer) := framed

theorem Framed.ite {f : α → β} {condition : Prop} [Decidable condition]
    {yes no : EStateM Diagnostic σ α} {yes' no' : EStateM Diagnostic σ β}
    (left : F.Framed f yes yes') (right : F.Framed f no no') :
    F.Framed f (if condition then yes else no) (if condition then yes' else no') := by
  split
  · exact left
  · exact right

end Enclosure

/-! ## Cursors in their place -/

namespace Cursor

def place (above : Nat) (below : List Text) (c : Cursor) : Cursor :=
  ⟨c.row + above, c.before, c.ahead ++ below⟩

/-- The end of the inner script is not reached, unless it is the end of the outer one as well. -/
def Inside (below : List Text) (c : Cursor) : Prop := below = [] ∨ c.ahead ≠ []

def enclosure (above : Nat) (below : List Text) : Enclosure Cursor :=
  ⟨Inside below, place above below, Diagnostic.shift above, below = []⟩

variable {above : Nat} {below : List Text} {c : Cursor}

theorem inside_cases (inside : Inside below c) :
    below = [] ∨ ∃ rest later, c.ahead = rest :: later := by
  rcases inside with exact | notEnd
  · exact .inl exact
  · exact .inr (List.exists_cons_of_ne_nil notEnd)

theorem rest?_place (inside : Inside below c) : (c.place above below).rest? = c.rest? := by
  rcases inside_cases inside with rfl | ⟨rest, later, ahead⟩
  · simp [place, rest?]
  · simp [place, rest?, ahead]

theorem next?_place (inside : Inside below c) : (c.place above below).next? = c.next? := by
  rw [next?, rest?_place inside, next?]

theorem startsWith_place (inside : Inside below c) (piece : Text) :
    (c.place above below).startsWith piece = c.startsWith piece := by
  rw [startsWith_eq, startsWith_eq, rest?_place inside]

theorem atSpace_place (inside : Inside below c) : (c.place above below).atSpace = c.atSpace := by
  rw [atSpace, next?_place inside, atSpace]

theorem atHash_place (inside : Inside below c) : (c.place above below).atHash = c.atHash := by
  rw [atHash, next?_place inside, atHash]

theorem atLineEnd_place (inside : Inside below c) :
    (c.place above below).atLineEnd = c.atLineEnd := by
  rw [atLineEnd, next?_place inside, atLineEnd]

theorem word_place (inside : Inside below c) : (c.place above below).word = c.word := by
  rw [word, word?, rest?_place inside, word, word?]

theorem run?_place (inside : Inside below c) (test : Char → Bool) :
    (c.place above below).run? test = c.run? test := by
  rw [run?, rest?_place inside, run?]

theorem parametersLength_place (inside : Inside below c) :
    (c.place above below).parametersLength = c.parametersLength := by
  rw [parametersLength, rest?_place inside, parametersLength]

theorem atEnd_place (inside : Inside below c) : (c.place above below).atEnd = c.atEnd := by
  rcases inside_cases inside with rfl | ⟨rest, later, ahead⟩
  · simp [place, atEnd]
  · simp [place, atEnd, ahead]

theorem location_place (c : Cursor) :
    (c.place above below).location = c.location.shift above := by
  simp only [location, place, Location.shift]
  congr 1
  omega

theorem move_place (inside : Inside below c) (count : Nat) :
    (c.place above below).move count = (c.move count).place above below := by
  rcases inside_cases inside with rfl | ⟨rest, later, ahead⟩
  · cases ahead : c.ahead with
    | nil => simp [place, move, ahead]
    | cons rest later => simp [place, move, ahead]
  · simp [place, move, ahead]

theorem skipWhile_place (inside : Inside below c) (test : Char → Bool) :
    (c.place above below).skipWhile test = (c.skipWhile test).place above below := by
  rcases inside_cases inside with rfl | ⟨rest, later, ahead⟩
  · cases ahead : c.ahead with
    | nil => simp [place, skipWhile, ahead]
    | cons rest later => simp [place, skipWhile, ahead]
  · simp [place, skipWhile, ahead]

theorem inside_move (inside : Inside below c) (count : Nat) : Inside below (c.move count) := by
  rcases inside_cases inside with exact | ⟨rest, later, ahead⟩
  · exact .inl exact
  · exact .inr (by simp [move, ahead])

theorem inside_skipWhile (inside : Inside below c) (test : Char → Bool) :
    Inside below (c.skipWhile test) := by
  rcases inside_cases inside with exact | ⟨rest, later, ahead⟩
  · exact .inl exact
  · exact .inr (by simp [skipWhile, ahead])

theorem skipSpaces_place (inside : Inside below c) :
    (c.place above below).skipSpaces = c.skipSpaces.place above below := skipWhile_place inside _

theorem skipWord_place (inside : Inside below c) :
    (c.place above below).skipWord = c.skipWord.place above below := skipWhile_place inside _

theorem inside_skipSpaces (inside : Inside below c) : Inside below c.skipSpaces :=
  inside_skipWhile inside _

theorem inside_skipWord (inside : Inside below c) : Inside below c.skipWord :=
  inside_skipWhile inside _

theorem skipComment_place (inside : Inside below c) :
    (c.place above below).skipComment = c.skipComment.place above below := by
  unfold skipComment
  rw [atHash_place inside]
  split
  · exact skipWhile_place inside _
  · rfl

theorem inside_skipComment (inside : Inside below c) : Inside below c.skipComment := by
  unfold skipComment
  split
  · exact inside_skipWhile inside _
  · exact inside

theorem finish_place (c : Cursor) : (c.place above []).finish = c.finish.place above [] := by
  simp only [finish, place, List.append_nil]
  congr 1
  omega

theorem skipIdleFrom_place (row : Nat) (before : Text) (lines : List Text)
    (inside : Inside below (skipIdleFrom row before lines)) :
    skipIdleFrom (row + above) before (lines ++ below) =
      (skipIdleFrom row before lines).place above below := by
  induction lines generalizing row before with
  | nil =>
      rcases inside with rfl | notEnd
      · rfl
      · exact absurd rfl notEnd
  | cons line later ih =>
      rw [List.cons_append]
      simp only [skipIdleFrom] at inside ⊢
      split
      · rename_i idle
        rw [if_pos idle] at inside
        rw [Nat.add_right_comm]
        exact ih (row + 1) [] inside
      · rfl

theorem skipIdle_place (inside : Inside below c.skipIdle) :
    (c.place above below).skipIdle = c.skipIdle.place above below :=
  skipIdleFrom_place c.row c.before c.ahead inside

end Cursor

end ShellLift
