import Mathlib
import ShellLift.Session.Basic

/-!
# Tilde expansion

A tilde that stands alone or before a slash gives way to the home directory, of which the slashes
at the end are dropped. So an absolute home directory makes an absolute path of every such text
but one: where the home directory has only slashes, nothing is left of a tilde that stands alone.
-/

set_option autoImplicit false

namespace ShellLift

namespace Text

def Absolute (path : Text) : Prop := path.head? = some '/'

instance (path : Text) : Decidable (Absolute path) :=
  inferInstanceAs (Decidable (path.head? = some '/'))

/-! ## Slashes at the end -/

/-- The second text is the first without the slashes at its end. -/
structure SlashesDropped (whole front : Text) : Prop where
  onlySlashes : ∃ count, whole = front ++ List.replicate count '/'
  allSlashes : front.getLast? ≠ some '/'

theorem slashesDropped_dropEndWhile (text : Text) :
    SlashesDropped text (dropEndWhile (· == '/') text) where
  onlySlashes := by
    have dropped : ∀ c ∈ text.rtakeWhile (· == '/'), c = '/' := by
      intro c member
      simpa using List.mem_rtakeWhile_imp member
    refine ⟨(text.rtakeWhile (· == '/')).length, ?_⟩
    rw [← List.eq_replicate_of_mem dropped]
    exact List.rdropWhile_append_rtakeWhile.symm
  allSlashes := by
    intro ends
    obtain ⟨nonempty, last⟩ := List.mem_getLast?_eq_getLast ends
    exact List.rdropWhile_last_not (· == '/') text nonempty (beq_iff_eq.mpr last.symm)

namespace SlashesDropped

variable {whole front : Text}

/-- Nothing is left exactly of a text of slashes. -/
theorem eq_nil_iff (dropped : SlashesDropped whole front) :
    front = [] ↔ ∀ c ∈ whole, c = '/' := by
  obtain ⟨⟨count, rfl⟩, allSlashes⟩ := dropped
  constructor
  · rintro rfl c member
    exact List.eq_of_mem_replicate member
  · intro slashes
    by_contra nonempty
    have last := slashes _ (List.mem_append_left _ (List.getLast_mem nonempty))
    rw [List.getLast?_eq_getLast_of_ne_nil nonempty, last] at allSlashes
    exact allSlashes rfl

theorem absolute_of_ne_nil (dropped : SlashesDropped whole front) (absolute : Absolute whole)
    (nonempty : front ≠ []) : Absolute front := by
  obtain ⟨count, rfl⟩ := dropped.onlySlashes
  rwa [Absolute, List.head?_append_of_ne_nil _ nonempty] at absolute

end SlashesDropped

/-! ## Tildes in front -/

/-- The first text is a tilde that stands alone or before a slash; the second is the part behind the
tilde. -/
inductive TildePath : Text → Text → Prop
  | alone : TildePath ['~'] []
  | below (path : Text) : TildePath ('~' :: '/' :: path) ('/' :: path)

theorem TildePath.eq_cons {text rest : Text} (path : TildePath text rest) : text = '~' :: rest := by
  cases path <;> rfl

theorem TildePath.absolute {text rest : Text} (path : TildePath text rest) (nonempty : rest ≠ []) :
    Absolute rest := by
  cases path with
  | alone => exact absurd rfl nonempty
  | below path => rfl

theorem tildePath_cons_iff {rest : Text} :
    TildePath ('~' :: rest) rest ↔ rest.isEmpty ∨ rest.head? = some '/' := by
  constructor
  · rintro (_ | path)
    · exact .inl rfl
    · exact .inr rfl
  · intro stands
    cases rest with
    | nil => exact .alone
    | cons c rest =>
        obtain rfl : c = '/' := by simpa using stands
        exact .below rest

/-- Below an absolute directory that lost the slashes at its end, a path is absolute unless both
are empty. -/
theorem SlashesDropped.absolute_append_iff {home front text rest : Text}
    (dropped : SlashesDropped home front) (absolute : Absolute home) (path : TildePath text rest) :
    Absolute (front ++ rest) ↔ rest ≠ [] ∨ ∃ c ∈ home, c ≠ '/' := by
  by_cases nothing : front = []
  · -- Only the part behind the tilde is left.
    have slashes := dropped.eq_nil_iff.mp nothing
    rw [nothing, List.nil_append]
    constructor
    · intro starts
      left
      rintro rfl
      cases starts
    · rintro (below | ⟨c, member, other⟩)
      · exact path.absolute below
      · exact absurd (slashes c member) other
  · have other : ∃ c ∈ home, c ≠ '/' := by
      by_contra slashes
      push Not at slashes
      exact nothing (dropped.eq_nil_iff.mpr slashes)
    have starts := dropped.absolute_of_ne_nil absolute nothing
    rw [Absolute, List.head?_append_of_ne_nil _ nothing]
    exact ⟨fun _ => .inr other, fun _ => starts⟩

end Text

namespace Session

open Text

/-- The home directory of a session: the text of the variable if it can be read, and else the one
that the process was started with. -/
inductive HomeIs (session : Session) : Text → Prop
  | stored (value : Value) (held : session.store.read "HOME".toList = .ok value) :
      HomeIs session value.flat
  | inherited {failure : Failure} {home : Text}
      (failed : session.store.read "HOME".toList = .error failure)
      (given : session.home = some home) : HomeIs session home

theorem homeDirectory_eq_some_iff {session : Session} {home : Text} :
    session.homeDirectory = some home ↔ session.HomeIs home := by
  unfold homeDirectory
  constructor
  · intro found
    cases held : session.store.read "HOME".toList with
    | ok value =>
        rw [held] at found
        cases found
        exact .stored value held
    | error failure =>
        rw [held] at found
        exact .inherited held found
  · rintro (⟨value, held⟩ | ⟨failed, given⟩)
    · rw [held]
    · rw [failed]
      exact given

theorem expandTilde_of_tildePath {session : Session} {text rest home : Text}
    (path : TildePath text rest) (used : session.HomeIs home) :
    session.expandTilde text = dropEndWhile (· == '/') home ++ rest := by
  obtain rfl := path.eq_cons
  rw [expandTilde, if_pos (tildePath_cons_iff.mp path), homeDirectory_eq_some_iff.mpr used]

/-- A text without such a tilde stays as it is, and so does every text if there is no home
directory. -/
theorem expandTilde_eq_self {session : Session} {text : Text}
    (kept : (∀ rest, ¬ TildePath text rest) ∨ ∀ home, ¬ session.HomeIs home) :
    session.expandTilde text = text := by
  unfold expandTilde
  split
  · rename_i rest
    split
    · rename_i stands
      cases found : session.homeDirectory with
      | none => rfl
      | some home =>
          rcases kept with plain | homeless
          · exact absurd (tildePath_cons_iff.mpr stands) (plain rest)
          · exact absurd (homeDirectory_eq_some_iff.mp found) (homeless home)
    · rfl
  · rfl

/-- A tilde path becomes the home directory without the slashes at its end, followed by the part
behind the tilde. With an absolute home directory the result is absolute unless that part is empty
and the home directory has only slashes. Every other text stays as it is, whatever the home
directory. -/
theorem expandTilde_absolute_iff (session : Session) (text : Text) :
    (∀ rest home, TildePath text rest → session.HomeIs home →
      ∃ front, SlashesDropped home front ∧ session.expandTilde text = front ++ rest ∧
        (Absolute home →
          (Absolute (session.expandTilde text) ↔ rest ≠ [] ∨ ∃ c ∈ home, c ≠ '/'))) ∧
    ((∀ rest, ¬ TildePath text rest) ∨ (∀ home, ¬ session.HomeIs home) →
      session.expandTilde text = text) := by
  refine ⟨?_, expandTilde_eq_self⟩
  intro rest home path used
  have dropped := slashesDropped_dropEndWhile home
  have expanded := expandTilde_of_tildePath path used
  refine ⟨dropEndWhile (· == '/') home, dropped, expanded, ?_⟩
  intro absolute
  rw [expanded]
  exact dropped.absolute_append_iff absolute path

/-- The store has a home directory of slashes, in a value of unknown type; the process another. -/
def rootHome : Session :=
  start (.ofBindings ⟨[("HOME".toList, .foreign "//".toList)]⟩) (some "/home/me".toList)

theorem expandTilde_absolute_iff_root :
    rootHome.HomeIs "//".toList ∧ Absolute "//".toList ∧
    ¬ Absolute (rootHome.expandTilde "~".toList) ∧
    Absolute (rootHome.expandTilde "~/bin".toList) ∧
    rootHome.expandTilde "~root".toList = "~root".toList := by
  have used : rootHome.HomeIs "//".toList := .stored (.foreign "//".toList) rfl
  have absolute : Absolute "//".toList := by decide
  refine ⟨used, absolute, ?_, ?_, ?_⟩
  · obtain ⟨_, _, _, starts_iff⟩ :=
      (expandTilde_absolute_iff rootHome "~".toList).1 [] "//".toList .alone used
    rw [starts_iff absolute]
    rintro (below | ⟨c, member, other⟩)
    · exact below rfl
    · exact other (List.eq_of_mem_replicate (n := 2) member)
  · obtain ⟨_, _, _, starts_iff⟩ :=
      (expandTilde_absolute_iff rootHome "~/bin".toList).1 "/bin".toList "//".toList
        (.below "bin".toList) used
    rw [starts_iff absolute]
    exact .inl (List.cons_ne_nil _ _)
  · refine (expandTilde_absolute_iff rootHome "~root".toList).2 (.inl ?_)
    intro rest path
    cases path

end Session

end ShellLift
