/-!
# Places in a script

A location counts lines from one and bytes of a line from zero. Past the last line it is the
start of the line that would come next.
-/

set_option autoImplicit false

namespace ShellLift

/-- A line, from one, and a byte offset in that line, from zero. -/
structure Location where
  line : Nat
  offset : Nat
deriving DecidableEq

namespace Location

/-- Reading order: by line, then by offset. -/
protected def le (a b : Location) : Prop := a.line < b.line ∨ a.line = b.line ∧ a.offset ≤ b.offset

instance : LE Location := ⟨Location.le⟩

instance (a b : Location) : Decidable (a ≤ b) :=
  inferInstanceAs (Decidable (a.line < b.line ∨ a.line = b.line ∧ a.offset ≤ b.offset))

def display (location : Location) : String := s!"{location.line}:{location.offset}"

end Location

structure Span where
  start : Location
  stop : Location
deriving DecidableEq

end ShellLift
