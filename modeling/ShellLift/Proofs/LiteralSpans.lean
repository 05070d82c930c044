import ShellLift.Code.Emission
import ShellLift.Proofs.LogicalLine

/-!
# Literals that span lines

A reader of the target that goes over a text character by character and keeps where it stands with
respect to string literals and comments. Three quotes in a row open a literal that may span lines.
A logical line leaves the reader outside of every literal, and so does what is put together of such
lines.
-/

set_option autoImplicit false

namespace ShellLift

namespace Layout

/-! ## The reader -/

inductive Place
  | code
  | comment
  | opened (style : Quotation)
  /-- Behind two quotes: an empty literal, unless a third quote makes it a long one. -/
  | doubled (style : Quotation)
  | short (style : Quotation)
  | shortEscape (style : Quotation)
  /-- In a long literal, behind so many quotes of its kind. -/
  | long (style : Quotation) (quotes : Nat)
  | longEscape (style : Quotation)
deriving DecidableEq

namespace Place

def inCode (c : Char) : Place :=
  match Quotation.ofMark? c with
  | some style => opened style
  | none => if c = '#' then comment else code

def inShort (style : Quotation) (c : Char) : Place :=
  if c = style.mark then code else if c = '\\' then shortEscape style else short style

def inLong (style : Quotation) (quotes : Nat) (c : Char) : Place :=
  if c = style.mark then if quotes = 2 then code else long style (quotes + 1)
  else if c = '\\' then longEscape style
  else long style 0

def step : Place → Char → Place
  | code, c => inCode c
  | comment, c => if c = '\n' then code else comment
  | opened style, c => if c = style.mark then doubled style else inShort style c
  | doubled style, c => if c = style.mark then long style 0 else inCode c
  | short style, c => inShort style c
  | shortEscape style, _ => short style
  | long style quotes, c => inLong style quotes c
  | longEscape style, _ => long style 0

end Place

open Place

end Layout

end ShellLift
