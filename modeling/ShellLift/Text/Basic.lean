/-!
# Text

A script, a name and a piece of emitted code are all lists of characters, so that every scan is
a recursion on the data. Here are the operations that know nothing of scripts: size in bytes,
cutting into lines, cutting at a separator, the first occurrence of a piece of text, the classes of
characters, sets of names, and the form of a text as one word of a shell command.
-/

set_option autoImplicit false

namespace ShellLift

abbrev Text := List Char

namespace Text

/-! ## Pieces -/

def byteSize : Text → Nat
  | [] => 0
  | c :: rest => c.utf8Size + byteSize rest

/-- Puts a character in front of the first piece, which is made if there is none. -/
def consFirst (c : Char) : List Text → List Text
  | [] => [[c]]
  | piece :: pieces => (c :: piece) :: pieces

/--
The lines of a text. A line ends at a line feed, and one carriage return right before that line
feed belongs to the end of the line. The text after the last line feed is a line unless empty.
-/
def lines : Text → List Text
  | [] => []
  | '\n' :: rest => [] :: lines rest
  | '\r' :: '\n' :: rest => [] :: lines rest
  | c :: rest => consFirst c (lines rest)

/-- The pieces between the occurrences of a separator; one more piece than occurrences. -/
def pieces (separator : Char) : Text → List Text
  | [] => [[]]
  | c :: rest =>
    if c = separator then [] :: pieces separator rest
    else consFirst c (pieces separator rest)

/-- What stands before and after the first occurrence of a piece of text. -/
def cut? (piece : Text) : Text → Option (Text × Text)
  | [] => if piece.isEmpty then some ([], []) else none
  | c :: rest =>
    if piece.isPrefixOf (c :: rest) then some ([], (c :: rest).drop piece.length)
    else (cut? piece rest).map fun (before, after) => (c :: before, after)

def dropEndWhile (test : Char → Bool) (text : Text) : Text :=
  (text.reverse.dropWhile test).reverse

/-! ## Characters of words

Names, blanks between words and unquoted words are made of ASCII characters only. A letter or a
digit of another alphabet is none of these.
-/

def isWordChar (c : Char) : Bool := c.isAlphanum || c == '_'

/-- Blank characters between words: space, tab, line feed, vertical tab, form feed, return. -/
def isSpace (c : Char) : Bool :=
  c == ' ' || c == '\t' || c == '\n' || c == '\x0b' || c == '\x0c' || c == '\r'

/-- Characters of an unquoted word: those of names, and tilde, slash, backslash, dot, hyphen. -/
def isPlainChar (c : Char) : Bool :=
  isWordChar c || c == '~' || c == '/' || c == '\\' || c == '.' || c == '-'

def isWord (text : Text) : Bool := !text.isEmpty && text.all isWordChar

def hexadecimal (n : Nat) : Text := Nat.toDigits 16 n

/-! ## Blank characters

The twenty-five characters with the White_Space property of Unicode. They are more than the
blanks that separate words: text is trimmed by this property, and an argument may end at any of
these characters.
-/

/-- First and last code point of each run of characters with the White_Space property. -/
def blankRanges : List (Nat × Nat) :=
  [(0x0009, 0x000d), (0x0020, 0x0020), (0x0085, 0x0085), (0x00a0, 0x00a0), (0x1680, 0x1680),
   (0x2000, 0x200a), (0x2028, 0x2029), (0x202f, 0x202f), (0x205f, 0x205f), (0x3000, 0x3000)]

def isBlank (c : Char) : Bool :=
  blankRanges.any fun (first, last) => first ≤ c.toNat && c.toNat ≤ last

def trimEnd (text : Text) : Text := dropEndWhile isBlank text

def trim (text : Text) : Text := trimEnd (text.dropWhile isBlank)

/-! ## Sets of names

A set of names is kept as a list in ascending order of code points, in which no name stands twice.
-/

/-- Order of texts by their first differing code point. -/
def precedes : Text → Text → Bool
  | [], [] => false
  | [], _ :: _ => true
  | _ :: _, [] => false
  | a :: as, b :: bs => a.toNat < b.toNat || (a == b && precedes as bs)

def insertName (name : Text) : List Text → List Text
  | [] => [name]
  | other :: others =>
    if name = other then other :: others
    else if precedes name other then name :: other :: others
    else other :: insertName name others

def nameSet (names : List Text) : List Text := names.foldr insertName []

/-! ## Shell-quoted form

A text as one word of a shell command: between single quotes, inside which nothing but the single
quote itself is special. A single quote leaves the quotation, stands escaped, and enters again.
-/

def shellQuotedChar (c : Char) : Text := if c = '\'' then ['\'', '\\', '\'', '\''] else [c]

def shellQuoted (text : Text) : Text := '\'' :: text.flatMap shellQuotedChar ++ ['\'']

end Text

end ShellLift
