import Sapling.Text.Lines

/-!
# Sources

A source is a named text, perhaps with the path it was read from.  Positions in it are byte offsets;
its lines are found by index from zero, and shown to people from one.
-/

namespace Sapling

/-- A named text. -/
structure Source where
  /-- The name shown in diagnostics. -/
  name : String
  /-- The path shown after the name, if there is one. -/
  path : Option String
  /-- The text. -/
  text : String
  deriving DecidableEq, Repr, Inhabited

namespace Source

/-- The characters of the text. -/
def chars (s : Source) : List Char := s.text.toList

/-- The length of the text in bytes. -/
def size (s : Source) : Nat := Text.byteLength s.chars

/-- The lines of the text. -/
def lines (s : Source) : List Text.Line := Text.lines s.chars

/-- The number of lines, one more than there are line feeds. -/
def lineCount (s : Source) : Nat := s.lines.length

/-- The offset where a line starts. -/
def lineStart? (s : Source) (index : Nat) : Option Nat := s.lines[index]?.map (·.start)

/-- What a line shows, its ending left out. -/
def lineContent? (s : Source) (index : Nat) : Option (List Char) := s.lines[index]?.map (·.content)

/-- The index of the line that a byte stands in. -/
def lineIndex? (s : Source) (byte : Nat) : Option Nat := Text.lineIndex? s.chars byte

/-- The line and the column of a byte, counted from one. -/
def position? (s : Source) (byte : Nat) : Option (Nat × Nat) := Text.position? s.chars byte

end Source

end Sapling
