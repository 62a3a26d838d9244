import Sapling.Text.Bytes

/-!
# Lines of a text

A text is cut after each line feed.  A line feed belongs to the line that it ends, and so there is
always a last line without one, which may be empty.

## Main definitions

* `rawLines` — the lines with their endings.
* `Line` — a line with the offset where it starts, its content, and its ending apart.
* `lines` — the lines of a text.
* `lineIndex?`, `position?` — the line, and the line and column, in which a byte stands.

## Main results

* `flatten_rawLines` — the lines with their endings make up the text.
* `content_append_ending` — the content and the ending of a line make up the line.
-/

namespace Sapling.Text

/-- Puts a character at the start of the first line. -/
def consFirst (c : Char) : List (List Char) → List (List Char)
  | [] => [[c]]
  | line :: later => (c :: line) :: later

/-- The lines of a text, each with the line feed that ends it. -/
def rawLines : List Char → List (List Char)
  | [] => [[]]
  | c :: rest => if c = '\n' then [c] :: rawLines rest else consFirst c (rawLines rest)

/-- A line of a text. -/
structure Line where
  /-- The offset of its first byte. -/
  start : Nat
  /-- What it shows. -/
  content : List Char
  /-- How it ends: with a line feed except for the last line of a text, and a carriage return before
  it if there is one. -/
  ending : List Char
  deriving DecidableEq, Repr, Inhabited

/-- The text without its last character, if that is the given one. -/
def dropFinal (final : Char) (text : List Char) : List Char :=
  if text.getLast? = some final then text.dropLast else text

/-- The line that starts at an offset and reads as given: a line feed at its end, and one carriage
return before that, are its ending. -/
def Line.ofRaw (start : Nat) (raw : List Char) : Line :=
  let content := dropFinal '\r' (dropFinal '\n' raw)
  ⟨start, content, raw.drop content.length⟩

/-- The offset just after the content of a line. -/
def Line.stop (l : Line) : Nat := l.start + byteLength l.content

/-- Lines that follow one another from an offset on. -/
def linesFrom (start : Nat) : List (List Char) → List Line
  | [] => []
  | raw :: later => .ofRaw start raw :: linesFrom (start + byteLength raw) later

/-- The lines of a text. -/
def lines (text : List Char) : List Line := linesFrom 0 (rawLines text)

/-- The index of the line that a byte of the text stands in: the last line that starts at or before
it.  The offset after the last byte is in the last line. -/
def lineIndex? (text : List Char) (byte : Nat) : Option Nat :=
  if byte ≤ byteLength text then some ((lines text).tail.countP (·.start ≤ byte)) else none

/-- The number of the line and of the column of a byte, both counted from one. -/
def position? (text : List Char) (byte : Nat) : Option (Nat × Nat) :=
  (lineIndex? text byte).bind fun i =>
    (lines text)[i]?.map fun line => (i + 1, byte - line.start + 1)

/-! ### Lines make up the text -/

theorem flatten_consFirst (c : Char) (ls : List (List Char)) :
    (consFirst c ls).flatten = c :: ls.flatten := by
  cases ls <;> simp [consFirst]

/-- The lines with their endings, one after the other, are the text. -/
theorem flatten_rawLines (text : List Char) : (rawLines text).flatten = text := by
  induction text with
  | nil => rfl
  | cons c rest ih =>
    unfold rawLines
    split
    · rw [List.flatten_cons, ih]; rfl
    · rw [flatten_consFirst, ih]

theorem dropFinal_eq_take (final : Char) (text : List Char) :
    ∃ n, dropFinal final text = text.take n := by
  unfold dropFinal
  split
  · exact ⟨text.length - 1, List.dropLast_eq_take⟩
  · exact ⟨text.length, (List.take_length).symm⟩

/-- The content and the ending of a line are the whole line. -/
theorem content_append_ending (start : Nat) (raw : List Char) :
    (Line.ofRaw start raw).content ++ (Line.ofRaw start raw).ending = raw := by
  obtain ⟨n, hn⟩ := dropFinal_eq_take '\n' raw
  obtain ⟨m, hm⟩ := dropFinal_eq_take '\r' (dropFinal '\n' raw)
  simp only [Line.ofRaw]
  rw [hm, hn, List.take_take]
  conv => rhs; rw [← List.take_append_drop (min m n) raw]
  congr 1
  rw [List.length_take, List.drop_eq_drop_iff]
  omega

end Sapling.Text
