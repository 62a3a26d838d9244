import Sapling.Proofs.Lines
import Sapling.Source

/-!
# What lines show

Lines can be cut out of a text by the offsets of its line feeds alone: a line goes from the offset
after a line feed up to the offset after the next one, or to the end of the text.  These offsets are
between characters, so the cut is possible, and what it gives is the content of the line with its
ending.  All lines together are the text.

## Main definitions

* `breaks` — the offsets of the line feeds.
* `startAfter?` — where a line starts, found among the breaks.
* `cutLine?` — a line that is cut out of the text.

## Main results

* `startAfter?_breaks` — lines start after the breaks.
* `cutLine?_eq` — what is cut out is the content of the line.
* `endsAt_of_getElem?` — how lines end.
* `Source.text_of_lines` — the lines of a source make up its text.
-/

namespace Sapling

namespace Text

/-- The offsets of the line feeds of a text that starts at an offset. -/
def breaksFrom (offset : Nat) : List Char → List Nat
  | [] => []
  | c :: rest =>
    if c = '\n' then offset :: breaksFrom (offset + c.utf8Size) rest
    else breaksFrom (offset + c.utf8Size) rest

/-- The offsets of the line feeds of a text. -/
def breaks (text : List Char) : List Nat := breaksFrom 0 text

/-- The offset where a line starts: the first at zero, any other just after a break. -/
def startAfter? (breaks : List Nat) : Nat → Option Nat
  | 0 => some 0
  | i + 1 => breaks[i]?.map (· + 1)

/-- A line, cut out of the text from its start up to that of the next line, or to the end of the
text; then its line feed is dropped, and one carriage return.  If there is such a line, but an end
of it lies inside a character, there is nothing to cut out. -/
def cutLine? (text : List Char) (index : Nat) : Option (Option (List Char)) :=
  (startAfter? (breaks text) index).map fun start =>
    (slice? text start ((startAfter? (breaks text) (index + 1)).getD (byteLength text))).map
      fun raw => dropFinal '\r' (dropFinal '\n' raw)

variable {text : List Char} {i : Nat} {line : Line}

/-! ### Starts of lines -/

theorem map_start_linesFrom (start : Nat) (text : List Char) :
    (linesFrom start (rawLines text)).map Line.start
      = start :: (breaksFrom start text).map (· + 1) := by
  induction text generalizing start with
  | nil => rfl
  | cons c rest ih =>
    by_cases hc : c = '\n'
    · rw [rawLines, if_pos hc, linesFrom, List.map_cons, breaksFrom, if_pos hc, List.map_cons, hc]
      exact congrArg (start :: ·) (ih (start + 1))
    · -- the first line of the rest starts one character earlier
      rw [rawLines, if_neg hc, breaksFrom, if_neg hc]
      cases hrest : rawLines rest with
      | nil => exact absurd hrest (rawLines_ne_nil rest)
      | cons first more =>
        have hlater := ih (start + c.utf8Size)
        rw [hrest, linesFrom, List.map_cons] at hlater
        obtain ⟨-, hlater⟩ := List.cons.inj hlater
        rw [consFirst, linesFrom, List.map_cons, byteLength_cons, ← Nat.add_assoc, hlater]
        rfl

/-- **Lines start after the breaks.** -/
theorem startAfter?_breaks (text : List Char) (i : Nat) :
    startAfter? (breaks text) i = (lines text)[i]?.map Line.start := by
  rw [← List.getElem?_map, lines, map_start_linesFrom]
  cases i with
  | zero => rfl
  | succ i => rw [List.getElem?_cons_succ, List.getElem?_map]; rfl

/-! ### Contents and endings -/

theorem flatMap_linesFrom (start : Nat) (xs : List (List Char)) :
    ((linesFrom start xs).flatMap fun l => l.content ++ l.ending) = xs.flatten := by
  induction xs generalizing start with
  | nil => rfl
  | cons x xs ih =>
    rw [linesFrom, List.flatMap_cons, content_append_ending, ih, List.flatten_cons]

/-- The next line starts where a line ends, and the text ends where the last one does. -/
theorem start_succ {raw : List Char} {earlier later : List (List Char)}
    (h : rawLines text = earlier ++ raw :: later) :
    (((lines text)[earlier.length + 1]?.map Line.start).getD (byteLength text))
      = byteLength earlier.flatten + byteLength raw := by
  cases later with
  | nil =>
    have hnone : (lines text)[earlier.length + 1]? = none := by
      rw [List.getElem?_eq_none_iff, lines, length_linesFrom, h, List.length_append]
      exact Nat.le_refl _
    rw [hnone, congrArg byteLength (eq_of_rawLines h)]
    simp
  | cons next later =>
    have hnext : rawLines text = (earlier ++ [raw]) ++ next :: later := by simpa using h
    have hline := getElem?_lines_of_rawLines hnext
    rw [List.length_append, List.length_singleton] at hline
    rw [hline]
    simp [Line.ofRaw]

/-- **A line can be sliced out of the text**, with its ending and without it. -/
theorem slice?_line (h : (lines text)[i]? = some line) :
    slice? text line.start (((lines text)[i + 1]?.map Line.start).getD (byteLength text))
        = some (line.content ++ line.ending) ∧
      slice? text line.start line.stop = some line.content := by
  obtain ⟨earlier, raw, later, hraw, rfl, rfl⟩ := exists_rawLines_of_getElem? h
  have htext := eq_of_rawLines hraw
  have hsplit := content_append_ending (byteLength earlier.flatten) raw
  rw [start_succ hraw]
  constructor
  · rw [hsplit, htext]
    exact slice?_append _ raw _
  · rw [slice?_eq_some_iff]
    refine ⟨earlier.flatten, (Line.ofRaw (byteLength earlier.flatten) raw).ending ++ later.flatten,
      ?_, rfl, rfl⟩
    rw [← List.append_assoc (Line.content _), hsplit]
    exact htext

/-- **What is cut out is the content of the line.** -/
theorem cutLine?_eq (text : List Char) (i : Nat) :
    cutLine? text i = (lines text)[i]?.map fun line => some line.content := by
  rw [cutLine?, startAfter?_breaks, startAfter?_breaks, Option.map_map]
  cases h : (lines text)[i]? with
  | none => rfl
  | some line =>
    have hslice := (slice?_line h).1
    obtain ⟨earlier, raw, later, -, -, rfl⟩ := exists_rawLines_of_getElem? h
    rw [content_append_ending] at hslice
    rw [Option.map_some, Function.comp_apply, hslice]
    rfl

/-- **How lines end.**  All but the last have a line feed, before which a carriage return is not
shown, and the last may have a carriage return there as well. -/
theorem endsAt_of_getElem? (h : (lines text)[i]? = some line) :
    line.EndsAt (if i + 1 < (lines text).length then ['\n'] else []) ∧ '\n' ∉ line.content := by
  obtain ⟨earlier, raw, later, hraw, rfl, rfl⟩ := exists_rawLines_of_getElem? h
  have hlength : (lines text).length = earlier.length + 1 + later.length := by
    rw [lines, length_linesFrom, hraw, List.length_append, List.length_cons]
    omega
  have hdrop {l : List Char} (hl : '\n' ∉ l) : '\n' ∉ dropFinal '\r' l := by
    obtain ⟨n, hn⟩ := dropFinal_eq_take '\r' l
    exact fun hmem => hl (List.mem_of_mem_take (hn ▸ hmem))
  rcases rawLines_cases hraw with ⟨l, rfl, hl, hne⟩ | ⟨rfl, hno⟩
  · have hpos := List.length_pos_iff.2 hne
    rw [if_pos (by omega), content_ofRaw_feed]
    exact ⟨endsAt_ofRaw_feed _ l, hdrop hl⟩
  · rw [if_neg (by rw [hlength, List.length_nil]; omega), content_ofRaw_last _ hno]
    exact ⟨endsAt_ofRaw_last _ hno, hdrop hno⟩

end Text

namespace Source

open Text

/-- **The lines of a source make up its text.**  There is a line for each index below the number of
lines.  It starts after a break, and can be cut out of the text from there, up to where its content
stops or to the start of the next line; no line feed is in it.  One after the other, with their
endings, the lines are the text.  All but the last end with a line feed, and the last with nothing,
before which one carriage return is taken off if there is one, and no more. -/
theorem text_of_lines (s : Source) :
    (∀ i, (s.lineContent? i).isSome ↔ i < s.lineCount) ∧
      s.lineCount = 1 + (breaks s.chars).length ∧
      (∀ i, s.lineStart? i = startAfter? (breaks s.chars) i) ∧
      (∀ i, cutLine? s.chars i = (s.lineContent? i).map some) ∧
      (∀ i content, s.lineContent? i = some content → '\n' ∉ content ∧
        ∃ start, s.lineStart? i = some start ∧
          slice? s.chars start (start + byteLength content) = some content) ∧
      (s.lines.flatMap fun line => line.content ++ line.ending) = s.chars ∧
      ∀ (i : Nat) (line : Line), s.lines[i]? = some line →
        line.EndsAt (if i + 1 < s.lineCount then ['\n'] else []) := by
  refine ⟨?_, ?_, fun i => (startAfter?_breaks s.chars i).symm, ?_, ?_, ?_, ?_⟩
  · intro i
    rw [lineContent?, Option.isSome_map, isSome_getElem?]
    rfl
  · have hlength := congrArg List.length (map_start_linesFrom 0 s.chars)
    rw [List.length_map, List.length_cons, List.length_map] at hlength
    rw [Nat.add_comm]
    exact hlength
  · intro i
    rw [cutLine?_eq, lineContent?, Option.map_map]
    rfl
  · intro i content h
    obtain ⟨line, hline, rfl⟩ := Option.map_eq_some_iff.1 h
    refine ⟨(endsAt_of_getElem? hline).2, line.start, ?_, (slice?_line hline).2⟩
    rw [lineStart?, hline, Option.map_some]
  · rw [lines, Text.lines, flatMap_linesFrom, flatten_rawLines]
  · exact fun i line h => (endsAt_of_getElem? h).1

end Source

end Sapling
