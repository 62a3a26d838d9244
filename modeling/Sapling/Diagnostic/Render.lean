import Sapling.Diagnostic
import Sapling.Diagnostic.Cluster
import Sapling.Diagnostic.Drawing
import Sapling.Numeral
import Sapling.Source
import Sapling.Text.Width

/-!
# Rendering diagnostics

A diagnostic is drawn as a header with its severity and message, then blocks of source lines with
the snippets underlined, then the notes.  Snippets of one source whose lines are neighbours share a
block.

## Main definitions

* `Config` — styles, symbols, and how many lines of context are shown.
* `Render.Mark`, `Render.mark?` — a snippet with its source and the line it is drawn on.
* `Render.underline`, `Render.row`, `Render.block` — the parts of a block.
* `Diagnostic.render` — the whole drawing, where lines are counted without bound.
* `Diagnostic.renderInWord` — the whole drawing, where they are counted in a machine word.
-/

namespace Sapling

/-- How diagnostics are drawn. -/
structure Config where
  /-- The number of lines shown above and below the lines of a cluster of snippets. -/
  contextSize : Nat
  /-- The style of errors. -/
  error : Style
  /-- The style of warnings. -/
  warning : Style
  /-- The style of what stands out. -/
  emphasis : Style
  /-- The style of what stands back. -/
  subtle : Style
  /-- What stands between line numbers and lines. -/
  gutter : String
  /-- What stands before notes. -/
  note : String
  /-- What one column of an underline is drawn with. -/
  underline : String
  /-- What stands between an underline and its label. -/
  underlineAfter : String
  deriving DecidableEq, Repr, Inhabited

/-- The ordinary way to draw diagnostics. -/
def Config.standard : Config where
  contextSize := 1
  error := { colour := some (.named .red), bold := true }
  warning := { colour := some (.named .yellow), bold := true }
  emphasis := { bold := true }
  subtle := { dimmed := true, italic := true }
  gutter := "│"
  note := "="
  underline := "^"
  underlineAfter := " "

/-- The style of a severity. -/
def Config.severity (config : Config) : Severity → Style
  | .warning => config.warning
  | .error => config.error

/-- The style of an underline: primary snippets have that of the severity. -/
def Config.snippet (config : Config) (severity : Severity) : SnippetRole → Style
  | .primary => config.severity severity
  | .secondary => config.emphasis

namespace Render

/-! ### Text in columns -/

/-- A number of blanks. -/
def blanks (n : Nat) : String := String.ofList (List.replicate n ' ')

/-- The text that stands for a tab. -/
def tab : List Char := [' ', ' ', ' ', ' ']

/-- A text with blanks for its tabs. -/
def expandTabs (text : List Char) : List Char :=
  text.flatMap fun c => if c = '\t' then tab else [c]

/-- The columns that are counted for a text: those it takes, and those of the blanks for its tabs.
-/
def columns (text : List Char) : Nat := Text.displayWidth text + text.count '\t' * tab.length

/-! ### Snippets in their places -/

/-- A snippet in its place. -/
structure Mark where
  /-- The snippet. -/
  snippet : Snippet
  /-- The source it is about. -/
  source : Source
  /-- The index of the line on which it starts. -/
  line : Nat
  deriving DecidableEq, Repr, Inhabited

/-- The range of lines that a mark takes: it is drawn on the line on which it starts. -/
def Mark.range (m : Mark) : Span := ⟨m.line, m.line + 1⟩

theorem Mark.start_le_stop (m : Mark) : m.range.start ≤ m.range.stop := Nat.le_succ m.line

/-- Finds the place of a snippet. -/
def mark? (sources : List Source) (s : Snippet) : Except Drawing.Failure Mark :=
  match sources[s.source]? with
  | none => .error .sourceMissing
  | some source =>
    match source.lineIndex? s.span.start with
    | none => .error .outOfBounds
    | some line => .ok ⟨s, source, line⟩

/-- Finds the places of all snippets; the first that has none decides. -/
def marks? (sources : List Source) (snippets : List Snippet) : Except Drawing.Failure (List Mark) :=
  snippets.mapM (mark? sources)

/-- Marks, source by source, the sources in the order of their first marks. -/
def marksBySource (marks : List Mark) : List (List Mark) :=
  (marks.map (·.snippet.source)).eraseDups.map fun i => marks.filter (·.snippet.source = i)

/-! ### Blocks of lines -/

/-- A line number, or none, right-aligned in a number of columns, and the gutter. -/
def gutter (config : Config) (width : Nat) (number : Option Nat) : Drawing :=
  let digits := number.elim "" Numeral.decimal
  .styled config.subtle (blanks (width - digits.length) ++ digits ++ " " ++ config.gutter ++ " ")

/-- Where the underline of a snippet on a line stops: where the snippet does, but not beyond the
content of the line, and not before the snippet starts. -/
def underlineStop (line : Text.Line) (span : Span) : Nat := max (min span.stop line.stop) span.start

/-- The row that underlines a snippet and tells its label. -/
def underline (config : Config) (severity : Severity) (line : Text.Line) (m : Mark) : Drawing :=
  let span := m.snippet.span
  let before := Text.slice? m.source.chars line.start span.start
  let marked := Text.slice? m.source.chars span.start (underlineStop line span)
  match before, marked with
  | some before, some marked =>
    .styled (config.snippet severity m.snippet.role)
      (blanks (columns before)
        ++ String.join (List.replicate (max (columns marked) 1) config.underline)
        ++ config.underlineAfter ++ m.snippet.label ++ "\n")
  | _, _ => .fail .insideCharacter

/-- A line of the source, and the underlines of the marks on it. -/
def row (config : Config) (severity : Severity) (width : Nat) (lines : List Text.Line)
    (marks : List Mark) (index : Nat) : Drawing :=
  gutter config width (some (index + 1)) ++
    match lines[index]? with
    | none => .fail .outOfBounds
    | some line =>
      .text (String.ofList (expandTabs line.content) ++ "\n") ++
        .concat ((marks.filter (·.line = index)).map fun m =>
          gutter config width none ++ underline config severity line m)

/-- A place in a source, as a block is headed with it. -/
def place (name : String) (position : Nat × Nat) : String :=
  name ++ ":" ++ Numeral.decimal position.1 ++ ":" ++ Numeral.decimal position.2

/-- The lines that are shown for a cluster: its own and the context, within the source.  The sum has
no bound. -/
def shownLines (config : Config) (cover : Span) (lineCount : Nat) : Span :=
  ⟨cover.start - config.contextSize, min (cover.stop + config.contextSize) lineCount⟩

/-- The number of sizes that a machine word holds. -/
def wordSize : Nat := 18446744073709551616

/-- The lines that are shown for a cluster, with the sum in a machine word: after the largest size
it starts over.  The difference stops at zero. -/
def shownLinesInWord (config : Config) (cover : Span) (lineCount : Nat) : Span :=
  ⟨cover.start - config.contextSize,
    min ((cover.stop + config.contextSize) % wordSize) lineCount⟩

/-- The head of a block: the place of its first mark. -/
def blockHead (config : Config) (m : Mark) : Drawing :=
  match m.source.position? m.snippet.span.start with
  | none => .fail .outOfBounds
  | some position =>
    .styled config.subtle
      ("In " ++ place m.source.name position
        ++ m.source.path.elim "" (fun path => " (" ++ place path position ++ ")") ++ "\n")

/-- The block for a cluster of marks in one source, which shows some range of its lines. -/
def blockShowing (shown : Span → Nat → Span) (config : Config) (severity : Severity)
    (cluster : Cluster Mark) : Drawing :=
  match cluster.items with
  | [] => .nothing
  | first :: _ =>
    let lines := first.source.lines
    let shown := shown cluster.cover lines.length
    let width := (Numeral.decimal shown.stop).length
    blockHead config first
      ++ .concat (shown.offsets.map (row config severity width lines cluster.items))

/-- The block for a cluster of marks in one source. -/
def block (config : Config) (severity : Severity) (cluster : Cluster Mark) : Drawing :=
  blockShowing (shownLines config) config severity cluster

/-- Blocks for all marks, source by source. -/
def blocksBy (draw : Cluster Mark → Drawing) (marks : List Mark) : Drawing :=
  .concat ((marksBySource marks).map fun marks =>
    .concat ((Cluster.gather Mark.range marks).map draw))

/-- The blocks for all marks, source by source. -/
def blocks (config : Config) (severity : Severity) (marks : List Mark) : Drawing :=
  blocksBy (block config severity) marks

/-- The blocks for all marks, with the lines of each counted in a machine word. -/
def blocksInWord (config : Config) (severity : Severity) (marks : List Mark) : Drawing :=
  blocksBy (blockShowing (shownLinesInWord config) config severity) marks

/-! ### Whole diagnostics -/

/-- The header of a diagnostic. -/
def header (config : Config) (d : Diagnostic) : Drawing :=
  .styled (config.severity d.severity) (d.severity.name ++ ":")
    ++ .text (d.message.elim "" (fun message => " " ++ message) ++ "\n")

/-- A note. -/
def note (config : Config) (text : String) : Drawing :=
  .styled config.emphasis (config.note ++ " note:") ++ .text (" " ++ text ++ "\n")

end Render

open Render in
/-- The drawing of a diagnostic, with the marks of its snippets drawn in some way.  None is drawn
unless every snippet has its place. -/
def Diagnostic.renderBy (draw : List Mark → Drawing) (config : Config) (sources : List Source)
    (d : Diagnostic) : Drawing :=
  header config d ++
    match marks? sources d.snippets with
    | .error failure => .fail failure
    | .ok marks => draw marks ++ .concat (d.notes.map (note config)) ++ .text "\n"

/-- The drawing of a diagnostic. -/
def Diagnostic.render (config : Config) (sources : List Source) (d : Diagnostic) : Drawing :=
  d.renderBy (Render.blocks config d.severity) config sources

/-- The drawing of a diagnostic, with lines counted in a machine word.  It is the same as long as
the sums stay in it. -/
def Diagnostic.renderInWord (config : Config) (sources : List Source) (d : Diagnostic) : Drawing :=
  d.renderBy (Render.blocksInWord config d.severity) config sources

namespace Diagnostic

open Render

variable {config : Config} {sources : List Source} {d : Diagnostic} {marks : List Mark}
  {failure : Drawing.Failure}

theorem renderBy_of_marks (draw : List Mark → Drawing) (h : marks? sources d.snippets = .ok marks) :
    d.renderBy draw config sources
      = header config d ++ (draw marks ++ .concat (d.notes.map (note config)) ++ .text "\n") := by
  rw [renderBy, h]

theorem renderBy_of_error (draw : List Mark → Drawing)
    (h : marks? sources d.snippets = .error failure) :
    d.renderBy draw config sources = header config d ++ .fail failure := by
  rw [renderBy, h]

/-- The drawing of a diagnostic whose snippets have their places. -/
theorem render_of_marks (h : marks? sources d.snippets = .ok marks) :
    d.render config sources = header config d ++
      (blocks config d.severity marks ++ .concat (d.notes.map (note config)) ++ .text "\n") :=
  renderBy_of_marks _ h

/-- If a snippet has no place, there is the header and the failure. -/
theorem render_of_error (h : marks? sources d.snippets = .error failure) :
    d.render config sources = header config d ++ .fail failure :=
  renderBy_of_error _ h

end Diagnostic

end Sapling
