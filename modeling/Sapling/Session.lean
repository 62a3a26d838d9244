import Sapling.Diagnostic.Render
import Sapling.Parser.Program
import Sapling.Value

/-!
# Sessions

A session keeps the sources it was given, each under an index that never changes, and the
diagnostics reported about them.  Parsing or running a text adds it to the sources, whether or not
it succeeds.

## Main definitions

* `SyntaxError.toDiagnostic` — a syntax error as a diagnostic about a source.
* `Session` — sources and collected diagnostics.
* `insert`, `report`, `reportMany`, `parse`, `run` — what can be done in a session.
-/

namespace Sapling

/-- A syntax error as a diagnostic about the source of an index. -/
def SyntaxError.toDiagnostic (source : Nat) (e : SyntaxError) : Diagnostic where
  severity := .error
  message := some "syntax error"
  snippets :=
    ⟨e.message, .primary, source, e.span⟩ ::
      e.unclosed.toList.map fun opening => ⟨"unclosed delimiter", .secondary, source, opening⟩
  notes :=
    match e.cause with
    | .invalidInteger _ =>
      ["integers are signed 64-bit; `0x`, `0o` and `0b` select another base"]
    | _ => []

/-- Why a text was not accepted: its syntax errors were reported. -/
inductive Rejection where
  /-- There were syntax errors. -/
  | hadErrors
  deriving DecidableEq, Repr, Inhabited

/-- The message for a rejection. -/
def Rejection.message : Rejection → String
  | hadErrors => "errors while parsing"

/-- Sources, and the diagnostics reported about them. -/
structure Session where
  /-- The sources, in the order in which they came. -/
  sources : List Source
  /-- The diagnostics, in the order in which they were reported. -/
  diagnostics : List Diagnostic
  deriving DecidableEq, Repr, Inhabited

namespace Session

/-- A session without sources or diagnostics. -/
def empty : Session := ⟨[], []⟩

/-- Adds a source.  Answers its index. -/
def insert (s : Session) (name text : String) : Nat × Session :=
  (s.sources.length, ⟨s.sources ++ [⟨name, none, text⟩], s.diagnostics⟩)

/-- The text of a source. -/
def sourceText? (s : Session) (index : Nat) : Option String := s.sources[index]?.map (·.text)

/-- Reports diagnostics.  Says whether one of them is an error. -/
def reportMany (s : Session) (ds : List Diagnostic) : Bool × Session :=
  (ds.any (·.severity = .error), ⟨s.sources, s.diagnostics ++ ds⟩)

/-- Reports a diagnostic.  Says whether it is an error. -/
def report (s : Session) (d : Diagnostic) : Bool × Session := s.reportMany [d]

/-- Forgets the diagnostics. -/
def clear (s : Session) : Session := ⟨s.sources, []⟩

/-- Adds a source and parses it.  Every syntax error is reported, and one is enough to reject. -/
def parse (s : Session) (name text : String) : Except Rejection Program × Session :=
  let parsed := parseText text.toList
  let inserted := s.insert name text
  let reported := inserted.2.reportMany (parsed.2.map (SyntaxError.toDiagnostic inserted.1))
  (if reported.1 then .error .hadErrors else .ok parsed.1, reported.2)

/-- Adds a source, parses it, and evaluates it if it has no syntax errors. -/
def run (s : Session) (name text : String) : Except Rejection (Option Value) × Session :=
  let parsed := s.parse name text
  (parsed.1.map Program.value?, parsed.2)

/-- The drawings of the diagnostics, against the sources there are. -/
def render (config : Config) (s : Session) : List Drawing :=
  s.diagnostics.map (Diagnostic.render config s.sources)

end Session

end Sapling
