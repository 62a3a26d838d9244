import Sapling.Span

/-!
# Diagnostics

A diagnostic tells of a problem: how grave it is, a message, snippets of the sources that it is
about, and notes.  Sources are referred to by their index in a list.

## Main definitions

* `Severity` — warnings and errors.
* `Snippet` — a labelled stretch of a source.
* `Diagnostic` — a problem.
-/

namespace Sapling

/-- How grave a problem is. -/
inductive Severity where
  /-- Worth telling. -/
  | warning
  /-- Stands in the way of going on. -/
  | error
  deriving DecidableEq, Repr, Inhabited

/-- The word that a diagnostic starts with. -/
def Severity.name : Severity → String
  | warning => "Warning"
  | error => "Error"

/-- The part that a snippet plays. -/
inductive SnippetRole where
  /-- The place of the problem itself. -/
  | primary
  /-- A place that helps to understand it. -/
  | secondary
  deriving DecidableEq, Repr, Inhabited

/-- A labelled stretch of a source. -/
structure Snippet where
  /-- What is said about the stretch. -/
  label : String
  /-- The part it plays. -/
  role : SnippetRole
  /-- The index of the source. -/
  source : Nat
  /-- The stretch. -/
  span : Span
  deriving DecidableEq, Repr, Inhabited

/-- A problem. -/
structure Diagnostic where
  /-- How grave it is. -/
  severity : Severity
  /-- What it is. -/
  message : Option String
  /-- Where it is. -/
  snippets : List Snippet
  /-- What else there is to say. -/
  notes : List String
  deriving DecidableEq, Repr, Inhabited

end Sapling
