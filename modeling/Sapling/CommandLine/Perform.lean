import Sapling.CommandLine.Arguments
import Sapling.CommandLine.Files
import Sapling.Session

/-!
# Carrying out a command line

A command reads its program, parses it, and prints its tree or its value.  Syntax errors are
rendered to the error output as they are reported.

## Main definitions

* `Environment`, `ColourChoice.enabled` — the variables that decide about colours.
* `Report` — what is printed, and the exit code.
* `Invocation.report` — the outcome for a program that could be read.
* `perform` — the outcome of a command line.
-/

namespace Sapling.CommandLine

/-- The variables of the environment that decide about colours. -/
structure Environment where
  /-- The kind of terminal. -/
  term : Option String
  /-- Set, to whatever value, where no colours are wanted. -/
  noColour : Option String
  deriving DecidableEq, Repr, Inhabited

/-- Whether diagnostics have colours.  Left to the environment, they do if the terminal has a kind
that is not `dumb` and colours are not refused. -/
def ColourChoice.enabled (env : Environment) : ColourChoice → Bool
  | always => true
  | never => false
  | auto => env.term.isSome && env.term ≠ some "dumb" && env.noColour.isNone

/-- What a command line leads to. -/
structure Report where
  /-- The exit code. -/
  exitCode : Nat
  /-- What is printed. -/
  output : String
  /-- What is printed as errors. -/
  errors : String
  deriving DecidableEq, Repr, Inhabited

/-- A command that succeeds, and prints some text. -/
def Report.success (output : String) : Report := ⟨0, output, ""⟩

/-- A command that fails, and prints some errors. -/
def Report.failure (errors : String) : Report := ⟨1, "", errors⟩

/-- The name shown for a program that is not in a file. -/
def unnamed : String := "<unnamed>"

/-- The diagnostics of a session as text. -/
def renderAll (colours : Bool) (s : Session) : String :=
  String.join ((s.render .standard).map (Drawing.toText colours))

/-- The report on a program that is accepted or rejected in a session. -/
def reportResult {α : Type} (colours : Bool) (print : α → String)
    (result : Except Rejection α × Session) : Report :=
  match result.1 with
  | .ok a => .success (print a)
  | .error e => .failure (renderAll colours result.2 ++ e.message ++ "\n")

namespace Invocation

/-- The name shown for the program. -/
def name (i : Invocation) : String := if i.inline then unnamed else i.input

/-- The report on a program with a given text. -/
def report (env : Environment) (i : Invocation) (text : String) : Report :=
  let colours := i.colour.enabled env
  match i.command with
  | .run =>
    reportResult colours (fun value => value.elim "" fun v => v.display ++ "\n")
      (Session.empty.run i.name text)
  | .parse =>
    reportResult colours (fun program => program.display ++ "\n") (Session.empty.parse i.name text)

end Invocation

/-- Carries out a command line, with some way to read files.  A file is read only where one is
named. -/
def perform {m : Type → Type} [Monad m] (env : Environment)
    (read : String → m (Except ReadError String)) (arguments : List String) :
    m (Except Refusal Report) :=
  match Invocation.ofArguments arguments with
  | .error refusal => pure (.error refusal)
  | .ok i =>
    if i.inline then pure (.ok (i.report env i.input))
    else do
      match ← read i.input with
      | .error e => pure (.ok (.failure (e.message ++ "\n")))
      | .ok text => pure (.ok (i.report env text))

end Sapling.CommandLine
