/-!
# Command-line arguments

The command line is a command, `run` or `parse`, with one input and options before or after it.
After `--` every argument is an input.  Arguments are gone through from left to right, and the first
mistake decides.

The value of `--color` in an argument of its own is looked at only when the next argument turns out
to make sense, so that a mistake in that one is told first.

## Main definitions

* `Invocation` — what is to be done.
* `Refusal` — why nothing is done: a mistake, or a request for help or for the version.
* `Form`, `Form.ofArgument` — how an argument is written.
* `Progress`, `Progress.step` — the options of a command as far as they have been read.
* `Invocation.ofArguments` — the meaning of a whole command line.
-/

namespace Sapling.CommandLine

/-- What can be done with a program. -/
inductive Command where
  /-- Evaluate it, and print its value. -/
  | run
  /-- Parse it, and print its tree. -/
  | parse
  deriving DecidableEq, Repr, Inhabited

/-- When diagnostics have colours. -/
inductive ColourChoice where
  /-- When the terminal can show them. -/
  | auto
  /-- Always. -/
  | always
  /-- Never. -/
  | never
  deriving DecidableEq, Repr, Inhabited

/-- What is to be done. -/
structure Invocation where
  /-- What to do with the program. -/
  command : Command
  /-- The program, or the path of the file that holds it. -/
  input : String
  /-- Whether the input is the program itself. -/
  inline : Bool
  /-- When diagnostics have colours. -/
  colour : ColourChoice
  deriving DecidableEq, Repr, Inhabited

/-- Why nothing is done. -/
inductive Refusal where
  /-- Help is asked for. -/
  | help
  /-- The version is asked for. -/
  | version
  /-- There is no command. -/
  | missingCommand
  /-- There is no such command. -/
  | unknownCommand
  /-- There is no such option, or an input too many. -/
  | unknownArgument
  /-- There is no input. -/
  | missingInput
  /-- An option is given twice. -/
  | repeatedOption
  /-- The value of an option is missing or is none of its values. -/
  | invalidValue
  /-- An option that takes no value is given one. -/
  | unexpectedValue
  deriving DecidableEq, Repr, Inhabited

/-- The exit code of a refusal: help and version are what was asked for, all else is a mistake. -/
def Refusal.exitCode : Refusal → Nat
  | help => 0
  | version => 0
  | _ => 2

/-! ### How arguments are written -/

/-- How an argument is written. -/
inductive Form where
  /-- The mark `--`, after which no argument is an option. -/
  | endOfOptions
  /-- A long option, perhaps with a value attached to it. -/
  | long (name : List Char) (value : Option (List Char))
  /-- Short options, one letter each. -/
  | short (letters : List Char)
  /-- Anything else. -/
  | word
  deriving DecidableEq, Repr, Inhabited

/-- A long option, with the value after its first `=` if it has one. -/
def Form.ofLong (text : List Char) : Form :=
  match text.dropWhile (· ≠ '=') with
  | [] => long text none
  | _ :: value => long (text.takeWhile (· ≠ '=')) (some value)

/-- How an argument is written.  A hyphen alone is an ordinary word. -/
def Form.ofArgument (argument : String) : Form :=
  match argument.toList with
  | ['-', '-'] => endOfOptions
  | '-' :: '-' :: text => ofLong text
  | ['-'] => word
  | '-' :: letters => short letters
  | _ => word

/-- The colour choice with a name. -/
def ColourChoice.ofName? (name : String) : Option ColourChoice :=
  match name with
  | "auto" => some auto
  | "always" => some always
  | "never" => some never
  | _ => none

/-! ### The arguments of a command -/

/-- A colour option in an argument of its own, of which the value is still to be looked at. -/
inductive PendingColour where
  /-- There is no such option. -/
  | none
  /-- The value has not come yet. -/
  | awaited
  /-- The value has come. -/
  | given (value : String)
  deriving DecidableEq, Repr, Inhabited

/-- What has been read of the arguments of a command. -/
structure Progress where
  /-- The input. -/
  input : Option String
  /-- Whether the input is the program itself. -/
  inline : Bool
  /-- The colour choice. -/
  colour : Option ColourChoice
  /-- A colour choice that is not looked at yet. -/
  pending : PendingColour
  /-- Whether `--` has come. -/
  optionsEnded : Bool
  deriving DecidableEq, Repr, Inhabited

namespace Progress

/-- Nothing has been read. -/
def start : Progress := ⟨none, false, none, .none, false⟩

/-- Takes a colour choice, which must be the first. -/
def choose (p : Progress) (value : String) : Except Refusal Progress :=
  if p.colour.isSome then .error .repeatedOption
  else
    match ColourChoice.ofName? value with
    | none => .error .invalidValue
    | some colour => .ok { p with colour := some colour, pending := .none }

/-- Looks at the pending value, if there is one. -/
def settle (p : Progress) : Except Refusal Progress :=
  match p.pending with
  | .none => .ok p
  | .awaited => .error .invalidValue
  | .given value => p.choose value

/-- Takes the option that the input is the program itself, which may come once. -/
def takeInline (p : Progress) : Except Refusal Progress := do
  let p ← p.settle
  if p.inline then .error .repeatedOption else .ok { p with inline := true }

/-- Takes the request for help. -/
def takeHelp (p : Progress) : Except Refusal Progress := do
  let _ ← p.settle
  .error .help

/-- Takes an input; there can be only one. -/
def takeInput (p : Progress) (argument : String) : Except Refusal Progress :=
  if p.input.isSome then .error .unknownArgument
  else do
    let p ← p.settle
    .ok { p with input := some argument }

/-- Takes an option with a long name. -/
def takeLong (p : Progress) (name : List Char) (value : Option (List Char)) :
    Except Refusal Progress :=
  match String.ofList name, value with
  | "source", none => p.takeInline
  | "help", none => p.takeHelp
  | "source", some _ => .error .unexpectedValue
  | "help", some _ => .error .unexpectedValue
  | "color", none => do
    let p ← p.settle
    .ok { p with pending := .awaited }
  | "color", some value => do
    let p ← p.settle
    p.choose (String.ofList value)
  | _, _ => .error .unknownArgument

/-- Takes an option of one letter. -/
def takeShort (p : Progress) (letter : Char) : Except Refusal Progress :=
  match letter with
  | 's' => p.takeInline
  | 'h' => p.takeHelp
  | _ => .error .unknownArgument

/-- Takes one argument. -/
def step (p : Progress) (argument : String) : Except Refusal Progress :=
  if p.optionsEnded then p.takeInput argument
  else
    match Form.ofArgument argument with
    | .endOfOptions => .ok { p with optionsEnded := true }
    | .long name value => p.takeLong name value
    | .short letters => letters.foldlM takeShort p
    | .word =>
      if p.pending = .awaited then .ok { p with pending := .given argument }
      else p.takeInput argument

/-- What is to be done when all arguments have been taken. -/
def finish (command : Command) (p : Progress) : Except Refusal Invocation := do
  let p ← p.settle
  match p.input with
  | none => .error .missingInput
  | some input => .ok ⟨command, input, p.inline, p.colour.getD .auto⟩

end Progress

/-! ### Whole command lines -/

/-- The command with a name. -/
def Command.ofName? (name : String) : Option Command :=
  match name with
  | "run" => some run
  | "parse" => some parse
  | _ => none

/-- The answer to `help` with further arguments: help, for any command and for `help` itself. -/
def helpFor : List String → Refusal
  | [] => .help
  | [topic] =>
    if topic = "help" || (Command.ofName? topic).isSome then .help else .unknownCommand
  | _ => .unknownCommand

/-- The answer to a first argument that is no command. -/
def withoutCommand (first : String) (later : List String) : Refusal :=
  match Form.ofArgument first with
  | .endOfOptions => if later.isEmpty then .missingCommand else .unknownArgument
  | .long name value =>
    if name = "help".toList then if value.isSome then .unexpectedValue else .help
    else if name = "version".toList then if value.isSome then .unexpectedValue else .version
    else .unknownArgument
  | .short ('h' :: _) => .help
  | .short ('V' :: _) => .version
  | .short _ => .unknownArgument
  | .word => .unknownCommand

/-- The meaning of the arguments of a command line. -/
def Invocation.ofArguments : List String → Except Refusal Invocation
  | [] => .error .missingCommand
  | first :: later =>
    match Command.ofName? first with
    | some command => do
      let p ← later.foldlM Progress.step Progress.start
      p.finish command
    | none => if first = "help" then .error (helpFor later) else .error (withoutCommand first later)

end Sapling.CommandLine
