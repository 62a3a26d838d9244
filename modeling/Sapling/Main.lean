import Sapling.CommandLine.Perform

/-!
# The program

Carries out its command line on the files of the system.
-/

namespace Sapling.CommandLine

/-- The number that the system gives to an error: it may also come as its negative. -/
def errorNumber (code : UInt32) : UInt32 := min code (-code)

/-- The cause of a failure to read a file. -/
def ReadError.ofSystem : IO.Error → ReadError
  | .noFileOrDirectory _ _ _ => notFound
  | .inappropriateType _ code _ => if errorNumber code = 20 then notDirectory else isDirectory
  | .invalidArgument f code details =>
    if errorNumber code = 36 then nameTooLong
    else other (toString (IO.Error.invalidArgument f code details))
  | e => other (toString e)

/-- Reads a file of the system as text. -/
def readSystemFile (path : String) : IO (Except ReadError String) := do
  try return textOfBytes (← IO.FS.readBinFile path)
  catch e => return .error (.ofSystem e)

/-- How the program is called. -/
def usage : String := "Usage: sapling <run|parse> [--source] [--color <auto|always|never>] <INPUT>"

end Sapling.CommandLine

open Sapling.CommandLine in
/-- The program: carries out its arguments, prints what there is to print, and answers the exit
code. -/
def main (arguments : List String) : IO UInt32 := do
  let env : Environment := ⟨← IO.getEnv "TERM", ← IO.getEnv "NO_COLOR"⟩
  match ← perform env readSystemFile arguments with
  | .error refusal =>
    if refusal.exitCode = 0 then IO.println usage else IO.eprintln usage
    return refusal.exitCode.toUInt32
  | .ok report =>
    IO.print report.output
    IO.eprint report.errors
    return report.exitCode.toUInt32
