import RubySupervisor.CommandLine.Session
import RubySupervisor.Files.Listing

/-!
# The program

A run of the command line needs a machine, an environment and a directory. All of them are described
by one document: a listing of files under `files`, the variables under `environment`, the directory,
the time in milliseconds since the epoch under `now`, and the lines that the user types under
`input`.

The program reads this description from its standard input, runs its arguments as a command line on
the machine, and ends as the run ends.
-/

namespace RubySupervisor.CommandLine

/-- What a command line is run in. -/
structure Description where
  machine : Machine
  environment : Dict String
  directory : Path

namespace Description

/-- The description that a document gives. The programs that every machine has are there without
being listed. -/
def ofJson (j : Json) : Description :=
  let root : Path := ⟨"/"⟩
  { machine := .ofFiles (FileTree.system.withPrograms.withListing root (j.membersAt "files"))
      (((j.field? "now").bind Json.int?).getD 0) (j.textsAt "input")
    environment := j.dictAt "environment"
    directory := ((j.textAt? "directory").map Path.mk).getD root }

/-- Runs a command line. -/
def run (d : Description) (arguments : List String) : Ending :=
  CommandLine.run d.machine (Variables.texts d.environment) d.directory arguments

end Description

end RubySupervisor.CommandLine

namespace RubySupervisor

/-- Everything that is left on a stream; `limit` bounds the number of lines. -/
def readLines (stream : IO.FS.Stream) : (limit : Nat) → (sofar : String) → IO String
  | 0, sofar => return sofar
  | limit + 1, sofar => do
    let line ← stream.getLine
    if line.isEmpty then return sofar
    readLines stream limit (sofar ++ line)

/-- The number of lines that a description may have. -/
def descriptionLines : Nat := 1000000

end RubySupervisor

open RubySupervisor in
/-- Runs a command line on a described machine. -/
def main (arguments : List String) : IO UInt32 := do
  let text ← readLines (← IO.getStdin) descriptionLines ""
  let description := (Json.parse? text).getD (.object [])
  let ending := (CommandLine.Description.ofJson description).run arguments
  let output ← IO.getStdout
  let errors ← IO.getStderr
  output.putStr ending.output
  for entry in ending.records do
    errors.putStrLn entry.shown
  errors.putStr ending.errors
  output.flush
  return UInt32.ofNat ending.code
