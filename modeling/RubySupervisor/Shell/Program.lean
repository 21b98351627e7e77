import RubySupervisor.Files.Tree
import RubySupervisor.Text.Scan

/-!
# Programs

A program is a file that may be executed: a tool, a script whose first line names its interpreter,
or a text that only a shell can make sense of. What the system answers to the wish to run a file
decides where a search along a list of directories ends.
-/

namespace RubySupervisor.Shell

/-- What the file of a tool begins with. -/
def toolMark : String := "\x7fTOOL:"

/-- The content of the file of a tool. -/
def toolImage (name : String) : ByteArray := (toolMark ++ name).toUTF8

/-- What kind of program a file holds. -/
inductive Program where
  | tool (name : String)
  /-- A script for an interpreter, with the argument that goes before the script. -/
  | interpreted (interpreter : String) (argument : Option String)
  /-- A text without an interpreter. -/
  | plain
  deriving DecidableEq, Repr

/-- Whether a character separates the words of a first line. -/
def isLineBlank (c : Char) : Bool := c == ' ' || c == '\t'

/-- The number of bytes in which a first line has to end. -/
def firstLineLimit : Nat := 256

/-- The line behind the mark of an interpreter, unless the name of the interpreter may have been
cut off. -/
def interpreterLine? (text : List Char) : Option (List Char) :=
  let body := (text.take firstLineLimit).drop 2
  if body.contains '\n' || text.length < firstLineLimit then some (body.takeWhile (· != '\n'))
  else if (body.dropWhile isLineBlank).any isLineBlank then some body
  else none

/-- The script that a first line describes. -/
def Program.ofLine (line : List Char) : Program :=
  let words := ((line.reverse.dropWhile isLineBlank).reverse).dropWhile isLineBlank
  let interpreter := words.takeWhile (fun c => !isLineBlank c)
  let argument := (words.drop interpreter.length).dropWhile isLineBlank
  if interpreter.isEmpty then .plain
  else .interpreted (String.ofList interpreter)
    (if argument.isEmpty then none else some (String.ofList argument))

/-- The program that a file holds. -/
def Program.ofContent (content : ByteArray) : Program :=
  let text := (Text.lossyText content.toList).toList
  match Text.literal? toolMark.toList text with
  | some name => .tool (String.ofList name)
  | none =>
    match text with
    | '#' :: '!' :: _ => ((interpreterLine? text).map Program.ofLine).getD .plain
    | _ => .plain

/-- The number of interpreters that may stand behind one another. -/
def interpreterLimit : Nat := 5

/-- Why the system does not run a file, if it does not; paths are seen from a directory, and
`depth` bounds the interpreters that are still to come. -/
def executionFaultUpTo (files : FileTree) (directory : Path) :
    (depth : Nat) → (path : String) → Option FileError
  | depth, path =>
    match files.metadata (directory.join path) with
    | .error error => some error
    | .ok (.file content true) =>
      match Program.ofContent content with
      | .tool _ => none
      | .plain => some .notExecutable
      | .interpreted interpreter _ =>
        match depth with
        | 0 => some .tooManyLinks
        | depth + 1 => executionFaultUpTo files directory depth interpreter
    | .ok _ => some .permissionDenied

/-- Why the system does not run a file, if it does not. -/
def executionFault? (files : FileTree) (directory : Path) (path : String) : Option FileError :=
  executionFaultUpTo files directory interpreterLimit path

/-- A program that can be run. -/
structure Runnable where
  /-- The path as it was tried. -/
  path : String
  /-- The file is a text that is handed to a shell. -/
  asText : Bool
  deriving DecidableEq, Repr

/-- The paths at which a search along a list of directories looks for a name; an empty entry is the
directory in which the search takes place. -/
def searchedPaths (searchPath name : String) : List String :=
  (Text.splitAt ':' searchPath).map (fun entry => if entry = "" then name else entry ++ "/" ++ name)

/-- Whether a fault only says that nothing is there. -/
def isAbsence (error : FileError) : Bool := error = .notFound || error = .notADirectory

/-- Runs a file, a text by a shell. -/
def runnable (files : FileTree) (directory : Path) (path : String) : Except FileError Runnable :=
  match executionFault? files directory path with
  | none => .ok ⟨path, false⟩
  | some .notExecutable => .ok ⟨path, true⟩
  | some error => .error error

/-- The first of several paths that can be run. A path where nothing is, or nothing that may be
executed, is passed over, but that it was forbidden is remembered; any other fault ends the
search. -/
def firstRunnable (files : FileTree) (directory : Path) :
    (forbidden : Bool) → (last : FileError) → List String → Except FileError Runnable
  | forbidden, last, [] => .error (if forbidden then .permissionDenied else last)
  | forbidden, _, path :: rest =>
    match runnable files directory path with
    | .ok found => .ok found
    | .error error =>
      if error = .permissionDenied then firstRunnable files directory true error rest
      else if isAbsence error then firstRunnable files directory forbidden error rest
      else .error error

/-- Where a process looks for programs if its environment does not say so. -/
def usualSearchPath : String := "/bin:/usr/bin"

/-- The program that a process finds under a name; a name with a separator is a path. -/
def findRunnable (files : FileTree) (directory : Path) (searchPath : Option String)
    (name : String) : Except FileError Runnable :=
  if name = "" then .error .notFound
  else if name.toList.contains '/' then runnable files directory name
  else if 255 < name.utf8ByteSize then .error .nameTooLong
  else firstRunnable files directory false .notFound
    (searchedPaths (searchPath.getD usualSearchPath) name)

/-- The paths of a search from the first one on that is an executable file, or the last fault that
says more than that nothing is there. -/
def fromFirstFile (files : FileTree) (directory : Path) :
    (last : FileError) → List String → Except FileError (List String)
  | last, [] => .error last
  | last, path :: rest =>
    match files.metadata (directory.join path) with
    | .ok (.file _ true) => .ok (path :: rest)
    | .ok _ => fromFirstFile files directory .permissionDenied rest
    | .error error => fromFirstFile files directory (if isAbsence error then last else error) rest

/-- The first of several paths that can be run, or the last fault that says more than that nothing
is there. -/
def anyRunnable (files : FileTree) (directory : Path) :
    (last : FileError) → List String → Except FileError Runnable
  | last, [] => .error last
  | last, path :: rest =>
    match runnable files directory path with
    | .ok found => .ok found
    | .error error => anyRunnable files directory (if isAbsence error then last else error) rest

end RubySupervisor.Shell
