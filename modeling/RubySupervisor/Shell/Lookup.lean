import RubySupervisor.Shell.Program
import RubySupervisor.Shell.State

/-!
# Finding programs

Where a shell looks for a program, what it says if it cannot run it, and the environment that the
program is given.
-/

namespace RubySupervisor.Shell

/-- Where a shell looks for programs if its environment does not say so. -/
def standardPath : Bytes :=
  bytesOf "/usr/local/sbin:/usr/local/bin:/usr/sbin:/usr/bin:/sbin:/bin"

/-- The names under which the shell itself is a program. -/
def shellNames : List String := ["sh", "dash", "bash"]

/-- The state with values for variables that programs get to see. -/
def State.exporting (s : State) (assigned : List (String × Bytes)) : State :=
  { s.withExported (assigned.map Prod.fst) with bindings := s.bindings.insertAll assigned }

/-- An environment with values put over it. -/
def overlaid (environment : Dict Bytes) (assigned : List (String × Bytes)) : Dict Bytes :=
  assigned.foldl (fun (d : Dict Bytes) entry =>
    if d.contains entry.1 then
      d.map (fun old => if old.1 = entry.1 then (old.1, entry.2) else old)
    else d ++ [entry]) environment

/-- The environment and the command that the arguments of `env` describe. -/
def environmentOf (environment : Dict Bytes) : List Bytes → Dict Bytes × List Bytes
  | [] => (environment, [])
  | a :: rest =>
    match Text.lossyText a, rest with
    | "-i", rest => environmentOf [] rest
    | "-", rest => environmentOf [] rest
    | "-u", name :: rest => environmentOf (environment.erase (Text.lossyText name)) rest
    | "--", rest => environmentOf environment rest
    | _, rest =>
      if a.contains (byte '=') then
        let entry := (Text.lossyText (a.takeWhile (· != byte '=')),
          (a.dropWhile (· != byte '=')).drop 1)
        environmentOf (overlaid environment [entry]) rest
      else (environment, a :: rest)

/-- The directories in which a shell looks for programs, which a command may be given of its own. -/
def State.searchPath (s : State) (assigned : List (String × Bytes)) : String :=
  ((assigned.reverse.lookup "PATH") <|> s.bindings.find? "PATH").elim "" Text.lossyText

/-- The paths at which a shell looks for a program; a name with a separator is a path. -/
def State.candidates (s : State) (assigned : List (String × Bytes)) (name : String) : List String :=
  if name.toList.contains '/' then [name] else searchedPaths (s.searchPath assigned) name

/-- The path that a name stands for, whether or not it can be run. -/
def State.program? (s : State) (name : String) : Option String :=
  if name.toList.contains '/' then
    if s.files.pathExists (s.directory.join name) then some name else none
  else (fromFirstFile s.files s.directory .notFound (s.candidates [] name)).toOption.bind (·.head?)

/-- The code with which a shell answers a program that it cannot run. -/
def faultCode (error : FileError) : Nat :=
  if isAbsence error || error = .tooManyLinks || error = .nameTooLong then 127 else 126

/-- What a shell says about a program that it cannot run. -/
def faultText (error : FileError) : String :=
  if isAbsence error then "not found" else error.reason

/-- The program that is run under a name, or a fault and the code for it. A name is first looked for
among files and then tried from there on. -/
def State.runnable (s : State) (assigned : List (String × Bytes)) (name : String) :
    Except (FileError × Nat) Runnable :=
  let tried (paths : List String) : Except (FileError × Nat) Runnable :=
    (anyRunnable s.files s.directory .notFound paths).mapError (fun e => (e, faultCode e))
  let paths := s.candidates assigned name
  if name.toList.contains '/' then tried paths
  else
    match fromFirstFile s.files s.directory .notFound paths with
    | .error error => .error (error, 127)
    | .ok paths => tried paths

/-- The file that a shell reads commands from under a name; a name without a separator is looked for
where programs are. -/
def State.sourcePath? (s : State) (name : String) : Option Path :=
  if name.toList.contains '/' then some (s.directory.join name)
  else ((searchedPaths (s.searchPath []) name).map s.directory.join).find? s.files.isFile

/-- Why a file cannot be created for writing. -/
def creationFault (files : FileTree) (p : Path) (error : FileError) : String :=
  if files.isDirectory p then "Is a directory"
  else if isAbsence error then "Directory nonexistent"
  else error.reason

/-- Where a path leads that is no file to be written: to a sink, or to no device at all. -/
def State.device? (s : State) (path : String) : Option (Option Sink) :=
  match path with
  | "/dev/null" => some (some .nowhere)
  | "/dev/zero" => some (some .nowhere)
  | "/dev/full" => some (some .full)
  | "/dev/stdout" => some (some s.output)
  | "/dev/fd/1" => some (some s.output)
  | "/dev/stderr" => some (some s.errors)
  | "/dev/fd/2" => some (some s.errors)
  | "/dev/tty" => some none
  | _ => if path = pathAbove then some (some s.above) else none

/-- The state of a shell that begins to run a text. -/
def State.entering (s : State) (environment : Dict Bytes) (modes : Modes) (name : Bytes)
    (arguments : List Bytes) (text : String) : State :=
  let environment : Dict Bytes := environment.filter (fun entry => isName entry.1.toList)
  let here := (s.files.canonical s.directory).toOption.getD s.directory
  let told := Path.mk ((environment.find? "PWD").elim "" Text.lossyText)
  let entered := if told.isAbsolute && (s.files.canonical told).toOption = some here then told
    else here
  let environment : Dict Bytes :=
    Dict.insert (Dict.ofPairs environment) "PWD" (bytesOf entered.text)
  let standard : Dict Bytes :=
    [("PATH", standardPath), ("PS1", bytesOf "# "), ("PS2", bytesOf "> "), ("PS4", bytesOf "+ ")]
  let own : List (String × Bytes) :=
    [("IFS", bytesOf " \t\n"), ("OPTIND", bytesOf "1"), ("PPID", bytesOf parentNumber)]
  let missing := standard.filter (fun entry => !environment.contains entry.1)
  let bindings := (environment.insertAll missing).insertAll own
  { s with
    bindings, exported := environment.names.partition (· = "PATH") |> fun (a, b) => a ++ b
    functions := [], name, fixed := []
    speaker := none
    arguments, status := 0, entered, line := 1, lineEnds := text.toList.count '\n', inner := 0
    modes, asked := false, loops := 0, calls := 0
    kept := none, traps := s.traps.filter (·.2.isEmpty), trapped := none, ownJobs := []
    lastJob? := none, pending := [], isApart := false
    optionWord := 1, optionPlace := none, aliases := [], tracked := [], spilled := false }

end RubySupervisor.Shell
