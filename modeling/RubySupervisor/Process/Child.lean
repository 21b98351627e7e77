import RubySupervisor.Dict
import RubySupervisor.Files.Tree
import RubySupervisor.Process.Status
import RubySupervisor.Shell.Evaluation
import RubySupervisor.Text.Scan

/-!
# Child processes

A child process is a program with arguments, a complete environment and a directory. Starting it
may be refused by the system. What a started process does is a function of the files, of what has
arrived on its input, and of the time that it has: the longer input and the longer time give the
longer output.

The environment is given as texts, a name and a value with an equals sign between them. The name
ends at the first such sign behind its first character, so that what was meant as a name may be
taken for a part of a value; a text without that sign is no variable.
-/

namespace RubySupervisor.Variables

/-- The texts with which variables are given to a process. -/
def texts (d : Dict String) : List String := d.map (fun entry => entry.1 ++ "=" ++ entry.2)

/-- The name and the value in a text. -/
def ofText? (s : String) : Option (String × String) :=
  match s.toList with
  | [] => none
  | c :: rest =>
    (Text.cutFirst? ['='] rest).map fun (name, value) =>
      (String.ofList (c :: name), String.ofList value)

/-- The variables of a process by name; of several texts with one name the last one counts. -/
def ofTexts (texts : List String) : Dict String := Dict.ofPairs (texts.filterMap ofText?)

/-- The value of a name in the first text that gives it one. -/
def first? (texts : List String) (name : String) : Option String :=
  texts.findSome? fun s => (Text.literal? (name ++ "=").toList s.toList).map String.ofList

end RubySupervisor.Variables

namespace RubySupervisor

open Shell (Bytes bytesOf)

/-- A program as a process is started on it. -/
structure Child where
  program : Path
  arguments : List String
  environment : Dict String
  directory : Path

/-- What a process has on its input, and the time that it has. -/
structure ChildInput where
  bytes : Bytes
  /-- Nothing more will arrive. -/
  closed : Bool
  /-- The nanoseconds after which nobody looks at the process any more. -/
  deadline : Option Nat
  /-- The outputs whose end somebody waits for: zero is the output and one the errors. What the
  process leaves behind in the background may keep them open. -/
  awaited : List Nat := [0, 1]

/-- An input that ends at once, and no limit of time. -/
def ChildInput.nothing : ChildInput := { bytes := [], closed := true, deadline := none }

/-- How far a process came. -/
inductive ChildEnd where
  | ended (status : ExitStatus)
  /-- It waits for input. -/
  | waiting
  /-- It is still busy. -/
  | busy
  deriving DecidableEq, Repr

/-- What a process has done. -/
structure ChildRun where
  output : Bytes
  errors : Bytes
  /-- The errors that were written before the process itself ended. What it leaves behind in the
  background may go on writing. -/
  errorsByEnd : Bytes
  /-- What it has written to the output of the process that has started it. -/
  above : Bytes
  files : FileTree
  /-- The nanoseconds that have passed in the process. -/
  elapsed : Nat
  /-- The moment at which the process, or what it left behind, goes on. -/
  wakes? : Option Nat
  /-- The moment at which nobody can write to the awaited outputs any more, as far as that is known.
  -/
  lasting : Nat
  /-- The process itself has not ended. -/
  isAlive : Bool
  ending : ChildEnd
  /-- Somebody can still read the input. -/
  inputOpen : Bool
  /-- Somebody can still write to the output. -/
  outputOpen : Bool

namespace Child

/-- Why a process cannot be set up, if it cannot: nothing that it is given may hold a byte that ends
texts, and then its directory is entered. -/
def setUpFault? (c : Child) (files : FileTree) : Option FileError :=
  let given := c.program.text :: c.directory.text :: c.arguments ++ Variables.texts c.environment
  if given.any (fun s => s.toList.contains '\x00') then some .nulInData
  else
    match files.metadata c.directory with
    | .error error => some error
    | .ok .directory => none
    | .ok _ => some .notADirectory

/-- Why the system does not start a program, if it does not. -/
def refusal? (c : Child) (files : FileTree) : Option FileError :=
  (c.setUpFault? files) <|> Shell.executionFault? files c.directory c.program.text

/-- The process that is started on a name which the process itself looks up along the search path
of its environment. A text without an interpreter is handed to a shell. -/
def lookedUp (c : Child) (files : FileTree) : Except FileError Child :=
  match c.setUpFault? files with
  | some error => .error error
  | none =>
    let searchPath := Variables.first? (Variables.texts c.environment) "PATH"
    match Shell.findRunnable files c.directory searchPath c.program.text with
    | .error error => .error error
    | .ok ⟨path, false⟩ => .ok { c with program := ⟨path⟩ }
    | .ok ⟨path, true⟩ =>
      .ok { c with program := ⟨"/bin/sh"⟩, arguments := path :: c.arguments }

/-- The depth to which a script is evaluated; what goes deeper does not end. -/
def depth : Nat := 20000

/-- What a started process does. -/
def run (c : Child) (files : FileTree) (input : ChildInput) : ChildRun :=
  let environment : Dict Bytes := ((Variables.texts c.environment).filterMap Variables.ofText?).map
    (fun entry => (entry.1, bytesOf entry.2))
  let start : Shell.State := {
    files
    directory := c.directory
    bindings := environment
    exported := environment.names
    functions := []
    name := bytesOf c.program.text
    arguments := []
    status := 0
    inflows := #[⟨input.bytes, if input.closed then .file else .writer⟩]
    buffers := #[[], [], []]
    output := .buffer 0
    errors := .buffer 1
    elapsed := 0
    deadline := input.deadline }
  let (answer, s) := (Shell.become depth c.program c.program.text (c.arguments.map bytesOf)
    environment).run.run start
  let ending : ChildEnd :=
    match answer with
    | .ok () => .ended (.code s.status)
    | .error (.exited code) => .ended (.code code)
    | .error (.killed signal) => .ended (.signal signal)
    | .error .starved => .waiting
    | .error .endless => .busy
    | .error _ => .ended (.code s.status)
  let isAlive := match ending with
    | .ended _ => false
    | _ => true
  -- jobs that go on behind the process still hold what it writes to
  let holders := input.awaited.flatMap s.holders
  let wakes? := ((if ending = .busy then [s.elapsed] else []) ++ holders.filterMap (·.wakes?)).min?
  let isHeld := holders.any (·.done?.isNone)
  { output := s.content 0
    errors := s.content 1
    errorsByEnd := ((s.portions 1).filter (·.moment ≤ s.elapsed)).flatMap Shell.Portion.bytes
    above := s.content 2
    files := s.files
    elapsed := s.elapsed
    wakes?
    lasting := (holders.filterMap (·.done?)).foldl max s.elapsed
    isAlive
    ending := match ending with
      | .ended status => if isHeld then .busy else .ended status
      | ending => ending
    inputOpen := isAlive && !s.inputShut
    outputOpen := isAlive && s.sinks.contains (.buffer 0)
      || (s.holders 0).any (·.done?.isNone) }

end Child

namespace FileTree

/-- The names of the programs that every machine has. -/
def programNames : List String :=
  Shell.shellNames ++ Shell.wrappers ++ ["env", "printf", "test", "[", "kill"]
    ++ Shell.Tool.all.map Prod.fst

/-- The tree with the programs that every machine has. -/
def withPrograms (t : FileTree) : FileTree :=
  programNames.foldl (fun (t : FileTree) name =>
    t.set ["usr", "bin", name] (.file (Shell.toolImage name) true)) t

end FileTree

end RubySupervisor
