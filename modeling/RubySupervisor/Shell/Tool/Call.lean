import RubySupervisor.Dict
import RubySupervisor.Files.Tree
import RubySupervisor.Shell.Tool.Options
import RubySupervisor.Text.Digit
import RubySupervisor.Text.Scan

/-!
# Calls of tools

The small programs that scripts are made of are functions of their arguments, of what has arrived
on their input, and of the files. A tool that needs more input than has arrived is starved: it
gives what it has written so far and waits.
-/

namespace RubySupervisor.Shell

/-- Where input comes from, and whether there is more than has arrived. -/
inductive Source where
  /-- A file, which is read up to where a reader needs it. -/
  | file
  /-- A writer that is done. What is read by blocks is lost for other readers. -/
  | pipe
  /-- A writer that is not done. -/
  | writer
  /-- A device that gives zeros for ever. -/
  | zeros
  deriving DecidableEq, Repr

/-- Whether nothing more will arrive. -/
def Source.hasEnded (s : Source) : Bool := s = .file || s = .pipe

/-- What a tool is run with. -/
structure ToolCall where
  /-- The name that the tool is told, and that stands in front of its complaints. -/
  called : String
  arguments : List Bytes
  environment : Dict Bytes
  directory : Path
  files : FileTree
  /-- What has arrived on the input. -/
  input : Bytes
  source : Source
  /-- How many bytes a tool writes that would go on for ever. -/
  flood : Nat

/-- How a tool ended, if it did. -/
inductive ToolEnd where
  | exited (code : Nat)
  /-- It waits for more input. -/
  | starved
  /-- It never ends by itself. -/
  | endless
  deriving DecidableEq, Repr

/-- Where a tool writes. -/
inductive Stream where
  | output
  | errors
  deriving DecidableEq, Repr

/-- What a tool did. -/
structure ToolRun where
  /-- What it wrote, in its order. -/
  said : List (Stream × Bytes)
  /-- The input that it did not read. -/
  rest : Bytes
  files : FileTree
  /-- The nanoseconds that it took. -/
  elapsed : Nat
  ending : ToolEnd

/-- The number of bytes that a text writes, with a unit behind it or without. -/
def size? (s : Bytes) : Option Nat :=
  let (digits, unit) := (Text.lossyText s).toList.span Text.isAsciiDigit
  let times := match String.ofList unit with
    | "" => some 1
    | "c" => some 1
    | "b" => some 512
    | "k" => some 1024
    | "K" => some 1024
    | "kB" => some 1000
    | "M" => some 1048576
    | "MB" => some 1000000
    | _ => none
  if digits.isEmpty then none else times.map (Text.digitsValue digits * ·)

/-- The value of a setting among arguments. -/
def setting? (name : String) (arguments : List Bytes) : Option Bytes :=
  (arguments.find? (fun a => a.take (name.utf8ByteSize + 1) = bytesOf (name ++ "="))).map
    (·.drop (name.utf8ByteSize + 1))

/-- A device that is a file of zeros. -/
def isOfZeros (files : FileTree) (p : Path) : Bool :=
  ["/dev/zero", "/dev/full", "/dev/random", "/dev/urandom"].any (fun name =>
    (files.canonical p).toOption.any (·.text = name))

namespace ToolCall

/-- Whether nothing more will arrive. -/
def closed (c : ToolCall) : Bool := c.source.hasEnded

/-- The call with an input from a source. -/
def reading (c : ToolCall) (input : Bytes) (source : Source) : ToolCall := { c with input, source }

/-- As many zeros as anybody needs who can do with some. -/
def zeros (c : ToolCall) : Bytes :=
  let setting (name : String) : Nat := ((setting? name c.arguments).bind size?).getD 1
  let asked := (c.arguments.map (fun a =>
    (size? (a.dropWhile (fun b => b = byte '-' || b = byte 'c' || b = byte 'n'))).getD 0)).foldl
      max (setting "bs" * setting "count")
  List.replicate (max c.flood (min asked 16777216)) 0

/-- A run that reads nothing. -/
def done (c : ToolCall) (output : Bytes) (code : Nat) : ToolRun :=
  ⟨[(.output, output)], c.input, c.files, 0, .exited code⟩

/-- What a tool writes as a complaint. -/
def complaint (c : ToolCall) (message : String) : Stream × Bytes :=
  (.errors, bytesOf (c.called ++ ": " ++ message ++ "\n"))

/-- A run that reads nothing and fails with a complaint. -/
def failed (c : ToolCall) (message : String) (code : Nat) : ToolRun :=
  ⟨[c.complaint message], c.input, c.files, 0, .exited code⟩

/-- A run that fails because it is not called as it has to be. -/
def misused (c : ToolCall) (what : String) (code : Nat) : ToolRun :=
  c.failed (what ++ "\nTry '" ++ c.called ++ " --help' for more information.") code

/-- A run without the operands that it needs. -/
def lacking (c : ToolCall) (what : String) : ToolRun := c.misused what 1

/-- A run that depends on options; one with unknown options fails. -/
def withOptions (c : ToolCall) (g : OptionGrammar) (code : Nat) (f : Options → ToolRun) : ToolRun :=
  match Options.read g c.arguments with
  | .ok options => f options
  | .error fault => c.misused fault.message code

/-- A run that changes the files. -/
def changed (c : ToolCall) (files : FileTree) : ToolRun := ⟨[], c.input, files, 0, .exited 0⟩

/-- A run that writes what has become of the input so far, and ends with the input. -/
def streamed (c : ToolCall) (output : Bytes) (code : Nat) : ToolRun :=
  ⟨[(.output, output)], [], c.files, 0, if c.closed then .exited code else .starved⟩

/-- A run that writes only when the whole input has arrived. -/
def collected (c : ToolCall) (f : Bytes → Bytes × Nat) : ToolRun :=
  if c.closed then
    let (output, code) := f c.input
    ⟨[(.output, output)], [], c.files, 0, .exited code⟩
  else ⟨[], c.input, c.files, 0, .starved⟩

/-- A run that writes what becomes of its lines. Before the input has ended, that is written by
blocks, and without what the last line may still change. -/
def filtered (c : ToolCall) (f : (closed : Bool) → Bytes → Bytes × Nat) : ToolRun :=
  if c.closed then c.collected (f true)
  else
    let lines := (c.input.reverse.dropWhile (· != byte '\n')).reverse
    let output := (f false lines).1
    ⟨[(.output, output.take (output.length / 4096 * 4096))], c.input, c.files, 0, .starved⟩

/-- A path that an argument names. An empty one names nothing. -/
def path (c : ToolCall) (argument : Bytes) : Path :=
  if argument.isEmpty then ⟨""⟩ else c.directory.join (Text.lossyText argument)

/-- Whether an argument stands for the input. -/
def isInput (name : Bytes) : Bool :=
  name = [byte '-'] || name = bytesOf "/dev/stdin" || name = bytesOf "/dev/fd/0"

/-- The call with a file in place of the input, or why the file cannot be read. -/
def opened (c : ToolCall) (name : Bytes) : Except FileError ToolCall :=
  if isOfZeros c.files (c.path name) then .ok (c.reading c.zeros .zeros)
  else (c.files.readBytes (c.path name)).map (fun content => c.reading content.toList .file)

end ToolCall

/-- How a tool complains of files that it cannot read, and the code that it ends with then. -/
structure Wording where
  absent : Bytes → String → String := fun name reason => Quoting.asNeeded name ++ ": " ++ reason
  directory : Bytes → String → String := absent
  /-- What it writes to its output in place of what is in a directory. -/
  besides : Bytes → Bytes := fun _ => []
  code : Nat := 1

/-- What a tool says of a file. -/
def Wording.message (w : Wording) (name : Bytes) (error : FileError) : String :=
  (if error = .isADirectory then w.directory else w.absent) name error.reason

/-- The first failure of two ends. -/
def ToolEnd.andThen : ToolEnd → ToolEnd → ToolEnd
  | exited 0, next => next
  | exited code, exited _ => exited code
  | exited _, next => next
  | first, _ => first

namespace ToolCall

/-- Runs a tool on the input, or on the files that are named, one after another. What it does with
one may depend on whether it has written before. -/
def onEach (c : ToolCall) (w : Wording) (named : List Bytes)
    (f : (isLater : Bool) → Bytes → ToolCall → ToolRun) : ToolRun :=
  (if named.isEmpty then [[byte '-']] else named).foldl (fun (sofar : ToolRun) name =>
    let isLater := sofar.said.any (fun part => part.1 = .output)
    match sofar.ending with
    | .exited _ =>
      if isInput name then
        let r := f isLater name { c with input := sofar.rest }
        { r with said := sofar.said ++ r.said, ending := sofar.ending.andThen r.ending }
      else
        match c.opened name with
        | .ok call =>
          let r := f isLater name call
          let ending := if r.ending = .starved then .endless else r.ending
          { sofar with said := sofar.said ++ r.said, ending := sofar.ending.andThen ending }
        | .error error =>
          let besides := if error = .isADirectory then w.besides name else []
          { sofar with
            said := sofar.said ++ c.complaint (w.message name error)
              :: (if besides.isEmpty then [] else [(.output, besides)])
            ending := sofar.ending.andThen (.exited w.code) }
    | _ => sofar) ⟨[], c.input, c.files, 0, .exited 0⟩

/-- Runs a tool on the input, or on the files that are named as one input, where each but the last
one ends in a line end if that is asked for. -/
def onAll (c : ToolCall) (w : Wording) (lineEnds : Bool) (named : List Bytes)
    (f : ToolCall → ToolRun) : ToolRun :=
  if named.isEmpty then f c
  else
    let (complaints, whole) := named.foldl (fun (sofar : List (Stream × Bytes) × ToolCall) name =>
      let (complaints, whole) := sofar
      let isOpen := lineEnds && whole.input.getLast?.any (· != byte '\n')
      let before := if isOpen then whole.input ++ [byte '\n'] else whole.input
      if !whole.closed then sofar
      else if isInput name then (complaints, c.reading (before ++ c.input) c.source)
      else
        match c.opened name with
        | .ok call => (complaints, c.reading (before ++ call.input) call.source)
        | .error error => (complaints ++ [c.complaint (w.message name error)], whole))
      ([], c.reading [] .file)
    let r := f whole
    { r with
      said := complaints ++ r.said
      rest := if named.any isInput then [] else c.input
      ending := if complaints.isEmpty then r.ending else (ToolEnd.exited w.code).andThen r.ending }

end ToolCall

namespace Tool

/-- The lines of a text, each without its end, and whether the last one has an end. -/
def splitLines (s : Bytes) : List Bytes × Bool :=
  let rec go : Bytes → Bytes → List Bytes × Bool
    | [], [] => ([], true)
    | line, [] => ([line.reverse], false)
    | line, c :: rest =>
      if c = byte '\n' then
        let (lines, ended) := go [] rest
        (line.reverse :: lines, ended)
      else go (c :: line) rest
  go [] s

/-- Lines with an end behind each but possibly the last one. -/
def joinLines : List Bytes × Bool → Bytes
  | ([], _) => []
  | ([last], ended) => if ended then last ++ [byte '\n'] else last
  | (line :: rest, ended) => line ++ byte '\n' :: joinLines (rest, ended)

/-- A text brought to a width by blanks in front of it. -/
def rightAligned (width : Nat) (s : String) : Bytes :=
  List.replicate (width - s.length) (byte ' ') ++ bytesOf s

/-- The number that an argument writes. -/
def natOf? (s : Bytes) : Option Nat := Text.numeral? (Text.lossyText s).toList

/-- The integer that an argument writes. -/
def intOf? (s : Bytes) : Option Int :=
  match (Text.lossyText s).toList with
  | '-' :: digits => (Text.numeral? digits).map (fun n => -(n : Int))
  | '+' :: digits => (Text.numeral? digits).map Int.ofNat
  | digits => (Text.numeral? digits).map Int.ofNat

/-- The texts of arguments. -/
def texts (arguments : List Bytes) : List String := arguments.map Text.lossyText

/-- Whether a byte string comes before another one or equals it. -/
def isOrdered : Bytes → Bytes → Bool
  | [], _ => true
  | _ :: _, [] => false
  | a :: s, b :: t => if a = b then isOrdered s t else a < b

end Tool

end RubySupervisor.Shell
