import RubySupervisor.Shell.Tool.Calculation
import RubySupervisor.Shell.Tool.Copying
import RubySupervisor.Shell.Tool.Editing
import RubySupervisor.Shell.Tool.Filing
import RubySupervisor.Shell.Tool.Lines
import RubySupervisor.Shell.Tool.Naming
import RubySupervisor.Shell.Tool.Translation

/-!
# Tools

The tools by name, with those that only wait or answer, and the sinks where their output goes. Some
sinks take nothing, and whoever writes there is told so.
-/

namespace RubySupervisor.Shell

/-- Where a descriptor writes to. -/
inductive Sink where
  | buffer (n : Nat)
  | file (path : Path)
  | nowhere
  /-- A descriptor that is closed, or that is for reading only. -/
  | closed
  /-- A device without space. -/
  | full
  deriving DecidableEq, Repr

/-- Why nothing can be written to a sink. -/
def Sink.refusal? : Sink → Option String
  | closed => some "Bad file descriptor"
  | full => some "No space left on device"
  | _ => none

end RubySupervisor.Shell

namespace RubySupervisor.Shell.Tool

/-- The nanoseconds that a text of seconds or of larger units writes, none for a time without end,
if it writes a time. -/
def interval? (s : String) : Option (Option Nat) :=
  if s = "infinity" || s = "inf" then some none
  else
    let (number, unit) := s.toList.span (fun c => Text.isAsciiDigit c || c = '.')
    let whole := number.takeWhile (· != '.')
    let fraction := (number.dropWhile (· != '.')).drop 1
    let seconds := match unit with
      | [] => some 1
      | ['s'] => some 1
      | ['m'] => some 60
      | ['h'] => some 3600
      | ['d'] => some 86400
      | _ => none
    if whole.isEmpty && fraction.isEmpty || fraction.contains '.' then none
    else
      seconds.map fun seconds =>
        some ((Text.digitsValue whole * 1000000000
          + Text.digitsValue (fraction.take 9) * Nat.pow 10 (9 - (fraction.take 9).length)) * seconds)

/-- Lets time pass, as much as all arguments say. -/
def sleep (c : ToolCall) : ToolRun :=
  c.withOptions { plain := "" } 1 fun o =>
    let isWrong (a : Bytes) : Bool := (interval? (Text.lossyText a)).isNone
    match o.operands.filter isWrong, (texts o.operands).mapM (fun a => (interval? a).bind id) with
    | wrong :: others, _ =>
      c.lacking (("\n" ++ c.called ++ ": ").intercalate ((wrong :: others).map
        (fun a => "invalid time interval " ++ Quoting.forReading a)))
    | [], some times =>
      if times.isEmpty then c.lacking "missing operand"
      else { c.done [] 0 with elapsed := times.foldl (· + ·) 0 }
    | [], none => { c.done [] 0 with ending := .endless }

/-- The lines of an environment. -/
def environmentLines (d : Dict Bytes) : Bytes :=
  d.flatMap (fun entry => bytesOf (entry.1 ++ "=") ++ entry.2 ++ [byte '\n'])

/-- Prints the environment, or the values of variables. -/
def printenv (c : ToolCall) : ToolRun :=
  if c.arguments.isEmpty then c.done (environmentLines c.environment) 0
  else
    let values := (texts c.arguments).map c.environment.find?
    c.done (values.flatMap (fun v => (v.map (· ++ [byte '\n'])).getD []))
      (if values.all Option.isSome then 0 else 1)

/-- What a tool says when its output cannot be written, and the code that it ends with. -/
def spillage (name called : String) (sink : Sink) (reason : String) : String × Nat :=
  let said (what : String) (code : Nat) : String × Nat := (called ++ ": " ++ what ++ "\n", code)
  let full := sink = .full
  match name with
  | "cat" => said ((if full then "write error: " else "standard output: ") ++ reason) 1
  | "yes" => said ("standard output: " ++ reason) 1
  | "tee" => said ("'standard output': " ++ reason) 1
  | "wc" => said (if full then "write error" else "write error: " ++ reason) 1
  | "sed" => said ("couldn't " ++ (if full then "flush" else "close") ++ " stdout: " ++ reason) 4
  | "sort" =>
    said ("fflush failed: 'standard output': " ++ reason ++ "\n" ++ called ++ ": write error") 2
  | "dd" =>
    said ("error writing 'standard output': " ++ reason ++ (if full then "" else
      "\n" ++ called ++ ": closing output file 'standard output': " ++ reason)) 1
  | "rev" => if full then said ("write error: " ++ reason) 1 else ("", 0)
  | name =>
    let codes := [("env", 125), ("expr", 3), ("grep", 2), ("ls", 2), ("printenv", 2)]
    said ("write error: " ++ reason) ((codes.lookup name).getD 1)

/-- The tools by name. -/
def all : List (String × (ToolCall → ToolRun)) :=
  [("cat", cat), ("head", head), ("tail", tail), ("tr", tr), ("sed", sed), ("grep", grep),
    ("seq", seq), ("basename", basename), ("dirname", dirname), ("sleep", sleep), ("wc", wc),
    ("sort", sort), ("uniq", uniq), ("tee", tee), ("printenv", printenv), ("mkdir", mkdir),
    ("rm", rm), ("rmdir", rmdir), ("touch", touch), ("chmod", chmod), ("mv", mv), ("cp", cp),
    ("ls", ls), ("ln", ln),
    ("readlink", readlink), ("realpath", realpath), ("cut", cut), ("echo", echo),
    ("yes", yes), ("dd", dd), ("tac", tac), ("rev", rev), ("which", which), ("pwd", pwd), ("expr", expr),
    ("uname", fun c => c.done (bytesOf "Linux\n") 0),
    ("true", fun c => c.done [] 0), ("false", fun c => c.done [] 1)]

/-- The tool of a name. -/
def find? (name : String) : Option (ToolCall → ToolRun) :=
  (all.find? (fun entry => entry.1 = name)).map Prod.snd

end RubySupervisor.Shell.Tool
