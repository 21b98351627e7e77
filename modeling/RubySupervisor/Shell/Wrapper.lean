import RubySupervisor.Shell.Signal
import RubySupervisor.Shell.Tool

/-!
# Programs that run other programs

A wrapper takes options of its own and then the name and the arguments of the program that it
becomes. One of them limits the time of that program, and takes the limit in front of its name.
-/

namespace RubySupervisor.Shell

/-- The names of programs that run another program. -/
def wrappers : List String := ["nice", "nohup", "setsid", "stdbuf", "timeout"]

/-- What a wrapper runs. -/
structure Wrapped where
  program : Bytes
  arguments : List Bytes
  /-- The nanoseconds that the program has. -/
  limit : Option Nat
  /-- The signal that ends the program behind its time. -/
  signal : Nat
  /-- The end of the program is told in place of the end of its time. -/
  isPreserved : Bool

/-- Why a wrapper runs nothing: what it says, and its code. -/
structure Unwrapped where
  output : String
  errors : String
  code : Nat

namespace Wrapped

/-- The options of a wrapper. -/
def grammar (name : String) : OptionGrammar :=
  let names := [("adjustment", 'n'), ("kill-after", 'k'), ("signal", 's'),
    ("preserve-status", 'p'), ("foreground", 'f'), ("verbose", 'v'), ("wait", 'w'), ("fork", 'f'),
    ("output", 'o'), ("input", 'i'), ("error", 'e')]
  let (plain, valued) := match name with
    | "nice" => ("", "n")
    | "setsid" => ("cfw", "")
    | "stdbuf" => ("", "ioe")
    | "timeout" => ("fpv", "ks")
    | _ => ("", "")
  { plain, valued, names, endsAtOperand := true }

/-- What the arguments of a wrapper say. -/
def of (name called : String) (arguments : List Bytes) : Except Unwrapped Wrapped :=
  let advice := "Try '" ++ called ++ " --help' for more information.\n"
  let code := if name = "setsid" then 1 else 125
  let refused {α : Type} (what : String) : Except Unwrapped α :=
    .error ⟨"", called ++ ": " ++ what ++ "\n" ++ advice, code⟩
  match Options.read (grammar name) (if name = "nice" then Tool.withLineCount arguments else arguments)
    with
  | .error fault => refused fault.message
  | .ok o =>
    match name, o.operands with
    | "timeout", limit :: program :: arguments =>
      match Tool.interval? (Text.lossyText limit) with
      | none => refused ("invalid time interval " ++ Quoting.forReading limit)
      | some limit =>
        let signal := ((o.value? 's').map (fun s => signalOf (Text.lossyText s))).getD 15
        .ok ⟨program, arguments, limit.filter (0 < ·), signal, o.has 'p'⟩
    | "timeout", _ => .error ⟨"", advice, code⟩
    | "nice", [] => .error ⟨"0\n", "", 0⟩
    | "setsid", [] => refused "no command specified"
    | _, [] => refused "missing operand"
    | "stdbuf", program :: arguments =>
      if o.given.isEmpty then refused "you must specify a buffering mode option"
      else .ok ⟨program, arguments, none, 15, false⟩
    | _, program :: arguments => .ok ⟨program, arguments, none, 15, false⟩

/-- What a wrapper says about a program that it cannot run. -/
def refusal (name : String) (program : Bytes) (error : FileError) : String :=
  (match name with
    | "nice" => Quoting.forReading program
    | "setsid" => "failed to execute " ++ Text.lossyText program
    | _ => "failed to run command " ++ Quoting.forReading program) ++ ": " ++ error.reason

end Wrapped

end RubySupervisor.Shell
