import RubySupervisor.Document.Edit
import RubySupervisor.Files.Tree
import RubySupervisor.Ruby.Activation
import RubySupervisor.Server.Error
import RubySupervisor.Server.Identity
import RubySupervisor.Server.Message
import RubySupervisor.Telemetry.Report

/-!
# Calls on the host

Everything the supervisor asks of the world around it: the file tree, child processes, the servers
behind a transport, the clock, the user and the telemetry sink. Each call has its own type of
answer; what a call does is for the host to decide.

A command is a program with arguments, a working directory and a complete environment, run to its
end. An unsuccessful end is an answer; whether it is a failure is for the caller to decide.
-/

namespace RubySupervisor

/-- A command to run to its end. -/
structure Command where
  program : String
  arguments : List String
  directory : Path
  environment : Dict String
  timeout : Option Span
  deriving DecidableEq, Repr

/-- The command line, for messages. -/
def Command.line (c : Command) : String := String.intercalate " " (c.program :: c.arguments)

/-- What a finished command left behind. -/
structure CommandOutput where
  status : Option Int
  output : String
  errors : String
  deriving DecidableEq, Repr

/-- Whether the command ended with code zero. -/
def CommandOutput.isSuccess (o : CommandOutput) : Bool := o.status = some 0

/-- The output of a command that must succeed. -/
def Command.checked (c : Command) (answer : Except ServerError CommandOutput) :
    Except ServerError CommandOutput :=
  match answer with
  | .error e => .error e
  | .ok output =>
    if output.isSuccess then .ok output
    else .error (.commandFailed c.line output.status (Text.trim output.errors))

/-- What a debuggee printed on its error stream, line by line, and how it ended. -/
structure DebuggeeRun where
  /-- The lines; `none` stands for bytes that are no text. -/
  lines : List (Option String)
  exit : ExitStatus
  /-- The number of lines after which the end was noticed, if it was before the end of the lines. -/
  noticed : Option Nat
  deriving DecidableEq, Repr

/-- A question to the host. -/
inductive Call where
  /-- The file tree as it is now. -/
  | files
  | makeDirectories (path : Path)
  | writeFile (path : Path) (content : String)
  | renameFile (source target : Path)
  /-- Asks the interpreter in a directory about itself. -/
  | probe (rubyBin directory : Path) (environment : Dict String)
  /-- Asks the user for an installation. -/
  | chooseInstallation (reason : String)
  /-- Asks the user for one of several debuggees. -/
  | chooseSocket (sockets : List String)
  | run (command : Command)
  | launchDebuggee (command : Command)
  | startServer (transport : Nat) (launch : ServerLaunch)
  | request (transport : Nat) (server : ServerId) (request : Request) (timeout : Option Span)
  | notify (transport : Nat) (server : ServerId) (notification : Notification)
  | reply (transport : Nat) (server : ServerId) (id : RequestId)
      (answer : Except ResponseError Json)
  | stopServer (transport : Nat) (server : ServerId)
  /-- The milliseconds since the epoch, negative before it. -/
  | now
  /-- The nanoseconds of a clock that never goes back. -/
  | stopwatch
  | telemetry (event : TelemetryEvent)
  | popup (message : String)
  | applyEdits (uri : String) (edits : List TextEdit)
  | insertSnippet (uri : String) (snippet : String) (range : Range)

/-- The type of the answer to a call. -/
abbrev Call.Answer : Call → Type
  | files => FileTree
  | makeDirectories _ => Except FileError Unit
  | writeFile .. => Except FileError Unit
  | renameFile .. => Except FileError Unit
  | probe .. => Except RubyError Activation
  | chooseInstallation _ => Option Path
  | chooseSocket _ => Option String
  | run _ => Except ServerError CommandOutput
  | launchDebuggee _ => Except ServerError DebuggeeRun
  | startServer .. => Except ServerError ServerId
  | request .. => Except ServerError Response
  | notify .. => Except ServerError Unit
  | reply .. => Except ServerError Unit
  | stopServer .. => Except ServerError Unit
  | now => Int
  | stopwatch => Nat
  | telemetry _ => Unit
  | popup _ => Unit
  | applyEdits .. => Bool
  | insertSnippet .. => Unit

end RubySupervisor
