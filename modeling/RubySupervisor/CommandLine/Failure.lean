import RubySupervisor.Text.Blank
import RubySupervisor.Workspace.Error

/-!
# Records and failures of a command

A record of the log has a level, a message and fields, and is written on one line.

A command that fails tells what went wrong, and below it the causes, each one the cause of the one
before. A cause that says the same as what it causes is told again.
-/

/-! ## Records of the log -/

namespace RubySupervisor.CommandLine

/-- How serious a record is. -/
inductive LogLevel where
  | information
  | warning
  | error
  deriving DecidableEq, Repr

/-- The word for a level. -/
def LogLevel.shown : LogLevel → String
  | information => "INFO"
  | warning => "WARN"
  | error => "ERROR"

/-- One record. -/
structure LogRecord where
  level : LogLevel
  message : String
  fields : List (String × String)
  deriving DecidableEq, Repr

/-- The part of the program that the records come from. -/
def LogRecord.source : String := "garnet::commands"

/-- The record as it is written, without its time. -/
def LogRecord.shown (r : LogRecord) : String :=
  r.level.shown ++ " " ++ source ++ ": " ++ r.message
    ++ String.join (r.fields.map (fun entry => " " ++ entry.1 ++ "=" ++ entry.2))

end RubySupervisor.CommandLine

/-! ## Failures -/

namespace RubySupervisor

/-- The causes of a failure to find or activate a Ruby. -/
def RubyError.causes : RubyError → List String
  | io _ error => [error.message]
  | _ => []

/-- The causes of a failure of a server or a command. -/
def ServerError.causes : ServerError → List String
  | response error => [error.shown]
  | io error => [error.message]
  | environment error => error.causes
  | _ => []

/-- The causes of a failure of a workspace. -/
def WorkspaceError.causes : WorkspaceError → List String
  | ruby error => error.causes
  | server error => error.causes
  | install error => error.message :: error.causes
  | _ => []

namespace CommandLine

/-- Why a command failed. -/
inductive Failure where
  /-- The folder of the workspace cannot be entered. -/
  | folder (path : Path) (error : FileError)
  | workspace (error : WorkspaceError)

namespace Failure

/-- The wording of the failure. -/
def message : Failure → String
  | folder path _ => "workspace folder " ++ path.text
  | workspace error => error.message

/-- The causes of the failure, the nearest one first. -/
def causes : Failure → List String
  | folder _ error => [error.message]
  | workspace error => error.causes

/-- A text with every line but the first set in. -/
def indented (margin s : String) : String :=
  String.intercalate ("\n" ++ margin) (Text.splitAt '\n' s)

/-- A single cause, or one of several with its number. -/
def causeText (several : Bool) (number : Nat) (cause : String) : String :=
  if several then
    let digits := Text.natText number
    String.ofList (List.replicate (5 - digits.length) ' ') ++ digits ++ ": "
      ++ indented "       " cause
  else "    " ++ indented "    " cause

/-- The text of the causes. -/
def causesText (causes : List String) : String :=
  if causes.isEmpty then ""
  else
    "\n\nCaused by:" ++ String.join (causes.zipIdx.map (fun entry =>
      "\n" ++ causeText (1 < causes.length) entry.2 entry.1))

/-- What is written about the failure. -/
def text (f : Failure) : String := "Error: " ++ f.message ++ causesText f.causes ++ "\n"

end Failure

end CommandLine

end RubySupervisor
