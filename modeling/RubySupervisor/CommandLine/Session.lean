import RubySupervisor.CommandLine.Failure
import RubySupervisor.CommandLine.Arguments
import RubySupervisor.Host.Machine
import RubySupervisor.Json.Printer
import RubySupervisor.Json.Parser
import RubySupervisor.Workspace.Activity

/-!
# Runs of the command line

A command line is run on a machine, in a directory and with variables. It opens the workspace of
one folder, does what the subcommand says and leaves an exit code, what it wrote, and the records
of its log. A misuse of the command line has an exit code of its own.
-/

namespace RubySupervisor.CommandLine

/-- What a run leaves. -/
structure Ending where
  code : Nat
  output : String
  errors : String
  records : List LogRecord

namespace Ending

/-- A run that only writes something. -/
def wrote (output : String) : Ending := ⟨0, output, "", []⟩

/-- A misused command line. -/
def misused : Ending := ⟨2, "", "", []⟩

end Ending

/-- The exit code of a run that failed. -/
def failureCode : Nat := 1

/-- The home directory of the user. -/
def homeOf? (environment : List String) : Option Path :=
  ((Variables.first? environment "HOME").filter (· ≠ "")).map Path.mk

/-- A directory for files of users: the configured one if it is absolute, or one below the home
directory. -/
def userDirectory? (environment : List String) (name usual : String) : Option Path :=
  match (Variables.first? environment name).filter (fun s => (Path.mk s).isAbsolute) with
  | some s => some ⟨s⟩
  | none => (homeOf? environment).map (fun home => home.join usual)

/-- The settings file of the user. -/
def globalSettings? (environment : List String) : Option Path :=
  (userDirectory? environment "XDG_CONFIG_HOME" ".config").map
    (fun directory => (directory.join programName).join "config.toml")

/-- The directory of the state files of the user. -/
def stateDirectory? (environment : List String) : Option Path :=
  (userDirectory? environment "XDG_DATA_HOME" ".local/share").map
    (fun directory => (directory.join programName).join "state")

/-- The store of a folder; one that cannot be opened is kept in memory. -/
def storeOf (files : FileTree) (environment : List String) (root : Path) : Store :=
  ((stateDirectory? environment).bind fun directory =>
    (Store.openForRoot? files directory root).toOption).getD .inMemory

/-- The number of the process that a run takes itself to be. -/
def processId : Nat := 4242

/-- A workspace that is open on a machine. -/
structure Opened where
  context : WorkspaceContext
  scene : Machine.Scene Workspace

/-- Opens the workspace of a folder. -/
def Opened.of (m : Machine) (environment : List String) (folder : Path) : Except Failure Opened :=
  match m.files.canonical folder with
  | .error error => .error (.folder folder error)
  | .ok root =>
    match Settings.load m.files (globalSettings? environment) root with
    | .error fault => .error (.workspace (.settings fault))
    | .ok settings =>
      .ok {
        context := {
          root
          base := Variables.ofTexts environment
          roots := none
          globalSettings := globalSettings? environment
          processId }
        scene := {
          state := .fresh settings (storeOf m.files environment root)
          machine := m } }

namespace Opened

/-- Does something in the workspace. What starts or stops the server takes its turn. -/
def perform {α : Type} (o : Opened) (takesTurn : Bool) (t : Task Workspace α) : α × Opened :=
  let attendance : Machine.Attendance Workspace := ⟨Workspace.observe, Workspace.restart o.context⟩
  let (a, scene) := Machine.perform attendance takesTurn t o.scene
  (a, { o with scene })

/-- Looks out for changes of the folder, which make the server start again. -/
def watch (o : Opened) : Opened :=
  let lookout := Lookout.ofFolder o.scene.machine.files o.context.root
  { o with scene := { o.scene with lookout := some lookout } }

/-- Lets go of the workspace. A restart that is under way is given up. -/
def dispose (o : Opened) : Opened :=
  let scene := { o.scene with lookout := none, errand := none }
  ({ o with scene }.perform true Workspace.dispose).2

/-- Writes to the output. -/
def print (o : Opened) (text : String) : Opened :=
  let machine := o.scene.machine
  let machine := { machine with output := machine.output ++ Shell.bytesOf text }
  { o with scene := { o.scene with machine } }

/-- What was written to the output. -/
def output (o : Opened) : String := Text.lossyText o.scene.machine.output

/-- The end of a run that succeeded or failed. -/
def ending {α : Type} (o : Opened) (outcome : Workspace.Outcome α) : Ending :=
  match outcome with
  | .ok _ => ⟨0, o.output, o.scene.machine.errors, []⟩
  | .error error =>
    ⟨failureCode, o.output, o.scene.machine.errors ++ (Failure.workspace error).text, []⟩

/-- Variables as lines, or as a document. -/
def environmentText (json : Bool) (bindings : Dict String) : String :=
  if json then (Json.object (bindings.mapValues Json.text)).pretty ++ "\n"
  else ofLines (bindings.map (fun entry => entry.1 ++ "=" ++ entry.2))

/-- Prints the environment of Ruby. -/
def printEnvironment (json : Bool) (o : Opened) : Ending :=
  let (outcome, o) := o.perform false (Workspace.activateRuby o.context)
  match outcome with
  | .ok environment => (o.print (environmentText json environment.bindings)).ending outcome
  | .error _ => o.ending outcome

/-- A status item on one line. -/
def itemLine (item : StatusItem) : String :=
  let marker := match item.severity with
    | .error => "!"
    | .information => " "
  let action := match item.action with
    | some a => " [" ++ a.title ++ ": " ++ a.action.id ++ "]"
    | none => ""
  marker ++ " " ++ padded 22 item.name ++ " " ++ item.text ++ action

/-- Starts the server and prints the status items. -/
def printStatus (o : Opened) : Ending :=
  let (outcome, o) := o.perform true (Workspace.start o.context)
  let o := o.print (ofLines ((StatusItem.ofView o.scene.state.statusView).map itemLine))
  o.dispose.ending outcome

/-- What became of the server gem, in words. -/
def gemText : Option GemOutcome → String
  | none => "custom bundle configured, gem not managed"
  | some .installed => "installed"
  | some .updated => "updated"
  | some .upToDate => "up to date"
  | some .updateFailed => "update failed, keeping the installed version"

/-- Installs or updates the server gem. -/
def updateGem (o : Opened) : Ending :=
  let (outcome, o) := o.perform false (Workspace.installServer o.context)
  match outcome with
  | .ok gem => (o.print (ofLines ["ruby-lsp: " ++ gemText gem])).ending outcome
  | .error _ => o.ending outcome

/-- Prints the socket of a debuggee, which is launched or chosen. -/
def printSocket (program : Option String) (o : Opened) : Ending :=
  let (outcome, o) := match program with
    | some program => o.perform false (Workspace.launchDebuggee o.context program [] [])
    | none => o.perform false (Workspace.attachDebugger o.context)
  match outcome with
  | .ok socket => (o.print (ofLines [socket.text])).ending outcome
  | .error _ => o.ending outcome

/-- Why a line of input is ignored. -/
inductive LineFault where
  | unknown (id : String)
  | noArray

/-- The wording of the fault. -/
def LineFault.message : LineFault → String
  | unknown id => (WorkspaceError.unknownAction id).message
  | noArray => "command arguments must be a JSON array"

/-- The action and the arguments that a line names. -/
def actionOfLine (line : List Char) : Except LineFault (Action × List Json) :=
  let id := String.ofList (line.takeWhile (fun c => !Text.isBlank c))
  let arguments := Text.trimChars (line.dropWhile (fun c => !Text.isBlank c))
  match Action.ofId? id with
  | none => .error (.unknown id)
  | some action =>
    if arguments.isEmpty then .ok (action, [])
    else
      match (Json.parse? (String.ofList arguments)).bind Json.items? with
      | some items => .ok (action, items)
      | none => .error .noArray

/-- The record of an action that was performed, or could not be. -/
def actionRecord (action : Action) (outcome : Workspace.Outcome Unit) : LogRecord :=
  let command := ("command", action.id)
  match outcome with
  | .ok () => ⟨.information, "command done", [command]⟩
  | .error (.requiresHost needed) =>
    ⟨.warning, "command needs an editor", [("command", needed.id)]⟩
  | .error (.missingArguments needed) =>
    ⟨.warning, "ignoring input",
      [command, ("error", (WorkspaceError.missingArguments needed).message)]⟩
  | .error error => ⟨.error, "command failed", [command, ("error", error.message)]⟩

/-- Whether an action starts or stops the server. -/
def startsOrStops : Action → Bool
  | .start => true
  | .stop => true
  | .restart => true
  | .toggleExperimentalFeatures => true
  | .toggleYjit => true
  | _ => false

/-- Performs what a line asks for. A blank line asks for nothing and leaves no record. -/
def executeLine (o : Opened) (line : String) : List LogRecord × Opened :=
  match Text.trimChars line.toList with
  | [] => ([], o)
  | line =>
    match actionOfLine line with
    | .error fault => ([⟨.warning, "ignoring input", [("error", fault.message)]⟩], o)
    | .ok (action, arguments) =>
      let (outcome, o) :=
        o.perform (startsOrStops action) (Workspace.perform o.context action arguments)
      ([actionRecord action outcome], o)

/-- Performs what lines ask for, one after another. -/
def executeLines : Opened → List String → List LogRecord × Opened
  | o, [] => ([], o)
  | o, line :: rest =>
    let (records, o) := o.executeLine line
    let (others, o) := executeLines o rest
    (records ++ others, o)

/-- Starts the server and performs what the user types until the end of the input. The folder may be
watched meanwhile. -/
def serve (watched : Bool) (o : Opened) : Ending :=
  let o := if watched then o.watch else o
  let (started, o) := o.perform true (Workspace.start o.context)
  let records : List LogRecord := match started with
    | .ok () => []
    | .error error => [⟨.error, "server did not start", [("error", error.message)]⟩]
  let (others, o) := o.executeLines o.scene.machine.input
  let last : LogRecord := ⟨.information, "shutting down", []⟩
  let o := o.dispose
  ⟨0, o.output, o.scene.machine.errors, records ++ others ++ [last]⟩

/-- Does what a subcommand says. -/
def run (o : Opened) : Subcommand → Ending
  | .env json => o.printEnvironment json
  | .serve watched => o.serve watched
  | .status => o.printStatus
  | .update => o.updateGem
  | .debugSocket program => o.printSocket program

end Opened

/-- Runs a command line in a directory; the variables are texts, as a process is given them. -/
def run (m : Machine) (environment : List String) (directory : Path)
    (arguments : List String) : Ending :=
  match read arguments with
  | .misuse => .misused
  | .version => .wrote versionText
  | .help topic long => .wrote (helpText topic long)
  | .run invocation =>
    let m := { m with files := { m.files.seenFrom directory with home := homeOf? environment } }
    match Opened.of m environment (invocation.directory.getD directory) with
    | .error failure => ⟨failureCode, "", failure.text, []⟩
    | .ok o => o.run invocation.subcommand

end RubySupervisor.CommandLine
