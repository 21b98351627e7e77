import RubySupervisor.Workspace.Basic
import RubySupervisor.Workspace.ServerGem

/-!
# The life of a workspace

Starting is staged: Ruby is activated, the folder is checked, the server gem is set up; only then
the old client is stopped and released and a new one installed and started. A stage that fails ends
the start and leaves what came before it. Changes of the settings and of the extensions start the
server over.
-/

namespace RubySupervisor.Workspace

/-- The outcome of an operation on a workspace. -/
abbrev Outcome (α : Type) := Except WorkspaceError α

/-- The options with which Ruby is resolved. -/
def resolutionOptions (c : WorkspaceContext) (w : Workspace) : ResolutionOptions :=
  { w.settings.resolutionOptions c.root c.base with roots := c.roots }

/-- Records the outcome of an activation. -/
def recordActivation (answer : Except RubyError RuntimeEnvironment) :
    Task Workspace (Outcome RuntimeEnvironment) := do
  match answer with
  | .ok environment =>
    Task.change (fun w => { w with ruby := .active environment })
    return .ok environment
  | .error error =>
    Task.change (fun w => { w with ruby := .failed error })
    return .error (.ruby error)

/-- Finds and activates Ruby. -/
def activateRuby (c : WorkspaceContext) : Task Workspace (Outcome RuntimeEnvironment) := do
  let w : Workspace ← Task.get
  recordActivation (← (Resolution.activate (resolutionOptions c w)).within storePart)

/-- The active environment, activated now if there is none. -/
def currentRuby (c : WorkspaceContext) : Task Workspace (Outcome RuntimeEnvironment) := do
  let w : Workspace ← Task.get
  match w.ruby.environment? with
  | some environment => return .ok environment
  | none => activateRuby c

/-- An outcome whose failure observers see as a state. -/
def failing {α : Type} (answer : Outcome α) : Task Workspace (Outcome α) := do
  match answer with
  | .ok a => return .ok a
  | .error error =>
    setState .error
    return .error error

/-- Makes sure that the server can create its directory. -/
def checkWritable (c : WorkspaceContext) : Task Workspace (Outcome Unit) := do
  let made : Except FileError Unit ← Task.ask (.makeDirectories (c.root.join ".ruby-lsp"))
  match made with
  | .ok () => return .ok ()
  | .error _ => return .error (.notWritable c.root)

/-- Sets up the server gem; a configured bundle is the business of the user. -/
def manageServerGem (c : WorkspaceContext) (environment : RuntimeEnvironment) :
    Task Workspace (Outcome (Option GemOutcome)) := do
  let w : Workspace ← Task.get
  if w.settings.bundleGemfile.isSome then return .ok none
  let now : Int ← Task.ask .now
  let managed := ServerGem.installOrUpdate environment.bindings c.root (ServerGem.sinceEpoch now)
  match ← managed.within storePart with
  | .ok outcome => return .ok (some outcome)
  | .error error => return .error error

/-- Stops the installed client, whatever comes of it, and releases it. -/
def releaseClient : Task Workspace Unit := do
  let _ ← withClient (.ok ()) Session.stop
  Task.change (fun w => { w with client := none })

/-- What a client is created with. -/
def sessionContext (c : WorkspaceContext) (w : Workspace) (environment : RuntimeEnvironment) :
    SessionContext :=
  let options := w.settings.sessionOptions c.root
  { options
    environment
    transport := w.transports
    processId := c.processId
    measuring := some {
      rubyVersion := environment.rubyVersion
      yjitEnabled := environment.yjitSupported
      folder := options.folderName
      home := c.base.find? "HOME" } }

/-- Installs a client made from the current settings on a transport of its own. -/
def installClient (c : WorkspaceContext) (environment : RuntimeEnvironment) :
    Task Workspace Unit :=
  Task.change (fun w =>
    { w with
      client := some ⟨sessionContext c w environment, .fresh w.state⟩
      transports := w.transports + 1 })

/-- Runs the probes that follow a start. That they fail is reported and changes nothing. -/
def probeServer : Task Workspace Unit := do
  match ← withClient (.ok ()) Session.afterStart with
  | .ok () => return ()
  | .error error =>
    Task.ask (.telemetry (.backgroundFailure "perform after start" error.message))

/-- The stages of a start after the activation. -/
def startWith (c : WorkspaceContext) (environment : RuntimeEnvironment) :
    Task Workspace (Outcome Unit) := do
  match ← failing (← checkWritable c) with
  | .error error => return .error error
  | .ok () =>
    match ← failing (← manageServerGem c environment) with
    | .error error => return .error error
    | .ok _ =>
      releaseClient
      installClient c environment
      match ← withClient (.error .notRunning) Session.start with
      | .error error => return .error (.server error)
      | .ok () =>
        probeServer
        return .ok ()

/-- Starts over; Ruby is activated again if that is asked for or there is none. -/
def startOver (c : WorkspaceContext) (reactivate : Bool) : Task Workspace (Outcome Unit) := do
  match ← failing (← if reactivate then activateRuby c else currentRuby c) with
  | .error error => return .error error
  | .ok environment => startWith c environment

/-- Starts the server, in place of one that may run. -/
def start (c : WorkspaceContext) : Task Workspace (Outcome Unit) := startOver c true

/-- Lets the user choose a Ruby, and starts over with it. -/
def selectRuby (c : WorkspaceContext) : Task Workspace (Outcome Unit) := do
  let w : Workspace ← Task.get
  let answer ← (Resolution.changeVersion (resolutionOptions c w)).within storePart
  match ← failing (← recordActivation answer) with
  | .error error => return .error error
  | .ok _ => startOver c false

/-- A failure of the server as one of the workspace. -/
def ofServer {α : Type} : Except ServerError α → Outcome α
  | .ok a => .ok a
  | .error error => .error (.server error)

/-- Stops the server. The client stays installed. -/
def stop : Task Workspace (Outcome Unit) := do
  return ofServer (← withClient (.ok ()) Session.stop)

/-- Restarts the server, or starts it where there is no client yet; nothing happens during a rebase.
The outcome is for the observers of the state only. -/
def restart (c : WorkspaceContext) : Task Workspace Unit := do
  let w : Workspace ← Task.get
  match w.client with
  | some client => (Session.restart client.context).within sessionPart
  | none =>
    let files : FileTree ← Task.ask .files
    if Session.rebaseInProgress files c.root then return ()
    let _ ← startOver c true

/-- Stops the server and releases the client. -/
def dispose : Task Workspace Unit := do
  releaseClient
  setState .stopped

/-- Sets up the server gem now. -/
def installServer (c : WorkspaceContext) : Task Workspace (Outcome (Option GemOutcome)) := do
  match ← currentRuby c with
  | .error error => return .error error
  | .ok environment => manageServerGem c environment

/-- Replaces the settings. Where anything was started before, a change starts over; Ruby is
activated again if its environment depends on the change. -/
def updateSettings (c : WorkspaceContext) (settings : Settings) :
    Task Workspace (Outcome Unit) := do
  let w : Workspace ← Task.get
  Task.put { w with settings }
  if w.settings.same settings then return .ok ()
  if w.client.isNone && w.ruby.environment?.isNone then return .ok ()
  startOver c (settings.requiresReactivation w.settings)

/-- Reads the settings files again. -/
def reloadSettings (c : WorkspaceContext) : Task Workspace (Outcome Unit) := do
  let files : FileTree ← Task.ask .files
  match Settings.load files c.globalSettings c.root with
  | .error fault => return .error (.settings fault)
  | .ok settings => updateSettings c settings

/-- Takes in the extensions that the server reports. -/
def reportExtensions (reported : List (String × List String)) : Task Workspace Unit :=
  Task.change (fun w => { w with extensions := ExtensionSet.listed w.store reported })

/-- Restarts the server if a flag of an extension changed. -/
def restartIfChanged (c : WorkspaceContext) (answer : Except RubyError Bool) :
    Task Workspace (Outcome Unit) := do
  match answer with
  | .error error => return .error (.ruby error)
  | .ok false => return .ok ()
  | .ok true =>
    restart c
    return .ok ()

/-- Switches an extension. -/
def setExtensionActivated (c : WorkspaceContext) (name : String) (activated : Bool) :
    Task Workspace (Outcome Unit) := do
  restartIfChanged c (← (ExtensionSet.setActivated name activated).within extensionPart)

/-- Activates the chosen extensions and no others of the reported ones. -/
def selectExtensions (c : WorkspaceContext) (chosen : List String) :
    Task Workspace (Outcome Unit) := do
  restartIfChanged c (← (ExtensionSet.select chosen).within extensionPart)

end RubySupervisor.Workspace
