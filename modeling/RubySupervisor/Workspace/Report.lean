import RubySupervisor.Json.Field
import RubySupervisor.Settings.Basic
import RubySupervisor.Session.Report
import RubySupervisor.Workspace.Activity

/-!
# Reports about workspaces

Settings and what follows from them, failures, actions, extensions, status items and what a
workspace shows as document values.
-/

/-! ## Settings -/

namespace RubySupervisor

/-- The name of a moment as it is reported. -/
def PullDiagnostics.shown : PullDiagnostics → String
  | change => "Change"
  | save => "Save"
  | both => "Both"

/-- A path as a value, where there is one. -/
def Json.ofPath? (p : Option Path) : Json := Json.ofText? (p.map Path.text)

/-- The report of settings. -/
def Settings.toJson (s : Settings) : Json :=
  Json.ofMembers [("branch", Json.ofText? s.branch), ("bundle_gemfile", Json.ofPath? s.bundleGemfile),
    ("formatter", .text s.formatter.name), ("ruby_executable_path", Json.ofPath? s.rubyExecutable),
    ("version_manager", .text s.versionManager.name),
    ("enabled_features", .object (s.features.mapValues Json.bool)),
    ("enable_experimental_features", .bool s.experimental), ("yjit", .bool s.yjit),
    ("pull", .text s.pull.shown), ("pull_on_change", .bool s.pull.onChange),
    ("pull_on_save", .bool s.pull.onSave), ("env", Json.ofDict s.environment),
    ("debug", .bool s.debug),
    ("request_timeout_secs", Json.ofNat s.requestTimeout.wholeSeconds),
    ("test_timeout_secs", Json.ofNat s.testTimeout.wholeSeconds)]

/-- The report of resolution options. -/
def ResolutionOptions.toJson (o : ResolutionOptions) : Json :=
  Json.ofMembers [("cwd", .text o.directory.text), ("home", Json.ofPath? o.home),
    ("manager", .text o.manager.name), ("ruby_executable_path", Json.ofPath? o.rubyExecutable),
    ("bundle_gemfile", Json.ofPath? o.bundleGemfile),
    ("bundle_dir", .text o.bundleDirectory.text), ("env_overrides", Json.ofDict o.overrides)]

/-! ## Workspaces -/

/-- The report of a failure. -/
def WorkspaceError.toJson (e : WorkspaceError) : Json :=
  let said (kind : String) : Json := Json.failure kind [("message", .text e.message)]
  match e with
  | ruby error => error.toJson
  | server error => error.toJson
  | notWritable _ => said "NotWritable"
  | install error =>
    Json.failure "Install" [("message", .text e.message), ("source", error.toJson)]
  | settings fault => Json.failure "Settings" [("path", .text fault.path.text)]
  | unknownAction _ => said "UnknownCommand"
  | requiresHost _ => said "RequiresHost"
  | missingArguments _ => said "MissingArguments"

/-- The report of an outcome. -/
def WorkspaceError.outcome {α : Type} (encode : α → Json) : Except WorkspaceError α → Json
  | .ok a => encode a
  | .error e => e.toJson

/-- The name of an action as it is reported. -/
def Action.shown : Action → String
  | start => "Start"
  | stop => "Stop"
  | restart => "Restart"
  | update => "Update"
  | toggleExperimentalFeatures => "ToggleExperimentalFeatures"
  | serverOptions => "ServerOptions"
  | toggleYjit => "ToggleYjit"
  | selectVersionManager => "SelectVersionManager"
  | toggleFeatures => "ToggleFeatures"
  | formatterHelp => "FormatterHelp"
  | manageExtensions => "ManageExtensions"
  | runTest => "RunTest"
  | runTestInTerminal => "RunTestInTerminal"
  | debugTest => "DebugTest"
  | openLink => "OpenLink"
  | showSyntaxTree => "ShowSyntaxTree"

/-- The report of the action with an identifier. -/
def Action.report (id : String) : Json :=
  match ofId? id with
  | none => (WorkspaceError.unknownAction id).toJson
  | some action =>
    Json.ofMembers [("id", .text action.id), ("name", .text action.shown),
      ("index", Json.ofNat (all.idxOf action))]

/-- The report of a choice. -/
def ActionChoice.toJson (c : ActionChoice) : Json :=
  Json.ofMembers [("label", .text c.label), ("command", .text c.action.id)]

/-- The report of all actions and of the choices between them. -/
def Action.catalogue : Json :=
  Json.ofMembers [("all", Json.ofTexts (all.map id)),
    ("started", .array (ActionChoice.started.map ActionChoice.toJson)),
    ("stopped", .array (ActionChoice.stopped.map ActionChoice.toJson))]

/-- The report of an extension. -/
def Extension.toJson (e : Extension) : Json :=
  Json.ofMembers [("name", .text e.name), ("errors", Json.ofTexts e.errors),
    ("activated", .bool e.activated), ("errored", .bool e.isErrored)]

/-- The extensions that a value reports. -/
def Extension.reportedAt (j : Json) (name : String) : List (String × List String) :=
  (j.itemsAt name).map (fun entry => (entry.textAt "name", entry.textsAt "errors"))

/-- The name of an outcome as it is reported. -/
def GemOutcome.shown : GemOutcome → String
  | installed => "Installed"
  | updated => "Updated"
  | upToDate => "UpToDate"
  | updateFailed => "UpdateFailed"

/-- The name of a severity. -/
def Severity.name : Severity → String
  | information => "information"
  | error => "error"

/-- The report of the action that an item offers. -/
def StatusAction.toJson (a : StatusAction) : Json :=
  Json.ofMembers [("title", .text a.title), ("command", .text a.action.id),
    ("arguments", .array (a.choices.map (fun c => Json.ofTexts [c.label, c.action.id])))]

/-- The report of an item. -/
def StatusItem.toJson (i : StatusItem) : Json :=
  Json.ofMembers [("id", .text i.id), ("name", .text i.name), ("text", .text i.text),
    ("severity", .text i.severity.name), ("command", Json.ofOption StatusAction.toJson i.action)]

/-- The report of items. -/
def StatusItem.listJson (items : List StatusItem) : Json :=
  .array (items.map StatusItem.toJson)

namespace Workspace

/-- The live process of the installed client, as it is shown. -/
def shownServer (w : Workspace) : Json := w.session.shownServer

/-- The report of what a workspace shows. -/
def toJson (w : Workspace) : Json :=
  let v := w.statusView
  Json.ofMembers [("state", .text v.state.shown), ("ruby_version", Json.ofText? v.rubyVersion),
    ("version_manager", .text v.versionManager.name),
    ("activation_error", Json.ofText? v.activationError),
    ("yjit_supported", .bool v.yjitSupported),
    ("formatter", Json.ofText? (v.formatter.map Formatter.name)),
    ("server_version", Json.ofText? v.serverVersion),
    ("client", Json.ofOption (fun client : Client => client.context.options.toJson) w.client)]

end Workspace

/-- The report of an output. -/
def CommandOutput.toJson (o : CommandOutput) : Json :=
  Json.ofMembers [("status", Json.ofOption Json.int o.status), ("stdout", .text o.output),
    ("stderr", .text o.errors)]

end RubySupervisor
