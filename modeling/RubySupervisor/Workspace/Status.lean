import RubySupervisor.Session.Client
import RubySupervisor.Settings.Basic
import RubySupervisor.Workspace.Action
import RubySupervisor.Workspace.Extension

/-!
# Status items

What a user sees of a workspace: one item for each of its aspects, a function of a view that cannot
change anything. A board keeps the items as they were when it was last refreshed.
-/

namespace RubySupervisor

/-- What status items are made from. -/
structure StatusView where
  state : LifecycleState
  rubyVersion : Option String
  versionManager : VersionManager
  /-- Why Ruby could not be activated. -/
  activationError : Option String
  yjitSupported : Bool
  /-- The formatter in use, once it is known. -/
  formatter : Option Formatter
  serverVersion : Option String
  settings : Settings
  extensions : List Extension

/-- How prominent an item is. -/
inductive Severity where
  | information
  /-- Something needs attention. -/
  | error
  deriving DecidableEq, Repr

/-- The action that an item offers. -/
structure StatusAction where
  title : String
  action : Action
  /-- What the user chooses from. -/
  choices : List ActionChoice
  deriving DecidableEq, Repr

/-- An action without choices. -/
def StatusAction.plain (title : String) (action : Action) : StatusAction := ⟨title, action, []⟩

/-- One item. -/
structure StatusItem where
  id : String
  name : String
  text : String
  severity : Severity
  action : Option StatusAction
  deriving DecidableEq, Repr

namespace StatusItem

/-- The activated Ruby. -/
def rubyVersion (v : StatusView) : StatusItem :=
  let (text, severity) : String × Severity :=
    match v.activationError, v.rubyVersion with
    | some _, _ => ("Failed to activate Ruby", .error)
    | none, some version =>
      ("Using Ruby " ++ version ++ " with " ++ v.versionManager.name, .information)
    | none, none => ("Activating Ruby", .information)
  ⟨"rubyVersion", "Ruby LSP Status", text, severity,
    some (.plain "Change version manager" .selectVersionManager)⟩

/-- The choices in a state. -/
def serverChoices : LifecycleState → List ActionChoice
  | .starting | .running => ActionChoice.started
  | .stopped | .error => ActionChoice.stopped

/-- The state of the server. -/
def server (v : StatusView) : StatusItem :=
  ⟨"server", "Ruby LSP Status", "Ruby LSP: " ++ v.state.shown,
    if v.state = .error then .error else .information,
    some ⟨"Configure", .serverOptions, serverChoices v.state⟩⟩

/-- Whether experimental features are on. -/
def experimentalFeatures (v : StatusView) : StatusItem :=
  let (text, title) : String × String :=
    if v.settings.experimental then ("Experimental features enabled", "Disable")
    else ("Experimental features disabled", "Enable")
  ⟨"experimentalFeatures", "Experimental features", text, .information,
    some (.plain title .toggleExperimentalFeatures)⟩

/-- Whether the just-in-time compiler is in use. Where Ruby has none there is no action. -/
def yjit (v : StatusView) : StatusItem :=
  let enabled := v.yjitSupported && v.settings.yjit
  ⟨"yjit", "YJIT", if enabled then "YJIT enabled" else "YJIT disabled", .information,
    if v.yjitSupported then some (.plain (if enabled then "Disable" else "Enable") .toggleYjit)
    else none⟩

/-- How many features are enabled. -/
def features (v : StatusView) : StatusItem :=
  let enabled := v.settings.enabledFeatures.length
  let all := v.settings.features.length
  ⟨"features", "Ruby LSP Features",
    Text.natText enabled ++ "/" ++ Text.natText all ++ " features enabled", .information,
    some (.plain "Manage" .toggleFeatures)⟩

/-- The formatter in use, or the configured one until it is known. -/
def formatter (v : StatusView) : StatusItem :=
  ⟨"formatter", "Formatter",
    "Using formatter: " ++ (v.formatter.getD v.settings.formatter).name, .information,
    some (.plain "Help" .formatterHelp)⟩

/-- How many extensions are activated; an error if the server failed to activate one. -/
def extensions (v : StatusView) : StatusItem :=
  let activated := (v.extensions.filter Extension.activated).length
  ⟨"extensions", "Server extensions", Text.natText activated ++ " activated extensions",
    if v.extensions.any Extension.isErrored then .error else .information,
    some (.plain "Manage" .manageExtensions)⟩

/-- Every item of a view, in the order in which they are shown. -/
def ofView (v : StatusView) : List StatusItem :=
  [rubyVersion v, server v, experimentalFeatures v, yjit v, features v, formatter v, extensions v]

/-- The item with an identifier. -/
def find? (items : List StatusItem) (id : String) : Option StatusItem :=
  items.find? (fun item => item.id = id)

end StatusItem

/-- The items as they were when they were last refreshed, and whether changes of the lifecycle state
refresh them. -/
structure StatusBoard where
  items : List StatusItem
  followsState : Bool
  deriving DecidableEq, Repr

namespace StatusBoard

/-- A board that shows a view. -/
def ofView (v : StatusView) : StatusBoard := ⟨StatusItem.ofView v, false⟩

/-- The board after a refresh. -/
def refresh (b : StatusBoard) (v : StatusView) : StatusBoard :=
  { b with items := StatusItem.ofView v }

/-- The board after a change of the lifecycle state, seen in a view. -/
def stateChanged (b : StatusBoard) (v : StatusView) : StatusBoard :=
  if b.followsState then b.refresh v else b

end StatusBoard

end RubySupervisor
