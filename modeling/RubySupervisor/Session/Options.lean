import RubySupervisor.Document.FileUri
import RubySupervisor.Json.Value
import RubySupervisor.Server.Error
import RubySupervisor.Server.Message

/-!
# Options of a server session

How the server of a workspace is launched, what it is told when it is initialized, and how long
its answers may take. Its formatter is one of the known names, or any other name handed on as it is.

A server may ask its client something. Questions about the configuration, the folders and a few
notices have a fixed answer; every other method is answered with an error.
-/

namespace RubySupervisor

/-- The formatter of a server. -/
inductive Formatter where
  /-- Chosen from the dependencies of the project. -/
  | auto
  | rubocop
  | syntaxTree
  /-- No formatting. -/
  | off
  | custom (name : String)
  deriving DecidableEq, Repr

namespace Formatter

/-- The name of the formatter in the settings. -/
def name : Formatter → String
  | auto => "auto"
  | rubocop => "rubocop"
  | syntaxTree => "syntax_tree"
  | off => "none"
  | custom name => name

/-- The formatter of a name. -/
def ofName (s : String) : Formatter :=
  if s = "auto" then auto
  else if s = "rubocop" then rubocop
  else if s = "syntax_tree" then syntaxTree
  else if s = "none" then off
  else custom s

@[simp] theorem name_ofName (s : String) : (ofName s).name = s := by
  unfold ofName
  split
  · simp_all [name]
  · split
    · simp_all [name]
    · split
      · simp_all [name]
      · split
        · simp_all [name]
        · rfl

end Formatter

/-- How the server executable is chosen. -/
structure LaunchOptions where
  /-- The server is run through a configured bundle. -/
  customBundle : Bool
  /-- The branch of the server to run. -/
  branch : Option String
  /-- The server is started in debug mode. -/
  debug : Bool
  deriving DecidableEq, Repr

namespace LaunchOptions

/-- The released server without options. -/
def default : LaunchOptions := ⟨false, none, false⟩

/-- The program that starts the server. -/
def program (o : LaunchOptions) : String := if o.customBundle then "bundle" else "ruby-lsp"

/-- The arguments that choose the bundle. -/
def bundleArguments (o : LaunchOptions) : List String :=
  if o.customBundle then ["exec", "ruby-lsp"] else []

/-- The arguments that choose the mode: debug mode, or else a branch of the installed server. -/
def modeArguments (o : LaunchOptions) : List String :=
  if o.debug then ["--debug"]
  else if o.customBundle then []
  else
    match o.branch.filter (· ≠ "") with
    | some branch => ["--branch", branch]
    | none => []

/-- The arguments of the program. -/
def arguments (o : LaunchOptions) : List String := o.bundleArguments ++ o.modeArguments

end LaunchOptions

/-- What a server is told when it is initialized. -/
structure InitializationOptions where
  enabledFeatures : List String
  experimentalFeaturesEnabled : Bool
  /-- The name of the configured formatter. -/
  formatter : String
  deriving DecidableEq, Repr

/-- The options as a document value. -/
def InitializationOptions.toJson (o : InitializationOptions) : Json :=
  .object [("enabledFeatures", .array (o.enabledFeatures.map Json.text)),
    ("experimentalFeaturesEnabled", .bool o.experimentalFeaturesEnabled),
    ("formatter", .text o.formatter)]

/-- How a session launches its server and talks to it. -/
structure SessionOptions where
  /-- The workspace folder, in which the server runs. -/
  root : Path
  launch : LaunchOptions
  initialization : InitializationOptions
  /-- A configured gemfile, absolute or seen from the root. -/
  bundleGemfile : Option Path
  requestTimeout : Span
  deriving DecidableEq, Repr

namespace SessionOptions

/-- The options of a workspace folder, everything else unset. -/
def ofRoot (root : Path) : SessionOptions :=
  { root
    launch := .default
    initialization := ⟨[], false, Formatter.auto.name⟩
    bundleGemfile := none
    requestTimeout := .seconds 30 }

/-- The options with a gemfile. The server is run through a bundle exactly if there is one. -/
def withBundleGemfile (o : SessionOptions) (gemfile : Option Path) : SessionOptions :=
  { o with bundleGemfile := gemfile, launch := { o.launch with customBundle := gemfile.isSome } }

/-- The options with another launch; whether a bundle is used stays with the gemfile. -/
def withLaunch (o : SessionOptions) (launch : LaunchOptions) : SessionOptions :=
  { o with launch := { launch with customBundle := o.bundleGemfile.isSome } }

/-- The options with another initialization. -/
def withInitialization (o : SessionOptions) (initialization : InitializationOptions) :
    SessionOptions :=
  { o with initialization }

/-- The options with another timeout. -/
def withRequestTimeout (o : SessionOptions) (timeout : Span) : SessionOptions :=
  { o with requestTimeout := timeout }

/-- The name of the workspace folder, empty where its path does not end in a name. -/
def folderName (o : SessionOptions) : String := o.root.fileName?.getD ""

end SessionOptions

namespace Reply

/-- The folders of a workspace, `null` if its path has no address. -/
def workspaceFolders (o : SessionOptions) : Json :=
  match FileUri.ofPath? o.root with
  | some uri => .array [.object [("name", .text o.folderName), ("uri", .text uri)]]
  | none => .null

/-- The methods that are acknowledged without doing anything. -/
def acknowledged : List String :=
  ["client/registerCapability", "client/unregisterCapability", "window/workDoneProgress/create",
    "window/showMessageRequest", "workspace/codeLens/refresh", "workspace/diagnostic/refresh"]

/-- No value for every configuration item that is asked for. -/
def configuration (params : Json) : Json :=
  .array ((((params.member? "items").bind Json.items?).getD []).map (fun _ => Json.null))

/-- The answer to a request of the server. -/
def toRequest (folders : Json) (r : Request) : Except ResponseError Json :=
  if r.method = "workspace/configuration" then .ok (configuration r.params)
  else if r.method = "workspace/workspaceFolders" then .ok folders
  else if acknowledged.contains r.method then .ok .null
  else .error ⟨ResponseError.methodNotFound, "unhandled method " ++ r.method, none⟩

end Reply

end RubySupervisor
