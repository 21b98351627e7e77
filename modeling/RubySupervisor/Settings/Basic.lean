import RubySupervisor.Ruby.Resolution
import RubySupervisor.Session.Options

/-!
# Settings of a workspace

The effective settings, what they mean for a session and for the resolution of Ruby, and when a
change of settings calls for a new activation. Paths are compared by the steps that they take.
-/

namespace RubySupervisor

/-- When the editor pulls diagnostics. -/
inductive PullDiagnostics where
  | change
  | save
  | both
  deriving DecidableEq, Repr

namespace PullDiagnostics

/-- Every moment, in the order in which they are shown. -/
def all : List PullDiagnostics := [change, save, both]

/-- The name of the moment in the settings. -/
def name : PullDiagnostics → String
  | change => "change"
  | save => "save"
  | both => "both"

/-- Whether diagnostics are pulled after a change. -/
def onChange (p : PullDiagnostics) : Bool := p != save

/-- Whether diagnostics are pulled after saving. -/
def onSave (p : PullDiagnostics) : Bool := p != change

end PullDiagnostics

/-- The settings of a workspace. -/
structure Settings where
  /-- The branch of the server to run instead of the released one. -/
  branch : Option String
  /-- The gemfile of a bundle to run the server with. -/
  bundleGemfile : Option Path
  formatter : Formatter
  /-- The Ruby to use when discovery fails. -/
  rubyExecutable : Option Path
  versionManager : VersionManager
  /-- The features of the server by name. -/
  features : Dict Bool
  experimental : Bool
  /-- The server is run with the just-in-time compiler where it is supported. -/
  yjit : Bool
  pull : PullDiagnostics
  /-- Variables that are added to the environment of Ruby. -/
  environment : Dict String
  debug : Bool
  requestTimeout : Span
  /-- How long a run of tests may take. -/
  testTimeout : Span
  deriving DecidableEq

namespace Settings

/-- The features that are enabled unless a setting says otherwise. -/
def defaultFeatures : List String :=
  ["codeActions", "codeLens", "completion", "definition", "diagnostics", "documentHighlights",
    "documentLink", "documentSymbols", "foldingRanges", "formatting", "hover", "inlayHint",
    "onTypeFormatting", "selectionRanges", "semanticHighlighting"]

/-- The settings without any file. -/
def default : Settings :=
  { branch := none
    bundleGemfile := none
    formatter := .auto
    rubyExecutable := none
    versionManager := .auto
    features := Dict.ofPairs (defaultFeatures.map (fun feature => (feature, true)))
    experimental := false
    yjit := true
    pull := .both
    environment := []
    debug := false
    requestTimeout := .seconds 30
    testTimeout := .seconds 30 }

/-- Whether two optional paths take the same steps. -/
def samePath : Option Path → Option Path → Bool
  | none, none => true
  | some p, some q => p.same q
  | _, _ => false

/-- Whether two settings are the same but for the spelling of paths. -/
def same (s t : Settings) : Bool :=
  samePath s.bundleGemfile t.bundleGemfile && samePath s.rubyExecutable t.rubyExecutable
    && s = { t with bundleGemfile := s.bundleGemfile, rubyExecutable := s.rubyExecutable }

/-- The names of the enabled features, ascending. -/
def enabledFeatures (s : Settings) : List String :=
  (s.features.filter (fun feature => feature.2)).map Prod.fst

/-- What the server is told when it is initialized. -/
def initialization (s : Settings) : InitializationOptions :=
  ⟨s.enabledFeatures, s.experimental, s.formatter.name⟩

/-- How the server executable is chosen. -/
def launch (s : Settings) : LaunchOptions := ⟨s.bundleGemfile.isSome, s.branch, s.debug⟩

/-- The session options for a workspace folder. -/
def sessionOptions (s : Settings) (root : Path) : SessionOptions :=
  (((SessionOptions.ofRoot root).withBundleGemfile s.bundleGemfile).withLaunch s.launch
    |>.withInitialization s.initialization).withRequestTimeout s.requestTimeout

/-- The options with which Ruby is resolved for a workspace folder. -/
def resolutionOptions (s : Settings) (root : Path) (base : Dict String) : ResolutionOptions :=
  let o := ResolutionOptions.ofBase root base
  let o := { o with manager := s.versionManager, rubyExecutable := s.rubyExecutable }
  { o.withBundleGemfile s.bundleGemfile with overrides := s.environment }

/-- Whether the step from older settings to these changes the environment of Ruby. -/
def requiresReactivation (s previous : Settings) : Bool :=
  s.versionManager != previous.versionManager
    || !samePath s.bundleGemfile previous.bundleGemfile
    || !samePath s.rubyExecutable previous.rubyExecutable
    || s.environment != previous.environment

end Settings

end RubySupervisor
