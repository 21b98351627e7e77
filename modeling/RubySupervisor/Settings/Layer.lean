import RubySupervisor.Settings.Basic
import RubySupervisor.Toml.Parser

/-!
# Layers of settings

A settings file is a layer: it overrides the settings below it field by field, and the features and
variables name by name. A layer with an unknown key or a value of the wrong kind is refused as a
whole.
-/

namespace RubySupervisor

/-- One settings file. What it does not set is left as it is. -/
structure SettingsLayer where
  branch : Option String
  bundleGemfile : Option Path
  formatter : Option Formatter
  rubyExecutable : Option Path
  versionManager : Option VersionManager
  features : List (String × Bool)
  experimental : Option Bool
  yjit : Option Bool
  pull : Option PullDiagnostics
  environment : List (String × String)
  debug : Option Bool
  requestTimeout : Option Span
  testTimeout : Option Span
  deriving DecidableEq

namespace SettingsLayer

/-- The keys of a settings file. -/
def keys : List String :=
  ["branch", "bundle_gemfile", "formatter", "ruby_executable_path", "version_manager",
    "enabled_features", "enable_experimental_features", "yjit", "pull_diagnostics_on", "env",
    "debug", "request_timeout_secs", "test_timeout_secs"]

/-- The value of a key. -/
def value? (entries : List (String × Toml)) (key : String) : Option Toml :=
  (entries.find? (fun entry => entry.1 = key)).map Prod.snd

/-- An optional value: absent, or of the right kind. -/
def optional {α : Type} (entries : List (String × Toml)) (key : String)
    (decode : Toml → Option α) : Option (Option α) :=
  match value? entries key with
  | none => some none
  | some v => (decode v).map some

/-- A table with values of one kind; nothing where it is absent. -/
def tableOf {α : Type} (entries : List (String × Toml)) (key : String)
    (decode : Toml → Option α) : Option (List (String × α)) :=
  match value? entries key with
  | none => some []
  | some v => do
    (← v.entries?).mapM (fun entry : String × Toml =>
      (decode entry.2).map (fun a => (entry.1, a)))

/-- A path. -/
def path? (v : Toml) : Option Path := v.text?.map Path.mk

/-- The version manager that a value names. -/
def manager? (v : Toml) : Option VersionManager :=
  v.variant?.bind (fun name => VersionManager.all.find? (fun manager => manager.name = name))

/-- The moment for diagnostics that a value names. -/
def pull? (v : Toml) : Option PullDiagnostics :=
  v.variant?.bind (fun name => PullDiagnostics.all.find? (fun pull => pull.name = name))

/-- A number of seconds within 64 bits. -/
def seconds? : Toml → Option Span
  | .integer (.ofNat n) => if n < Nat.pow 2 64 then some (.seconds n) else none
  | _ => none

/-- The layer that the entries of a document describe. -/
def ofEntries? (entries : List (String × Toml)) : Option SettingsLayer := do
  if !entries.all (fun entry => keys.contains entry.1) then none
  return {
    branch := ← optional entries "branch" Toml.text?
    bundleGemfile := ← optional entries "bundle_gemfile" path?
    formatter := ← optional entries "formatter" (fun v => v.text?.map Formatter.ofName)
    rubyExecutable := ← optional entries "ruby_executable_path" path?
    versionManager := ← optional entries "version_manager" manager?
    features := ← tableOf entries "enabled_features" Toml.boolean?
    experimental := ← optional entries "enable_experimental_features" Toml.boolean?
    yjit := ← optional entries "yjit" Toml.boolean?
    pull := ← optional entries "pull_diagnostics_on" pull?
    environment := ← tableOf entries "env" Toml.text?
    debug := ← optional entries "debug" Toml.boolean?
    requestTimeout := ← optional entries "request_timeout_secs" seconds?
    testTimeout := ← optional entries "test_timeout_secs" seconds? }

/-- The layer of a document. -/
def parse? (source : String) : Option SettingsLayer := (Toml.parse? source).bind ofEntries?

/-- A text that an empty one unsets. -/
def overText (above below : Option String) : Option String :=
  match above with
  | none => below
  | some s => some s |>.filter (· ≠ "")

/-- A path that an empty one unsets. -/
def overPath (above below : Option Path) : Option Path :=
  match above with
  | none => below
  | some p => some p |>.filter (·.text ≠ "")

/-- The settings under the layer. -/
def apply (layer : SettingsLayer) (s : Settings) : Settings :=
  { branch := overText layer.branch s.branch
    bundleGemfile := overPath layer.bundleGemfile s.bundleGemfile
    formatter := layer.formatter.getD s.formatter
    rubyExecutable := overPath layer.rubyExecutable s.rubyExecutable
    versionManager := layer.versionManager.getD s.versionManager
    features := s.features.insertAll layer.features
    experimental := layer.experimental.getD s.experimental
    yjit := layer.yjit.getD s.yjit
    pull := layer.pull.getD s.pull
    environment := s.environment.insertAll layer.environment
    debug := layer.debug.getD s.debug
    requestTimeout := layer.requestTimeout.getD s.requestTimeout
    testTimeout := layer.testTimeout.getD s.testTimeout }

end SettingsLayer

/-- Why a settings file cannot be used. -/
structure SettingsFault where
  path : Path
  /-- Why it cannot be read; none if it can, and its document is refused. -/
  unreadable : Option FileError
  deriving DecidableEq, Repr

/-- The wording of the fault. -/
def SettingsFault.message (f : SettingsFault) : String :=
  f.path.text ++ ": " ++ (f.unreadable.map FileError.message).getD "malformed settings"

namespace Settings

/-- The settings with a layer on top, unless its document is refused. -/
def merge? (s : Settings) (source : String) : Option Settings :=
  (SettingsLayer.parse? source).map (fun layer => layer.apply s)

/-- The name of the settings file in a workspace folder. -/
def workspaceFile : String := ".garnet.toml"

/-- The settings with the layer of a file on top; a missing file counts for nothing, and a file
that cannot be used is named. -/
def mergeFile (files : FileTree) (s : Settings) (path : Path) : Except SettingsFault Settings :=
  match files.readText path with
  | .error .notFound => .ok s
  | .error error => .error ⟨path, some error⟩
  | .ok source =>
    match s.merge? source with
    | some s => .ok s
    | none => .error ⟨path, none⟩

/-- The settings of a workspace folder: the defaults, a global file, the file of the workspace. -/
def load (files : FileTree) (global : Option Path) (root : Path) :
    Except SettingsFault Settings :=
  (global.toList ++ [root.join workspaceFile]).foldlM (mergeFile files) default

end Settings

end RubySupervisor
