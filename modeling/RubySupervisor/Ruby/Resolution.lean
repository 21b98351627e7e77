import RubySupervisor.Ruby.Declaration
import RubySupervisor.Ruby.Environment
import RubySupervisor.Ruby.Installation
import RubySupervisor.State.Store

/-!
# Resolving the Ruby of a workspace

The declared version leads to an installation, the installation to the answers of its interpreter,
and these to an environment. The installation found for a version is remembered in the store; a
discovery that fails ends at a configured Ruby or at the user.
-/

namespace RubySupervisor

/-- What the Ruby of a workspace is resolved from. -/
structure ResolutionOptions where
  directory : Path
  home : Option Path
  manager : VersionManager
  /-- Installation roots that replace those of the manager. -/
  roots : Option (List Path)
  /-- The Ruby to use when discovery fails. -/
  rubyExecutable : Option Path
  bundleGemfile : Option Path
  overrides : Dict String
  base : Dict String
  deriving DecidableEq

/-- An installation remembered for a declared version. -/
structure RememberedRuby where
  version : String
  rubyBin : Path
  deriving DecidableEq, Repr

namespace RememberedRuby

/-- The value under which the installation is stored. -/
def toJson (r : RememberedRuby) : Json :=
  .object [("rubyBin", .text r.rubyBin.text), ("version", .text r.version)]

/-- The installation that a stored value describes. -/
def ofJson? (j : Json) : Option RememberedRuby := do
  let r ← Json.Record.ofJson? ["version", "rubyBin"] j
  return ⟨← r.required "version" Json.text?, ⟨← r.required "rubyBin" Json.text?⟩⟩

end RememberedRuby

namespace ResolutionOptions

/-- The options of a workspace directory on a base environment, everything else unset. -/
def ofBase (directory : Path) (base : Dict String) : ResolutionOptions :=
  { directory
    home := (base.find? "HOME").map Path.mk
    manager := .auto
    roots := none
    rubyExecutable := none
    bundleGemfile := none
    overrides := []
    base }

/-- The options with a gemfile; a relative one is seen from the workspace directory. -/
def withBundleGemfile (o : ResolutionOptions) (gemfile : Option Path) : ResolutionOptions :=
  { o with bundleGemfile := gemfile.map (fun g => o.directory.join g.text) }

/-- The directory in which the bundle is set up. -/
def bundleDirectory (o : ResolutionOptions) : Path :=
  (o.bundleGemfile.bind Path.parent?).getD o.directory

/-- The installation roots that are searched. -/
def searchedRoots (o : ResolutionOptions) : List Path :=
  match o.roots with
  | some roots => roots
  | none => (o.home.map o.manager.roots).getD []

end ResolutionOptions

namespace Resolution

/-- The installation that the store remembers. -/
def remembered? (s : Store) : Option RememberedRuby :=
  (s.get? Store.rubyPathKey).bind RememberedRuby.ofJson?

/-- Remembers an installation for a version; that the file could not be written does not count. -/
def remember (version : String) (rubyBin : Path) : Task Store Unit := do
  let _ ← Store.update Store.rubyPathKey (RememberedRuby.toJson ⟨version, rubyBin⟩)

/-- The name of a gemset in a workspace directory. -/
def gemset? (files : FileTree) (directory : Path) : Option String :=
  match files.readText (directory.join ".ruby-gemset") with
  | .ok contents => some (Text.trim contents) |>.filter (· ≠ "")
  | .error _ => none

/-- The Ruby on the search path of the base environment. -/
def onPath (o : ResolutionOptions) (files : FileTree) : Except RubyError Path :=
  match files.which "ruby" (o.base.find? "PATH") o.directory with
  | .ok ruby => .ok (Installation.binDirectory files ruby)
  | .error _ => .error .rubyNotOnPath

/-- What happens when discovery fails: the configured Ruby, or else the choice of the user, which
is remembered for the declared version if there is one. -/
def fallback (o : ResolutionOptions) (version : Option String) (error : RubyError) :
    Task Store (Except RubyError Path) := do
  match o.rubyExecutable with
  | some path =>
    let files : FileTree ← Task.ask .files
    return .ok (Installation.binDirectory files path)
  | none =>
    let selected : Option Path ← Task.ask (.chooseInstallation error.message)
    match selected with
    | none => return .error (.runtimeRequired error.message)
    | some selected =>
      let files : FileTree ← Task.ask .files
      let rubyBin := Installation.binDirectory files selected
      match version with
      | some version => remember version rubyBin
      | none => pure ()
      return .ok rubyBin

/-- Finds the directory of the Ruby to use. -/
def findRubyBin (o : ResolutionOptions) : Task Store (Except RubyError Path) := do
  let files : FileTree ← Task.ask .files
  if o.manager = .none then return onPath o files
  match Declaration.read files o.directory o.home with
  | .error error => fallback o none error
  | .ok declared =>
    let usable (r : RememberedRuby) : Bool :=
      r.version = declared.version && files.isDirectory r.rubyBin
    match (remembered? (← Task.get)).filter usable with
    | some r => return .ok r.rubyBin
    | none =>
      match Installation.find files o.searchedRoots declared.version declared.engine with
      | .error error => fallback o (some declared.version) error
      | .ok installation =>
        let rubyBin := installation.join "bin"
        remember declared.version rubyBin
        return .ok rubyBin

/-- Builds the environment of the Ruby in a directory. -/
def activateWith (o : ResolutionOptions) (rubyBin : Path) :
    Task Store (Except RubyError RuntimeEnvironment) := do
  let answer : Except RubyError Activation ← Task.ask (.probe rubyBin o.bundleDirectory o.base)
  match answer with
  | .error error => return .error error
  | .ok activation =>
    let files : FileTree ← Task.ask .files
    return EnvironmentPlan.build {
      base := o.base
      rubyBin
      activation
      gemset := gemset? files o.directory
      bundleGemfile := o.bundleGemfile
      overrides := o.overrides } files

/-- Finds the Ruby to use and builds its environment. -/
def activate (o : ResolutionOptions) : Task Store (Except RubyError RuntimeEnvironment) := do
  match ← findRubyBin o with
  | .error error => return .error error
  | .ok rubyBin => activateWith o rubyBin

/-- The reason that is given when the user is asked for another Ruby. -/
def manualSelection : String := "manual Ruby selection"

/-- Lets the user choose another Ruby, remembers it for the declared version and activates it. -/
def changeVersion (o : ResolutionOptions) : Task Store (Except RubyError RuntimeEnvironment) := do
  let selected : Option Path ← Task.ask (.chooseInstallation manualSelection)
  match selected with
  | none => return .error (.runtimeRequired manualSelection)
  | some selected =>
    let files : FileTree ← Task.ask .files
    let rubyBin := Installation.binDirectory files selected
    match Declaration.read files o.directory o.home with
    | .ok declared => remember declared.version rubyBin
    | .error _ => pure ()
    activateWith o rubyBin

end Resolution

end RubySupervisor
