import RubySupervisor.Dict
import RubySupervisor.Files.Tree
import RubySupervisor.Ruby.Activation
import RubySupervisor.Ruby.Version

/-!
# Runtime environments

The variables with which every Ruby process of a workspace runs. They are assembled from a base
environment, the answers of the interpreter, an optional gemset and gemfile, and overrides; the
later source of a variable wins, and variables that tune the garbage collector are left out.
-/

namespace RubySupervisor

/-- What an environment is assembled from. -/
structure EnvironmentPlan where
  base : Dict String
  rubyBin : Path
  activation : Activation
  gemset : Option String
  bundleGemfile : Option Path
  overrides : Dict String

/-- The environment of a workspace's Ruby processes. -/
structure RuntimeEnvironment where
  bindings : Dict String
  rubyVersion : String
  rubyBin : Path
  gemHome : Path
  yjitSupported : Bool
  deriving DecidableEq, Repr

namespace RuntimeEnvironment

/-- The value of a variable. -/
def get? (e : RuntimeEnvironment) (name : String) : Option String := e.bindings.find? name

/-- The variables without one of them. -/
def without (e : RuntimeEnvironment) (name : String) : Dict String := e.bindings.erase name

/-- The variables with a value for one of them. -/
def withVariable (e : RuntimeEnvironment) (name value : String) : Dict String :=
  e.bindings.insert name value

/-- The directories of the search path. -/
def pathEntries (e : RuntimeEnvironment) : List String :=
  match e.get? "PATH" with
  | some path => Text.splitAt ':' path
  | none => []

end RuntimeEnvironment

namespace EnvironmentPlan

/-- How the names of the variables begin that are left out. -/
def tuningMark : String := "RUBY_GC"

/-- The gem directory, with the gemset in its name unless that is empty. -/
def gemHome (p : EnvironmentPlan) : Path :=
  match p.gemset.filter (· ≠ "") with
  | some gemset => ⟨p.activation.gems.text ++ "@" ++ gemset⟩
  | none => p.activation.gems

/-- The search path: the directories of Ruby and its gems before the base path. -/
def searchPath (p : EnvironmentPlan) : String :=
  String.intercalate ":" <|
    [p.rubyBin.text, (p.gemHome.join "bin").text, (p.activation.defaultGems.join "bin").text]
      ++ ((p.base.find? "PATH").filter (· ≠ "")).toList

/-- Whether the interpreter has the just-in-time compiler, for a version. -/
def yjitSupported (p : EnvironmentPlan) (version : RubyVersion) : Bool :=
  p.activation.yjit = some "constant" && version.atLeast 3 2

/-- The interpreter options with the compiler switched on. -/
def withYjit (options : Option String) : String :=
  match (options.map Text.trim).filter (· ≠ "") with
  | some existing =>
    if (Text.words existing).contains "--yjit" then existing else existing ++ " --yjit"
  | none => "--yjit"

/-- The variables that follow from the interpreter. -/
def derived (p : EnvironmentPlan) : Dict String :=
  ((((p.base.insert "GEM_HOME" p.gemHome.text).insert "GEM_ROOT" p.activation.defaultGems.text)
    |>.insert "GEM_PATH" (p.gemHome.text ++ ":" ++ p.activation.defaultGems.text))
    |>.insert "RUBY_VERSION" p.activation.version)
    |>.insert "PATH" p.searchPath

/-- The variables with the compiler switched on where the interpreter does not do so itself. -/
def withCompiler (p : EnvironmentPlan) (version : RubyVersion) (bindings : Dict String) :
    Dict String :=
  if p.yjitSupported version && version.major = 3 && version.minor = 2 then
    bindings.insert "RUBYOPT" (withYjit (bindings.find? "RUBYOPT"))
  else bindings

/-- The environment of a plan. The version must be known and at least 3.0, and a gemfile that is
set must be a file. -/
def build (p : EnvironmentPlan) (files : FileTree) : Except RubyError RuntimeEnvironment := do
  let version ← match RubyVersion.parse? p.activation.version with
    | some version => pure version
    | none => throw (.activationFailed p.rubyBin (.unrecognizedVersion p.activation.version))
  if version.major < 3 then throw (.unsupportedRuby p.activation.version)
  let bindings := p.withCompiler version p.derived
  let bindings ← match p.bundleGemfile with
    | none => pure bindings
    | some gemfile =>
      if files.isFile gemfile then pure (bindings.insert "BUNDLE_GEMFILE" gemfile.text)
      else throw (.bundleGemfileMissing gemfile)
  let bindings := bindings.insertAll p.overrides
  return {
    bindings := bindings.filter (fun entry => !Text.startsWith entry.1 tuningMark)
    rubyVersion := p.activation.version
    rubyBin := p.rubyBin
    gemHome := p.gemHome
    yjitSupported := p.yjitSupported version }

end EnvironmentPlan

end RubySupervisor
