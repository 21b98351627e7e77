import RubySupervisor.Files.Error
import RubySupervisor.Files.Path
import RubySupervisor.Process.Status
import RubySupervisor.Text.Quoted
import RubySupervisor.Text.Blank

/-!
# Failures of finding and activating a Ruby

Each cause has its own constructor; the wording is in `RubyError.message` alone. A discovery
failure means that no Ruby was found, as opposed to one that could not be activated.
-/

namespace RubySupervisor

/-- The kind of file that declares a version. -/
inductive VersionSource where
  | devYml
  | rubyVersion
  | globalRbenv
  | toolVersions
  | rtxToml
  deriving DecidableEq, Repr

/-- The name of the declaring file. -/
def VersionSource.fileName : VersionSource → String
  | devYml => "dev.yml"
  | rubyVersion => ".ruby-version"
  | globalRbenv => "version"
  | toolVersions => ".tool-versions"
  | rtxToml => ".rtx.toml"

/-- Why an interpreter could not be activated. -/
inductive ActivationFailure where
  /-- It could not be started. -/
  | notStarted (error : FileError)
  /-- It ended unsuccessfully. -/
  | exited (status : ExitStatus) (errors : String)
  /-- It printed no activation document. -/
  | noDocument (output : String)
  /-- Its activation document could not be read. -/
  | malformedDocument
  /-- It reported a version that is none. -/
  | unrecognizedVersion (version : String)
  /-- The host gave a reason of its own. -/
  | reported (reason : String)
  deriving DecidableEq, Repr

/-- The wording of the reason. -/
def ActivationFailure.message : ActivationFailure → String
  | notStarted error => error.message
  | exited status errors => "exited with " ++ status.message ++ ": " ++ Text.trim errors
  | noDocument output => "no activation output in " ++ Text.quoted output
  | malformedDocument => "malformed activation output"
  | unrecognizedVersion version => "unrecognized Ruby version " ++ Text.quoted version
  | reported reason => reason

/-- Why no Ruby environment is available. -/
inductive RubyError where
  | noVersionDeclared (directory : Path)
  | invalidVersionFile (path : Path) (source : VersionSource)
  | installationNotFound (version : String)
  | unknownVersionManager (name : String)
  | rubyNotOnPath
  | unsupportedRuby (version : String)
  | activationFailed (ruby : Path) (reason : ActivationFailure)
  | bundleGemfileMissing (gemfile : Path)
  | runtimeRequired (reason : String)
  | io (path : Path) (error : FileError)
  deriving DecidableEq, Repr

namespace RubyError

/-- The wording of the failure. -/
def message : RubyError → String
  | noVersionDeclared directory => "no Ruby version declared for " ++ directory.text
  | invalidVersionFile path source =>
    path.text ++ " (" ++ source.fileName ++ ") does not declare a Ruby version"
  | installationNotFound version =>
    "cannot find installation directory for Ruby version " ++ version
  | unknownVersionManager name => "unknown version manager " ++ Text.quoted name
  | rubyNotOnPath => "no ruby executable found on PATH"
  | unsupportedRuby version => "Ruby " ++ version ++ " is not supported, the minimum is 3.0"
  | activationFailed ruby reason => "failed to activate " ++ ruby.text ++ ": " ++ reason.message
  | bundleGemfileMissing gemfile => "custom bundle gemfile " ++ gemfile.text ++ " does not exist"
  | runtimeRequired reason => "a Ruby installation is required: " ++ reason
  | io path error => path.text ++ ": " ++ error.message

/-- Whether no Ruby could be located at all. -/
def isDiscoveryFailure : RubyError → Bool
  | noVersionDeclared _ => true
  | invalidVersionFile .. => true
  | installationNotFound _ => true
  | rubyNotOnPath => true
  | runtimeRequired _ => true
  | _ => false

end RubyError

end RubySupervisor
