import RubySupervisor.Json.Field
import RubySupervisor.Session.Client
import RubySupervisor.Text.Scan

/-!
# Reports

What happens to Ruby, to a server and to a session as document values, and the values from which
session options are made. A failure is reported by its kind, and by its message where the message is
the program's own wording.
-/

namespace RubySupervisor

/-! ## Ruby -/

/-- The kind of a failed file access. -/
def FileError.kind : FileError → String
  | notFound => "NotFound"
  | permissionDenied => "PermissionDenied"
  | alreadyExists => "AlreadyExists"
  | notADirectory => "NotADirectory"
  | isADirectory => "IsADirectory"
  | directoryNotEmpty => "DirectoryNotEmpty"
  | tooManyLinks => "FilesystemLoop"
  | nameTooLong => "InvalidFilename"
  | notExecutable => "Uncategorized"
  | nulInName => "InvalidInput"
  | nulInData => "InvalidInput"
  | notText => "InvalidData"
  | other => "Other"

/-- A failure with its kind. -/
def Json.failure (kind : String) (more : List (String × Json)) : Json :=
  Json.ofMembers (("error", .text kind) :: more)

namespace RubyError

/-- The kind of the failure. -/
def kind : RubyError → String
  | noVersionDeclared _ => "NoVersionDeclared"
  | invalidVersionFile .. => "InvalidVersionFile"
  | installationNotFound _ => "InstallationNotFound"
  | unknownVersionManager _ => "UnknownVersionManager"
  | rubyNotOnPath => "RubyNotOnPath"
  | unsupportedRuby _ => "UnsupportedRuby"
  | activationFailed .. => "ActivationFailed"
  | bundleGemfileMissing _ => "BundleGemfileMissing"
  | runtimeRequired _ => "RuntimeRequired"
  | io .. => "Io"

/-- Whether a reason is the wording of a document reader, which tells a line and a column. -/
def isReaderWording (reason : ActivationFailure) : Bool :=
  match reason with
  | .malformedDocument => true
  | other => Text.occurs " at line " other.message && Text.occurs " column " other.message

/-- What is reported besides the kind. -/
def details (e : RubyError) : List (String × Json) :=
  match e with
  | io path error => [("path", .text path.text), ("kind", .text error.kind)]
  | activationFailed _ reason =>
    if isReaderWording reason then [] else [("message", .text e.message)]
  | other => [("message", .text other.message)]

/-- The report of the failure. -/
def toJson (e : RubyError) : Json := Json.failure e.kind e.details

/-- The report of the failure that also says whether no Ruby was found. -/
def discoveryReport (e : RubyError) : Json :=
  Json.failure e.kind (("discovery_failure", .bool e.isDiscoveryFailure) :: e.details)

end RubyError

/-- The report of an activation. -/
def Activation.toJson (a : Activation) : Json :=
  Json.ofMembers [("default_gems", .text a.defaultGems.text), ("gems", .text a.gems.text),
    ("version", .text a.version), ("yjit", Json.ofText? a.yjit)]

/-- What is reported about an environment. -/
def RuntimeEnvironment.report (e : RuntimeEnvironment) : List (String × Json) :=
  [("vars", Json.ofDict e.bindings), ("ruby_version", .text e.rubyVersion),
    ("ruby_bin", .text e.rubyBin.text), ("gem_home", .text e.gemHome.text),
    ("yjit", .bool e.yjitSupported), ("path_entries", Json.ofTexts e.pathEntries)]

/-- The report of an environment. -/
def RuntimeEnvironment.toJson (e : RuntimeEnvironment) : Json := Json.ofMembers e.report

/-! ## Servers -/

/-- The kind of a failure to move bytes. -/
def StreamError.kind : StreamError → String
  | file error => error.kind
  | endOfStream => "UnexpectedEof"
  | notText => "InvalidData"
  | brokenPipe => "BrokenPipe"
  | reported _ => "Other"

/-- The report of a failure. -/
def ServerError.toJson (e : ServerError) : Json :=
  let said (kind : String) : Json := Json.failure kind [("message", .text e.message)]
  match e with
  | serviceStopped => said "ServiceStopped"
  | undecodable => Json.failure "Deserialize" []
  | response r =>
    Json.failure "Response" [("message", .text e.message), ("code", .int r.code),
      ("data", r.data.getD .null)]
  | requestTimeout _ => said "RequestTimeout"
  | protocol _ => said "Protocol"
  | io error => Json.failure "Io" [("kind", .text error.kind)]
  | spawnFailed .. => said "ServerSpawn"
  | notRunning => said "NotRunning"
  | commandFailed .. => said "CommandFailed"
  | timedOut .. => said "TimedOut"
  | noDebuggee => said "NoDebuggee"
  | debugCancelled => said "DebugCancelled"
  | debuggeeExited _ => said "DebuggeeExited"
  | noDebugSocket => said "NoDebugSocket"
  | environment error => error.toJson

/-- The report of an outcome. -/
def ServerError.outcome {α : Type} (encode : α → Json) : Except ServerError α → Json
  | .ok a => encode a
  | .error e => e.toJson

/-- What is reported about a message. -/
def Message.report : Message → List (String × Json)
  | request r =>
    [("kind", .text "request"), ("id", r.id.toJson), ("method", .text r.method),
      ("params", r.params)]
  | notification n =>
    [("kind", .text "notification"), ("method", .text n.method), ("params", n.params)]
  | response r =>
    [("kind", .text "response"), ("id", r.id.toJson), ("result", r.result.getD .null),
      ("error", Json.ofOption ResponseError.toJson r.error)]

/-- The name of a status. -/
def TransportStatus.name : TransportStatus → String
  | starting => "starting"
  | running => "running"
  | stopped => "stopped"
  | crashed => "crashed"

/-- The report of an event. -/
def TransportEvent.toJson : TransportEvent → Json
  | status server s =>
    Json.ofMembers [("server", .text server.shown), ("status", .text s.name)]
  | message server m =>
    Json.ofMembers [("server", .text server.shown), ("message", Json.ofMembers m.report)]

/-! ## Sessions -/

/-- The launch options that a value describes. -/
def LaunchOptions.ofJson (j : Json) : LaunchOptions :=
  ⟨j.boolAt "custom_bundle", j.textAt? "branch", j.boolAt "debug"⟩

namespace SessionOptions

/-- The options after a change that a value describes. -/
def changedBy (o : SessionOptions) (change : Json) : SessionOptions :=
  match change with
  | .object [("bundle_gemfile", gemfile)] => o.withBundleGemfile (gemfile.text?.map Path.mk)
  | .object [("launch", launch)] => o.withLaunch (LaunchOptions.ofJson launch)
  | .object [("initialization", i)] =>
    o.withInitialization ⟨i.textsAt "enabled_features", i.boolAt "experimental_features_enabled",
      i.textAt "formatter"⟩
  | .object [("request_timeout_ms", n)] => o.withRequestTimeout (.milliseconds (n.nat?.getD 0))
  | _ => o

/-- The report of the options. -/
def toJson (o : SessionOptions) : Json :=
  Json.ofMembers [("root", .text o.root.text), ("folder", .text o.folderName),
    ("program", .text o.launch.program), ("args", Json.ofTexts o.launch.arguments),
    ("custom_bundle", .bool o.launch.customBundle), ("branch", Json.ofText? o.launch.branch),
    ("debug", .bool o.launch.debug), ("initialization", o.initialization.toJson),
    ("bundle_gemfile", Json.ofText? (o.bundleGemfile.map Path.text)),
    ("request_timeout_secs", Json.ofNat o.requestTimeout.wholeSeconds)]

end SessionOptions

/-- The live process of a session, as it is shown. -/
def Session.shownServer (s : Session) : Json := Json.ofText? (s.current.map ServerId.shown)

/-- What is reported about a session. -/
def Session.report (s : Session) : List (String × Json) :=
  [("state", .text s.state.shown), ("server", s.shownServer),
    ("formatter", Json.ofText? (s.formatter.map Formatter.name)),
    ("server_version", Json.ofText? s.serverVersion)]

end RubySupervisor
