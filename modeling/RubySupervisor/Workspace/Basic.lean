import RubySupervisor.Explorer.Report
import RubySupervisor.Ruby.Resolution
import RubySupervisor.Session.Editing
import RubySupervisor.Settings.Layer
import RubySupervisor.Workspace.Error
import RubySupervisor.Workspace.Status

/-!
# Workspaces

A workspace is a folder with its settings, its Ruby, its server and its tests. At most one client is
installed at a time; its session works on the lifecycle state that the whole workspace shows, so
the state of an older client lives on until something changes it.
-/

namespace RubySupervisor

/-- What a workspace is created with and keeps. -/
structure WorkspaceContext where
  root : Path
  /-- The environment on which that of Ruby is built. -/
  base : Dict String
  /-- Installation roots that replace those of the version manager. -/
  roots : Option (List Path)
  /-- The settings file below that of the workspace. -/
  globalSettings : Option Path
  /-- The process in which the workspace lives. -/
  processId : Nat

/-- The outcome of the last activation of Ruby. -/
inductive RubyStatus where
  | unknown
  | active (environment : RuntimeEnvironment)
  | failed (error : RubyError)

namespace RubyStatus

/-- The active environment. -/
def environment? : RubyStatus → Option RuntimeEnvironment
  | active environment => some environment
  | _ => none

/-- Why there is none, if the last activation failed. -/
def error? : RubyStatus → Option RubyError
  | failed error => some error
  | _ => none

end RubyStatus

/-- A session together with what it was created with. -/
structure Client where
  context : SessionContext
  session : Session

/-- What changes in the life of a workspace. -/
structure Workspace where
  settings : Settings
  store : Store
  /-- The lifecycle state that observers see. -/
  state : LifecycleState
  ruby : RubyStatus
  /-- The installed client. -/
  client : Option Client
  /-- The number of transports created so far. -/
  transports : Nat
  /-- The extensions that the server reported last. -/
  extensions : List Extension
  /-- The tests of the document that was shown last. -/
  tests : List TestNode

/-- The name of a workspace: that of its folder. -/
def WorkspaceContext.name (c : WorkspaceContext) : String := c.root.fileName?.getD "workspace"

namespace Workspace

/-- A workspace in which nothing has happened yet. -/
def fresh (settings : Settings) (store : Store) : Workspace :=
  { settings, store, state := .stopped, ruby := .unknown, client := none, transports := 0,
    extensions := [], tests := [] }

/-- The store as a part of the workspace. -/
def storePart : Part Workspace Store := ⟨(·.store), fun w store => { w with store }⟩

/-- The extensions as a part of the workspace. -/
def extensionPart : Part Workspace ExtensionSet :=
  ⟨fun w => ⟨w.store, w.extensions⟩,
    fun w x => { w with store := x.store, extensions := x.list }⟩

/-- The session of the installed client under the state that observers see. -/
def session (w : Workspace) : Session :=
  match w.client with
  | some client => { client.session with state := w.state }
  | none => .fresh w.state

/-- The workspace after a change of the session. -/
def withSession (w : Workspace) (s : Session) : Workspace :=
  { w with state := s.state, client := w.client.map (fun client => { client with session := s }) }

/-- The session of the installed client as a part of the workspace. -/
def sessionPart : Part Workspace Session := ⟨session, withSession⟩

/-- Does something with the session of the installed client, if there is one. -/
def withClient {α : Type} (absent : α) (present : SessionContext → Task Session α) :
    Task Workspace α := do
  let w : Workspace ← Task.get
  match w.client with
  | none => return absent
  | some client => (present client.context).within sessionPart

/-- Sets the state that observers see. -/
def setState (state : LifecycleState) : Task Workspace Unit :=
  Task.change (fun w => { w with state })

/-- The facts from which status items are made. -/
def statusView (w : Workspace) : StatusView :=
  { state := w.state
    rubyVersion := w.ruby.environment?.map (·.rubyVersion)
    versionManager := w.settings.versionManager
    activationError := w.ruby.error?.map RubyError.message
    yjitSupported := w.ruby.environment?.any (·.yjitSupported)
    formatter := w.client.bind (·.session.formatter)
    serverVersion := w.client.bind (·.session.serverVersion)
    settings := w.settings
    extensions := w.extensions }

/-- Takes in what a transport reports; only that of the installed client is listened to. -/
def observe (transport : Nat) (event : TransportEvent) : Task Workspace Unit :=
  withClient () (fun c => if c.transport = transport then Session.observe c event else pure ())

end Workspace

end RubySupervisor
