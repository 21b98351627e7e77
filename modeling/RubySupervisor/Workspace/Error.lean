import RubySupervisor.Server.Error
import RubySupervisor.Settings.Layer
import RubySupervisor.Workspace.Action

/-!
# Failures of a workspace

What can go wrong between finding Ruby and talking to its server. The causes below keep their own
wording.
-/

namespace RubySupervisor

/-- Why an operation on a workspace failed. -/
inductive WorkspaceError where
  | ruby (error : RubyError)
  | server (error : ServerError)
  /-- The server cannot create its directory. -/
  | notWritable (root : Path)
  /-- The server gem could not be set up. -/
  | install (error : ServerError)
  /-- A settings file cannot be used. -/
  | settings (fault : SettingsFault)
  | unknownAction (id : String)
  /-- The action needs the editor. -/
  | requiresHost (action : Action)
  /-- The action needs the arguments of its code lens. -/
  | missingArguments (action : Action)
  deriving DecidableEq

/-- The wording of the failure. -/
def WorkspaceError.message : WorkspaceError → String
  | ruby error => error.message
  | server error => error.message
  | notWritable root =>
    "directory " ++ root.text
      ++ " is not writable; the server needs to create a .ruby-lsp directory in it"
  | install error => "failed to set up the server gem: " ++ error.message
  | settings fault => fault.message
  | unknownAction id => "unknown command " ++ Text.quoted id
  | requiresHost action => "command " ++ action.id ++ " must be handled by the host"
  | missingArguments action =>
    "command " ++ action.id ++ " needs the arguments of its code lens"

end RubySupervisor
