import RubySupervisor.State.Store
import RubySupervisor.Workspace.Error

/-!
# The server gem

The server comes as a gem. Where it is missing it is installed; where it is present it is updated,
at most once in a day. The time of the last installation or update is kept in the store. A failed
installation is a failure; after a failed update the present gem stays in use.
-/

namespace RubySupervisor

/-- What became of the server gem. -/
inductive GemOutcome where
  | installed
  | updated
  /-- The last update was recent. -/
  | upToDate
  | updateFailed
  deriving DecidableEq, Repr

namespace ServerGem

/-- The name of the gem. -/
def gemName : String := "ruby-lsp"

/-- The milliseconds between two automatic updates. -/
def updateInterval : Nat := 86400000

/-- The milliseconds since the epoch, in 64 bits; a time before it counts as the epoch. -/
def sinceEpoch (now : Int) : Nat := now.toNat % Nat.pow 2 64

/-- A command of the gem tool about the server gem. -/
def gemCommand (environment : Dict String) (directory : Path) (verb : String) : Command :=
  { program := "gem", arguments := [verb, gemName], directory, environment, timeout := none }

/-- Runs a command of the gem tool that must succeed. -/
def gem {σ : Type} (environment : Dict String) (directory : Path) (verb : String) :
    Task σ (Except ServerError CommandOutput) := do
  let command := gemCommand environment directory verb
  let answer : Except ServerError CommandOutput ← Task.ask (.run command)
  return command.checked answer

/-- Whether the output of the listing shows the gem. -/
def isListed (o : CommandOutput) : Bool :=
  Text.occurs gemName o.output || Text.occurs gemName o.errors

/-- Whether an update is due: there was none, or the last one is more than the interval ago. -/
def updateDue (s : Store) (now : Nat) : Bool :=
  match (s.get? Store.lastGemUpdateKey).bind Json.nat? with
  | some last => decide (updateInterval < now - last)
  | none => true

/-- Records the time of an installation or update. That it cannot be written makes no
difference. -/
def recordUpdate (now : Nat) : Task Store Unit := do
  let _ ← Store.update Store.lastGemUpdateKey (.int now)

/-- Updates the gem. -/
def update (environment : Dict String) (directory : Path) (now : Nat) : Task Store GemOutcome := do
  match ← gem environment directory "update" with
  | .ok _ =>
    recordUpdate now
    return .updated
  | .error error =>
    let _ : Unit ← Task.ask (.telemetry (.backgroundFailure "gem update ruby-lsp" error.message))
    return .updateFailed

/-- Installs the gem where it is missing, or updates it where an update is due. -/
def installOrUpdate (environment : Dict String) (directory : Path) (now : Nat) :
    Task Store (Except WorkspaceError GemOutcome) := do
  match ← gem environment directory "list" with
  | .error error => return .error (.install error)
  | .ok output =>
    if isListed output then
      let s : Store ← Task.get
      if updateDue s now then return .ok (← update environment directory now)
      else return .ok .upToDate
    else
      match ← gem environment directory "install" with
      | .error error => return .error (.install error)
      | .ok _ =>
        recordUpdate now
        return .ok .installed

end ServerGem

end RubySupervisor
