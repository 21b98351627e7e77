import RubySupervisor.Dict
import RubySupervisor.Files.Path
import RubySupervisor.Text.Digit

/-!
# Server processes

A server process is named by a slot and a generation that grows with every start, so that what an
older process says can be told from what the live one says.
-/

namespace RubySupervisor

/-- The name of one server process. -/
structure ServerId where
  slot : Nat
  generation : Nat
  deriving DecidableEq, Repr, Inhabited

namespace ServerId

/-- The name of the next process in the same slot. -/
def next (id : ServerId) : ServerId := { id with generation := id.generation + 1 }

/-- The name as it is shown. -/
def shown (id : ServerId) : String :=
  "LSP#" ++ Text.natText id.slot ++ "." ++ Text.natText id.generation

end ServerId

/-- What a server process is started with. -/
structure ServerLaunch where
  id : ServerId
  command : String
  arguments : List String
  environment : Dict String
  directory : Path
  timeoutSeconds : Nat
  deriving DecidableEq, Repr

/-- What a transport says about a process. -/
inductive TransportStatus where
  | starting
  | running
  | stopped
  | crashed
  deriving DecidableEq, Repr

/-- Whether the process is gone. -/
def TransportStatus.isFinal : TransportStatus → Bool
  | stopped => true
  | crashed => true
  | _ => false

end RubySupervisor
