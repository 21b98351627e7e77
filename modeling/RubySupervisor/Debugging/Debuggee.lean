import RubySupervisor.Host.Task
import RubySupervisor.Ruby.Environment
import RubySupervisor.Server.Error
import RubySupervisor.Text.Scan

/-!
# Debuggees

A debuggee is launched under the debugger and listened to until it announces its socket, or the
sockets of running debuggees are listed and one of them is chosen. A debuggee that is ready for a
debugger says so, and names the socket that it listens on; nothing is concluded before it says that
it waits. What a launch comes to is a function of the lines that the debuggee prints, of its end,
and of the moment at which the end is noticed.
-/

namespace RubySupervisor.Announcement

/-- What a debuggee prints once it waits for a connection. -/
def waitMark : String := "DEBUGGER: wait for debugger connection..."

/-- What a debuggee prints before the name of its socket. -/
def socketMark : String := "DEBUGGER: Debugger can attach via UNIX domain socket ("

/-- The name of a socket after its mark: up to the last closing parenthesis of the line. -/
def socketAfterMark? (rest : List Char) : Option (List Char) :=
  (Text.cutLast? [')'] (rest.takeWhile (· != '\n'))).map Prod.fst

/-- The socket that an output names first. -/
def socket? (output : String) : Option Path :=
  (Text.firstMatch? (fun s => (Text.literal? socketMark.toList s).bind socketAfterMark?)
    output.toList).map (fun name => ⟨String.ofList name⟩)

/-- What an output so far tells about the socket; nothing before the debuggee waits. -/
def conclude? (output : String) : Option (Except ServerError Path) :=
  if Text.occurs waitMark output then
    match socket? output with
    | some socket => some (.ok socket)
    | none => some (.error .noDebugSocket)
  else none

end RubySupervisor.Announcement

namespace RubySupervisor.Debuggee

variable {σ : Type}

/-- The gemfile of the bundle that the server sets up in a directory. -/
def generatedGemfile (directory : Path) : Path := (directory.join ".ruby-lsp").join "Gemfile"

/-- The environment of a debuggee: the configured variables under those of Ruby, and the bundle
that the server has set up, if there is one. -/
def environment (files : FileTree) (ruby : RuntimeEnvironment) (configured : Dict String)
    (directory : Path) : Dict String :=
  let bindings := configured.insertAll ruby.bindings
  let generated := generatedGemfile directory
  if files.pathExists generated then bindings.insert "BUNDLE_GEMFILE" generated.text
  else bindings

/-- What the end of a debuggee that announced nothing means: code one is the user's choice. -/
def exitError (status : Option Int) : ServerError :=
  if status = some 1 then .debugCancelled else .debuggeeExited status

/-- The output with one more line. -/
def heardAlso (heard line : String) : String := heard ++ line ++ "\n"

/-- Everything that was heard together with the lines still to come. -/
def drain (heard : String) : List (Option String) → Except ServerError String
  | [] => .ok heard
  | none :: _ => .error (.io .notText)
  | some line :: rest => drain (heardAlso heard line) rest

/-- The outcome once the end was noticed: what the whole output tells, or else the end itself. -/
def afterEnd (exit : ExitStatus) (heard : String) (rest : List (Option String)) :
    Except ServerError Path :=
  match drain heard rest with
  | .error error => .error error
  | .ok output => (Announcement.conclude? output).getD (.error (exitError exit.code?))

/-- Listens line by line until an output tells something; `noticed` counts the lines down to the
moment at which the end is noticed. -/
def listen (exit : ExitStatus) : (noticed : Option Nat) → (heard : String) →
    List (Option String) → Except ServerError Path
  | some 0, heard, rest => afterEnd exit heard rest
  | _, _, [] => .error (exitError exit.code?)
  | _, _, none :: _ => .error (.io .notText)
  | noticed, heard, some line :: rest =>
    let heard := heardAlso heard line
    match Announcement.conclude? heard with
    | some outcome => outcome
    | none => listen exit (noticed.map (· - 1)) heard rest

/-- The outcome of a launch. -/
def outcome (r : DebuggeeRun) : Except ServerError Path := listen r.exit r.noticed "" r.lines

/-- The command that runs a program under the debugger. -/
def launchCommand (program : String) (environment : Dict String) (directory : Path) : Command :=
  { program := "bundle"
    arguments := ["exec", "rdbg", "--open", "--command", "--"] ++ Text.words program
    directory
    environment
    timeout := none }

/-- Launches a program under the debugger and waits for its socket. -/
def launch (program : String) (environment : Dict String) (directory : Path) :
    Task σ (Except ServerError Path) := do
  let answer : Except ServerError DebuggeeRun ←
    Task.ask (.launchDebuggee (launchCommand program environment directory))
  match answer with
  | .error error => return .error error
  | .ok r => return outcome r

/-- The sockets that a listing names, one a line. -/
def listedSockets (output : String) : List String :=
  ((Text.lines output).map Text.trim).filter (· ≠ "")

/-- The sockets of running debuggees; a listing that fails names none. -/
def sockets (environment : Dict String) (directory : Path) : Task σ (List String) := do
  let answer : Except ServerError CommandOutput ← Task.ask (.run {
    program := "bundle"
    arguments := ["exec", "rdbg", "--util=list-socks"]
    directory
    environment
    timeout := none })
  match answer with
  | .ok output => return if output.isSuccess then listedSockets output.output else []
  | .error _ => return []

/-- Chooses the socket of a running debuggee; the user is asked where there are several. -/
def attach (environment : Dict String) (directory : Path) :
    Task σ (Except ServerError Path) := do
  match ← sockets environment directory with
  | [] => return .error .noDebuggee
  | [only] => return .ok ⟨only⟩
  | many =>
    let chosen : Option String ← Task.ask (.chooseSocket many)
    match chosen with
    | some socket => return .ok ⟨socket⟩
    | none => return .error .debugCancelled

end RubySupervisor.Debuggee
