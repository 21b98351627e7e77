import RubySupervisor.Server.Message
import RubySupervisor.Session.Capabilities
import RubySupervisor.Session.Probe
import RubySupervisor.Telemetry.Meter

/-!
# Sessions

A session supervises one server process at a time. It starts a process and introduces itself,
passes requests and notifications on while the process lives, and stops it with a shutdown request
and an exit notification. Every process has a generation of its own, so what an older process still
says can be told apart and is ignored.
-/

namespace RubySupervisor

/-- The state of a server as observers see it. -/
inductive LifecycleState where
  /-- The process is started, the handshake is under way. -/
  | starting
  /-- The handshake is complete. -/
  | running
  /-- There is no server: the first and the last state. -/
  | stopped
  /-- The server could not be started, or ended by itself. -/
  | error
  deriving DecidableEq, Repr, Inhabited

/-- The state as it is shown. -/
def LifecycleState.shown : LifecycleState → String
  | starting => "Starting"
  | running => "Running"
  | stopped => "Stopped"
  | error => "Error"

/-- What a session is created with and keeps. -/
structure SessionContext where
  options : SessionOptions
  environment : RuntimeEnvironment
  /-- The transport that serves this session alone. -/
  transport : Nat
  /-- The process in which the session runs. -/
  processId : Nat
  /-- How messages are measured, if they are. -/
  measuring : Option MeasuringContext

/-- What changes in the life of a session. -/
structure Session where
  /-- The state that observers see. -/
  state : LifecycleState
  /-- The live process. -/
  current : Option ServerId
  /-- The last process that was started. -/
  last : ServerId
  /-- The number of the next request, within 32 bits. -/
  nextRequest : Int
  /-- The meter, which also holds the version of the server. -/
  meter : Meter
  /-- The formatter in use, once it is known. -/
  formatter : Option Formatter
  deriving DecidableEq, Repr

namespace Session

/-- A session that has not started anything, under a state that observers already see. -/
def fresh (state : LifecycleState) : Session :=
  { state, current := none, last := ⟨0, 0⟩, nextRequest := 1, meter := .fresh, formatter := none }

/-- The version of the server, once it is known. -/
def serverVersion (s : Session) : Option String := s.meter.version

/-- The number after a request number, going round within 32 bits. -/
def following (n : Int) : Int := if n = 2147483647 then -2147483648 else n + 1

/-- The meter as a part of the session. -/
def meterPart : Part Session Meter := ⟨(·.meter), fun s m => { s with meter := m }⟩

/-- Sets the state that observers see. -/
def setState (state : LifecycleState) : Task Session Unit :=
  Task.change (fun s => { s with state })

/-- Takes the number of the next request. -/
def takeRequestId : Task Session RequestId := do
  let s : Session ← Task.get
  Task.put { s with nextRequest := following s.nextRequest }
  return .number s.nextRequest

/-- Sends a request through the meter, if there is one. -/
def send (c : SessionContext) (server : ServerId) (r : Request) (timeout : Option Span) :
    Task Session (Except ServerError Response) :=
  match c.measuring with
  | none => Task.ask (.request c.transport server r timeout)
  | some measuring => (Meter.request measuring c.transport server r timeout).within meterPart

/-- Sends a notification through the meter, if there is one. -/
def sendNotification (c : SessionContext) (server : ServerId) (n : Notification) :
    Task Session (Except ServerError Unit) :=
  match c.measuring with
  | none => Task.ask (.notify c.transport server n)
  | some measuring => (Meter.notify measuring c.transport server n).within meterPart

/-- Sends a request to a process and takes the result out of the response. -/
def requestOn (c : SessionContext) (server : ServerId) (method : String) (params : Json) :
    Task Session (Except ServerError Json) := do
  let id ← takeRequestId
  match ← send c server ⟨id, method, params⟩ (some c.options.requestTimeout) with
  | .error error => return .error error
  | .ok response =>
    match response.outcome with
    | .error error => return .error (.response error)
    | .ok value => return .ok value

/-- Sends a request to the live process. -/
def request (c : SessionContext) (method : String) (params : Json) :
    Task Session (Except ServerError Json) := do
  let s : Session ← Task.get
  match s.current with
  | none => return .error .notRunning
  | some server => requestOn c server method params

/-- Sends a request to the live process and decodes the result. -/
def requestAs {α : Type} (c : SessionContext) (method : String) (params : Json)
    (decode : Json → Option α) : Task Session (Except ServerError α) := do
  match ← request c method params with
  | .error error => return .error error
  | .ok value =>
    match decode value with
    | some a => return .ok a
    | none => return .error .undecodable

/-- Sends a notification to the live process. -/
def notify (c : SessionContext) (method : String) (params : Json) :
    Task Session (Except ServerError Unit) := do
  let s : Session ← Task.get
  match s.current with
  | none => return .error .notRunning
  | some server => sendNotification c server ⟨method, params⟩

/-- The name and version under which the session introduces itself. -/
def clientInfo : Json := .object [("name", .text "garnet"), ("version", .text "0.10.0")]

/-- The parameters of the initialization for a workspace folder. -/
def initializeParams (c : SessionContext) (rootUri : String) : Json :=
  .object [
    ("capabilities", Capabilities.announced),
    ("clientInfo", clientInfo),
    ("initializationOptions", c.options.initialization.toJson),
    ("processId", .int c.processId),
    ("rootUri", .null),
    ("workspaceFolders", .array [
      .object [("name", .text c.options.folderName), ("uri", .text rootUri)]])]

/-- Introduces the session to a new process. -/
def handshake (c : SessionContext) (server : ServerId) :
    Task Session (Except ServerError Unit) := do
  match FileUri.ofPath? c.options.root with
  | none => return .error (.protocol (.invalidRoot c.options.root))
  | some rootUri =>
    match ← requestOn c server "initialize" (initializeParams c rootUri) with
    | .error error => return .error error
    | .ok answer =>
      match Capabilities.accept? answer with
      | none => return .error .undecodable
      | some () => sendNotification c server ⟨"initialized", .object []⟩

/-- What a process is started with. -/
def launchOf (c : SessionContext) (id : ServerId) : ServerLaunch :=
  { id
    command := c.options.launch.program
    arguments := c.options.launch.arguments
    environment := c.environment.bindings
    directory := c.options.root
    timeoutSeconds := c.options.requestTimeout.wholeSeconds }

/-- Starts a process and introduces the session to it. -/
def startProcess (c : SessionContext) (id : ServerId) : Task Session (Except ServerError Unit) := do
  let started : Except ServerError ServerId ← Task.ask (.startServer c.transport (launchOf c id))
  match started with
  | .error error => return .error error
  | .ok server => handshake c server

/-- Starts the next process unless one is running. A process that could not be started or
initialized is stopped again. -/
def start (c : SessionContext) : Task Session (Except ServerError Unit) := do
  let s : Session ← Task.get
  if s.state = .running then return .ok ()
  let id := s.last.next
  Task.put { s with last := id, current := some id, state := .starting }
  match ← startProcess c id with
  | .ok () =>
    setState .running
    return .ok ()
  | .error error =>
    Task.change (fun s => { s with current := none })
    let _ : Except ServerError Unit ← Task.ask (.stopServer c.transport id)
    setState .error
    return .error error

/-- How long a server may take to answer the shutdown request. -/
def shutdownTimeout : Span := .seconds 5

/-- Stops the live process, if there is one. That it does not answer makes no difference. -/
def stop (c : SessionContext) : Task Session (Except ServerError Unit) := do
  let s : Session ← Task.get
  match s.current with
  | none =>
    setState .stopped
    return .ok ()
  | some id =>
    Task.put { s with current := none }
    let requestId ← takeRequestId
    let _ ← send c id ⟨requestId, "shutdown", .null⟩ (some shutdownTimeout)
    let _ ← sendNotification c id ⟨"exit", .null⟩
    let stopped : Except ServerError Unit ← Task.ask (.stopServer c.transport id)
    setState .stopped
    return stopped

/-- Whether a rebase is in progress in a folder. -/
def rebaseInProgress (files : FileTree) (root : Path) : Bool :=
  let git := root.join ".git"
  files.isDirectory git
    && (files.pathExists (git.join "rebase-merge") || files.pathExists (git.join "rebase-apply"))

/-- Replaces the live process by a new one. Whether there is one to stop, the shown state tells. -/
def replace (c : SessionContext) : Task Session Unit := do
  let s : Session ← Task.get
  if s.state = .running then
    match ← stop c with
    | .ok () => let _ ← start c
    | .error _ => return ()
  else
    let _ ← start c

/-- Replaces the live process by a new one; nothing happens during a rebase, when the lock files
change all the time. The outcome is for the observers of the state only. -/
def restart (c : SessionContext) : Task Session Unit := do
  let files : FileTree ← Task.ask .files
  if rebaseInProgress files c.options.root then return ()
  replace c

/-- Finds out the formatter and the version of the server, once its bundle is set up. The formatter
is recorded in any case. -/
def afterStart (c : SessionContext) : Task Session (Except ServerError Unit) := do
  let formatter ← match Formatter.ofName c.options.initialization.formatter with
    | .auto => BundleProbe.detectFormatter c.environment c.options.root
    | other => pure other
  Task.change (fun s => { s with formatter := some formatter })
  match ← BundleProbe.serverVersion c.environment c.options.root c.options.bundleGemfile with
  | .error error => return .error error
  | .ok version =>
    Task.change (fun s => { s with meter := { s.meter with version := some version } })
    return .ok ()

/-- Takes in what the transport reports. A live process that ended is released before observers
see the error; its requests are answered. Other processes and other reports do not count. -/
def observe (c : SessionContext) (event : TransportEvent) : Task Session Unit := do
  let s : Session ← Task.get
  match event with
  | .status server status =>
    if status.isFinal && s.current = some server then
      Task.put { s with current := none }
      let _ : Except ServerError Unit ← Task.ask (.stopServer c.transport server)
      setState .error
    else return ()
  | .message server (.request r) =>
    if s.current = some server then
      let answer := Reply.toRequest (Reply.workspaceFolders c.options) r
      let _ : Except ServerError Unit ← Task.ask (.reply c.transport server r.id answer)
    else return ()
  | .message _ _ => return ()

end Session

end RubySupervisor
