import RubySupervisor.Host.Execution
import RubySupervisor.Host.Task
import RubySupervisor.Text.Scan
import RubySupervisor.Transport.Local
import RubySupervisor.Workspace.Watch

/-!
# Machines

A machine is a host in which everything really happens: programs are run on its files, every
transport keeps servers as child processes, and the user answers questions on the standard input.
There is no editor and no telemetry sink. Time passes where somebody waits for an answer, and
meanwhile an observer takes in what the transports report, and an errand is run when the files call
for it. Tasks that take their turn and the errand wait for one another.
-/

namespace RubySupervisor

/-- What a machine holds. -/
structure Machine where
  files : FileTree
  /-- The transports in use, by their numbers. -/
  transports : List (Nat × LocalTransport)
  /-- The milliseconds since the epoch. -/
  now : Int
  /-- The lines that the user has typed and nobody has read. -/
  input : List String
  /-- What was written to the output. -/
  output : Shell.Bytes
  /-- What was written for the user besides the output proper. -/
  errors : String
  /-- The nanoseconds that have passed. -/
  clock : Nat

namespace Machine

/-- A machine with files at a moment, in front of a user who types lines. -/
def ofFiles (files : FileTree) (now : Int) (input : List String) : Machine :=
  { files, transports := [], now, input, output := [], errors := "", clock := 0 }

/-- The machine after a change of the files, if that is possible. -/
def changeFiles (m : Machine) (changed : Except FileError FileTree) :
    Except FileError Unit × Machine :=
  match changed with
  | .ok files => (.ok (), { m with files })
  | .error error => (.error error, m)

/-- A transport by its number. -/
def transport (m : Machine) (number : Nat) : LocalTransport :=
  (m.transports.lookup number).getD { LocalTransport.empty with clock := m.clock }

/-- Replaces a transport. What its processes did besides is taken over. -/
def withTransport (m : Machine) (number : Nat) (t : LocalTransport) : Machine :=
  { m with
    files := m.files.amend t.changes
    output := m.output ++ t.printed
    transports := m.transports.filter (fun entry => entry.1 ≠ number) ++
      [(number, { t with changes := [], printed := [] })] }

/-- Does something with a transport. -/
def onTransport {α : Type} (m : Machine) (number : Nat)
    (act : LocalTransport → α × LocalTransport) : α × Machine :=
  let (a, t) := act (m.transport number)
  (a, m.withTransport number t)

/-- A number in at least three columns. -/
def numbered (n : Nat) : String :=
  let digits := Text.natText n
  String.ofList (List.replicate (3 - digits.length) ' ') ++ digits

/-- The choice that a typed line makes; choices are counted from one. -/
def chosen (sockets : List String) (line : String) : Option String :=
  match Text.unsigned? (Nat.pow 2 64) (Text.trimChars line.toList) with
  | some (n + 1) => sockets[n]?
  | _ => none

/-- Lets the user choose one of several sockets. -/
def choose (m : Machine) (sockets : List String) : Option String × Machine :=
  let listing := sockets.zipIdx.map (fun entry =>
    numbered (entry.2 + 1) ++ "  " ++ entry.1 ++ "\n")
  let m := { m with errors := m.errors ++ String.join listing ++ "socket to attach to: " }
  match m.input with
  | [] => (none, m)
  | line :: rest => (chosen sockets line, { m with input := rest })

/-- Brings all transports to a moment. -/
def advance (moment : Nat) (m : Machine) : Machine :=
  m.transports.foldl (fun m entry => m.withTransport entry.1 { entry.2 with clock := moment }.pump)
    { m with clock := moment }

/-- The next moment at which something happens in a transport. -/
def nextMoment (m : Machine) : Option Nat :=
  (m.transports.filterMap (·.2.nextMoment)).min?

/-- The answer to a call that has been made. It is taken when it is there, or else at its limit. -/
structure Awaited (answer : Type) where
  isThere : Machine → Bool
  limit : Option Nat
  take : Machine → answer

/-- The answer is taken now. -/
def Awaited.isDue {answer : Type} (awaited : Awaited answer) (m : Machine) : Bool :=
  awaited.isThere m || awaited.limit.any (· ≤ m.clock)

/-- An answer that takes some nanoseconds. -/
def after {answer : Type} (elapsed : Nat) (a : answer) (m : Machine) : Awaited answer × Machine :=
  ({ isThere := fun _ => false, limit := some (m.clock + elapsed), take := fun _ => a }, m)

/-- The answer of a program that was run. -/
def afterRun {answer : Type} (result : answer × Execution.Effect) (m : Machine) :
    Awaited answer × Machine :=
  let (a, effect) := result
  after effect.elapsed a { m with files := effect.files, output := m.output ++ effect.above }

/-- An answer that is there at once. -/
def atOnce {answer : Type} (result : answer × Machine) : Awaited answer × Machine :=
  after 0 result.1 result.2

/-- Makes a call. -/
def undertake : (c : Call) → Machine → Awaited c.Answer × Machine
  | .files, m => atOnce (m.files, m)
  | .makeDirectories p, m => atOnce (m.changeFiles (m.files.makeDirectories p))
  | .writeFile p s, m => atOnce (m.changeFiles (m.files.writeBytes p s.toUTF8))
  | .renameFile p q, m => atOnce (m.changeFiles (m.files.rename p q))
  | .probe rubyBin directory environment, m =>
    afterRun (Execution.activation m.files rubyBin directory environment) m
  | .chooseInstallation _, m => atOnce (none, m)
  | .chooseSocket sockets, m => atOnce (m.choose sockets)
  | .run c, m => afterRun (Execution.command m.files c) m
  | .launchDebuggee c, m =>
    let (answer, files) := Execution.debuggee m.files c
    atOnce (answer, { m with files })
  | .startServer number launch, m => atOnce (m.onTransport number (·.start m.files launch))
  | .request number server r timeout, m =>
    let (ticket, m) := m.onTransport number (·.submit server r timeout)
    ({ isThere := fun m => (m.transport number).isSettled ticket
       limit := (m.transport number).tickets[ticket]?.map Ticket.limit
       take := fun m => (m.transport number).outcome ticket }, m)
  | .notify number server n, m => atOnce (m.onTransport number (·.notify server n))
  | .reply number server id answer, m =>
    atOnce (m.onTransport number (·.reply server id answer))
  | .stopServer number server, m =>
    let ((), m) := m.onTransport number fun t => ((), t.dismiss server)
    ({ isThere := fun m => (m.transport number).isGone server
       limit := none
       take := fun _ => .ok () }, m)
  | .now, m => atOnce (m.now + m.clock / 1000000, m)
  | .stopwatch, m => atOnce (m.clock, m)
  | .telemetry _, m => atOnce ((), m)
  | .popup _, m => atOnce ((), m)
  | .applyEdits .., m => atOnce (true, m)
  | .insertSnippet .., m => atOnce ((), m)

/-- Takes an event that a transport has reported, with the number of the transport. -/
def takeEvent (m : Machine) : Option (Nat × TransportEvent × Machine) :=
  match m.transports.find? (fun entry => !entry.2.events.isEmpty) with
  | none => none
  | some (number, t) =>
    match t.events with
    | [] => none
    | event :: rest => some (number, event, m.withTransport number { t with events := rest })

/-- A task that waits for an answer. -/
structure Suspended (σ : Type) where
  call : Call
  awaited : Awaited call.Answer
  next : call.Answer → Task σ Unit

/-- A state on a machine, beside the observation and the errand that wait, if they do. -/
structure Scene (σ : Type) where
  state : σ
  machine : Machine
  observation : Option (Suspended σ) := none
  errand : Option (Suspended σ) := none
  /-- Who looks out for what calls for the errand, if anybody does. -/
  lookout : Option Lookout := none
  /-- The task that is running has taken its turn. -/
  isTaken : Bool := false

/-- What is done beside the tasks that are run. -/
structure Attendance (σ : Type) where
  /-- What becomes of a report of a transport. -/
  observe : Nat → TransportEvent → Task σ Unit
  /-- What is done when the files call for it. -/
  errand : Task σ Unit

variable {σ α : Type}

/-- A task goes on until it has to wait, or to its end. -/
def proceed : Task σ Unit → σ → Machine → σ × Machine × Option (Suspended σ)
  | .done (), s, m => (s, m, none)
  | .read next, s, m => proceed (next s) s m
  | .write s next, _, m => proceed next s m
  | .call c next, s, m =>
    let (awaited, m) := m.undertake c
    if awaited.isDue m then proceed (next (awaited.take m)) s m
    else (s, m, some ⟨c, awaited, next⟩)

/-- A suspended task goes on if its answer is there. -/
def Suspended.resume? (w : Suspended σ) (x : Scene σ) :
    Option (σ × Machine × Option (Suspended σ)) :=
  if w.awaited.isDue x.machine then
    some (proceed (w.next (w.awaited.take x.machine)) x.state x.machine)
  else none

namespace Scene

/-- The observation goes on, or takes in the next report, unless it has to wait. -/
def observing? (a : Attendance σ) (x : Scene σ) : Option (Scene σ) :=
  let went : Option (σ × Machine × Option (Suspended σ)) := match x.observation with
    | some w => w.resume? x
    | none => x.machine.takeEvent.map fun (number, event, m) =>
      proceed (a.observe number event) x.state m
  went.map fun (state, machine, observation) => { x with state, machine, observation }

/-- The errand goes on, or begins when it is called for and its turn has come, unless it has to
wait. -/
def running? (a : Attendance σ) (x : Scene σ) : Option (Scene σ) :=
  let went : Option (σ × Machine × Option (Suspended σ)) := match x.errand with
    | some w => w.resume? x
    | none =>
      if x.lookout.any (·.isAlarmed) && !x.isTaken then some (proceed a.errand x.state x.machine)
      else none
  let lookout := if x.errand.isNone then x.lookout.map ({ · with isAlarmed := false })
    else x.lookout
  went.map fun (state, machine, errand) => { x with state, machine, errand, lookout }

/-- The scene after a look at the files. -/
def looking (x : Scene σ) : Scene σ := { x with lookout := x.lookout.map (·.look x.machine.files) }

/-- Lets the observation and the errand go on as long as they do not have to wait; `fuel` bounds the
number of reports and answers. -/
def settle (a : Attendance σ) : (fuel : Nat) → Scene σ → Scene σ
  | 0, x => x
  | fuel + 1, x =>
    let x := x.looking
    match x.observing? a <|> x.running? a with
    | some x => settle a fuel x
    | none => x

/-- The number of reports and answers that are taken in at a time, at most. -/
def eventLimit : Nat := 1000

/-- The next moment at which something happens, with the time that somebody has. -/
def nextMoment (limit : Option Nat) (x : Scene σ) : Option Nat :=
  let limits := [limit, x.observation.bind (·.awaited.limit), x.errand.bind (·.awaited.limit)]
  (x.machine.nextMoment.toList ++ limits.filterMap id).min?

/-- Lets time pass until something is the case; `fuel` bounds the number of moments at which
something happens. The one who waits goes on before the others do. -/
def attend (a : Attendance σ) (isDue : Scene σ → Bool) (limit : Option Nat) :
    (fuel : Nat) → Scene σ → Scene σ
  | 0, x => x
  | fuel + 1, x =>
    if isDue x then x
    else
      let x := x.settle a eventLimit
      if isDue x then x
      else
        match x.nextMoment limit with
        | none => x
        | some moment =>
          attend a isDue limit fuel { x with machine := x.machine.advance moment }

end Scene

/-- Runs a task, with the others beside it. -/
def runBeside (a : Attendance σ) : Task σ α → Scene σ → α × Scene σ
  | .done result, x => (result, x)
  | .read next, x => runBeside a (next x.state) x
  | .write s next, x => runBeside a next { x with state := s }
  | .call c next, x =>
    let (awaited, m) := x.machine.undertake c
    let x := { x with machine := m }.attend a (fun x => awaited.isDue x.machine) awaited.limit
      LocalTransport.patience
    runBeside a (next (awaited.take x.machine)) x

/-- Runs a task, and lets the others go on at its end. A task that takes its turn waits for the
errand first. -/
def perform (a : Attendance σ) (takesTurn : Bool) (t : Task σ α) (x : Scene σ) : α × Scene σ :=
  let x := if takesTurn then
      { x with isTaken := true }.attend a (·.errand.isNone) none LocalTransport.patience
    else x
  let (result, x) := runBeside a t x
  (result, { x with isTaken := false }.settle a Scene.eventLimit)

end Machine

end RubySupervisor
