import RubySupervisor.Process.Child
import RubySupervisor.Transport.Channel

/-!
# Servers as child processes

A local transport runs servers as child processes and keeps a channel to each. Time passes only
where somebody waits: for an event, for an answer or for the end of a process. What a process has
written by a moment is a function of what was written to it until then, so a process is run again
whenever its channel has moved, and what is new in its output is received. A process that was asked
to end departs: it goes on for a while, and is killed if it takes too long.
-/

namespace RubySupervisor

/-- A server process with the channel to it. -/
structure Service where
  child : Child
  /-- The files as the process found them. -/
  files : FileTree
  /-- The files as the process has made them. -/
  left : FileTree
  channel : Channel
  /-- The nanoseconds during which there was no process, or it waited for input. -/
  idle : Nat
  /-- The number of bytes of its output that were received. -/
  received : Nat
  /-- What it has written to the output of the process that started it. -/
  above : List UInt8
  /-- The moment at which a busy process goes on. -/
  wakes : Option Nat
  /-- The process itself has ended. -/
  exited : Bool

namespace Service

/-- What is received from a stream that goes on later, and the number of bytes that it takes up;
`fuel` bounds the number of frames. -/
def arrivals : (fuel : Nat) → List UInt8 → List Receipt × Nat
  | 0, _ => ([], 0)
  | fuel + 1, s =>
    match Frame.arrived? s with
    | none => ([], 0)
    | some (.error error) => ([.failed error], s.length)
    | some (.ok (body, rest)) =>
      let (receipts, taken) := arrivals fuel rest
      (.body body :: receipts, taken + (s.length - rest.length))

/-- What is received from a stream that has ended. -/
def remains (s : List UInt8) : List Receipt :=
  let (bodies, failure) := Frame.readAll s
  bodies.map Receipt.body ++ [(failure.map Receipt.failed).getD .finished]

/-- What the process does up to a moment, with the input that a channel has given it. -/
def run (s : Service) (moment : Nat) (channel : Channel) : ChildRun :=
  s.child.run s.files {
    bytes := channel.written
    closed := !channel.writing
    deadline := some (moment - s.idle + 1)
    awaited := [0] }

/-- The service at a moment: all of the queue is written and all that the process has written is
received. Writing to a process that does not read any more fails. A killed process has ended. -/
def upTo (moment : Nat) (killed : Bool) (s : Service) : Service :=
  let channel := if s.channel.queue.isEmpty || (s.run moment s.channel).inputOpen
    then s.channel.flush else s.channel.run [.write (some 0)]
  let r := s.run moment channel
  let output := r.output.drop s.received
  let ended := killed || !r.outputOpen
  let (receipts, taken) :=
    if ended then (remains output, output.length) else arrivals (output.length + 1) output
  { s with
    left := r.files
    channel := channel.run (receipts.map Channel.Move.receive)
    received := s.received + taken
    above := r.above
    idle := if r.ending = .waiting && r.wakes?.isNone then moment - r.elapsed else s.idle
    wakes := (r.wakes?.map (· + s.idle)).filter (moment < ·)
    exited := killed || !r.isAlive }

/-- Nothing can be expected of the service any more. -/
def isOver (s : Service) : Bool := s.exited && s.channel.ended

end Service

/-- A service that was asked to end. -/
structure Departure where
  service : Service
  /-- The moment at which the process is killed. -/
  limit : Nat

/-- The moment at which something may happen to a departing service, unless it waits for what will
not come. -/
def Departure.next? (d : Departure) : Option Nat :=
  if d.service.exited then d.service.wakes else some (min d.limit (d.service.wakes.getD d.limit))

/-- A request that was handed to a channel. -/
structure Ticket where
  method : String
  /-- The moment after which nobody waits for the answer. -/
  limit : Nat
  /-- The answer with its moment. -/
  answer : Option (Nat × Except ServerError Response)

/-- Servers as child processes, and what is known of them. -/
structure LocalTransport where
  services : List (ServerId × Service)
  departures : List (ServerId × Departure)
  /-- The events that nobody has taken yet, in order. -/
  events : List TransportEvent
  /-- The nanoseconds that have passed. -/
  clock : Nat
  /-- The requests so far; the number of a request is its place. -/
  tickets : List Ticket
  /-- What became of files by the processes, as far as nobody has taken it over. -/
  changes : List (Location × Option Entry)
  /-- What the processes have written to the output of their parent, as far as nobody has taken it
  over. -/
  printed : List UInt8

namespace LocalTransport

/-- A transport without servers. -/
def empty : LocalTransport :=
  { services := [], departures := [], events := [], clock := 0, tickets := [], changes := [],
    printed := [] }

/-- How long a server gets to end on its own before it is killed. -/
def shutdownGrace : Nat := 2000000000

/-- How long an answer is waited for if nothing else is said. -/
def usualTimeout : Span := .seconds 30

/-- Tells observers about something. -/
def emit (event : TransportEvent) (t : LocalTransport) : LocalTransport :=
  { t with events := t.events ++ [event] }

/-- Records the answer to a request, unless there is one. -/
def answer (ticket : Nat) (result : Except ServerError Response) (t : LocalTransport) :
    LocalTransport :=
  { t with
    tickets := t.tickets.modify ticket (fun entry =>
      { entry with answer := entry.answer <|> some (t.clock, result) }) }

/-- Takes what a channel tells and what it resolved. -/
def drain (c : Channel) (t : LocalTransport) : LocalTransport × Channel :=
  let t := c.resolved.foldl (fun (t : LocalTransport) entry => t.answer entry.1 entry.2) t
  ({ t with events := t.events ++ c.events }, { c with events := [], resolved := [] })

/-- Brings a service up to the present, which may be its end. -/
def advance (killed : Bool) (s : Service) (t : LocalTransport) : Service × LocalTransport :=
  let s' := s.upTo t.clock killed
  let (t, channel) := t.drain s'.channel
  ({ s' with channel }, { t with
    changes := t.changes ++ s.left.differences s'.left
    printed := t.printed ++ s'.above.drop s.above.length })

/-- Brings a service with an open channel up to the present. -/
def refresh (id : ServerId) (t : LocalTransport) : LocalTransport :=
  match t.services.lookup id with
  | none => t
  | some s =>
    if s.channel.ended then t
    else
      let (s, t) := t.advance false s
      { t with
        services := t.services.map (fun entry => if entry.1 = id then (id, s) else entry) }

/-- Brings a departing service up to the present. -/
def depart (id : ServerId) (d : Departure) (t : LocalTransport) : LocalTransport :=
  let (service, t) := t.advance (!d.service.exited && d.limit ≤ t.clock) d.service
  if service.isOver then t
  else { t with departures := t.departures ++ [(id, { d with service })] }

/-- Brings all services up to the present. -/
def pump (t : LocalTransport) : LocalTransport :=
  let t := t.services.foldl (fun t entry => t.refresh entry.1) t
  t.departures.foldl (fun t entry => t.depart entry.1 entry.2) { t with departures := [] }

/-- The next moment at which a busy process goes on, or a departing one is killed. -/
def nextMoment (t : LocalTransport) : Option Nat :=
  let open_ := t.services.filter (fun entry => !entry.2.channel.ended)
  (open_.filterMap (·.2.wakes) ++ t.departures.filterMap (·.2.next?)).min?

/-- Lets time pass until something holds, at most to a limit; `fuel` bounds the number of moments
at which a process goes on. -/
def waitFor (done : LocalTransport → Bool) (limit : Option Nat) : (fuel : Nat) →
    LocalTransport → LocalTransport
  | 0, t => t
  | fuel + 1, t =>
    if done t then t
    else
      match t.nextMoment with
      | none => { t with clock := limit.getD t.clock }
      | some moment =>
        if limit.any (· < moment) then { t with clock := limit.getD t.clock }
        else waitFor done limit fuel { t with clock := moment }.pump

/-- The number of moments that somebody waits for at most. -/
def patience : Nat := 1000

/-- Starts a server. -/
def start (files : FileTree) (launch : ServerLaunch) (t : LocalTransport) :
    Except ServerError ServerId × LocalTransport :=
  let t := t.emit (.status launch.id .starting)
  let failed (reason : String) : Except ServerError ServerId × LocalTransport :=
    (.error (.spawnFailed launch.command reason), t)
  match files.which launch.command (launch.environment.find? "PATH") launch.directory with
  | .error failure => failed (failure.message ++ " (searched the Ruby environment's PATH)")
  | .ok program =>
    let child : Child := ⟨program, launch.arguments, launch.environment, launch.directory⟩
    match child.refusal? files with
    | some error => failed error.message
    | none =>
      let service : Service := {
        child, files
        left := files
        channel := .open_ launch.id
        idle := t.clock
        received := 0
        above := []
        wakes := none
        exited := false }
      -- a service that already has the identity gives way to the new one
      let displaced := t.services.lookup launch.id
      let others := t.services.filter (fun entry => entry.1 ≠ launch.id)
      let t := { t with services := others ++ [(launch.id, service)] }.emit
        (.status launch.id .running)
      let t := match displaced with
        | some old => if old.channel.ended then t else (t.advance true old).2
        | none => t
      (.ok launch.id, t.pump)

/-- Hands a message to a server. -/
def send (server : ServerId) (out : Outbound) (t : LocalTransport) :
    Except ServerError Unit × LocalTransport :=
  match t.services.lookup server with
  | none => (.error (.protocol (.unknownServer server.shown)), t)
  | some s =>
    if s.channel.ended then (.error .serviceStopped, t)
    else
      let s := { s with channel := s.channel.hand out }
      let services := t.services.map (fun entry =>
        if entry.1 = server then (server, s) else entry)
      (.ok (), { t with services }.pump)

/-- Hands a request to a server; the answer is that of the ticket. -/
def submit (server : ServerId) (r : Request) (timeout : Option Span) (t : LocalTransport) :
    Nat × LocalTransport :=
  let ticket := t.tickets.length
  let limit := t.clock + (timeout.getD usualTimeout).nanoseconds
  let t := { t with tickets := t.tickets ++ [Ticket.mk r.method limit none] }
  match t.send server (.request ticket r) with
  | (.ok (), t) => (ticket, t)
  | (.error error, t) => (ticket, t.answer ticket (.error error))

/-- The request of a ticket has its answer, or the time for it is over. -/
def isSettled (ticket : Nat) (t : LocalTransport) : Bool :=
  match t.tickets[ticket]? with
  | none => true
  | some entry => entry.answer.isSome || entry.limit < t.clock

/-- What became of a request by now; one without an answer counts as one whose time is over. -/
def outcome (ticket : Nat) (t : LocalTransport) : Except ServerError Response :=
  match t.tickets[ticket]? with
  | none => .error .serviceStopped
  | some entry =>
    match entry.answer with
    | some (moment, result) =>
      if moment ≤ entry.limit then result else .error (.requestTimeout entry.method)
    | none => .error (.requestTimeout entry.method)

/-- Waits for the answer to a request. -/
def await (ticket : Nat) (t : LocalTransport) : Except ServerError Response × LocalTransport :=
  let limit := t.tickets[ticket]?.map Ticket.limit
  let t := t.waitFor (isSettled ticket) limit patience
  (t.outcome ticket, t)

/-- Sends a notification. -/
def notify (server : ServerId) (n : Notification) (t : LocalTransport) :
    Except ServerError Unit × LocalTransport :=
  t.send server (.notification n)

/-- Answers a request of a server. -/
def reply (server : ServerId) (id : RequestId) (result : Except ResponseError Json)
    (t : LocalTransport) : Except ServerError Unit × LocalTransport :=
  t.send server (.reply (match result with
    | .ok value => .success id value
    | .error error => .failure id error))

/-- Asks a server to end, if there is one. -/
def dismiss (server : ServerId) (t : LocalTransport) : LocalTransport :=
  match t.services.lookup server with
  | none => t
  | some s =>
    let d : Departure := ⟨{ s with channel := s.channel.close }, t.clock + shutdownGrace⟩
    { t with
      services := t.services.filter (fun entry => entry.1 ≠ server)
      departures := t.departures ++ [(server, d)] }.pump

/-- No process of a server is departing any more. -/
def isGone (server : ServerId) (t : LocalTransport) : Bool :=
  t.departures.all (fun entry => entry.1 ≠ server || entry.2.service.exited)

/-- Stops a server and waits until it is gone. -/
def stop (server : ServerId) (t : LocalTransport) : LocalTransport :=
  (t.dismiss server).waitFor (isGone server) none patience

/-- Takes the next events, as many as are asked for. -/
def takeEvents (n : Nat) (t : LocalTransport) : List TransportEvent × LocalTransport :=
  let t := t.waitFor (fun t => n ≤ t.events.length) none patience
  (t.events.take n, { t with events := t.events.drop n })

/-- Whether an event tells that a process is gone. -/
def isExit : TransportEvent → Bool
  | .status _ status => status.isFinal
  | .message .. => false

/-- Takes the events up to and including the next one that tells that a process is gone. -/
def takeUntilExit (t : LocalTransport) : List TransportEvent × LocalTransport :=
  let t := t.waitFor (fun t => t.events.any isExit) none patience
  let before := t.events.takeWhile (fun event => !isExit event)
  (t.events.take (before.length + 1), { t with events := t.events.drop (before.length + 1) })

end LocalTransport

end RubySupervisor
