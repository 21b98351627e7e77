import RubySupervisor.Server.Frame
import RubySupervisor.Server.Message

/-!
# Channels

A channel carries the messages between one server process and those who talk to it. Messages on
their way out wait in a queue and are written one at a time; what comes in is routed frame by
frame: a response to the request that waits for it, anything else to the observers. When the
channel ends, every request that is still open is answered by the failure that the service has
stopped. The moves of a channel may come in any order; that order is the schedule.
-/

namespace RubySupervisor

/-- A message on its way to a server. A request carries the ticket of the one who waits for it. -/
inductive Outbound where
  | notification (n : Notification)
  | request (ticket : Nat) (r : Request)
  | reply (r : Response)
  deriving DecidableEq, Repr

namespace Outbound

/-- The message itself. -/
def message : Outbound → Message
  | notification n => .notification n
  | request _ r => .request r
  | reply r => .response r

/-- The bytes that the message is written as. -/
def frame (o : Outbound) : List UInt8 := Frame.write (Text.utf8 o.message.encode)

/-- The ticket of a request. -/
def ticket? : Outbound → Option Nat
  | request ticket _ => some ticket
  | _ => none

end Outbound

/-- What reading from a server gives. -/
inductive Receipt where
  /-- The body of one more frame. -/
  | body (bytes : List UInt8)
  /-- The orderly end of the stream. -/
  | finished
  | failed (error : ServerError)
  deriving DecidableEq, Repr

/-- The messages between one server process and those who talk to it. -/
structure Channel where
  server : ServerId
  /-- Messages that are not written yet, the next one first. -/
  queue : List Outbound
  /-- Nothing is added to the queue any more. -/
  closed : Bool
  /-- The input of the server is open. -/
  writing : Bool
  written : List UInt8
  /-- The written requests without an answer, by their numbers, with their tickets. -/
  pending : List (RequestId × Nat)
  /-- What became of requests, in the order of their ends. -/
  resolved : List (Nat × Except ServerError Response)
  /-- What observers are told, in order. -/
  events : List TransportEvent
  /-- Nothing is read or written any more. -/
  ended : Bool

namespace Channel

/-- The channel to a new process. -/
def open_ (server : ServerId) : Channel :=
  { server, queue := [], closed := false, writing := true, written := [], pending := [],
    resolved := [], events := [], ended := false }

/-- Resolves requests by the failure that the service has stopped. -/
def abandon (tickets : List Nat) (c : Channel) : Channel :=
  { c with resolved := c.resolved ++ tickets.map (fun ticket => (ticket, .error .serviceStopped)) }

/-- Tells observers about something. -/
def emit (event : TransportEvent) (c : Channel) : Channel :=
  { c with events := c.events ++ [event] }

/-- Ends the channel with a last status. -/
def finish (status : TransportStatus) (c : Channel) : Channel :=
  let tickets := c.pending.map Prod.snd ++ c.queue.filterMap Outbound.ticket?
  { (c.emit (.status c.server status)).abandon tickets with
    queue := [], pending := [], writing := false, ended := true }

/-- Adds a message to the queue, as long as the channel takes any. -/
def hand (o : Outbound) (c : Channel) : Channel :=
  if c.ended || c.closed then c.abandon o.ticket?.toList
  else { c with queue := c.queue ++ [o] }

/-- Closes the queue; what is in it is still written. -/
def close (c : Channel) : Channel := { c with closed := true }

/-- Registers a written request. An older one of the same number is no longer waited for. -/
def register (id : RequestId) (ticket : Nat) (c : Channel) : Channel :=
  let displaced := (c.pending.filter (fun entry => entry.1 = id)).map Prod.snd
  { c.abandon displaced with
    pending := c.pending.filter (fun entry => entry.1 ≠ id) ++ [(id, ticket)] }

/-- Writes the next message of the queue. A fault lets only so many bytes through and ends the
channel. At the end of a closed queue the input of the server is closed. -/
def writeNext (fault : Option Nat) (c : Channel) : Channel :=
  match c.queue with
  | [] => if c.closed then { c with writing := false } else c
  | out :: rest =>
    match fault with
    | some passed =>
      let cut := { c with queue := rest, written := c.written ++ out.frame.take passed }
      (cut.abandon out.ticket?.toList).finish .crashed
    | none =>
      let c := { c with queue := rest, written := c.written ++ out.frame }
      match out with
      | .request ticket r => c.register r.id ticket
      | _ => c

/-- Routes a body. One that is no message is skipped, as is a response that nobody waits for. -/
def route (body : List UInt8) (c : Channel) : Channel :=
  match Frame.decode? body with
  | none => c
  | some (.response r) =>
    match c.pending.lookup r.id with
    | none => c
    | some ticket =>
      { c with
        pending := c.pending.filter (fun entry => entry.1 ≠ r.id)
        resolved := c.resolved ++ [(ticket, .ok r)] }
  | some message => c.emit (.message c.server message)

/-- Takes in what reading gave. -/
def receive (receipt : Receipt) (c : Channel) : Channel :=
  match receipt with
  | .body bytes => c.route bytes
  | .finished => c.finish .stopped
  | .failed _ => c.finish .crashed

/-- A move of a channel. -/
inductive Move where
  | hand (o : Outbound)
  | close
  | write (fault : Option Nat)
  | receive (receipt : Receipt)
  deriving DecidableEq, Repr

/-- The channel after a move. A channel that has ended reads and writes nothing. -/
def step (c : Channel) (move : Move) : Channel :=
  match move with
  | .hand o => c.hand o
  | .close => c.close
  | .write fault => if c.ended then c else c.writeNext fault
  | .receive receipt => if c.ended then c else c.receive receipt

/-- The channel after moves. -/
def run (c : Channel) (moves : List Move) : Channel := moves.foldl step c

/-- The channel after all of the queue is written. -/
def flush (c : Channel) : Channel := c.run (List.replicate (c.queue.length + 1) (.write none))

end Channel

end RubySupervisor
