import RubySupervisor.Process.Status
import RubySupervisor.Ruby.Error
import RubySupervisor.Server.Message

/-!
# Failures of talking to servers and running commands

Each cause has its own constructor; the wording is in `ServerError.message` alone.
-/

namespace RubySupervisor

/-- Why bytes could not be moved. -/
inductive StreamError where
  | file (error : FileError)
  | endOfStream
  | notText
  | brokenPipe
  | reported (reason : String)
  deriving DecidableEq, Repr

/-- The wording of the failure. -/
def StreamError.message : StreamError → String
  | file error => error.message
  | endOfStream => "early eof"
  | notText => "stream did not contain valid UTF-8"
  | brokenPipe => "Broken pipe (os error 32)"
  | reported reason => reason

/-- How a peer broke the protocol. -/
inductive ProtocolFault where
  | closedInHeaders
  | invalidLength (value : String)
  | missingLength
  | lengthExceedsLimit (length : Nat)
  | unknownServer (server : String)
  | eventsTaken
  | invalidRoot (root : Path)
  | reported (reason : String)
  deriving DecidableEq, Repr

/-- The greatest length of a message body, in bytes. -/
def maxBodyLength : Nat := 100 * 1024 * 1024

/-- The wording of the fault. -/
def ProtocolFault.message : ProtocolFault → String
  | closedInHeaders => "stream closed inside message headers"
  | invalidLength value => "invalid Content-Length " ++ Text.quoted value
  | missingLength => "missing Content-Length"
  | lengthExceedsLimit length =>
    "Content-Length " ++ Text.natText length ++ " exceeds limit " ++ Text.natText maxBodyLength
  | unknownServer server => "server " ++ server ++ " not found"
  | eventsTaken => "transport events already taken"
  | invalidRoot root => "invalid workspace path " ++ root.text
  | reported reason => reason

/-- A span of time in nanoseconds. -/
structure Span where
  nanoseconds : Nat
  deriving DecidableEq, Repr, Inhabited

namespace Span

/-- A number of whole milliseconds. -/
def milliseconds (n : Nat) : Span := ⟨n * 1000000⟩

/-- A number of whole seconds. -/
def seconds (n : Nat) : Span := ⟨n * 1000000000⟩

/-- The whole seconds of the span. -/
def wholeSeconds (s : Span) : Nat := s.nanoseconds / 1000000000

/-- The whole milliseconds of the span. -/
def wholeMilliseconds (s : Span) : Nat := s.nanoseconds / 1000000

/-- A number of units with a fraction, zeros at its end dropped. -/
def inUnits (n unit : Nat) (places : Nat) (name : String) : String :=
  let fraction := Nat.toDigits 10 (n % unit)
  let padded := List.replicate (places - fraction.length) '0' ++ fraction
  let digits := (padded.reverse.dropWhile (· == '0')).reverse
  let point := if n % unit = 0 then [] else '.' :: digits
  String.ofList (Nat.toDigits 10 (n / unit) ++ point) ++ name

/-- The span in the largest unit of which it has a whole one. -/
def shown (s : Span) : String :=
  let n := s.nanoseconds
  if 1000000000 ≤ n then inUnits n 1000000000 9 "s"
  else if 1000000 ≤ n then inUnits n 1000000 6 "ms"
  else if 1000 ≤ n then inUnits n 1000 3 "µs"
  else inUnits n 1 0 "ns"

end Span

/-- Why an operation on a server, a command or a debuggee failed. -/
inductive ServerError where
  | serviceStopped
  | undecodable
  | response (error : ResponseError)
  | requestTimeout (method : String)
  | protocol (fault : ProtocolFault)
  | io (error : StreamError)
  | spawnFailed (program : String) (reason : String)
  | notRunning
  | commandFailed (command : String) (status : Option Int) (errors : String)
  | timedOut (command : String) (after : Span)
  | noDebuggee
  | debugCancelled
  | debuggeeExited (status : Option Int)
  | noDebugSocket
  | environment (error : RubyError)
  deriving DecidableEq, Repr

/-- The wording of the failure. -/
def ServerError.message : ServerError → String
  | serviceStopped => "service stopped"
  | undecodable => "deserialization failed"
  | response error => error.shown
  | requestTimeout method => "request timed out: " ++ method
  | protocol fault => "protocol error: " ++ fault.message
  | io error => error.message
  | spawnFailed program reason => "failed to spawn " ++ program ++ ": " ++ reason
  | notRunning => "language server is not running"
  | commandFailed command status errors =>
    command ++ " exited with " ++ ExitStatus.codeText status ++ ": " ++ errors
  | timedOut command after => command ++ " timed out after " ++ after.shown
  | noDebuggee => "No debuggee processes found."
  | debugCancelled => "debugging cancelled"
  | debuggeeExited status => "Debugger exited with status " ++ ExitStatus.codeText status
  | noDebugSocket => "Debugger not found on UNIX socket"
  | environment error => error.message

end RubySupervisor
