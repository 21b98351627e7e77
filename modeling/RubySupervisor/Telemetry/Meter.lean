import RubySupervisor.Host.Task
import RubySupervisor.Text.Scan

/-!
# Measuring messages

A meter stands between a session and its transport. Once the version of the server is known it
counts messages, lets the first fifty pass, and reports the time of every later one. What is sent
and what comes back is not changed.
-/

namespace RubySupervisor

/-- What a report says besides the message itself. -/
structure MeasuringContext where
  rubyVersion : String
  yjitEnabled : Bool
  /-- The name of the workspace folder. -/
  folder : String
  /-- The home directory, shortened in reported addresses. -/
  home : Option String
  deriving DecidableEq, Repr

/-- What a meter knows. -/
structure Meter where
  /-- The version of the server, once it is known. -/
  version : Option String
  /-- The messages since then. -/
  seen : Nat
  deriving DecidableEq, Repr

namespace Meter

/-- A meter that has seen nothing. -/
def fresh : Meter := ⟨none, 0⟩

/-- The number of messages that pass unmeasured after the version became known. -/
def warmupMessages : Nat := 50

/-- The folders in which the server itself is developed; errors are shown to the user there. -/
def developmentFolders : List String := ["ruby-lsp", "ruby-lsp-rails"]

/-- The version with which the next message is reported, if it is. -/
def measures? (m : Meter) : Option String :=
  if warmupMessages ≤ m.seen then m.version else none

/-- The meter after one more message. -/
def count (m : Meter) : Meter := if m.version.isSome then { m with seen := m.seen + 1 } else m

/-- An address with the first occurrence of the home directory shortened. -/
def shortened (home : Option String) (uri : String) : String :=
  match home.filter (· ≠ "") with
  | none => uri
  | some home =>
    match Text.cutFirst? home.toList uri.toList with
    | some (before, after) => String.ofList (before ++ '~' :: after)
    | none => uri

/-- The address of the document that parameters speak of. -/
def documentUri? (home : Option String) (params : Json) : Option String :=
  (((params.member? "textDocument").bind (Json.member? · "uri")).bind Json.text?).map
    (shortened home)

/-- The parameters without the document, as text; none for absent parameters. -/
def remainder? (params : Json) : Option String :=
  match params with
  | .null => none
  | .object members => some (Json.object (Dict.erase members "textDocument")).compact
  | other => some other.compact

/-- A span of time in milliseconds. -/
def inMilliseconds (nanoseconds : Nat) : Decimal.Binary64 :=
  (Decimal.Binary64.ofQuotient? false nanoseconds 1000000).getD .zero

/-- The report of a message. -/
def event (c : MeasuringContext) (version method : String) (params : Json) (nanoseconds : Nat)
    (error : Option ResponseError) : MeasuredMessage :=
  { method
    milliseconds := inMilliseconds nanoseconds
    serverVersion := version
    rubyVersion := c.rubyVersion
    yjitEnabled := c.yjitEnabled
    uri := documentUri? c.home params
    params := remainder? params
    errorClass := error.bind (·.dataText? "errorClass")
    errorMessage := error.bind (·.dataText? "errorMessage")
    backtrace := error.bind (·.dataText? "backtrace") }

/-- What the user is shown about a failed message. -/
def popupText (m : MeasuredMessage) : String :=
  "Ruby LSP error " ++ m.errorClass.getD "" ++ ": " ++ m.errorMessage.getD "" ++ "\n\n"
    ++ m.backtrace.getD ""

/-- Reports a message, and shows its error in a development folder. -/
def report {σ : Type} (c : MeasuringContext) (m : MeasuredMessage) (failed : Bool) :
    Task σ Unit := do
  Task.ask (.telemetry (.message m))
  if failed && developmentFolders.contains c.folder then Task.ask (.popup (popupText m))

/-- The error that the server gave, whichever way it arrived. -/
def errorOf : Except ServerError Response → Option ResponseError
  | .ok response => response.error
  | .error (.response error) => some error
  | .error _ => none

/-- Sends a request, measured if its turn has come. -/
def request (c : MeasuringContext) (transport : Nat) (server : ServerId) (r : Request)
    (timeout : Option Span) : Task Meter (Except ServerError Response) := do
  let m : Meter ← Task.get
  Task.put m.count
  match m.measures? with
  | none => Task.ask (.request transport server r timeout)
  | some version =>
    let started : Nat ← Task.ask .stopwatch
    let answer : Except ServerError Response ← Task.ask (.request transport server r timeout)
    let ended : Nat ← Task.ask .stopwatch
    let error := errorOf answer
    report c (event c version r.method r.params (ended - started) error) error.isSome
    return answer

/-- Sends a notification, measured if its turn has come. -/
def notify (c : MeasuringContext) (transport : Nat) (server : ServerId) (n : Notification) :
    Task Meter (Except ServerError Unit) := do
  let m : Meter ← Task.get
  Task.put m.count
  match m.measures? with
  | none => Task.ask (.notify transport server n)
  | some version =>
    let started : Nat ← Task.ask .stopwatch
    let answer : Except ServerError Unit ← Task.ask (.notify transport server n)
    let ended : Nat ← Task.ask .stopwatch
    report c (event c version n.method n.params (ended - started) none) false
    return answer

end Meter

end RubySupervisor
