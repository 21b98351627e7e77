import RubySupervisor.Json.Field
import RubySupervisor.Json.Printer

/-!
# Telemetry events

What is reported about the messages sent to a server and about failures in the background. An
event is written with its members in the order of their declaration, absent ones left out. It can be
described by an object with one field for each of its parts.
-/

namespace RubySupervisor

/-- A measured message. -/
structure MeasuredMessage where
  method : String
  milliseconds : Decimal.Binary64
  serverVersion : String
  rubyVersion : String
  yjitEnabled : Bool
  uri : Option String
  params : Option String
  errorClass : Option String
  errorMessage : Option String
  backtrace : Option String
  deriving DecidableEq, Repr

/-- A telemetry event. -/
inductive TelemetryEvent where
  | message (m : MeasuredMessage)
  | backgroundFailure (context : String) (text : String)
  deriving DecidableEq, Repr

namespace TelemetryEvent

/-- An optional text member. -/
def textMember (name : String) (value : Option String) : List (String × Json) :=
  (value.map (fun s => (name, Json.text s))).toList

/-- The event as a value, its members in the order of writing. -/
def toJson : TelemetryEvent → Json
  | message m =>
    .object ([("request", .text m.method), ("requestTime", .real m.milliseconds),
        ("lspVersion", .text m.serverVersion), ("rubyVersion", .text m.rubyVersion),
        ("yjitEnabled", .bool m.yjitEnabled)]
      ++ textMember "uri" m.uri ++ textMember "params" m.params
      ++ textMember "errorClass" m.errorClass ++ textMember "errorMessage" m.errorMessage
      ++ textMember "backtrace" m.backtrace)
  | backgroundFailure context text => .object [("context", .text context), ("message", .text text)]

/-- The text of the event. -/
def encode (e : TelemetryEvent) : String := e.toJson.compact

end TelemetryEvent

/-- The milliseconds that a number gives. -/
def MeasuredMessage.millisecondsOf : Json → Decimal.Binary64
  | .real x => x
  | .int n => (Decimal.Binary64.ofQuotient? (decide (n < 0)) n.natAbs 1).getD .zero
  | _ => .zero

/-- The measured message that fields describe. -/
def MeasuredMessage.ofFields (j : Json) : MeasuredMessage :=
  { method := j.textAt "request"
    milliseconds := millisecondsOf (j.member "request_time")
    serverVersion := j.textAt "lsp_version"
    rubyVersion := j.textAt "ruby_version"
    yjitEnabled := j.boolAt "yjit_enabled"
    uri := j.textAt? "uri"
    params := j.textAt? "params"
    errorClass := j.textAt? "error_class"
    errorMessage := j.textAt? "error_message"
    backtrace := j.textAt? "backtrace" }

/-- The event that fields describe: a measured message, or a failure in its context. -/
def TelemetryEvent.ofFields (j : Json) : TelemetryEvent :=
  match j.field? "request" with
  | some request => .message (.ofFields request)
  | none => .backgroundFailure (j.textAt "context") (j.textAt "message")

end RubySupervisor
