import RubySupervisor.Json.Parser
import RubySupervisor.Json.Printer
import RubySupervisor.Json.Record
import RubySupervisor.Server.Identity

/-!
# Messages

A message is a request, a response or a notification. Its kind is not written: a reader takes the
first of request, response and notification whose fields the document has. A writer leaves out
parameters that are `null` and members that are absent.
-/

namespace RubySupervisor

/-- The identifier of a request. -/
inductive RequestId where
  | number (n : Int)
  | text (s : String)
  deriving DecidableEq, Repr

namespace RequestId

/-- The identifier without quotes. -/
def shown : RequestId → String
  | number n => Text.intText n
  | text s => s

/-- The identifier as a document value. -/
def toJson : RequestId → Json
  | number n => .int n
  | text s => .text s

/-- A 32-bit integer or a text. -/
def ofJson? : Json → Option RequestId
  | .int n => if -2147483648 ≤ n ∧ n < 2147483648 then some (number n) else none
  | .text s => some (text s)
  | _ => none

end RequestId

/-- The error object of a failed response. -/
structure ResponseError where
  code : Int
  message : String
  data : Option Json
  deriving DecidableEq, Repr

namespace ResponseError

/-- The code for a method that the receiver does not know. -/
def methodNotFound : Int := -32601

/-- The code for an internal error. -/
def internalError : Int := -32603

/-- The wording of the error. -/
def shown (e : ResponseError) : String :=
  e.message ++ " (code " ++ Text.intText e.code ++ ")"

/-- A text among the data of the error. -/
def dataText? (e : ResponseError) (key : String) : Option String :=
  (e.data.bind (fun data => data.member? key)).bind Json.text?

/-- The error as a document value, its members in the order of writing. -/
def toJson (e : ResponseError) : Json :=
  .object ([("code", .int e.code), ("message", .text e.message)]
    ++ (e.data.map (fun data => ("data", data))).toList)

/-- The error that a document value describes. -/
def ofJson? (j : Json) : Option ResponseError := do
  let r ← Json.Record.ofJson? ["code", "message", "data"] j
  return {
    code := ← r.required "code" (Json.intBetween? (-2147483648) 2147483647)
    message := ← r.required "message" Json.text?
    data := ← r.optionalOrAbsent "data" (fun data => some data.canonical) }

end ResponseError

/-- A request; absent parameters are `null`. -/
structure Request where
  id : RequestId
  method : String
  params : Json
  deriving DecidableEq, Repr

/-- A notification; absent parameters are `null`. -/
structure Notification where
  method : String
  params : Json
  deriving DecidableEq, Repr

/-- A response with a result or an error. -/
structure Response where
  id : RequestId
  result : Option Json
  error : Option ResponseError
  deriving DecidableEq, Repr

namespace Response

/-- A successful response. -/
def success (id : RequestId) (result : Json) : Response := ⟨id, some result, none⟩

/-- A failed response. -/
def failure (id : RequestId) (error : ResponseError) : Response := ⟨id, none, some error⟩

/-- The error of the response, or else its result, `null` when it has none. -/
def outcome (r : Response) : Except ResponseError Json :=
  match r.error with
  | some error => .error error
  | none => .ok (r.result.getD .null)

/-- The response as a document value, its members in the order of writing. -/
def toJson (r : Response) : Json :=
  .object ([("id", r.id.toJson)]
    ++ (r.result.map (fun result => ("result", result))).toList
    ++ (r.error.map (fun error => ("error", error.toJson))).toList)

end Response

/-- Any message. -/
inductive Message where
  | request (r : Request)
  | response (r : Response)
  | notification (n : Notification)
  deriving DecidableEq, Repr

namespace Message

/-- The parameters as a member, unless they are `null`. -/
def paramsMember (params : Json) : List (String × Json) :=
  if params = .null then [] else [("params", params)]

/-- The members of the message in the order of writing. -/
def members : Message → List (String × Json)
  | request r => [("id", r.id.toJson), ("method", .text r.method)] ++ paramsMember r.params
  | response r => (r.toJson.members?).getD []
  | notification n => ("method", .text n.method) :: paramsMember n.params

/-- The message as a document value, headed by the version of the protocol. -/
def toJson (m : Message) : Json := .object (("jsonrpc", .text "2.0") :: m.members)

/-- The request that a document value describes. -/
def requestOf? (j : Json) : Option Request := do
  let r ← Json.Record.ofJson? ["id", "method", "params"] j
  return {
    id := ← r.required "id" RequestId.ofJson?
    method := ← r.required "method" Json.text?
    params := ← r.defaulted "params" .null (fun params => some params.canonical) }

/-- The response that a document value describes. -/
def responseOf? (j : Json) : Option Response := do
  let r ← Json.Record.ofJson? ["id", "result", "error"] j
  return {
    id := ← r.required "id" RequestId.ofJson?
    result := ← r.optionalOrAbsent "result" (fun result => some result.canonical)
    error := ← r.optionalOrAbsent "error" ResponseError.ofJson? }

/-- The notification that a document value describes. -/
def notificationOf? (j : Json) : Option Notification := do
  let r ← Json.Record.ofJson? ["method", "params"] j
  return {
    method := ← r.required "method" Json.text?
    params := ← r.defaulted "params" .null (fun params => some params.canonical) }

/-- The message that a document value describes: the first kind that fits. -/
def ofJson? (j : Json) : Option Message :=
  (requestOf? j).map request
    <|> (responseOf? j).map response
    <|> (notificationOf? j).map notification

/-- The text of the message. -/
def encode (m : Message) : String := m.toJson.compact

/-- The message that a text writes. -/
def decode? (s : String) : Option Message := (Json.read? s.toList).bind ofJson?

end Message

/-! ## Events of a transport

What a transport reports on its own about the processes that it runs. -/

/-- Something a transport observed. -/
inductive TransportEvent where
  /-- A process changed its status. -/
  | status (server : ServerId) (status : TransportStatus)
  /-- A process sent a message that answers no request. -/
  | message (server : ServerId) (message : Message)
  deriving DecidableEq, Repr

/-- The process that an event is about. -/
def TransportEvent.server : TransportEvent → ServerId
  | status server _ => server
  | message server _ => server

end RubySupervisor
