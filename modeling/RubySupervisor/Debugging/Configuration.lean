import RubySupervisor.Json.Record

/-!
# Debug configurations

What a debug session is to do: launch a program, or attach to a running one.
-/

namespace RubySupervisor

/-- The kind of a debug session. -/
inductive DebugRequest where
  | launch
  | attach
  deriving DecidableEq, Repr

/-- The name of the kind. -/
def DebugRequest.name : DebugRequest → String
  | launch => "launch"
  | attach => "attach"

/-- The kind that a value names. -/
def DebugRequest.ofJson? (j : Json) : Option DebugRequest :=
  j.variant?.bind (fun name => [launch, attach].find? (fun kind => kind.name = name))

/-- A debug configuration. -/
structure DebugConfiguration where
  name : String
  request : DebugRequest
  /-- The command line of the debuggee, for launches. -/
  program : Option String
  /-- More variables for the debuggee. -/
  environment : Dict String
  deriving DecidableEq, Repr

namespace DebugConfiguration

/-- The configuration that a value describes. -/
def ofJson? (j : Json) : Option DebugConfiguration := do
  let r ← Json.Record.ofJson? ["name", "request", "program", "env"] j
  return {
    name := ← r.required "name" Json.text?
    request := ← r.required "request" DebugRequest.ofJson?
    program := ← r.optionalOrAbsent "program" Json.text?
    environment := ← r.defaulted "env" [] (Json.dictOf? Json.text?) }

/-- The configuration as a value; what is empty is left out. -/
def toJson (c : DebugConfiguration) : Json :=
  .object (
    (if c.environment.isEmpty then []
      else [("env", Json.object (c.environment.mapValues Json.text))])
    ++ [("name", .text c.name)]
    ++ (c.program.map (fun program => ("program", Json.text program))).toList
    ++ [("request", .text c.request.name)])

/-- The configuration that launches a program. -/
def launching (name program : String) : DebugConfiguration :=
  { name, request := .launch, program := some program, environment := [] }

/-- The configurations that are offered where there are none. -/
def provided : List DebugConfiguration :=
  [launching "Debug script" "ruby $\x7bfile\x7d",
    launching "Debug test" "ruby -Itest $\x7brelativeFile\x7d",
    { name := "Attach debugger", request := .attach, program := none, environment := [] }]

end DebugConfiguration

end RubySupervisor
