import RubySupervisor.Files.Listing
import RubySupervisor.Host.Execution
import RubySupervisor.Host.Task
import RubySupervisor.Session.Report
import RubySupervisor.Session.Capabilities

/-!
# Scripted hosts

A scripted host answers the calls of a task by rules and writes every call to a log. A rule may
fit a command line or a method, may be limited in how often it is used, and gives an answer or a
failure; what no rule fits has a fixed answer. The log is what a task did, seen from outside.
-/

namespace RubySupervisor

/-- A rule of a script with the number of times that it may still be used. -/
structure Rule where
  form : Json
  left : Option Nat

namespace Rule

/-- The rules that values describe. -/
def ofItems (items : List Json) : List Rule := items.map (fun j => ⟨j, j.natAt? "times"⟩)

/-- Whether a rule fits and may still be used. -/
def isUsable (fits : Json → Bool) (r : Rule) : Bool := fits r.form && r.left != some 0

/-- The first usable rule, and the rules after its use. -/
def take (fits : Json → Bool) : List Rule → Option Json × List Rule
  | [] => (none, [])
  | r :: rest =>
    if r.isUsable fits then (some r.form, { r with left := r.left.map (· - 1) } :: rest)
    else
      let (found, rest) := take fits rest
      (found, r :: rest)

/-- The failure that a rule gives for a command line or a method. -/
def failure (kind what : String) (after : Span) : ServerError :=
  match kind with
  | "stopped" => .serviceStopped
  | "timeout" => .requestTimeout what
  | "timed_out" => .timedOut what after
  | "protocol" => .protocol (.reported "scripted")
  | "io" => .io (.reported "scripted")
  | "spawn" => .spawnFailed what "scripted"
  | "response" =>
    .response ⟨ResponseError.internalError, "scripted", some (.object [("backtrace", .text "a.rb:1"),
      ("errorClass", .text "NoMethodError"), ("errorMessage", .text "undefined")])⟩
  | _ => .notRunning

/-- The failure that a used rule gives, if it gives one. -/
def failureOf? (found : Option Json) (what : String) (after : Span) : Option ServerError :=
  (found.bind (Json.textAt? · "fail")).map (fun kind => failure kind what after)

/-- The output of a command that a used rule gives. -/
def output : Option Json → CommandOutput
  | none => ⟨some 1, "", ""⟩
  | some j =>
    let status : Option Int := match j.member? "status" with
      | none => some 0
      | some status => status.int?
    ⟨status, j.textAt "stdout", j.textAt "stderr"⟩

/-- The response to a request that a used rule gives. -/
def response (found : Option Json) (r : Request) : Response :=
  match found with
  | none =>
    .success r.id
      (if r.method = "initialize" then .object [("capabilities", .object [])] else .null)
  | some j =>
    match (j.field? "error").bind ResponseError.ofJson? with
    | some error => .failure r.id error
    | none => if j.boolAt "empty" then ⟨r.id, none, none⟩ else .success r.id (j.member "result")

end Rule

/-- What a scripted host holds. -/
structure Script where
  files : FileTree
  /-- Rules for commands. -/
  runner : List Rule
  /-- Rules for servers. -/
  server : List Rule
  probe : Json
  prompt : Option Path
  pick : Option Nat
  applies : Bool
  /-- The variables that the log shows. -/
  shownVariables : List String
  now : Int
  hasTelemetry : Bool
  hasPopups : Bool
  /-- The process in which everything runs. -/
  processId : Nat
  /-- The calls so far, the latest one first. -/
  log : List Json

namespace Script

/-- The variables that the log shows unless others are named. -/
def usualVariables : List String := ["BUNDLE_GEMFILE", "RUBY_VERSION"]

/-- The activation that a value describes, with defaults for what it leaves out. -/
def activationOf (j : Json) : Activation :=
  { defaultGems := ⟨(j.textAt? "default_gems").getD "/opt/rubies/3.3.0/lib/ruby/gems/3.3.0"⟩
    gems := ⟨(j.textAt? "gems").getD "/home/dev/.gem/ruby/3.3.0"⟩
    version := (j.textAt? "version").getD "3.3.0"
    yjit := j.textAt? "yjit" }

/-- The environment plan that a value describes. -/
def planOf (j : Json) : EnvironmentPlan :=
  { base := j.dictAt "base"
    rubyBin := ⟨j.textAt "ruby_bin"⟩
    activation := activationOf (j.member "info")
    gemset := j.textAt? "gemset"
    bundleGemfile := (j.textAt? "bundle_gemfile").map Path.mk
    overrides := j.dictAt "overrides" }

/-- The script that a value describes, on a file tree. -/
def ofJson (files : FileTree) (processId : Nat) (now : Int) (j : Json) : Script :=
  { files
    runner := Rule.ofItems (j.itemsAt "runner")
    server := Rule.ofItems (j.itemsAt "server")
    probe := j.member "probe"
    prompt := (j.textAt? "prompt").map Path.mk
    pick := j.natAt? "pick"
    applies := j.boolAt "apply_ok" true
    shownVariables :=
      match j.field? "env_keys" with
      | some _ => j.textsAt "env_keys"
      | none => usualVariables
    now
    hasTelemetry := j.boolAt "telemetry" true
    hasPopups := j.boolAt "notifier" true
    processId
    log := [] }

/-- The script with one more entry in its log. -/
def note (w : Script) (entry : List (String × Json)) : Script :=
  { w with log := Json.ofMembers entry :: w.log }

/-- An entry with the state that observers see at that moment, where there is one. -/
def inState (state : Option String) (entry : List (String × Json)) : List (String × Json) :=
  entry ++ (state.map (fun s => ("state", Json.text s))).toList

/-- The log in the order of the calls, and the script with an empty one. -/
def takeLog (w : Script) : Json × Script := (.array w.log.reverse, { w with log := [] })

/-- The shown part of an environment. -/
def shown (w : Script) (environment : Dict String) : Json :=
  Json.ofDict (environment.filter (fun entry => w.shownVariables.contains entry.1))

/-- A timeout in milliseconds. -/
def shownTimeout (timeout : Option Span) : Json :=
  Json.ofOption (fun t : Span => Json.ofNat t.wholeMilliseconds) timeout

/-- The parameters of a request with the process and the announcement abbreviated. -/
def shownParams (w : Script) (method : String) (params : Json) : Json :=
  match method, params with
  | "initialize", .object members =>
    .object (members.map fun (name, value) =>
      if name = "processId" ∧ value = Json.ofNat w.processId then (name, .text "<pid>")
      else if name = "capabilities" ∧ value = Capabilities.announced then
        (name, .text "<client_capabilities>")
      else (name, value))
  | _, other => other

/-- A text in which the number of the process is abbreviated. -/
def shownText (w : Script) (s : String) : String :=
  match Text.cutFirst? ("\"processId\":" ++ Text.natText w.processId ++ ",").toList s.toList with
  | some (before, after) =>
    String.ofList before ++ "\"processId\":\"<pid>\"," ++ String.ofList after
  | none => s

/-- A telemetry event without its time. -/
def shownEvent (w : Script) (event : TelemetryEvent) : Json :=
  match event.toJson.canonical with
  | .object members =>
    .object (members.map fun (name, value) =>
      match name, value with
      | "requestTime", _ => (name, .text "<ms>")
      | "params", .text s => (name, .text (w.shownText s))
      | _, _ => (name, value))
  | other => other

/-- Answers a call to a server by the rules for a name. -/
def serve {α : Type} (w : Script) (name : String) (answer : Option Json → α) :
    Except ServerError α × Script :=
  let (found, rules) := Rule.take (fun j => j.textAt "method" = name) w.server
  let w := { w with server := rules }
  match Rule.failureOf? found name ⟨0⟩ with
  | some error => (.error error, w)
  | none => (.ok (answer found), w)

/-- Whether a rule fits a command. -/
def fitsCommand (c : Command) (j : Json) : Bool :=
  (j.textAt? "program").all (· = c.program) && (j.textAt? "contains").all (Text.occurs · c.line)

/-- Runs a command by the rules. -/
def runCommand (w : Script) (state : Option String) (c : Command) :
    Except ServerError CommandOutput × Script :=
  let w := w.note (inState state [("run", .text c.line), ("cwd", .text c.directory.text),
    ("env", w.shown c.environment), ("timeout_ms", shownTimeout c.timeout)])
  let (found, rules) := Rule.take (fitsCommand c) w.runner
  let w := { w with runner := rules }
  match Rule.failureOf? found c.line (c.timeout.getD ⟨0⟩) with
  | some error => (.error error, w)
  | none => (.ok (Rule.output found), w)

/-- Changes the files, or says why that is not possible. -/
def changeFiles (w : Script) (changed : Except FileError FileTree) :
    Except FileError Unit × Script :=
  match changed with
  | .ok files => (.ok (), { w with files })
  | .error error => (.error error, w)

/-- The answer of a server to a reply, as the log shows it. -/
def shownReply : Except ResponseError Json → Json
  | .ok value => .object [("ok", value)]
  | .error error => .object [("err", error.toJson)]

/-- The host of a script. `view` tells the state that observers see. Debuggees are no part of a
script; they are run as they are. -/
def host {σ : Type} (view : σ → Option String) :
    (c : Call) → σ → Script → c.Answer × Script
  | .files, _, w => (w.files, w)
  | .makeDirectories p, _, w => w.changeFiles (w.files.makeDirectories p)
  | .writeFile p s, _, w => w.changeFiles (w.files.writeBytes p s.toUTF8)
  | .renameFile p q, _, w => w.changeFiles (w.files.rename p q)
  | .probe rubyBin directory environment, _, w =>
    let w := w.note [("probe", .text rubyBin.text), ("cwd", .text directory.text),
      ("env_size", Json.ofNat environment.length)]
    match w.probe.textAt? "fail" with
    | some reason => (.error (.activationFailed (rubyBin.join "ruby") (.reported reason)), w)
    | none => (.ok (activationOf w.probe), w)
  | .chooseInstallation reason, _, w => (w.prompt, w.note [("prompt", .text reason)])
  | .chooseSocket sockets, _, w =>
    (w.pick.bind (fun n => sockets[n]?), w.note [("pick", Json.ofTexts sockets)])
  | .run c, s, w => w.runCommand (view s) c
  | .launchDebuggee c, _, w =>
    let (answer, files) := Execution.debuggee w.files c
    (answer, { w with files })
  | .startServer _ launch, s, w =>
    let w := w.note (inState (view s) [("start", .text launch.id.shown),
      ("command", .text launch.command), ("args", Json.ofTexts launch.arguments),
      ("cwd", .text launch.directory.text), ("env", w.shown launch.environment),
      ("timeout_secs", Json.ofNat launch.timeoutSeconds)])
    w.serve "$start" (fun _ => launch.id)
  | .request _ server r timeout, s, w =>
    let w := w.note (inState (view s) [("request", .text r.method), ("server", .text server.shown),
      ("id", r.id.toJson), ("params", w.shownParams r.method r.params),
      ("timeout_ms", shownTimeout timeout)])
    w.serve r.method (Rule.response · r)
  | .notify _ server n, s, w =>
    let w := w.note (inState (view s) [("notify", .text n.method), ("server", .text server.shown),
      ("params", n.params)])
    w.serve n.method (fun _ => ())
  | .reply _ server id answer, s, w =>
    let w := w.note (inState (view s) [("reply", shownReply answer), ("server", .text server.shown),
      ("id", id.toJson)])
    w.serve "$reply" (fun _ => ())
  | .stopServer _ server, s, w =>
    let w := w.note (inState (view s) [("stop", .text server.shown)])
    w.serve "$stop" (fun _ => ())
  | .now, _, w => (w.now, w)
  | .stopwatch, _, w => ((0 : Nat), w)
  | .telemetry event, _, w =>
    ((), if w.hasTelemetry then w.note [("telemetry", w.shownEvent event)] else w)
  | .popup message, _, w => ((), if w.hasPopups then w.note [("popup", .text message)] else w)
  | .applyEdits uri edits, _, w =>
    (w.applies, w.note [("apply", .array (edits.map TextEdit.toJson)), ("uri", .text uri)])
  | .insertSnippet uri snippet range, _, w =>
    ((), w.note [("snippet", .text snippet), ("uri", .text uri), ("range", range.toJson)])

/-- Changes the script between two tasks, if a step of that name does so. -/
def change? (w : Script) (name : String) (step : Json) : Option Script :=
  match name with
  | "set_runner" => some { w with runner := Rule.ofItems (step.itemsAt "rules") }
  | "set_server" => some { w with server := Rule.ofItems (step.itemsAt "rules") }
  | "set_probe" => some { w with probe := step.member "probe" }
  | "set_prompt" => some { w with prompt := (step.textAt? "prompt").map Path.mk }
  | "set_pick" => some { w with pick := step.natAt? "pick" }
  | "set_apply_ok" => some { w with applies := step.boolAt "ok" true }
  | "write" =>
    some { w with files := w.files.withListed ⟨step.textAt "path"⟩ (step.member "content") }
  | "remove" => some { w with files := w.files.removeAll ⟨step.textAt "path"⟩ }
  | _ => none

end Script

end RubySupervisor
