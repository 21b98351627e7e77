import RubySupervisor.Debugging.Debuggee
import RubySupervisor.Workspace.Lifecycle

/-!
# Activities in a workspace

What a user does in a workspace: asks the server about documents, runs and debugs tests, and
performs actions. Commands run in the environment of Ruby, which is activated when it is first
needed.
-/

namespace RubySupervisor.Workspace

/-- Asks for the syntax tree of a document, or of a range of it. -/
def syntaxTree (uri : String) (range : Option Range) :
    Task Workspace (Outcome (Option String)) := do
  return ofServer (← withClient (.error .notRunning) (fun c => Session.syntaxTree c uri range))

/-- The tests after an answer with code lenses: those of the test lenses, if there are any. -/
def testsAfter (tests : List TestNode) (lenses : List CodeLens) : List TestNode :=
  let described := lenses.filter CodeLens.describesTest
  if described.isEmpty then tests else TestNode.ofLenses described

/-- Asks for the code lenses of a document; test lenses take the place of the known tests. -/
def codeLenses (uri : String) : Task Workspace (Outcome (Option (List CodeLens))) := do
  match ← withClient (.error .notRunning) (fun c => Session.codeLenses c uri) with
  | .error error => return .error (.server error)
  | .ok none => return .ok none
  | .ok (some lenses) =>
    Task.change (fun w => { w with tests := testsAfter w.tests lenses })
    return .ok (some lenses)

/-- A shell command in the folder of the workspace. -/
def shellCommand (c : WorkspaceContext) (environment : RuntimeEnvironment) (line : String)
    (timeout : Option Span) : Command :=
  let (program, arguments) := TestPlan.shellInvocation line
  { program, arguments, directory := c.root, environment := environment.bindings, timeout }

/-- The report of a run: the output is searched for failures only if the command did not succeed. -/
def reportOf (plan : TestPlan) (o : CommandOutput) : TestRunReport :=
  TestRunReport.ofFailures plan.tests (if o.isSuccess then [] else TestFailure.inOutput o.output)

/-- Runs the examples that a request covers as one command. A run of nothing reports nothing. -/
def runTests (c : WorkspaceContext) (r : TestRunRequest) :
    Task Workspace (Outcome TestRunReport) := do
  let w : Workspace ← Task.get
  match TestPlan.ofRequest? w.tests r with
  | none => return .ok ⟨[]⟩
  | some plan =>
    match ← currentRuby c with
    | .error error => return .error error
    | .ok environment =>
      let command := shellCommand c environment plan.command (some w.settings.testTimeout)
      let answer : Except ServerError CommandOutput ← Task.ask (.run command)
      match answer with
      | .error error => return .error (.server error)
      | .ok output => return .ok (reportOf plan output)

/-- The identity of a test of a name: blanks are not part of it. -/
def testId (name : String) : String :=
  String.ofList (name.toList.map (fun ch => if Text.isBlank ch then '_' else ch))

/-- The item of a test of a name, which may leave out how the names of tests begin. -/
def findTest? (tests : List TestNode) (name : String) : Option TestNode :=
  match TestNode.find? tests (testId name) with
  | some node => some node
  | none => TestNode.find? tests ("test_" ++ testId name)

/-- Runs the test of a name, if there is one. -/
def runTest (c : WorkspaceContext) (name : String) :
    Task Workspace (Outcome (Option TestRunReport)) := do
  let w : Workspace ← Task.get
  match findTest? w.tests name with
  | none => return .ok none
  | some node =>
    match ← runTests c (.single node.item.id) with
    | .error error => return .error error
    | .ok report => return .ok (some report)

/-- Runs the command of a test lens in the foreground. -/
def runTestInTerminal (c : WorkspaceContext) (line : String) :
    Task Workspace (Outcome CommandOutput) := do
  match ← currentRuby c with
  | .error error => return .error error
  | .ok environment =>
    let answer : Except ServerError CommandOutput ←
      Task.ask (.run (shellCommand c environment line none))
    return ofServer answer

/-- The environment of a debuggee. -/
def debuggeeEnvironment (c : WorkspaceContext) (configured : Dict String) :
    Task Workspace (Outcome (Dict String)) := do
  match ← currentRuby c with
  | .error error => return .error error
  | .ok environment =>
    let files : FileTree ← Task.ask .files
    return .ok (Debuggee.environment files environment configured c.root)

/-- Launches a program under the debugger with more variables on top of its environment. -/
def launchDebuggee (c : WorkspaceContext) (program : String) (configured forced : Dict String) :
    Task Workspace (Outcome Path) := do
  match ← debuggeeEnvironment c configured with
  | .error error => return .error error
  | .ok environment =>
    return ofServer (← Debuggee.launch program (environment.insertAll forced) c.root)

/-- Chooses the socket of a running debuggee. -/
def attachDebugger (c : WorkspaceContext) : Task Workspace (Outcome Path) := do
  match ← debuggeeEnvironment c [] with
  | .error error => return .error error
  | .ok environment => return ofServer (← Debuggee.attach environment c.root)

/-- What keeps a preloader from running a debugged test outside its process. -/
def debugVariables : Dict String := [("DISABLE_SPRING", "1")]

/-- Launches the command of a test lens under the debugger. -/
def debugTest (c : WorkspaceContext) (line : String) : Task Workspace (Outcome Path) :=
  launchDebuggee c line [] debugVariables

/-- Drops the value of an outcome. -/
def done {α : Type} : Outcome α → Outcome Unit
  | .ok _ => .ok ()
  | .error error => .error error

/-- An argument of a code lens that is a text. -/
def lensArgument? (arguments : List Json) (index : Nat) : Option String :=
  (arguments[index]?).bind Json.text?

/-- Performs an action with the arguments of the code lens behind it. Actions that need the editor
are refused. -/
def perform (c : WorkspaceContext) (action : Action) (arguments : List Json) :
    Task Workspace (Outcome Unit) := do
  match action with
  | .runTest =>
    match lensArgument? arguments 1 with
    | some name => return done (← runTest c name)
    | none => return done (← runTests c .all)
  | .runTestInTerminal =>
    match lensArgument? arguments 2 with
    | some line => return done (← runTestInTerminal c line)
    | none => return .error (.missingArguments action)
  | .start => start c
  | .stop => stop
  | .restart =>
    restart c
    return .ok ()
  | .update => return done (← installServer c)
  | .toggleExperimentalFeatures =>
    let w : Workspace ← Task.get
    updateSettings c { w.settings with experimental := !w.settings.experimental }
  | .toggleYjit =>
    let w : Workspace ← Task.get
    updateSettings c { w.settings with yjit := !w.settings.yjit }
  | other => return .error (.requiresHost other)

end RubySupervisor.Workspace
