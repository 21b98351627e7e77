/-!
# Actions

What a user can ask of a workspace: each action has an identifier under which editors register it.
The choices between starting, stopping and restarting depend on whether the server is up.
-/

namespace RubySupervisor

/-- An action of the user. -/
inductive Action where
  | start
  | stop
  | restart
  /-- Bring the server gem up to date now. -/
  | update
  | toggleExperimentalFeatures
  /-- Choose between starting, stopping and restarting. -/
  | serverOptions
  | toggleYjit
  | selectVersionManager
  | toggleFeatures
  /-- Explain how the formatter is found. -/
  | formatterHelp
  | manageExtensions
  | runTest
  | runTestInTerminal
  | debugTest
  /-- Open the link of a code lens. -/
  | openLink
  | showSyntaxTree
  deriving DecidableEq, Repr

namespace Action

/-- Every action, in the order of registration. -/
def all : List Action :=
  [start, stop, restart, update, toggleExperimentalFeatures, serverOptions, toggleYjit,
    selectVersionManager, toggleFeatures, formatterHelp, manageExtensions, runTest,
    runTestInTerminal, debugTest, openLink, showSyntaxTree]

/-- The identifier of an action. -/
def id : Action → String
  | start => "rubyLsp.start"
  | stop => "rubyLsp.stop"
  | restart => "rubyLsp.restart"
  | update => "rubyLsp.update"
  | toggleExperimentalFeatures => "rubyLsp.toggleExperimentalFeatures"
  | serverOptions => "rubyLsp.serverOptions"
  | toggleYjit => "rubyLsp.toggleYjit"
  | selectVersionManager => "rubyLsp.selectRubyVersionManager"
  | toggleFeatures => "rubyLsp.toggleFeatures"
  | formatterHelp => "rubyLsp.formatterHelp"
  | manageExtensions => "rubyLsp.manageExtensions"
  | runTest => "rubyLsp.runTest"
  | runTestInTerminal => "rubyLsp.runTestInTerminal"
  | debugTest => "rubyLsp.debugTest"
  | openLink => "rubyLsp.openLink"
  | showSyntaxTree => "rubyLsp.showSyntaxTree"

/-- The action with an identifier. -/
def ofId? (id : String) : Option Action := all.find? (fun action => action.id = id)

/-- Every action is registered. -/
theorem mem_all (action : Action) : action ∈ all := by cases action <;> decide

end Action

/-- A labelled choice of an action. -/
structure ActionChoice where
  label : String
  action : Action
  deriving DecidableEq, Repr

namespace ActionChoice

/-- The choices while the server is up. -/
def started : List ActionChoice := [⟨"Ruby LSP: Stop", .stop⟩, ⟨"Ruby LSP: Restart", .restart⟩]

/-- The choices while the server is down. -/
def stopped : List ActionChoice := [⟨"Ruby LSP: Start", .start⟩, ⟨"Ruby LSP: Restart", .restart⟩]

end ActionChoice

end RubySupervisor
