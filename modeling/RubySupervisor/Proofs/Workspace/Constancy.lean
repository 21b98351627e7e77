import RubySupervisor.Proofs.Host.Moments
import RubySupervisor.Workspace.Activity

/-!
# The settings in force

The settings of a workspace change where they are replaced and nowhere else: every other task finds
and leaves the same settings at all of its moments. This file goes through the tasks that the other
operations of a workspace are made of, in the order of their definitions.
-/

open RubySupervisor.Task

namespace RubySupervisor.Workspace

/-- A task never changes the settings. -/
abbrev Constant {α : Type} (t : Task Workspace α) : Prop := t.Steady Workspace.settings

theorem constant_storePart {α : Type} (t : Task Store α) : Constant (t.within storePart) :=
  steady_within (fun _ _ => rfl) t

theorem constant_extensionPart {α : Type} (t : Task ExtensionSet α) :
    Constant (t.within extensionPart) := steady_within (fun _ _ => rfl) t

theorem constant_sessionPart {α : Type} (t : Task Session α) : Constant (t.within sessionPart) :=
  steady_within (fun _ _ => rfl) t

theorem constant_withClient {α : Type} (absent : α) (present : SessionContext → Task Session α) :
    Constant (withClient absent present) := by
  refine steady_get.bind fun w => ?_
  split
  · exact steady_pure _
  · exact constant_sessionPart _

theorem constant_setState (state : LifecycleState) : Constant (setState state) :=
  steady_change fun _ => rfl

theorem constant_recordActivation (answer : Except RubyError RuntimeEnvironment) :
    Constant (recordActivation answer) := by
  unfold recordActivation
  split <;> exact (steady_change fun _ => rfl).bind fun _ => steady_pure _

theorem constant_activateRuby (c : WorkspaceContext) : Constant (activateRuby c) :=
  steady_get.bind fun _ => (constant_storePart _).bind fun _ => constant_recordActivation _

theorem constant_currentRuby (c : WorkspaceContext) : Constant (currentRuby c) := by
  refine steady_get.bind fun w => ?_
  split
  · exact steady_pure _
  · exact constant_activateRuby c

theorem constant_failing {α : Type} (answer : Outcome α) : Constant (failing answer) := by
  unfold failing
  split
  · exact steady_pure _
  · exact (constant_setState _).bind fun _ => steady_pure _

theorem constant_checkWritable (c : WorkspaceContext) : Constant (checkWritable c) := by
  refine (steady_ask _).bind fun made => ?_
  split <;> exact steady_pure _

theorem constant_manageServerGem (c : WorkspaceContext) (environment : RuntimeEnvironment) :
    Constant (manageServerGem c environment) := by
  refine steady_get.bind fun w => ?_
  split
  · exact steady_pure _
  · refine (steady_ask _).bind fun now => (constant_storePart _).bind fun managed => ?_
    split <;> exact steady_pure _

theorem constant_releaseClient : Constant releaseClient :=
  (constant_withClient _ _).bind fun _ => steady_change fun _ => rfl

theorem constant_probeServer : Constant probeServer := by
  refine (constant_withClient _ _).bind fun answer => ?_
  split
  · exact steady_pure _
  · exact steady_ask _

theorem constant_startWith (c : WorkspaceContext) (environment : RuntimeEnvironment) :
    Constant (startWith c environment) := by
  refine (constant_checkWritable c).bind fun writable => (constant_failing _).bind fun checked => ?_
  split
  · exact steady_pure _
  · refine (constant_manageServerGem c environment).bind fun managed =>
      (constant_failing _).bind fun ready => ?_
    split
    · exact steady_pure _
    · refine constant_releaseClient.bind fun _ => (steady_change fun _ => rfl).bind fun _ =>
        (constant_withClient _ _).bind fun started => ?_
      split
      · exact steady_pure _
      · exact constant_probeServer.bind fun _ => steady_pure _

theorem constant_startOver (c : WorkspaceContext) (reactivate : Bool) :
    Constant (startOver c reactivate) := by
  unfold startOver
  split
  case' isTrue => refine (constant_activateRuby c).bind fun answer => ?_
  case' isFalse => refine (constant_currentRuby c).bind fun answer => ?_
  all_goals
    refine (constant_failing answer).bind fun active => ?_
    split
    · exact steady_pure _
    · exact constant_startWith c _

theorem constant_restart (c : WorkspaceContext) : Constant (restart c) := by
  refine steady_get.bind fun w => ?_
  split
  · exact constant_sessionPart _
  · refine (steady_ask _).bind fun files => ?_
    split
    · exact steady_pure _
    · exact (constant_startOver c true).bind fun _ => steady_pure _

theorem constant_installServer (c : WorkspaceContext) : Constant (installServer c) := by
  refine (constant_currentRuby c).bind fun ruby => ?_
  split
  · exact steady_pure _
  · exact constant_manageServerGem c _

theorem constant_runTests (c : WorkspaceContext) (r : TestRunRequest) :
    Constant (runTests c r) := by
  refine steady_get.bind fun w => ?_
  split
  · exact steady_pure _
  · refine (constant_currentRuby c).bind fun ruby => ?_
    split
    · exact steady_pure _
    · refine (steady_ask _).bind fun answer => ?_
      split <;> exact steady_pure _

theorem constant_runTest (c : WorkspaceContext) (name : String) : Constant (runTest c name) := by
  refine steady_get.bind fun w => ?_
  split
  · exact steady_pure _
  · refine (constant_runTests c _).bind fun report => ?_
    split <;> exact steady_pure _

theorem constant_runTestInTerminal (c : WorkspaceContext) (line : String) :
    Constant (runTestInTerminal c line) := by
  refine (constant_currentRuby c).bind fun ruby => ?_
  split
  · exact steady_pure _
  · exact (steady_ask _).bind fun _ => steady_pure _

theorem constant_debuggeeEnvironment (c : WorkspaceContext) (configured : Dict String) :
    Constant (debuggeeEnvironment c configured) := by
  refine (constant_currentRuby c).bind fun ruby => ?_
  split
  · exact steady_pure _
  · exact (steady_ask _).bind fun _ => steady_pure _

theorem constant_launchDebuggee (c : WorkspaceContext) (program : String)
    (configured forced : Dict String) :
    Constant (launchDebuggee c program configured forced) := by
  have hlaunch (environment : Dict String) :
      Constant (Debuggee.launch program environment c.root) := by
    refine (steady_ask _).bind fun answer => ?_
    split <;> exact steady_pure _
  refine (constant_debuggeeEnvironment c configured).bind fun environment => ?_
  split
  · exact steady_pure _
  · exact (hlaunch _).bind fun _ => steady_pure _

theorem constant_attachDebugger (c : WorkspaceContext) : Constant (attachDebugger c) := by
  have hsockets (environment : Dict String) : Constant (Debuggee.sockets environment c.root) := by
    refine (steady_ask _).bind fun answer => ?_
    split <;> exact steady_pure _
  have hattach (environment : Dict String) : Constant (Debuggee.attach environment c.root) := by
    refine (hsockets environment).bind fun sockets => ?_
    split
    · exact steady_pure _
    · exact steady_pure _
    · refine (steady_ask _).bind fun chosen => ?_
      split <;> exact steady_pure _
  refine (constant_debuggeeEnvironment c []).bind fun environment => ?_
  split
  · exact steady_pure _
  · exact (hattach _).bind fun _ => steady_pure _

end RubySupervisor.Workspace
