import RubySupervisor.Proofs.Host.Moments
import RubySupervisor.Proofs.Workspace.Silence
import RubySupervisor.Proofs.Explorer.Showing

/-!
# Runs of tests and their verdicts

A run of tests makes a plan of the tests as they are, makes sure of Ruby, and runs the command of the
plan. Nothing else that it does is a command, and nothing of it changes the tests.

Failures are charged to examples by their names. A run whose command failed shows a failure exactly
if its output reports one that concerns an example of the plan; a failure of any other kind, and a
failure that concerns none of them, leaves every example passed.
-/

/-! ## Runs -/

open RubySupervisor.Task

namespace RubySupervisor

/-- The command that a call runs. -/
def Call.command? : Call → Option Command
  | run command => some command
  | _ => none

/-- The commands that run in a trace. -/
def commandsOf (l : List Exchange) : List Command := l.filterMap fun x => x.call.command?

@[simp] theorem commandsOf_append (l l' : List Exchange) :
    commandsOf (l ++ l') = commandsOf l ++ commandsOf l' :=
  List.filterMap_append

/-- Calls on files, the interpreter and the choice of the user run no commands. -/
theorem commandsOf_eq_nil {l : List Exchange} (h : ∀ x ∈ l, x.call.isLocal = true) :
    commandsOf l = [] := by
  refine List.filterMap_eq_nil_iff.2 fun x hx => ?_
  have hlocal := h x hx
  cases hcall : x.call <;> first | rfl | cases hcall ▸ hlocal

namespace TestPlan

/-- There is no plan exactly if a run covers nothing. -/
theorem ofRequest?_eq_none_iff (nodes : List TestNode) (r : TestRunRequest) :
    ofRequest? nodes r = none ↔ covered nodes r = [] := by
  rw [ofRequest?, Option.map_eq_none_iff, runCommand?, Option.map_eq_none_iff,
    List.head?_eq_none_iff]

/-- A plan is made of all examples that a run covers. -/
theorem tests_of_ofRequest? {nodes : List TestNode} {r : TestRunRequest} {plan : TestPlan}
    (h : ofRequest? nodes r = some plan) : plan.tests = covered nodes r := by
  obtain ⟨command, -, rfl⟩ := Option.map_eq_some_iff.1 h
  rfl

end TestPlan

namespace Workspace

theorem local_currentRuby (c : WorkspaceContext) : (currentRuby c).Local := by
  have hrecord (answer : Except RubyError RuntimeEnvironment) :
      (recordActivation answer).Local := by
    unfold recordActivation
    split <;> exact (only_change _).bind fun _ => only_pure _
  refine only_get.bind fun w => ?_
  split
  · exact only_pure _
  · exact only_get.bind fun _ => ((Resolution.local_activate _).within _).bind hrecord

/-- Ruby is there, or it is Ruby that is missing. -/
theorem ensures_currentRuby_error (c : WorkspaceContext) (w : Workspace) :
    (currentRuby c).Ensures (fun _ r _ => ∀ error, r = .error error → ∃ e, error = .ruby e) w := by
  rw [currentRuby, ensures_bind, ensures_get]
  split
  · simp
  · rw [activateRuby, ensures_bind, ensures_get, ensures_bind]
    refine ensures_of_yields fun l answer w' _ => ?_
    match answer with
    | .ok environment => exact fun _ hnone => nomatch hnone
    | .error e => exact fun _ herror => ⟨e, (Except.error.inj herror).symm⟩

/-- What a run makes of the answer to its command. -/
def reportFor (plan : TestPlan) (answer : Except ServerError CommandOutput) :
    Outcome TestRunReport :=
  match answer with
  | .error error => .error (.server error)
  | .ok output => .ok (reportOf plan output)

/-- The ways in which a run of tests goes: it covers nothing, there is no Ruby for it, or the command
of its plan is the only one that runs, and the last thing that is done. -/
inductive Ran (c : WorkspaceContext) (w : Workspace) (r : TestRunRequest) :
    List Exchange → Outcome TestRunReport → Prop where
  | nothing (hplan : TestPlan.ofRequest? w.tests r = none) : Ran c w r [] (.ok ⟨[]⟩)
  | withoutRuby {plan : TestPlan} {l : List Exchange} {e : RubyError}
      (hplan : TestPlan.ofRequest? w.tests r = some plan) (hl : commandsOf l = []) :
      Ran c w r l (.error (.ruby e))
  | finished {plan : TestPlan} {l : List Exchange} {environment : RuntimeEnvironment}
      {answer : Except ServerError CommandOutput}
      (hplan : TestPlan.ofRequest? w.tests r = some plan) (hl : commandsOf l = []) :
      Ran c w r
        (l ++ [⟨.run (shellCommand c environment plan.command (some w.settings.testTimeout)), answer⟩])
        (reportFor plan answer)

theorem ensures_runTests (c : WorkspaceContext) (r : TestRunRequest) (w : Workspace) :
    (runTests c r).Ensures (fun l report _ => Ran c w r l report) w := by
  rw [runTests, ensures_bind, ensures_get]
  dsimp only
  cases hplan : TestPlan.ofRequest? w.tests r with
  | none => exact .nothing hplan
  | some plan =>
    rw [ensures_bind]
    refine ((Only.ensures (local_currentRuby c) w).and (ensures_currentRuby_error c w)).mono ?_
    rintro l ruby w' ⟨hlocal, herror⟩
    have hl := commandsOf_eq_nil hlocal
    cases ruby with
    | error error =>
      obtain ⟨e, rfl⟩ := herror error rfl
      simpa only [ensures_pure, List.nil_append, List.append_nil] using
        Ran.withoutRuby hplan hl
    | ok environment =>
      intro answer
      cases answer <;> exact .finished hplan hl

end Workspace

/-! ## Verdicts -/

namespace TestRunReport

/-- Some failure concerns some example. -/
def Charged (failures : List TestFailure) (tests : List PlannedTest) : Prop :=
  ∃ failure ∈ failures, ∃ test ∈ tests, concerns failure test = true

instance (failures : List TestFailure) (tests : List PlannedTest) :
    Decidable (Charged failures tests) :=
  inferInstanceAs (Decidable (∃ failure ∈ failures, _))

/-- A failure takes no example exactly if it concerns none. -/
theorem take?_eq_none_iff (failure : TestFailure) (tests : List PlannedTest) :
    take? failure tests = none ↔ ∀ test ∈ tests, concerns failure test = false := by
  induction tests with
  | nil => simp [take?]
  | cons test rest ih =>
    cases hconcerns : concerns failure test <;> simp [take?, hconcerns, ih]

/-- The example that a failure takes is the first one that it concerns. -/
theorem take?_eq_some_iff (failure : TestFailure) (tests : List PlannedTest) (test : PlannedTest)
    (remaining : List PlannedTest) :
    take? failure tests = some (test, remaining) ↔
      ∃ before after, tests = before ++ test :: after ∧ remaining = before ++ after ∧
        concerns failure test = true ∧ ∀ other ∈ before, concerns failure other = false := by
  induction tests generalizing remaining with
  | nil => simp [take?]
  | cons first rest ih =>
    cases hconcerns : concerns failure first with
    | true =>
      simp only [take?, hconcerns, if_true, Option.some.injEq, Prod.mk.injEq]
      constructor
      · rintro ⟨rfl, rfl⟩
        exact ⟨[], rest, rfl, rfl, hconcerns, by simp⟩
      · rintro ⟨before, after, htests, rfl, -, hnone⟩
        cases before with
        | nil => exact List.cons.inj htests
        | cons other before =>
          obtain ⟨rfl, -⟩ := List.cons.inj htests
          exact absurd hconcerns (by simp [hnone first (.head _)])
    | false =>
      simp only [take?, hconcerns, Bool.false_eq_true, if_false, Option.map_eq_some_iff,
        Prod.exists, Prod.mk.injEq]
      constructor
      · rintro ⟨taken, others, htake, rfl, rfl⟩
        obtain ⟨before, after, rfl, rfl, htaken, hnone⟩ := (ih others).1 htake
        exact ⟨first :: before, after, rfl, rfl, htaken,
          List.forall_mem_cons.2 ⟨hconcerns, hnone⟩⟩
      · rintro ⟨before, after, htests, rfl, htest, hnone⟩
        cases before with
        | nil =>
          obtain ⟨rfl, -⟩ := List.cons.inj htests
          exact absurd htest (by simp [hconcerns])
        | cons other before =>
          obtain ⟨rfl, rfl⟩ := List.cons.inj htests
          exact ⟨test, before ++ after, (ih _).2 ⟨before, after, rfl, rfl, htest,
            fun other hother => hnone other (.tail _ hother)⟩, rfl, rfl⟩

/-- Examples fail exactly if a failure is charged to one of them. -/
theorem failedCount_pos_iff (tests : List PlannedTest) (failures : List TestFailure) :
    0 < (ofFailures tests failures).failedCount ↔ Charged failures tests := by
  induction failures generalizing tests with
  | nil =>
    have hnone : ∀ result ∈ resultsOf tests [], isFailure result = false := by
      simp [resultsOf, isFailure]
    simp [failedCount, ofFailures, Charged, List.filter_eq_nil_iff.2 (by simpa using hnone)]
  | cons failure rest ih =>
    have hcons : Charged (failure :: rest) tests ↔
        (∃ test ∈ tests, concerns failure test = true) ∨ Charged rest tests := by
      simp [Charged]
    cases htake : take? failure tests with
    | none =>
      have hnone := (take?_eq_none_iff failure tests).1 htake
      -- a failure that concerns none of the examples adds nothing on either side
      have hfree : ¬ ∃ test ∈ tests, concerns failure test = true := by simpa using hnone
      rw [hcons, or_iff_right hfree, ← ih]
      simp [ofFailures, resultsOf, htake]
    | some taken =>
      obtain ⟨before, after, rfl, -, htaken, -⟩ :=
        (take?_eq_some_iff failure tests taken.1 taken.2).1 htake
      have hcharged : Charged (failure :: rest) (before ++ taken.1 :: after) :=
        hcons.2 (.inl ⟨taken.1, by simp, htaken⟩)
      refine iff_of_true ?_ hcharged
      simp [failedCount, ofFailures, resultsOf, htake, isFailure]

end TestRunReport

namespace Workspace

/-- **Theorem (failed runs).** A run that covers some example and returns a report has run the
command of its plan, and nothing else. If that command did not succeed, the report shows a failure
exactly if the output reports one that concerns an example of the plan. -/
theorem failure_shown_iff_charged {c : WorkspaceContext} {w w' : Workspace} {r : TestRunRequest}
    {l : List Exchange} {report : TestRunReport} (hcovered : TestPlan.covered w.tests r ≠ [])
    (h : (runTests c r).Yields w l (.ok report) w') :
    ∃ plan environment output before,
      TestPlan.ofRequest? w.tests r = some plan ∧ commandsOf before = [] ∧
      l = before ++
        [⟨.run (shellCommand c environment plan.command (some w.settings.testTimeout)),
          .ok output⟩] ∧
      (output.isSuccess = false → (0 < report.failedCount ↔
        TestRunReport.Charged (TestFailure.inOutput output.output) plan.tests)) := by
  have hran := (ensures_runTests c r w).yields h
  generalize hresult : Except.ok report = result at hran
  cases hran with
  | nothing hplan => exact absurd ((TestPlan.ofRequest?_eq_none_iff _ _).1 hplan) hcovered
  | withoutRuby => cases hresult
  | @finished plan before environment answer hplan hbefore =>
    cases answer with
    | error error => cases hresult
    | ok output =>
      obtain rfl := Except.ok.inj hresult
      refine ⟨plan, environment, output, before, hplan, hbefore, rfl, fun hfailed => ?_⟩
      rw [reportOf, hfailed, if_neg Bool.false_ne_true]
      exact TestRunReport.failedCount_pos_iff _ _

/-- A workspace whose Ruby is active, with the tests of these lenses. -/
def showing (lenses : List CodeLens) : Workspace :=
  { Workspace.fresh .default .inMemory with
    ruby := .active ⟨[], "3.4.0", ⟨"/bin"⟩, ⟨"/gems"⟩, false⟩
    tests := TestNode.ofLenses lenses }

/-- A workspace that knows one test. -/
def rehearsed : Workspace := showing [plainLens]

/-- A host on which every command ends in the same way. -/
def ending {σ : Type} (c : Call) (_ : σ) (output : CommandOutput) : c.Answer × CommandOutput :=
  match c with
  | .run _ => (.ok output, output)
  | c => (agreed presentRuby c, output)

/-- The trace of a run of everything whose command ends in this way. -/
def rehearsal (output : CommandOutput) : List Exchange :=
  (runTests plainContext .all).trace ending rehearsed output

/-- A rehearsal ends with its command. -/
theorem output_of_rehearsal {output output' : CommandOutput} {command : Command}
    {before : List Exchange}
    (h : rehearsal output = before ++ [⟨.run command, .ok output'⟩]) : output' = output := by
  have hlast : rehearsal output = [] ++ [⟨.run _, .ok output⟩] := rfl
  rw [hlast] at h
  obtain ⟨-, hsame⟩ := List.append_inj' h rfl
  cases hsame
  rfl

/-- What a runner prints about a test whose assertion does not hold. -/
def assertionFailure : CommandOutput :=
  ⟨some 1, "Failure:\nA#test_a [a.rb:3]:\nExpected 1.\n", ""⟩

/-- The report on it. -/
def assertionReport : TestRunReport :=
  ⟨[⟨"test_a", .failed "A#test_a [a.rb:3]:\nExpected 1.\n"⟩]⟩

/-- An assertion that does not hold is shown as a failure. -/
theorem assertionFailure_shown :
    TestPlan.covered rehearsed.tests .all ≠ [] ∧
      (runTests plainContext .all).Yields rehearsed (rehearsal assertionFailure)
        (.ok assertionReport) rehearsed ∧
      TestRunReport.Charged (TestFailure.inOutput assertionFailure.output)
        (TestPlan.covered rehearsed.tests .all) ∧
      0 < assertionReport.failedCount := by
  have hcovered : TestPlan.covered rehearsed.tests .all ≠ [] := by decide +kernel
  have hcharged : TestRunReport.Charged (TestFailure.inOutput assertionFailure.output)
      (TestPlan.covered rehearsed.tests .all) := by decide +kernel
  have hrun : (runTests plainContext .all).Yields rehearsed (rehearsal assertionFailure)
      (.ok assertionReport) rehearsed := yields_of_toOption (by decide +kernel)
  refine ⟨hcovered, hrun, hcharged, ?_⟩
  obtain ⟨plan, environment, output, before, hplan, -, hl, hshown⟩ :=
    failure_shown_iff_charged hcovered hrun
  obtain rfl := output_of_rehearsal hl
  rw [TestPlan.tests_of_ofRequest? hplan] at hshown
  exact (hshown rfl).2 hcharged

/-- What a runner prints about a test that raises an exception. -/
def uncaughtException : CommandOutput :=
  ⟨some 1, "Error:\nA#test_a:\nRuntimeError: boom\n", ""⟩

/-- Not every run whose command failed shows a failure. -/
theorem not_always_failure_shown :
    ¬ ∀ (c : WorkspaceContext) (w w' : Workspace) (r : TestRunRequest) (l : List Exchange)
      (report : TestRunReport) (command : Command) (output : CommandOutput),
      TestPlan.covered w.tests r ≠ [] → (runTests c r).Yields w l (.ok report) w' →
      (⟨.run command, .ok output⟩ : Exchange) ∈ l → output.isSuccess = false →
      0 < report.failedCount := by
  intro h
  have hrun : (runTests plainContext .all).Yields rehearsed (rehearsal uncaughtException)
      (.ok ⟨[⟨"test_a", .passed⟩]⟩) rehearsed := yields_of_toOption (by decide +kernel)
  have hpos := h _ _ _ _ _ _ _ uncaughtException (by decide +kernel) hrun (.head _) rfl
  exact absurd hpos (by decide)

end Workspace

end RubySupervisor
