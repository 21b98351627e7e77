import RubySupervisor.Proofs.Host.Moments
import RubySupervisor.Proofs.Workspace.Exclusion

/-!
# What the explorer shows

The explorer shows the tests of the document whose lenses described any tests last. A document
without tests is shown as well, but then the tests of an older one stay.
-/

open RubySupervisor.Task

namespace RubySupervisor

namespace Workspace

/-- What is returned to whoever asks for the lenses of a document: a failure, no lenses at all, or
the list of the server. -/
abbrev LensAnswer := Outcome (Option (List CodeLens))

/-- The lenses of an answer that describe tests, if any of them does. -/
def testLenses? : LensAnswer → Option (List CodeLens)
  | .ok (some lenses) =>
    let described := lenses.filter CodeLens.describesTest
    if described.isEmpty then none else some described
  | _ => none

/-- Asking the server does not change the tests. -/
theorem ensures_withClient_tests {α : Type} (absent : α) (present : SessionContext → Task Session α)
    (w : Workspace) : (withClient absent present).Ensures (fun _ _ w' => w'.tests = w.tests) w := by
  have hsteady : (withClient absent present).Steady Workspace.tests := by
    refine steady_get.bind fun w => ?_
    split
    · exact steady_pure _
    · exact steady_within (fun _ _ => rfl) _
  exact hsteady.ensures w

/-- Asking for lenses leaves the tests that the answer describes, or else the known ones. -/
theorem ensures_codeLenses (uri : String) (w : Workspace) :
    (codeLenses uri).Ensures (fun _ answer w' =>
      w'.tests = ((testLenses? answer).map TestNode.ofLenses).getD w.tests) w := by
  rw [codeLenses, ensures_bind]
  refine (ensures_withClient_tests _ _ w).mono fun l answer w' htests => ?_
  match answer with
  | .error error => exact htests
  | .ok none => exact htests
  | .ok (some lenses) =>
    simp only [ensures_bind, ensures_change, ensures_pure, testsAfter, testLenses?, htests]
    split <;> rfl

/-- Documents are shown one after the other, with these answers. -/
inductive Shows (start : Workspace) : List LensAnswer → Workspace → Prop where
  | nothing : Shows start [] start
  | document {answers : List LensAnswer} {w w' : Workspace} {uri : String} {l : List Exchange}
      {answer : LensAnswer} (h : Shows start answers w)
      (hstep : (codeLenses uri).Yields w l answer w') : Shows start (answers ++ [answer]) w'

/-- The test lenses of the latest answer that has any. -/
def latestTestLenses? (answers : List LensAnswer) : Option (List CodeLens) :=
  (answers.filterMap testLenses?).getLast?

/-- One more answer is the latest one if it has test lenses. -/
theorem latestTestLenses?_concat (answers : List LensAnswer) (answer : LensAnswer) :
    latestTestLenses? (answers ++ [answer]) =
      (testLenses? answer).or (latestTestLenses? answers) := by
  cases h : testLenses? answer <;> simp [latestTestLenses?, h]

/-- **Theorem (shown tests).** After every sequence of documents, whatever the server answered, the
explorer shows exactly the tests of the latest answer that described any, and the tests that it
began with if no answer did. -/
theorem shows_latest_described {start w : Workspace} {answers : List LensAnswer}
    (h : Shows start answers w) :
    w.tests = ((latestTestLenses? answers).map TestNode.ofLenses).getD start.tests := by
  induction h with
  | nothing => rfl
  | @document answers w w' uri l answer _ hstep ih =>
    rw [(ensures_codeLenses uri w).yields hstep, latestTestLenses?_concat, ih]
    cases testLenses? answer <;> rfl

/-- A host whose server answers a request with the next of some values. -/
def answering {σ : Type} (c : Call) (_ : σ) (results : List Json) : c.Answer × List Json :=
  match c with
  | .request _ _ r _ => (.ok (.success r.id (results.headD .null)), results.tail)
  | c => (agreed presentRuby c, results)

/-- Shows a document for each of some values with which the server answers. -/
def browse : List Json → Workspace → List LensAnswer × Workspace
  | [], w => ([], w)
  | result :: results, w =>
    let (answer, w', _) := (codeLenses "file:///w/a.rb").run answering w [result]
    let (answers, last) := browse results w'
    (answer :: answers, last)

/-- Documents that are browsed are shown. -/
theorem Shows.browse {start w : Workspace} {answers : List LensAnswer} (h : Shows start answers w)
    (results : List Json) :
    Shows start (answers ++ (Workspace.browse results w).1) (Workspace.browse results w).2 := by
  induction results generalizing w answers with
  | nil => simpa [Workspace.browse] using h
  | cons result results ih =>
    have hnext := ih (h.document (yields_run answering (codeLenses "file:///w/a.rb") w [result]))
    simpa [Workspace.browse] using hnext

/-- A lens that describes a group of tests or a test. -/
def testLens (kind name line : String) : CodeLens :=
  { range := default
    command := some ⟨"Run", "rubyLsp.runTest", some [.text "/w/a.rb", .text name, .text line,
      .object [("end_column", .int 3), ("end_line", .int 2), ("start_column", .int 0),
        ("start_line", .int 0)]]⟩
    data := some (.object [("kind", .text kind), ("type", .text "test")]) }

/-- A lens that describes a test. -/
def plainLens : CodeLens := testLens "example" "test_a" "ruby a.rb --name /test_a$/"

/-- A document with a test, and then one without lenses. -/
def browsed : List LensAnswer × Workspace :=
  browse [.array [plainLens.toJson], .array []] served.2.1

theorem shows_browsed : Shows served.2.1 browsed.1 browsed.2 := by
  rw [browsed]
  simpa only [List.nil_append] using Shows.nothing.browse _

/-- Behind the document without lenses, the test of the other one is still shown. -/
theorem browsed_tests : Shows served.2.1 browsed.1 browsed.2 ∧
    latestTestLenses? browsed.1 = some [plainLens] ∧
    browsed.2.tests = TestNode.ofLenses [plainLens] := by
  have hlatest : latestTestLenses? browsed.1 = some [plainLens] := by decide +kernel
  have htests := shows_latest_described shows_browsed
  rw [hlatest] at htests
  exact ⟨shows_browsed, hlatest, htests⟩

/-- The explorer does not always show the tests of the document that was shown last. -/
theorem not_always_shown_last :
    ¬ ∀ (start w : Workspace) (answers : List LensAnswer) (lenses : List CodeLens),
      Shows start (answers ++ [.ok (some lenses)]) w →
      w.tests = TestNode.ofLenses (lenses.filter CodeLens.describesTest) := by
  intro h
  have hanswers : browsed.1 = [.ok (some [plainLens])] ++ [.ok (some [])] := rfl
  have hempty := h _ _ _ _ (hanswers ▸ shows_browsed)
  have hshown : browsed.2.tests ≠ TestNode.ofLenses [] := by decide +kernel
  exact hshown hempty

end Workspace

end RubySupervisor
