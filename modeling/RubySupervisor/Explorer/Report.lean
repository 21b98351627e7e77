import RubySupervisor.Explorer.Plan

/-!
# Reports of test runs

Failures are read back from what a test runner prints, and charged to the examples of the plan.
Every failure takes the first remaining example whose identity ends the reported name; the examples
that remain have passed.
-/

namespace RubySupervisor

/-- A failure that a test runner prints. -/
structure TestFailure where
  /-- The reported name: class, hash sign, test. -/
  testId : String
  message : String
  deriving DecidableEq, Repr

/-- How an example ended. -/
inductive TestOutcome where
  | passed
  | failed (message : String)
  deriving DecidableEq, Repr

/-- The result of one example. -/
structure TestResult where
  fullId : String
  outcome : TestOutcome
  deriving DecidableEq, Repr

/-- The results of a run: failures first, in the order in which they were reported. -/
structure TestRunReport where
  results : List TestResult
  deriving DecidableEq, Repr

namespace TestFailure

/-- What a report begins with. -/
def mark : List Char := "Failure:".toList

/-- The pieces after each occurrence of the mark. -/
def piecesAfterMark : (fuel : Nat) → List Char → List (List Char)
  | 0, _ => []
  | fuel + 1, s =>
    match Text.cutFirst? mark s with
    | none => []
    | some (_, after) =>
      let piece := match Text.cutFirst? mark after with
        | some (piece, _) => piece
        | none => after
      piece :: piecesAfterMark fuel after

/-- A line without the carriage returns at its end. -/
def dropReturns (line : List Char) : List Char :=
  (line.reverse.dropWhile (· == '\r')).reverse

/-- The lines of a piece. -/
def pieceLines (piece : List Char) : List (List Char) :=
  (Text.splitChars (· == '\n') piece).map dropReturns

/-- A failure with its name on the line after the mark, before a blank and a bracket. -/
def ofFollowingLines? (lines : List (List Char)) : Option TestFailure :=
  let shown := lines.take 3
  (shown.findSome? (Text.cutLast? [' ', '['])).map fun (name, _) =>
    ⟨String.ofList name, String.intercalate "\n" (shown.map String.ofList)⟩

/-- A failure with its name and its class in parentheses on the line of the mark. -/
def ofSameLine? (line : List Char) : Option TestFailure := do
  let message := Text.trimChars line
  let (before, _) ← Text.cutLast? [')', ':'] message
  let (name, className) ← Text.cutLast? ['('] before
  return ⟨String.ofList className ++ "#" ++ String.ofList name, String.ofList message⟩

/-- The failure of a piece, unless it has neither form. -/
def ofPiece? (piece : List Char) : Option TestFailure :=
  match pieceLines piece with
  | [] => none
  | [] :: rest => ofFollowingLines? rest
  | line :: _ => ofSameLine? line

/-- The failures in the output of a test runner. -/
def inOutput (output : String) : List TestFailure :=
  let s := output.toList
  (piecesAfterMark (s.length + 1) s).filterMap ofPiece?

end TestFailure

namespace TestRunReport

/-- Whether a failure is one of an example. -/
def concerns (failure : TestFailure) (test : PlannedTest) : Bool :=
  Text.endsWith failure.testId test.fullId

/-- Takes the first example that a failure concerns out of a list. -/
def take? (failure : TestFailure) : List PlannedTest → Option (PlannedTest × List PlannedTest)
  | [] => none
  | test :: rest =>
    if concerns failure test then some (test, rest)
    else (take? failure rest).map (fun taken => (taken.1, test :: taken.2))

/-- The results of examples after a list of failures. -/
def resultsOf : List PlannedTest → List TestFailure → List TestResult
  | tests, [] => tests.map (fun test => ⟨test.fullId, .passed⟩)
  | tests, failure :: rest =>
    match take? failure tests with
    | none => resultsOf tests rest
    | some (test, remaining) =>
      ⟨test.fullId, .failed failure.message⟩ :: resultsOf remaining rest

/-- The report of a run. -/
def ofFailures (tests : List PlannedTest) (failures : List TestFailure) : TestRunReport :=
  ⟨resultsOf tests failures⟩

/-- Whether an example failed. -/
def isFailure (result : TestResult) : Bool := result.outcome != .passed

/-- The number of examples that failed. -/
def failedCount (r : TestRunReport) : Nat := (r.results.filter isFailure).length

end TestRunReport

end RubySupervisor
