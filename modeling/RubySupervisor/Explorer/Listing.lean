import RubySupervisor.Explorer.Report

/-!
# Listings of the explorer

Items, plans and reports as document values.
-/

namespace RubySupervisor

/-- The listing of an item with the examples under it. -/
def TestItem.listing (item : TestItem) (children : List Json) : Json :=
  let kind := match item.kind with
    | .group => "Group"
    | .example => "Example"
  Json.ofMembers [("id", .text item.id), ("label", .text item.label),
    ("path", .text item.path.text), ("range", item.range.toJson), ("kind", .text kind),
    ("command", .text item.command), ("identifier", .text item.identifier),
    ("debuggable", .bool item.isDebuggable), ("children", .array children)]

/-- The listing of a node. -/
def TestNode.toJson (node : TestNode) : Json :=
  node.item.listing (node.examples.map (fun child => child.listing []))

/-- The run that a value asks for. -/
def TestRunRequest.ofJson (j : Json) : TestRunRequest :=
  match j.textAt? "single" with
  | some id => .single id
  | none => ⟨j.textsAt "include", j.textsAt "exclude"⟩

/-- The listing of an example of a plan. -/
def PlannedTest.toJson (test : PlannedTest) : Json :=
  Json.ofMembers [("full_id", .text test.fullId), ("label", .text test.label),
    ("identifier", .text test.identifier)]

/-- The listing of a result. -/
def TestResult.toJson (result : TestResult) : Json :=
  match result.outcome with
  | .passed => Json.ofTexts [result.fullId, "passed"]
  | .failed message => Json.ofTexts [result.fullId, "failed", message]

/-- The listing of a report. -/
def TestRunReport.toJson (r : TestRunReport) : Json :=
  Json.ofMembers [("failed", Json.ofNat r.failedCount),
    ("results", .array (r.results.map TestResult.toJson))]

end RubySupervisor
