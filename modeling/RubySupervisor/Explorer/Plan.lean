import RubySupervisor.Explorer.Item

/-!
# Plans of test runs

A run names the items that it covers and those that it leaves out. Its plan lists the examples and
one command for all of them: the command of the first example with a selector for every example in
place of its last word.
-/

namespace RubySupervisor

/-- Which tests a run covers. -/
structure TestRunRequest where
  /-- The items that are run with everything under them; all of them if none is named. -/
  included : List String
  /-- The items that are left out. -/
  excluded : List String
  deriving DecidableEq, Repr

/-- A run of everything. -/
def TestRunRequest.all : TestRunRequest := ⟨[], []⟩

/-- A run of one item. -/
def TestRunRequest.single (id : String) : TestRunRequest := ⟨[id], []⟩

/-- An example of a plan. -/
structure PlannedTest where
  /-- The identities of the group and the example with a hash sign between them, or that of the
  example alone. -/
  fullId : String
  label : String
  identifier : String
  /-- The command that runs the example alone. -/
  command : String
  deriving DecidableEq, Repr

/-- The examples of a run and the command that runs them. -/
structure TestPlan where
  tests : List PlannedTest
  command : String
  deriving DecidableEq, Repr

namespace PlannedTest

/-- The full identity of an example in an optional group. -/
def fullIdOf (group : Option String) (id : String) : String :=
  match group with
  | some group => group ++ "#" ++ id
  | none => id

/-- An item as part of a plan: an example that is not left out. -/
def ofItem? (r : TestRunRequest) (group : Option String) (item : TestItem) : Option PlannedTest :=
  if item.kind = .example ∧ r.excluded.contains item.id = false then
    some ⟨fullIdOf group item.id, item.label, item.identifier, item.command⟩
  else none

/-- The examples of a node that is not left out. -/
def ofNode (r : TestRunRequest) (group : Option String) (node : TestNode) : List PlannedTest :=
  if r.excluded.contains node.item.id then []
  else
    (ofItem? r group node.item).toList
      ++ node.examples.filterMap (ofItem? r (some node.item.id))

end PlannedTest

namespace TestPlan

/-- The group that holds an item with an identity. -/
def groupOf? (nodes : List TestNode) (id : String) : Option String :=
  (nodes.find? (fun node => node.examples.any (fun child => child.id = id))).map
    (fun node => node.item.id)

/-- The examples under an identity. -/
def under (nodes : List TestNode) (r : TestRunRequest) (id : String) : List PlannedTest :=
  match TestNode.find? nodes id with
  | some node => PlannedTest.ofNode r (groupOf? nodes id) node
  | none => []

/-- The examples that a run covers. -/
def covered (nodes : List TestNode) (r : TestRunRequest) : List PlannedTest :=
  if r.included.isEmpty then nodes.flatMap (PlannedTest.ofNode r none)
  else r.included.flatMap (under nodes r)

/-- What selects several examples: their places one after another, or a filter of their names. -/
def selector (first : PlannedTest) (identifiers : List String) : String :=
  if first.identifier.toList.contains ':' then String.intercalate " " identifiers
  else "\"/(" ++ String.intercalate ")|(" identifiers ++ ")/\""

/-- The command of the first example with the selector in place of what follows its last space. -/
def runCommand? (tests : List PlannedTest) : Option String :=
  tests.head?.map fun first =>
    let selected := selector first (tests.map PlannedTest.identifier)
    match Text.cutLast? [' '] first.command.toList with
    | some (base, _) => String.ofList base ++ " " ++ selected
    | none => selected

/-- The plan of a run, unless it covers nothing. -/
def ofRequest? (nodes : List TestNode) (r : TestRunRequest) : Option TestPlan :=
  let tests := covered nodes r
  (runCommand? tests).map (fun command => ⟨tests, command⟩)

/-- The program and arguments that run a command line. -/
def shellInvocation (command : String) : String × List String := ("sh", ["-c", command])

end TestPlan

end RubySupervisor
