import RubySupervisor.Document.Edit
import RubySupervisor.Files.Path
import RubySupervisor.Json.Field
import RubySupervisor.Text.Blank
import RubySupervisor.Text.Scan

/-!
# Test items

Test items are made from the lenses by which a server marks test groups and examples. Every lens
names a file, a test, the command that runs it and its place; the last word of the command selects
the test. An example belongs to the closest group before it.
-/

namespace RubySupervisor

/-- Whether an item is a group of tests or one test. -/
inductive TestKind where
  | group
  | example
  deriving DecidableEq, Repr

/-- A test as the explorer shows it. -/
structure TestItem where
  /-- The name without blanks; that of an example begins with `test_`. -/
  id : String
  /-- The name as it stands in the source. -/
  label : String
  path : Path
  range : Range
  kind : TestKind
  /-- The command that runs this test alone. -/
  command : String
  /-- The part of the command that selects the test. -/
  identifier : String
  deriving DecidableEq, Repr

/-- An item of the top level with the examples under it. -/
structure TestNode where
  item : TestItem
  examples : List TestItem
  deriving DecidableEq, Repr

namespace TestKind

/-- The name of the kind in a lens. -/
def name : TestKind → String
  | group => "group"
  | «example» => "example"

/-- The kind that a value names. -/
def ofJson? (j : Json) : Option TestKind :=
  j.variant?.bind (fun name => [group, «example»].find? (fun kind => kind.name = name))

/-- The kind that the data of a lens tell. -/
def ofData? (data : Json) : Option TestKind :=
  (Json.Record.ofJson? ["kind"] data).bind (·.required "kind" ofJson?)

end TestKind

/-- The place of a test as a lens tells it. -/
def Range.ofLens? (j : Json) : Option Range := do
  let r ← Json.Record.ofJson? ["start_line", "start_column", "end_line", "end_column"] j
  return ⟨⟨← r.required "start_line" Json.word32?, ← r.required "start_column" Json.word32?⟩,
    ⟨← r.required "end_line" Json.word32?, ← r.required "end_column" Json.word32?⟩⟩

namespace TestItem

/-- How the name of an example begins. -/
def examplePrefix : String := "test_"

/-- A name without blanks. -/
def withoutBlanks (label : String) : String :=
  String.ofList (label.toList.map (fun c => if Text.isBlank c then '_' else c))

/-- The identity of a test with a name. -/
def idOf (kind : TestKind) (label : String) : String :=
  let id := withoutBlanks label
  if kind = .example ∧ Text.startsWith id examplePrefix = false then examplePrefix ++ id else id

/-- The characters without a dollar sign at their end. -/
def dropDollar (s : List Char) : List Char := if s.getLast? = some '$' then s.dropLast else s

/-- A word without quotes around it, then without slashes, then without the closing dollar sign. -/
def unwrapped (word : List Char) : List Char :=
  let bare := ((word.dropWhile (· == '"')).reverse.dropWhile (· == '"')).reverse
  let pattern := ((bare.dropWhile (· == '/')).reverse.dropWhile (· == '/')).reverse
  dropDollar pattern

/-- The part of a command that selects its test: the last word as it is if it tells a line, and
else the name inside its pattern. -/
def identifierOf? (command : String) : Option String :=
  (Text.words command).getLast?.map fun word =>
    if word.toList.contains ':' then word else String.ofList (unwrapped word.toList)

/-- The item of a lens, unless the lens lacks something. -/
def ofLens? (lens : CodeLens) : Option TestItem := do
  let kind ← TestKind.ofData? (← lens.data)
  match (← lens.command).arguments with
  | some [path, label, command, location] => do
    let label ← label.text?
    let command ← command.text?
    return {
      id := idOf kind label
      label
      path := ⟨← path.text?⟩
      range := ← Range.ofLens? location
      kind
      command
      identifier := ← identifierOf? command }
  | _ => none

/-- Only examples can be debugged. -/
def isDebuggable (item : TestItem) : Bool := item.kind = .example

end TestItem

namespace TestNode

/-- Whether examples can be put under the node. -/
def isGroup (node : TestNode) : Bool := node.item.kind = .group

/-- Takes in an item before a list of nodes that begins with what followed it: an example before
every group stays at the top, and a group takes the examples up to the next group. -/
def place (item : TestItem) (nodes : List TestNode) : List TestNode :=
  match item.kind with
  | .example => ⟨item, []⟩ :: nodes
  | .group =>
    let own := nodes.takeWhile (fun node => !node.isGroup)
    ⟨item, own.map TestNode.item⟩ :: nodes.drop own.length

/-- The nodes of items in document order. -/
def ofItems (items : List TestItem) : List TestNode := items.foldr place []

/-- The nodes of lenses in document order; malformed lenses are left out. -/
def ofLenses (lenses : List CodeLens) : List TestNode := ofItems (lenses.filterMap TestItem.ofLens?)

/-- The item of a node and the examples under it. -/
def items (node : TestNode) : List TestItem := node.item :: node.examples

/-- The first item with an identity, together with the examples under it. -/
def find? (nodes : List TestNode) (id : String) : Option TestNode :=
  nodes.findSome? fun node =>
    if node.item.id = id then some node
    else (node.examples.find? (fun child => child.id = id)).map (fun child => ⟨child, []⟩)

end TestNode

end RubySupervisor
