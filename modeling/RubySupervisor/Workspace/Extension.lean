import RubySupervisor.State.Store

/-!
# Server extensions

The server reports the extensions that it knows; whether each is to be activated is kept in the
store. A listed extension carries the flag that it had when it was reported or last switched.
-/

namespace RubySupervisor

/-- An extension that the server reported. -/
structure Extension where
  name : String
  /-- What went wrong when the server activated it. -/
  errors : List String
  activated : Bool
  deriving DecidableEq, Repr

/-- Whether the server failed to activate the extension. -/
def Extension.isErrored (e : Extension) : Bool := !e.errors.isEmpty

/-- The reported extensions and the store with their flags. -/
structure ExtensionSet where
  store : Store
  list : List Extension

namespace ExtensionSet

/-- The store as a part of the set. -/
def storePart : Part ExtensionSet Store := ⟨(·.store), fun s store => { s with store }⟩

/-- A report with the flags of a store. -/
def listed (store : Store) (reported : List (String × List String)) : List Extension :=
  reported.map (fun entry => ⟨entry.1, entry.2, store.extensionActivated entry.1⟩)

/-- The set after a report, which takes the place of the earlier one. -/
def replace (s : ExtensionSet) (reported : List (String × List String)) : ExtensionSet :=
  { s with list := listed s.store reported }

/-- The list with the flag of the first extension of a name changed. -/
def switched (name : String) (activated : Bool) : List Extension → List Extension
  | [] => []
  | e :: rest =>
    if e.name = name then { e with activated } :: rest else e :: switched name activated rest

/-- Switches an extension, also one that was not reported. The answer says whether its flag
changed. -/
def setActivated (name : String) (activated : Bool) :
    Task ExtensionSet (Except RubyError Bool) := do
  let s : ExtensionSet ← Task.get
  if s.store.extensionActivated name = activated then return .ok false
  match ← (Store.setExtensionActivated name activated).within storePart with
  | .error error => return .error error
  | .ok () =>
    Task.change (fun s => { s with list := switched name activated s.list })
    return .ok true

/-- Switches extensions one after another, each according to whether it is chosen. -/
def selectFrom (chosen : List String) : List String → Task ExtensionSet (Except RubyError Bool)
  | [] => pure (.ok false)
  | name :: rest => do
    match ← setActivated name (chosen.contains name) with
    | .error error => return .error error
    | .ok changed =>
      match ← selectFrom chosen rest with
      | .error error => return .error error
      | .ok changedLater => return .ok (changed || changedLater)

/-- Activates the chosen ones of the reported extensions and no others. The answer says whether any
flag changed. -/
def select (chosen : List String) : Task ExtensionSet (Except RubyError Bool) := do
  let s : ExtensionSet ← Task.get
  selectFrom chosen (s.list.map Extension.name)

end ExtensionSet

end RubySupervisor
