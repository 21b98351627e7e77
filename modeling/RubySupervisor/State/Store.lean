import RubySupervisor.Host.Task
import RubySupervisor.Json.Printer
import RubySupervisor.State.Fingerprint

/-!
# Persisted state of a workspace

A store keeps values under text keys, in memory and in a file of its own when it has one. A change
is made in memory first; the whole content is then written to a file beside the state file and
moved into its place.
-/

namespace RubySupervisor

/-- The state of one workspace. -/
structure Store where
  /-- The state file; none for a store that lives in memory only. -/
  path : Option Path
  entries : Dict Json
  deriving DecidableEq

namespace Store

/-- The key of the remembered Ruby installation. -/
def rubyPathKey : String := "rubyPath"

/-- The key of the time of the last gem update, in milliseconds since the epoch. -/
def lastGemUpdateKey : String := "lastGemUpdate"

/-- A store without a file. -/
def inMemory : Store := ⟨none, []⟩

/-- The value of a key. -/
def get? (s : Store) (key : String) : Option Json := s.entries.find? key

/-- The characters of a workspace name that a file name keeps. -/
def isFileNameChar (c : Char) : Bool :=
  Text.isAsciiAlphanumeric c || c == '-' || c == '_' || c == '.'

/-- A workspace name as a file name: other characters become underscores. -/
def fileStem (workspace : String) : String :=
  String.ofList (workspace.toList.map (fun c => if isFileNameChar c then c else '_'))

/-- The state file of a workspace in a directory. -/
def filePath (directory : Path) (workspace : String) : Path :=
  directory.join (fileStem workspace ++ ".json")

/-- The entries that a state file holds; a file that is no object counts as empty. -/
def entriesOf (contents : String) : Dict Json :=
  match Json.parse? contents with
  | some (.object members) => members
  | _ => []

/-- Opens the store of a workspace. A missing file is an empty store. -/
def open? (files : FileTree) (directory : Path) (workspace : String) : Except RubyError Store :=
  let path := filePath directory workspace
  match files.readText path with
  | .ok contents => .ok ⟨some path, entriesOf contents⟩
  | .error .notFound => .ok ⟨some path, []⟩
  | .error error => .error (.io path error)

/-- The name of the store of a workspace folder: the folder's name and a fingerprint of its path. -/
def rootKey (root : Path) : String :=
  root.fileName?.getD "workspace" ++ "-" ++ Fingerprint.ofText root.text

/-- Opens the store of a workspace folder. -/
def openForRoot? (files : FileTree) (directory root : Path) : Except RubyError Store :=
  open? files directory (rootKey root)

/-- The text of a state file. -/
def fileText (entries : Dict Json) : String := (Json.object entries).pretty

/-- The file that is written before it takes the place of the state file. -/
def draftPath (path : Path) : Path := path.withExtension "json.tmp"

/-- Writes entries to a state file. -/
def flush {σ : Type} (path : Option Path) (entries : Dict Json) : Task σ (Except RubyError Unit) :=
  match path with
  | none => pure (.ok ())
  | some path => do
    let directory : Except FileError Unit ← match path.parent? with
      | some parent => Task.ask (.makeDirectories parent)
      | none => pure (.ok ())
    match directory with
    | .error e => return .error (.io path e)
    | .ok () =>
      let written : Except FileError Unit ←
        Task.ask (.writeFile (draftPath path) (fileText entries))
      match written with
      | .error e => return .error (.io path e)
      | .ok () =>
        let moved : Except FileError Unit ← Task.ask (.renameFile (draftPath path) path)
        match moved with
        | .error e => return .error (.io path e)
        | .ok () => return .ok ()

/-- Stores a value in memory. -/
def insert (s : Store) (key : String) (value : Json) : Store :=
  { s with entries := s.entries.insert key value }

/-- Removes a value in memory. -/
def erase (s : Store) (key : String) : Store := { s with entries := s.entries.erase key }

/-- Stores a value and writes the file. -/
def update (key : String) (value : Json) : Task Store (Except RubyError Unit) := do
  let s ← Task.get
  let s := s.insert key value
  Task.put s
  flush s.path s.entries

/-- Removes a value and writes the file; nothing happens where there is no value. -/
def remove (key : String) : Task Store (Except RubyError Unit) := do
  let s ← Task.get
  if s.entries.contains key then
    let s := s.erase key
    Task.put s
    flush s.path s.entries
  else return .ok ()

/-- The key of a server extension's flag. -/
def extensionKey (extension : String) : String := "extensions." ++ extension ++ ".activated"

/-- Whether a server extension is activated; one that was never switched is. -/
def extensionActivated (s : Store) (extension : String) : Bool :=
  ((s.get? (extensionKey extension)).bind Json.bool?).getD true

/-- Records whether a server extension is activated. -/
def setExtensionActivated (extension : String) (activated : Bool) :
    Task Store (Except RubyError Unit) :=
  update (extensionKey extension) (.bool activated)

end Store

end RubySupervisor
