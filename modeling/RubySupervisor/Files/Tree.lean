import RubySupervisor.Files.Error
import RubySupervisor.Files.Path
import RubySupervisor.Text.Utf8

/-!
# File trees

A file tree is a finite table of entries, each at a location: the names from the root down. A
path is resolved step by step through directories and symbolic links, at most forty links on the
way, and reading, writing and searching go through that one resolution.
-/

namespace RubySupervisor

/-- What a location of the tree holds. -/
inductive Entry where
  | directory
  | file (content : ByteArray) (executable : Bool)
  | link (target : String)
  /-- A place without content, which takes what is written to it. -/
  | device
  deriving Inhabited

/-- Whether two entries are the same. -/
def Entry.same : Entry → Entry → Bool
  | directory, directory => true
  | file content executable, file content' executable' =>
    decide (content.data = content'.data) && executable == executable'
  | link target, link target' => target == target'
  | device, device => true
  | _, _ => false

/-- The names from the root down to an entry. -/
abbrev Location := List String

/-- A table of entries, as a user sees it from a directory. The root is a directory and is not
listed. -/
structure FileTree where
  entries : List (Location × Entry)
  /-- Where relative paths start. -/
  origin : Location := []
  /-- The home directory of the user, if there is one. -/
  home : Option Path := none

namespace FileTree

/-- The tree that holds the root only. -/
def empty : FileTree := { entries := [] }

/-- The entry at a location. -/
def entry? (t : FileTree) (at_ : Location) : Option Entry :=
  if at_ = [] then some .directory
  else (t.entries.find? (fun entry => entry.1 = at_)).map Prod.snd

/-- The tree with an entry at a location, replacing what was there. -/
def set (t : FileTree) (at_ : Location) (entry : Entry) : FileTree :=
  { t with entries := (at_, entry) :: t.entries.filter (fun old => old.1 ≠ at_) }

/-- The tree without a location and everything below it. -/
def remove (t : FileTree) (at_ : Location) : FileTree :=
  { t with entries := t.entries.filter (fun entry => !at_.isPrefixOf entry.1) }

/-- What became of the entries of a tree that has changed: what is at a location now, if anything
is there. -/
def differences (before after : FileTree) : List (Location × Option Entry) :=
  let present := after.entries.filter (fun entry =>
    !(before.entry? entry.1).any (Entry.same entry.2))
  let gone := before.entries.filter (fun entry => (after.entry? entry.1).isNone)
  present.map (fun entry => (entry.1, some entry.2)) ++ gone.map (fun entry => (entry.1, none))

/-- The tree after what became of some of its entries. -/
def amend (t : FileTree) (changes : List (Location × Option Entry)) : FileTree :=
  changes.foldl (fun t change =>
    match change.2 with
    | some entry => t.set change.1 entry
    | none => t.remove change.1) t

/-- The names and entries right below a location. -/
def children (t : FileTree) (at_ : Location) : List (String × Entry) :=
  t.entries.filterMap fun (location, entry) =>
    match location.getLast? with
    | some name => if location.dropLast = at_ then some (name, entry) else none
    | none => none

/-- Where a path leads. -/
inductive Resolved where
  /-- An entry that exists. -/
  | found (at_ : Location) (entry : Entry)
  /-- No entry, but the directory that would hold it exists. -/
  | absent (at_ : Location)

/-- Whether there is an entry. -/
def Resolved.isFound : Resolved → Bool
  | found .. => true
  | absent _ => false

/-- The number of symbolic links that one resolution may follow. -/
def linkLimit : Nat := 40

/-- The steps of a path that count on the way: names and `..`. -/
def steps (text : String) : List String :=
  (Path.mk text).pieces.filter (fun piece => piece ≠ "" ∧ piece ≠ ".")

/-- How a path asks for a directory by its end. -/
inductive Asking where
  /-- It does not. -/
  | nothing
  /-- By a separator: the directory may still have to be made. -/
  | separator
  /-- By a step that stays or leads back: the directory has to be there. -/
  | step
  deriving DecidableEq, Repr

/-- How the end of a path asks for a directory. -/
def Asking.of (text : String) : Asking :=
  match (Path.mk text).pieces.filter (· ≠ ""), (Path.mk text).pieces.getLast? with
  | [], _ => if text = "" then .nothing else .step
  | names, last =>
    if names.getLast? = some "." || names.getLast? = some ".." then .step
    else if last = some "" then .separator
    else .nothing

/-- Whether a path asks for a directory by its end. -/
def asksDirectory (text : String) : Bool := Asking.of text ≠ .nothing

/-- Walks the steps of a path from a directory up to a link that is followed. A link in the middle
is always followed, one at the end only if asked; what the last link leads to may have to be a
directory by the end of the link. -/
def walkToLink (t : FileTree) (follow : Bool)
    (onLink : Asking → Location → List String → Except FileError (Resolved × Asking)) :
    (asking : Asking) → (here : Location) → List String → Except FileError (Resolved × Asking)
  | asking, here, [] => .ok (.found here ((t.entry? here).getD .directory), asking)
  | asking, here, ".." :: rest => walkToLink t follow onLink asking here.dropLast rest
  | asking, here, name :: rest =>
    if 255 < name.utf8ByteSize then .error .nameTooLong
    else
      let next := here ++ [name]
      match t.entry? next with
      | none => if rest.isEmpty then .ok (.absent next, asking) else .error .notFound
      | some .directory => walkToLink t follow onLink asking next rest
      | some (.link target) =>
        if rest.isEmpty && !follow && asking = .nothing then .ok (.found next (.link target), asking)
        else
          let start := if (Path.mk target).isAbsolute then [] else here
          let asking := if rest.isEmpty && asking = .nothing then Asking.of target else asking
          onLink asking start (steps target ++ rest)
      | some entry =>
        if rest.isEmpty && asking = .nothing then .ok (.found next entry, asking)
        else .error .notADirectory

/-- Walks the steps of a path from a directory, following at most so many links. -/
def walk (t : FileTree) (follow : Bool) :
    (links : Nat) → Asking → Location → List String → Except FileError (Resolved × Asking)
  | 0 => t.walkToLink follow (fun _ _ _ => .error .tooManyLinks)
  | links + 1 => t.walkToLink follow (walk t follow links)

/-- Where a path leads and how it asks for a directory, the link at its end followed or not. -/
def follow (t : FileTree) (last : Bool) (p : Path) : Except FileError (Resolved × Asking) := do
  if p.text.toList.contains '\x00' then throw .nulInName
  if p.text = "" then throw .notFound
  if 4095 < p.text.utf8ByteSize then throw .nameTooLong
  let start := if p.isAbsolute then [] else t.origin
  t.walk last linkLimit (Asking.of p.text) start (steps p.text)

/-- Where a path leads, the link at its end followed or not. -/
def resolve (t : FileTree) (last : Bool) (p : Path) : Except FileError Resolved :=
  (t.follow last p).map Prod.fst

/-- The entry that a path names, links followed. -/
def metadata (t : FileTree) (p : Path) : Except FileError Entry := do
  match ← t.resolve true p with
  | .found _ entry => return entry
  | .absent _ => throw .notFound

/-- Whether a path names a directory. -/
def isDirectory (t : FileTree) (p : Path) : Bool :=
  match t.metadata p with
  | .ok .directory => true
  | _ => false

/-- Whether a path names a regular file. -/
def isFile (t : FileTree) (p : Path) : Bool :=
  match t.metadata p with
  | .ok (.file ..) => true
  | _ => false

/-- Whether a path names anything. -/
def pathExists (t : FileTree) (p : Path) : Bool := (t.metadata p).toOption.isSome

/-- Whether a path names a regular file that may be executed. -/
def isExecutable (t : FileTree) (p : Path) : Bool :=
  match t.metadata p with
  | .ok (.file _ executable) => executable
  | _ => false

/-- The bytes of a file. -/
def readBytes (t : FileTree) (p : Path) : Except FileError ByteArray := do
  match ← t.metadata p with
  | .file content _ => return content
  | .device => return .empty
  | .directory => throw .isADirectory
  | .link _ => throw .notFound

/-- The text of a file. -/
def readText (t : FileTree) (p : Path) : Except FileError String := do
  match Text.ofUtf8? (← t.readBytes p) with
  | some s => return s
  | none => throw .notText

/-- The names in a directory with the entries as they stand, links not followed. -/
def readDirectory (t : FileTree) (p : Path) : Except FileError (List (String × Entry)) := do
  match ← t.resolve true p with
  | .found at_ .directory => return t.children at_
  | .found .. => throw .notADirectory
  | .absent _ => throw .notFound

/-- Writes a file, creating it if its directory exists. -/
def writeBytes (t : FileTree) (p : Path) (content : ByteArray) : Except FileError FileTree := do
  match ← t.follow true p with
  | (.found at_ (.file _ executable), _) => return t.set at_ (.file content executable)
  | (.found _ .device, _) => return t
  | (.found _ _, _) => throw .isADirectory
  | (.absent at_, .nothing) => return t.set at_ (.file content false)
  | (.absent _, .separator) => throw .isADirectory
  | (.absent _, .step) => throw .notFound

/-- The path without separators at its end. -/
def withoutEnd (p : Path) : Path :=
  let kept := p.text.toList.reverse.dropWhile (· = '/')
  if kept.isEmpty then p else ⟨String.ofList kept.reverse⟩

/-- Creates one directory. What stands in its place may be anything. -/
def makeDirectory (t : FileTree) (p : Path) : Except FileError FileTree := do
  match ← t.follow false (withoutEnd p) with
  | (.found .., _) => throw .alreadyExists
  | (.absent _, .step) => throw .notFound
  | (.absent at_, _) => return t.set at_ .directory

/-- Creates one directory unless there is one. -/
def ensureDirectory (t : FileTree) (p : Path) : Except FileError FileTree :=
  match t.makeDirectory p with
  | .error .alreadyExists => if t.isDirectory p then .ok t else .error .alreadyExists
  | made => made

/-- Creates the directories of a list, outermost last, where none of them exists; one that could
not be created for want of those above it is there when these are, if it leads back to one. -/
def makeUpwards (t : FileTree) : List Path → Except FileError FileTree
  | [] => return t
  | p :: above =>
    if p.text = "" then return t
    else
      match t.ensureDirectory p with
      | .error .notFound => do (← makeUpwards t above).ensureDirectory p
      | made => made

/-- Creates a directory and those above it. -/
def makeDirectories (t : FileTree) (p : Path) : Except FileError FileTree :=
  t.makeUpwards p.ancestors

/-- Moves a directory with everything below it. -/
def moveTree (t : FileTree) (source target : Location) : FileTree :=
  { t with
    entries := (t.remove target).entries.map fun (location, entry) =>
      if source.isPrefixOf location then (target ++ location.drop source.length, entry)
      else (location, entry) }

/-- Moves an entry onto another path. A file there is replaced, and so is an empty directory by a
directory. No directory moves into itself. -/
def rename (t : FileTree) (source target : Path) : Except FileError FileTree := do
  match ← t.resolve false source, ← t.follow false target with
  | .absent _, _ => throw .notFound
  | .found here .directory, (.found there .directory, _) =>
    if here = there then return t
    else if here.isPrefixOf there then throw .other
    else if (t.children there).isEmpty then return t.moveTree here there
    else throw .directoryNotEmpty
  | .found _ .directory, (.found .., _) => throw .notADirectory
  | .found here .directory, (.absent there, _) =>
    if here.isPrefixOf there then throw .other else return t.moveTree here there
  | .found _ _, (.found _ .directory, _) => throw .isADirectory
  | .found here entry, (.found there _, _) =>
    return if here = there then t else (t.remove here).set there entry
  | .found here entry, (.absent there, .nothing) => return (t.remove here).set there entry
  | .found _ _, (.absent _, _) => throw .notADirectory

/-- The tree without what a path names, and without everything below it. -/
def removeAll (t : FileTree) (p : Path) : FileTree :=
  match t.resolve false p with
  | .ok (.found at_ _) => t.remove at_
  | _ => t

/-- The path of a location. -/
def pathOf (at_ : Location) : Path := ⟨"/" ++ String.intercalate "/" at_⟩

/-- The absolute path without links that a path stands for. -/
def canonical (t : FileTree) (p : Path) : Except FileError Path := do
  match ← t.resolve true p with
  | .found at_ _ => return pathOf at_
  | .absent _ => throw .notFound

/-- Why a program was not found. -/
inductive SearchFailure where
  | notFound
  | nothingToSearch
  deriving DecidableEq, Repr

/-- The wording of the failure. -/
def SearchFailure.message : SearchFailure → String
  | .notFound => "cannot find binary path"
  | .nothingToSearch => "no path to search and provided name is not an absolute path"

/-- A directory of a search path, the home directory in place of a tilde at its front. -/
def searchedDirectory (t : FileTree) (entry : String) : Path :=
  match (Path.mk entry).components, t.home with
  | .name "~" :: steps, some home => steps.foldl (fun p step => p.join step.text) home
  | _, _ => ⟨entry⟩

/-- Finds a program: a name with a separator is seen from `directory`, any other one is looked up
in the directories of the search path, which are seen from there, too. Only executable regular
files count. -/
def which (t : FileTree) (program : String) (searchPath : Option String) (directory : Path) :
    Except SearchFailure Path :=
  let check (p : Path) : Bool := t.isExecutable p
  if 1 < (Path.mk program).components.length then
    let p := directory.joinSteps program
    if check p then .ok p else .error .notFound
  else
    match searchPath with
    | none => .error .nothingToSearch
    | some path =>
      let found := (Text.splitAt ':' path).map fun entry =>
        directory.joinSteps ((t.searchedDirectory entry).join program).text
      match found.find? check with
      | some p => .ok p
      | none => .error .notFound

/-- The tree as it is seen from a directory. -/
def seenFrom (t : FileTree) (directory : Path) : FileTree :=
  match t.resolve true directory with
  | .ok (.found at_ .directory) => { t with origin := at_ }
  | _ => t

/-! ## The files of every system

Below the root of a system stand directories, links between them, and devices. They are there
whatever else is. -/

/-- The directories of a system, those above first. -/
def systemDirectories : List Location :=
  [["boot"], ["dev"], ["etc"], ["home"], ["media"], ["mnt"], ["opt"], ["proc"], ["root"], ["run"],
    ["srv"], ["sys"], ["tmp"], ["usr"], ["usr", "bin"], ["usr", "lib"], ["usr", "lib64"],
    ["usr", "local"], ["usr", "local", "bin"], ["usr", "sbin"], ["usr", "share"], ["var"],
    ["var", "lib"], ["var", "log"], ["var", "tmp"]]

/-- The links of a system. -/
def systemLinks : List (Location × String) :=
  [(["bin"], "usr/bin"), (["lib"], "usr/lib"), (["lib64"], "usr/lib64"), (["sbin"], "usr/sbin")]

/-- The devices of a system. -/
def systemDevices : List Location :=
  ["full", "null", "random", "tty", "urandom", "zero"].map (["dev", ·])

/-- The tree of a system on which nothing was put. -/
def system : FileTree :=
  { entries := systemDirectories.map (·, .directory) ++ systemLinks.map (fun l => (l.1, .link l.2))
      ++ systemDevices.map (·, .device) }

end FileTree

end RubySupervisor
