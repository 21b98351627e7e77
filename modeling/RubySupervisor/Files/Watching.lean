import RubySupervisor.Files.Listing

/-!
# Watched directories

A change makes one tree out of another by events at locations: entries come into being, are
written, or go. Moving a directory is one event, whatever the directory holds; looking at a file is
none.

A tree is watched directory by directory: what happens in a directory is told under the path by
which the directory was reached. Links to directories are followed when the watching starts, so
that one directory may be reached twice; then the path that was found last counts. A directory
keeps its path when it is moved from elsewhere to elsewhere, and loses it when the entry goes
that the path names.
-/

/-! ## Changes -/

namespace RubySupervisor

/-- A change of the files, or a look at them. -/
inductive FileChange where
  /-- An entry is written as in a listing. -/
  | put (path : Path) (entry : Json)
  | move (source target : Path)
  /-- A path goes, with everything below it. -/
  | remove (path : Path)
  | look (path : Path)

/-- Something that happens to an entry. -/
inductive FileEvent where
  | made (at_ : Location)
  | written (at_ : Location)
  | gone (at_ : Location)
  | moved (source target : Location)
  deriving Repr

namespace FileChange

/-- The change that a value describes. -/
def ofJson (j : Json) : FileChange :=
  let path : Path := ⟨j.textAt "path"⟩
  if j.boolAt "remove" then .remove path
  else if j.boolAt "read" then .look path
  else
    match j.textAt? "to" with
    | some target => .move path ⟨target⟩
    | none => .put path (j.member "content")

/-- The tree after a change; a change that is not possible leaves it as it is. -/
def apply (t : FileTree) : FileChange → FileTree
  | put p entry => t.withListed p entry
  | move source target => (t.rename source target).toOption.getD t
  | remove p => t.removeAll p
  | look _ => t

/-- The location that a path stands for, links at its end not followed. -/
def locationOf? (t : FileTree) (p : Path) : Option Location :=
  match t.resolve false p with
  | .ok (.found at_ _) => some at_
  | .ok (.absent at_) => some at_
  | .error _ => none

/-- The locations that are in one tree and not in another. -/
def added (before after : FileTree) : List Location :=
  (after.entries.map Prod.fst).filter (fun at_ => (before.entry? at_).isNone)

/-- What a change does, in order: directories come before and go after what they hold. -/
def events (t : FileTree) (change : FileChange) : List FileEvent :=
  let after := change.apply t
  match change with
  | put p entry =>
    let made := (added t after).mergeSort (fun a b => a.length ≤ b.length)
    let written := match entry with
      | .null => []
      | _ => [FileEvent.written (t.placeOf p)]
    made.map FileEvent.made ++ written
  | move source target =>
    match t.rename source target, locationOf? t source, locationOf? t target with
    | .ok _, some here, some there => [.moved here there]
    | _, _, _ => []
  | remove _ =>
    ((added after t).mergeSort (fun a b => b.length ≤ a.length)).map FileEvent.gone
  | look _ => []

end FileChange

/-! ## Watching -/

/-- A watched directory and the path under which it is told about. -/
structure Watched where
  directory : Location
  path : Path
  deriving Repr

/-- The watched directories, the one that was found last first. -/
structure Watching where
  watched : List Watched

namespace Watching

/-- No path in a tree has more steps than this: a step takes two bytes of 4095. -/
def deepest : Nat := 2047

/-- The directories from one on, in the order in which they are found, links to directories
followed unless they lead back to one of those above. -/
def found (t : FileTree) : Nat → List Location → Watched → List Watched
  | 0, _, _ => []
  | depth + 1, above, start =>
    let above := start.directory :: above
    let names := (t.children start.directory).mergeSort (fun a b => a.1 ≤ b.1)
    start :: names.flatMap fun (name, entry) =>
      let at_ := start.directory ++ [name]
      let inside (directory : Location) := found t depth above ⟨directory, start.path.join name⟩
      match entry with
      | .directory => inside at_
      | .link _ =>
        match t.resolve true (FileTree.pathOf at_) with
        | .ok (.found there .directory) => if above.contains there then [] else inside there
        | _ => []
      | _ => []

/-- The watching with the directories from one on. -/
def watch (w : Watching) (t : FileTree) (start : Watched) : Watching :=
  ⟨(found t deepest [] start).reverse ++ w.watched⟩

/-- The watching of a folder. A folder that is not there is not watched. -/
def ofFolder (t : FileTree) (folder : Path) : Watching :=
  match t.resolve true folder with
  | .ok (.found at_ .directory) => watch ⟨[]⟩ t ⟨at_, folder⟩
  | _ => ⟨[]⟩

/-- The path under which a directory is told about. -/
def pathOf? (w : Watching) (directory : Location) : Option Path :=
  (w.watched.find? (·.directory = directory)).map Watched.path

/-- The path under which an entry of a watched directory is told about. -/
def told? (w : Watching) (at_ : Location) : Option Path := do
  let name ← at_.getLast?
  let directory ← w.pathOf? at_.dropLast
  return directory.join name

/-- The watching without some directories. -/
def without (w : Watching) (gone : Location → Bool) : Watching :=
  ⟨w.watched.filter (fun x => !gone x.directory)⟩

/-- The watching after the entry went that a path named: the directory that was reached by the
path is not watched any more, and neither are those that are told about below it. -/
def dropped (w : Watching) (path : Path) : Watching :=
  let named := w.watched.filter (fun x => x.path.text = path.text)
  let isBelow (p : Path) : Bool := (Path.stepsAfter? p.components path.components).isSome
  if named.isEmpty then w
  else w.without fun directory =>
    named.any (·.directory = directory) || (w.pathOf? directory).any isBelow

/-- The watching after an entry went. -/
def leave (w : Watching) (at_ : Location) : Watching :=
  ((w.told? at_).map w.dropped).getD w

/-- The watching after an entry came, with the directories in it if the path under which it is told
about leads to a directory. -/
def enter (w : Watching) (t : FileTree) (at_ : Location) : Watching :=
  match w.told? at_, t.entry? at_ with
  | some path, some .directory =>
    match t.resolve true path with
    | .ok (.found there .directory) => w.watch t ⟨there, path⟩
    | _ => w
  | _, _ => w

/-- The watching after a directory came to another place. -/
def relocated (w : Watching) (source target : Location) : Watching :=
  ⟨(w.without target.isPrefixOf).watched.map fun x =>
    if source.isPrefixOf x.directory then
      { x with directory := target ++ x.directory.drop source.length }
    else x⟩

/-- What an event tells, and the watching after it; the tree is the one after the change. -/
def observe (w : Watching) (t : FileTree) : FileEvent → List Path × Watching
  | .made at_ => ((w.told? at_).toList, w.enter t at_)
  | .written at_ => ((w.told? at_).toList, w)
  | .gone at_ => ((w.told? at_).toList, (w.leave at_).without at_.isPrefixOf)
  | .moved source target =>
    if source = target then ([], w)
    else
      ((w.told? source).toList ++ (w.told? target).toList,
        ((w.leave source).relocated source target).enter t target)

/-- What events tell, one after another, and the watching after them. -/
def observeAll (w : Watching) (t : FileTree) : List FileEvent → List Path × Watching
  | [] => ([], w)
  | event :: rest =>
    let (told, w) := w.observe t event
    let (more, w) := w.observeAll t rest
    (told ++ more, w)

/-- What changes tell, one after another. -/
def toldBy (w : Watching) (t : FileTree) : List FileChange → List Path
  | [] => []
  | change :: rest =>
    let after := change.apply t
    let (told, w) := w.observeAll after (change.events t)
    told ++ w.toldBy after rest

end Watching

end RubySupervisor
