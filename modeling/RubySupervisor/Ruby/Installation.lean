import RubySupervisor.Files.Tree
import RubySupervisor.Ruby.Error
import RubySupervisor.Ruby.Version
import RubySupervisor.Text.Scan

/-!
# Installed Rubies

Version managers install Rubies under roots of their own. A complete version is looked up by its
directory name; a partial one takes the greatest name that begins with it.
-/

namespace RubySupervisor

/-- The version manager that restricts where Rubies are looked for. -/
inductive VersionManager where
  | auto
  | asdf
  | chruby
  | rbenv
  | rvm
  | none
  deriving DecidableEq, Repr, Inhabited

namespace VersionManager

/-- Every manager, in the order in which they are shown. -/
def all : List VersionManager := [auto, asdf, chruby, rbenv, rvm, none]

/-- The name of the manager in the settings. -/
def name : VersionManager → String
  | auto => "auto"
  | asdf => "asdf"
  | chruby => "chruby"
  | rbenv => "rbenv"
  | rvm => "rvm"
  | none => "none"

/-- The manager of a name. -/
def ofName (s : String) : Except RubyError VersionManager :=
  match all.find? (fun manager => manager.name = s) with
  | some manager => .ok manager
  | Option.none => .error (.unknownVersionManager s)

/-- The directories in which the manager installs Rubies, the first one first. -/
def roots (manager : VersionManager) (home : Path) : List Path :=
  let below (names : List String) : Path := names.foldl Path.join home
  let opt : Path := ⟨"/opt/rubies"⟩
  let own := below [".rubies"]
  let rbenvRoot := below [".rbenv", "versions"]
  let rtx := below [".local", "share", "rtx", "installs", "ruby"]
  let asdfRoot := below [".asdf", "installs", "ruby"]
  let rvmRoot := below [".rvm", "rubies"]
  match manager with
  | auto => [opt, own, rbenvRoot, rtx, asdfRoot, rvmRoot]
  | asdf => [asdfRoot]
  | chruby => [opt, own]
  | rbenv => [rbenvRoot]
  | rvm => [rvmRoot]
  | none => []

end VersionManager

namespace Installation

/-- The names that an installation of a version may have. -/
def names (version : String) (engine : Option String) : List String :=
  version :: (engine.map (fun e => e ++ "-" ++ version)).toList

/-- The first of the exact names that is a directory of the root. -/
def byName? (files : FileTree) (root : Path) (version : String) (engine : Option String) :
    Option Path :=
  ((names version engine).map root.join).find? files.isDirectory

/-- The greater of two names. -/
def later (a b : String) : String := if a < b then b else a

/-- The greatest name of a list. -/
def greatest? : List String → Option String
  | [] => none
  | name :: rest => some (rest.foldl later name)

/-- Whether an installation name begins with one of the names of a version. -/
def isCandidate (version : String) (engine : Option String) (name : String) : Bool :=
  (names version engine).any (Text.startsWith name)

/-- The greatest candidate among the directories of the root; links do not count. -/
def latest? (files : FileTree) (root : Path) (version : String) (engine : Option String) :
    Option Path :=
  match files.readDirectory root with
  | .error _ => none
  | .ok children =>
    let directories := children.filterMap fun (name, entry) =>
      match entry with
      | .directory => some name
      | _ => none
    (greatest? (directories.filter (isCandidate version engine))).map root.join

/-- The installation of a version in one root. -/
def inRoot? (files : FileTree) (version : String) (engine : Option String) (root : Path) :
    Option Path :=
  if RubyVersion.isComplete version then byName? files root version engine
  else latest? files root version engine

/-- The installation directory of a version: the match of the first root that has one. -/
def find (files : FileTree) (roots : List Path) (version : String) (engine : Option String) :
    Except RubyError Path :=
  match roots.findSome? (inRoot? files version engine) with
  | some path => .ok path
  | none => .error (.installationNotFound version)

/-- The directory of a selected Ruby: the directory itself, or the one that holds the file. -/
def binDirectory (files : FileTree) (selected : Path) : Path :=
  if files.isFile selected then selected.parent?.getD selected else selected

end Installation

end RubySupervisor
