import RubySupervisor.Files.Watching

/-!
# Watching a folder

A change of the locked dependencies of a workspace or of a configuration of its linter calls for a
restart of the server: a lock file directly in the folder, a linter configuration anywhere below. A
watched folder reports the touched paths that call for a restart. The folder is watched where it
really is; what is reached from it through links is reported below it. A lookout keeps in mind that
a restart was called for until somebody begins one.
-/

namespace RubySupervisor.Trigger

/-- The names of the lock files. -/
def lockFiles : List String := ["Gemfile.lock", "gems.locked"]

/-- The name of the linter's configuration file. -/
def linterFile : String := ".rubocop.yml"

/-- Whether the steps from a folder lead to a file that calls for a restart. -/
def isTrigger (steps : List Path.Component) : Bool :=
  lockFiles.any (fun file => steps = [.name file]) || steps.getLast? = some (.name linterFile)

/-- Whether a change of a path calls for a restart in a folder. -/
def restarts (root path : Path) : Bool :=
  (Path.stepsAfter? path.components root.components).any isTrigger

end RubySupervisor.Trigger

namespace RubySupervisor.Watch

/-- The folder that is watched in place of one that may be reached through links. -/
def folder (files : FileTree) (root : Path) : Path :=
  (files.canonical root).toOption.getD root

/-- The paths that changes, one after another, make the watch on a folder report. The folder is
watched from before the first change on. -/
def reported (files : FileTree) (root : Path) (changes : List FileChange) : List Path :=
  let folder := folder files root
  ((Watching.ofFolder files folder).toldBy files changes).filter (Trigger.restarts folder)

/-- The reported paths in order, each once. -/
def reportedPaths (files : FileTree) (root : Path) (changes : List FileChange) : List String :=
  (Dict.ofPairs ((reported files root changes).map (fun p => (p.text, ())))).names

end RubySupervisor.Watch

namespace RubySupervisor

/-- Somebody who looks out for changes that call for a restart in a folder. -/
structure Lookout where
  folder : Path
  watching : Watching
  /-- The files at the last look. -/
  seen : FileTree
  /-- A restart was called for, and nobody has begun one. -/
  isAlarmed : Bool

namespace Lookout

/-- A lookout on a folder, before anything has changed. -/
def ofFolder (files : FileTree) (root : Path) : Lookout :=
  let folder := Watch.folder files root
  ⟨folder, .ofFolder files folder, files, false⟩

/-- What has happened to the entries between two looks; directories come before what they hold. -/
def events (before after : FileTree) : List FileEvent :=
  let changes := (before.differences after).mergeSort (fun a b => a.1.length ≤ b.1.length)
  changes.map fun (at_, entry) =>
    if entry.isNone then .gone at_
    else if (before.entry? at_).isSome then .written at_
    else .made at_

/-- The lookout after another look at the files. -/
def look (l : Lookout) (files : FileTree) : Lookout :=
  let (told, watching) := l.watching.observeAll files (events l.seen files)
  { l with
    watching
    seen := files
    isAlarmed := l.isAlarmed || told.any (Trigger.restarts l.folder) }

end Lookout

end RubySupervisor
