import RubySupervisor.Dict
import RubySupervisor.Files.Tree
import RubySupervisor.Shell.Pattern
import RubySupervisor.Shell.Tool.Call

/-!
# Patterns as paths

A field with a pattern in it stands for the paths that it describes, in ascending order, and for
itself if there are none. Names that begin with a dot are described by patterns that do so too.
-/

namespace RubySupervisor.Shell

/-- Bytes, each with the note whether it was quoted. -/
abbrev Noted := List (UInt8 × Bool)

namespace Noted

/-- Whether bytes hold a pattern. -/
def isPattern (s : Noted) : Bool :=
  s.any (fun (b, quoted) => !quoted && (b = byte '*' || b = byte '?' || b = byte '['))

/-- The bytes without their notes. -/
def bytes (s : Noted) : Bytes := s.map Prod.fst

/-- The steps of a path, some of them patterns. -/
def steps (s : Noted) : List Noted :=
  s.foldr (fun b (steps : List Noted) =>
    if b.1 = byte '/' then [] :: steps
    else
      match steps with
      | [] => [[b]]
      | step :: rest => (b :: step) :: rest) [[]]

/-- The paths that steps lead to from a base. -/
def pathsFrom (files : FileTree) (directory : Path) (base : Bytes) : List Noted → List Bytes
  | [] => []
  | [last] =>
    if last.isPattern then (names last).map (base ++ ·)
    else
      let p := base ++ last.bytes
      if files.pathExists (directory.join (Text.lossyText p)) then [p] else []
  | step :: rest =>
    let onward (name : Bytes) : List Bytes :=
      pathsFrom files directory (base ++ name ++ [byte '/']) rest
    if step.isPattern then (names step).flatMap onward else onward step.bytes
where
  /-- The names in the directory of the base that a step describes. -/
  names (step : Noted) : List Bytes :=
    let here := if base.isEmpty then directory else directory.join (Text.lossyText base)
    let children := (files.readDirectory here).toOption.map (fun entries => (Dict.ofPairs entries).names)
    let isDotted := step.bytes.head? == some (byte '.')
    let all := children.elim [] (fun names => if isDotted then "." :: ".." :: names else names)
    let pattern := Pattern.ofBytes step
    let found := (all.map bytesOf).filter (fun name =>
      Pattern.isMatch pattern name && (name.head? == some (byte '.')) == isDotted)
    if isDotted then found.mergeSort Tool.isOrdered else found

/-- The fields that a field stands for. -/
def paths (files : FileTree) (directory : Path) (s : Noted) : List Bytes :=
  if s.isPattern then
    match pathsFrom files directory [] s.steps with
    | [] => [s.bytes]
    | found => found
  else [s.bytes]

end Noted

end RubySupervisor.Shell
