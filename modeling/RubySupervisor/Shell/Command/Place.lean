import RubySupervisor.Shell.Command.Variables
import RubySupervisor.Shell.Program

/-!
# Commands on the place of a shell

A shell is in a directory and remembers the links through which it came there. It enters another
one by a path or by a name that is looked for in a list of directories.
-/

namespace RubySupervisor.Shell

/-- The path without the steps that lead back. -/
def withoutDots (p : Path) : Path :=
  let steps := p.pieces.foldl (fun (steps : List String) piece =>
    if piece = "" || piece = "." then steps
    else if piece = ".." then steps.dropLast
    else steps ++ [piece]) []
  ⟨"/" ++ String.intercalate "/" steps⟩

namespace State

/-- The text of a variable, or nothing. -/
def textOf (s : State) (name : String) : String :=
  ((s.bindings.find? name).map Text.lossyText).getD ""

/-- The paths at which a directory is looked for, and whether it is to be told where it was
found. -/
def entrances (s : State) (target : String) : List (String × Bool) :=
  let isPlain := target.toList.head? = some '/' ||
    ["." , ".."].contains (String.ofList (target.toList.takeWhile (· != '/')))
  let found := if isPlain || s.textOf "CDPATH" = "" then [] else
    (searchedPaths (s.textOf "CDPATH") target).map (fun path => (path, path != target))
  found ++ [(target, false)]

/-- The state after entering a directory, with the variables that say so still to be set. -/
def enter (s : State) (isPhysical : Bool) (target : String) : Option State :=
  let p := withoutDots (s.entered.join target)
  let here := if isPhysical then s.directory.join target else p
  if s.files.isDirectory here then
    let directory := (s.files.canonical here).toOption.getD here
    some { s with directory, entered := if isPhysical then directory else p }
  else none

end State

/-- Enters a directory. -/
def changeDirectory (arguments : List Bytes) : Run Unit :=
  Run.withOptions "LP" "" arguments fun o => do
    let s ← get
    let isPhysical := o.last? ['L', 'P'] = some 'P'
    let asked := Text.lossyText (o.operands.head?.getD (bytesOf (s.textOf "HOME")))
    let isBack := asked = "-"
    let asked := if isBack then s.textOf "OLDPWD" else asked
    let target := if asked = "" then "." else asked
    let entered := (s.entrances target).findSome? fun (path, isTold) =>
      (s.enter isPhysical path).map (·, isTold || isBack)
    match entered with
    | none => Run.fail ("can't cd to " ++ target)
    | some (after, isTold) =>
      set (after.withExported ["PWD", "OLDPWD"])
      Run.assign "OLDPWD" (bytesOf s.entered.text)
      Run.assign "PWD" (bytesOf after.entered.text)
      if isTold then Run.write (bytesOf (after.entered.text ++ "\n"))
      Run.setStatus 0

/-- Tells the directory. -/
def tellDirectory (arguments : List Bytes) : Run Unit :=
  Run.withOptions "LP" "" arguments fun o => do
    let s ← get
    let shown := if o.last? ['L', 'P'] = some 'P' then
      (s.files.canonical s.directory).toOption.getD s.directory else s.entered
    Run.write (bytesOf (shown.text ++ "\n"))
    Run.setStatus 0

/-- Tells or changes the permissions that new files do not get. -/
def changeMask (arguments : List Bytes) : Run Unit :=
  Run.withOptions "S" "" arguments fun o => do
    let s ← get
    match o.operands with
    | [] => Run.write (bytesOf ((if o.has 'S' then maskText s.mask else maskDigits s.mask) ++ "\n"))
    | argument :: _ =>
      match maskOf s.mask argument with
      | .ok mask => set { s with mask }
      | .error complaint => Run.fail complaint
    Run.setStatus 0

end RubySupervisor.Shell
