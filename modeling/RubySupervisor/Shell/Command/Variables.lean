import RubySupervisor.Shell.Command.Settings
import RubySupervisor.Shell.Fields
import RubySupervisor.Shell.Run

/-!
# Commands on variables

Variables are exported, kept as they are, made local to a function, and forgotten, and what there
is can be listed in such a way that a shell can read it again.
-/

namespace RubySupervisor.Shell

namespace Run

/-- Does what depends on options, or fails because of them. -/
def withOptions (plain valued : String) (arguments : List Bytes) (act : Options → Run Unit) :
    Run Unit :=
  match commandOptions plain valued arguments with
  | .ok options => act options
  | .error complaint => fail complaint

/-- Fails if a text is not the name of a variable, or of one that keeps its value. -/
def requireFree (name : String) : Run Unit := do
  if !isName name.toList then fail (name ++ ": bad variable name")
  if (← get).fixed.contains name then fail (name ++ ": is read only")

end Run

/-- The name and the value in an argument. -/
def binding (argument : Bytes) : String × Option Bytes :=
  let (name, rest) := argument.span (· != byte '=')
  (Text.lossyText name, rest.tail?)

/-- The lines that set variables again, in the order of their names; a word may stand in front. -/
def State.listing (s : State) (before : String) (names : List String) : Bytes :=
  (names.eraseDups.mergeSort (fun a b => Tool.isOrdered (bytesOf a) (bytesOf b))).flatMap fun name =>
    bytesOf (before ++ name)
      ++ ((s.bindings.find? name).elim [] (fun value => byte '=' :: Quoting.again value))
      ++ [byte '\n']

/-- Marks variables, with new values where they are given. -/
def markAll (mark : String → State → State) (arguments : List Bytes) : Run Unit :=
  arguments.forM fun argument => do
    let (name, value?) := binding argument
    match value? with
    | some value => Run.assign name value
    | none =>
      if !isName name.toList then Run.fail (name ++ ": bad variable name")
    modify (mark name)

/-- Marks variables or lists the marked ones. -/
def marking (keyword : String) (marked : State → List String) (mark : String → State → State)
    (arguments : List Bytes) : Run Unit :=
  Run.withOptions "p" "" arguments fun o => do
    if o.has 'p' || o.operands.isEmpty then
      let s ← get
      Run.write (s.listing (keyword ++ " ") (marked s))
    else markAll mark o.operands
    Run.setStatus 0

/-- Exports variables. -/
def exportVariables : List Bytes → Run Unit :=
  marking "export" (·.exported) (fun name s => s.withExported [name])

/-- Keeps variables as they are. -/
def fixVariables : List Bytes → Run Unit :=
  marking "readonly" (·.fixed) (fun name s => { s with fixed := name :: s.fixed })

/-- Forgets variables or functions. -/
def unsetNames (arguments : List Bytes) : Run Unit :=
  Run.withOptions "vf" "" arguments fun o => do
    let names := Tool.texts o.operands
    if o.last? ['v', 'f'] = some 'f' then
      modify (fun s => { s with functions := s.functions.filter (!names.contains ·.1) })
    else
      names.forM fun name => do
        Run.requireFree name
        modify (·.forget [name])
    Run.setStatus 0

/-- Gives variables values of their own up to the end of the running function. -/
def keepLocal (arguments : List Bytes) : Run Unit := do
  if (← get).kept.isNone then Run.fail "not in a function"
  arguments.forM fun argument => do
    let (name, value?) := binding argument
    if !isName name.toList then Run.fail (name ++ ": bad variable name")
    modify (fun s => { s with kept := s.kept.map ((name, s.bindings.find? name) :: ·) })
    value?.forM (Run.assign name)
  Run.setStatus 0

/-- Values for variables, or none where there was none. -/
def State.restoreValues (s : State) (kept : List (String × Option Bytes)) : State :=
  kept.foldl (fun s (name, value) =>
    match value with
    | some value => s.assign name value
    | none => { s with bindings := s.bindings.erase name }) s

/-- Changes the modes and the arguments of the shell, or lists its variables. -/
def changeSettings (arguments : List Bytes) : Run Unit := do
  let s ← get
  if arguments.isEmpty then Run.write (s.listing "" s.bindings.names)
  else
    match Settings.read false s.modes arguments with
    | .error complaint => Run.fail complaint
    | .ok settings =>
      let s := { s with modes := settings.modes }
      set (if settings.isFinal || !settings.operands.isEmpty then
        { s with arguments := settings.operands, optionWord := 1, optionPlace := none } else s)
      Run.write (bytesOf settings.shown)
  Run.setStatus 0

/-- Looks for the next option among the arguments of the shell or among others. -/
def takeOption (arguments : List Bytes) : Run Unit :=
  match arguments with
  | known :: target :: others => do
    let s ← get
    let words := if others.isEmpty then s.arguments else others
    let (word, place) := if words.length + 1 < s.optionWord then (1, none)
      else (s.optionWord, s.optionPlace)
    let step := nextOption known words word place
    step.complaint.forM (fun text => Run.writeErrors (text ++ "\n"))
    step.value.forM (Run.assign "OPTARG")
    Run.assign "OPTIND" (bytesOf (Text.natText step.word))
    modify (fun s => { s with optionWord := step.word, optionPlace := step.place })
    Run.assign (Text.lossyText target) step.letter
    Run.setStatus (if step.isOver then 1 else 0)
  | _ => Run.fail "Usage: getopts optstring var [arg...]"

/-- Reads a line into variables. -/
def readLine (arguments : List Bytes) : Run Unit :=
  Run.withOptions "r" "p" arguments fun o => do
    if o.operands.isEmpty then Run.fail "arg count"
    let s ← get
    if s.source = .zeros then Run.starve
    let (line, rest, ended) := Line.read (o.has 'r') s.input
    if !ended && !s.source.hasEnded then Run.starve
    set (s.leaving rest)
    let values := Line.divide s.separators o.operands.length line
    ((Tool.texts o.operands).zip values).forM (fun (name, value) => Run.assign name value)
    Run.setStatus (if ended then 0 else 1)

end RubySupervisor.Shell
