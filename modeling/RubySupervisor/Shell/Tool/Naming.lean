import RubySupervisor.Shell.Tool.Call

/-!
# Tools for names of files

Tools that take paths apart and say where paths lead.
-/

namespace RubySupervisor.Shell

namespace Tool

/-- The last step of a path, without a suffix. -/
def baseName (suffix name : Bytes) : Bytes :=
  let rootOrAll := if name.head? = some (byte '/') then [byte '/'] else name
  let base := (((Path.mk (Text.lossyText name)).fileName?).map bytesOf).getD rootOrAll
  if suffix.isSuffixOf base && base ≠ suffix then base.take (base.length - suffix.length)
  else base

/-- Prints the last steps of paths. -/
def basename (c : ToolCall) : ToolRun :=
  let names := [("multiple", 'a'), ("suffix", 's'), ("zero", 'z')]
  c.withOptions { plain := "az", valued := "s", names, endsAtOperand := true } 1 fun o =>
    let lineEnd := if o.has 'z' then [0] else [byte '\n']
    let several := o.has 'a' || o.has 's'
    match o.operands, several with
    | [], _ => c.lacking "missing operand"
    | named, true =>
      c.done (named.flatMap (fun name => baseName ((o.value? 's').getD []) name ++ lineEnd)) 0
    | _ :: _ :: extra :: _, false => c.lacking ("extra operand " ++ Quoting.forReading extra)
    | name :: suffix, false => c.done (baseName suffix.flatten name ++ lineEnd) 0

/-- Prints paths without their last steps. -/
def dirname (c : ToolCall) : ToolRun :=
  c.withOptions { plain := "z", names := [("zero", 'z')] } 1 fun o =>
    let parent (name : String) : String := match (Path.mk name).parent? with
      | some p => if p.text = "" then "." else p.text
      | none => if name.toList.head? = some '/' then "/" else "."
    if o.operands.isEmpty then c.lacking "missing operand"
    else
      c.done ((texts o.operands).flatMap (fun name =>
        bytesOf (parent name) ++ if o.has 'z' then [0] else [byte '\n'])) 0

/-- Prints where programs are: the first place of each, or every place. -/
def which (c : ToolCall) : ToolRun :=
  let all := c.arguments.contains (bytesOf "-a")
  let named := c.arguments.filter (· ≠ bytesOf "-a")
  let path := ((c.environment.find? "PATH").map Text.lossyText).getD ""
  let places (name : String) : List String :=
    let directories := if name.toList.contains '/' then none else some (Text.splitAt ':' path)
    let found (directory : Option String) : Option String :=
      (c.files.which name directory c.directory).toOption.map (·.text)
    match directories with
    | none => (found none).toList
    | some directories => directories.filterMap (fun directory => found (some directory))
  let found := (texts named).map places
  c.done (found.flatMap (fun places =>
    (if all then places else places.take 1).flatMap (fun p => bytesOf (p ++ "\n"))))
    (if !named.isEmpty && found.all (!·.isEmpty) then 0 else 1)

/-- The absolute path without links that a path leads to, of which the last step need not be there
unless that is asked for. -/
def landing (c : ToolCall) (hasToExist : Bool) (name : Bytes) : Except FileError Path := do
  match ← c.files.resolve true (c.path name) with
  | .found at_ _ => return FileTree.pathOf at_
  | .absent at_ => if hasToExist then throw .notFound else return FileTree.pathOf at_

/-- The names of the options of tools that say where paths lead. -/
def landingNames : List (String × Char) :=
  [("canonicalize", 'f'), ("canonicalize-existing", 'e'), ("canonicalize-missing", 'm'),
    ("no-newline", 'n'), ("quiet", 'q'), ("silent", 's'), ("verbose", 'v'), ("zero", 'z'),
    ("strip", 's'), ("no-symlinks", 's')]

/-- Prints where symbolic links lead, or paths without links. -/
def readlink (c : ToolCall) : ToolRun :=
  c.withOptions { plain := "femnqsvz", names := landingNames } 1 fun o =>
    let target (name : Bytes) : Option String :=
      if (o.last? ['f', 'e', 'm']).isSome then
        (landing c (o.has 'e') name).toOption.map (·.text)
      else
        match c.files.resolve false (c.path name) with
        | .ok (.found _ (.link target)) => some target
        | _ => none
    let found := o.operands.map target
    let lineEnd := if o.has 'n' && o.operands.length < 2 then [] else [byte '\n']
    if found.isEmpty then c.lacking "missing operand"
    else
      c.done (found.flatMap (fun text => (text.map (fun t => bytesOf t ++ lineEnd)).getD []))
        (if found.all Option.isSome then 0 else 1)

/-- Prints the paths without links that paths lead to. -/
def realpath (c : ToolCall) : ToolRun :=
  c.withOptions { plain := "eLmPqsz", names := landingNames } 1 fun o =>
    if o.operands.isEmpty then c.lacking "missing operand"
    else
      o.operands.foldl (fun (sofar : ToolRun) name =>
        match landing c (o.has 'e') name with
        | .ok p => { sofar with said := sofar.said ++ [(.output, bytesOf (p.text ++ "\n"))] }
        | .error error =>
          let said := if o.has 'q' then [] else [c.complaint (Wording.message {} name error)]
          { sofar with said := sofar.said ++ said, ending := .exited 1 }) (c.changed c.files)

/-- Prints the directory, without links unless an option allows those of a variable. -/
def pwd (c : ToolCall) : ToolRun :=
  c.withOptions { plain := "LP", names := [("logical", 'L'), ("physical", 'P')] } 1 fun o =>
    let here := (c.files.canonical c.directory).toOption.getD c.directory
    let told := Path.mk (((c.environment.find? "PWD").map Text.lossyText).getD "")
    let isTold := o.last? ['L', 'P'] = some 'L' && told.isAbsolute
      && (c.files.canonical told).toOption = some here
    let r := c.done (bytesOf ((if isTold then told else here).text ++ "\n")) 0
    if o.operands.isEmpty then r
    else { r with said := c.complaint "ignoring non-option arguments" :: r.said }

end Tool

end RubySupervisor.Shell
