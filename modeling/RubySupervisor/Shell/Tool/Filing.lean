import RubySupervisor.Shell.Tool.Call

/-!
# Tools for files

Tools that make, move, copy, list and remove files and directories.
-/

namespace RubySupervisor.Shell

namespace Tool

/-- The run with a complaint behind what was written before. -/
def complaining (c : ToolCall) (sofar : ToolRun) (message : String) : ToolRun :=
  { sofar with said := sofar.said ++ [c.complaint message], ending := .exited 1 }

/-- The run with a line behind what was written before. -/
def telling (sofar : ToolRun) (line : String) : ToolRun :=
  { sofar with said := sofar.said ++ [(.output, bytesOf (line ++ "\n"))] }

/-- The complaint about an argument with which something cannot be done. -/
def cannot (purpose : String) (argument : Bytes) (error : FileError) : String :=
  "cannot " ++ purpose ++ " " ++ Quoting.always argument ++ ": " ++ error.reason

/-- Runs a step for every operand, of which there has to be one. -/
def forOperands (c : ToolCall) (o : Options) (what : String) (step : ToolRun → Bytes → ToolRun) :
    ToolRun :=
  if o.operands.isEmpty then c.lacking what else o.operands.foldl step (c.changed c.files)

/-- A path argument with each of the directories above it, outermost first. -/
def withDirectoriesAbove (name : Bytes) : List Bytes :=
  (List.range (name.length + 1)).filterMap fun n =>
    if 0 < n && (n = name.length || name[n]? = some (byte '/')) && name[n - 1]? ≠ some (byte '/')
    then some (name.take n) else none

/-- Creates directories. -/
def mkdir (c : ToolCall) : ToolRun :=
  let names := [("parents", 'p'), ("mode", 'm'), ("verbose", 'v')]
  c.withOptions { plain := "pv", valued := "m", names } 1 fun o =>
    forOperands c o "missing operand" fun sofar name =>
      let told (sofar : ToolRun) (name : Bytes) : ToolRun :=
        if !o.has 'v' then sofar
        else
          telling sofar (c.called ++ ": created directory " ++ Quoting.forReading name)
      let refused (name : Bytes) (error : FileError) : ToolRun :=
        complaining c sofar
          ("cannot create directory " ++ Quoting.forReading name ++ ": " ++ error.reason)
      if !o.has 'p' then
        match sofar.files.makeDirectory (c.path name) with
        | .ok files => told { sofar with files } name
        | .error error => refused name error
      else
        let above := withDirectoriesAbove name
        match sofar.files.makeDirectories (c.path name) with
        | .ok files =>
          (above.filter (fun p => !sofar.files.pathExists (c.path p))).foldl told
            { sofar with files }
        | .error error =>
          let blocking := above.find? (fun p =>
            sofar.files.pathExists (c.path p) && !sofar.files.isDirectory (c.path p))
          match blocking with
          | some p => refused p (if p.length < name.length then .notADirectory else .alreadyExists)
          | none => refused name error

/-- Removes files, and directories if asked to. -/
def rm (c : ToolCall) : ToolRun :=
  let names := [("force", 'f'), ("recursive", 'r'), ("dir", 'd'), ("verbose", 'v')]
  c.withOptions { plain := "dfiIrRv", names } 1 fun o =>
    let deep := o.has 'r' || o.has 'R'
    let step (sofar : ToolRun) (name : Bytes) : ToolRun :=
      let removed (what : String) : ToolRun :=
        let run := { sofar with files := sofar.files.removeAll (c.path name) }
        if o.has 'v' then telling run (what ++ Quoting.always name) else run
      let base := Path.fileName? ⟨Text.lossyText name⟩
      match sofar.files.resolve false (c.path name) with
      | .ok (.found place .directory) =>
        if !deep && !o.has 'd' then complaining c sofar (cannot "remove" name .isADirectory)
        else if place.isEmpty then
          complaining c (complaining c sofar "it is dangerous to operate recursively on '/'")
            "use --no-preserve-root to override this failsafe"
        else if base.isNone || base = some "." then
          complaining c sofar ("refusing to remove '.' or '..' directory: skipping "
            ++ Quoting.always name)
        else if deep || (sofar.files.children place).isEmpty then removed "removed directory "
        else complaining c sofar (cannot "remove" name .directoryNotEmpty)
      | .ok (.found _ _) => removed "removed "
      | .ok (.absent _) =>
        if o.has 'f' then sofar else complaining c sofar (cannot "remove" name .notFound)
      | .error error =>
        if o.has 'f' && (error = .notFound || error = .notADirectory) then sofar
        else complaining c sofar (cannot "remove" name error)
    if o.operands.isEmpty && o.has 'f' then c.changed c.files
    else forOperands c o "missing operand" step

/-- Creates empty files. -/
def touch (c : ToolCall) : ToolRun :=
  let names := [("no-create", 'c'), ("date", 'd'), ("reference", 'r')]
  c.withOptions { plain := "acfhm", valued := "drt", names } 1 fun o =>
    forOperands c o "missing file operand" fun sofar name =>
      if sofar.files.pathExists (c.path name) then sofar
      else
        match sofar.files.writeBytes (c.path name) .empty, decide (name.getLast? = some (byte '/')) with
        | .ok files, _ => if o.has 'c' then sofar else { sofar with files }
        | .error error, true =>
          let reason := if error = .isADirectory then FileError.notFound else error
          complaining c sofar
            ("setting times of " ++ Quoting.always name ++ ": " ++ reason.reason)
        | .error error, false =>
          if o.has 'c' && error = .notFound then sofar
          else complaining c sofar (cannot "touch" name error)

/-- Who may run a file: its owner, its group, and all others. -/
structure Runners where
  owner : Bool
  group : Bool
  others : Bool

/-- Who may run a file after a change that a mode describes by letters. -/
def Runners.after (r : Runners) (who : List Char) (operator : Char) (runs : Bool) : Runners :=
  let isMeant (letter : Char) : Bool := who.isEmpty || who.contains 'a' || who.contains letter
  let change (letter : Char) (old : Bool) : Bool :=
    if !isMeant letter then old
    else
      match operator with
      | '+' => old || runs
      | '-' => old && !runs
      | _ => runs
  ⟨change 'u' r.owner, change 'g' r.group, change 'o' r.others⟩

/-- Who may run a file after a change that a mode describes, if it is a mode. -/
def Runners.changed? (r : Runners) (isDirectory : Bool) (mode : String) : Option Runners :=
  let isPermission (c : Char) : Bool := "rwxXst".toList.contains c
  let clause (r : Runners) (text : String) : Option Runners :=
    let who := text.toList.takeWhile "ugoa".toList.contains
    let rec actions (r : Runners) : (fuel : Nat) → List Char → Option Runners
      | 0, _ => none
      | _, [] => some r
      | fuel + 1, operator :: rest =>
        let permissions := rest.takeWhile isPermission
        let runs := permissions.contains 'x'
          || permissions.contains 'X' && (isDirectory || r.owner || r.group || r.others)
        if !(['+', '-', '='].contains operator) then none
        else actions (r.after who operator runs) fuel (rest.drop permissions.length)
    if who.length = text.length then none
    else actions r (text.length + 1) (text.toList.drop who.length)
  if !mode.isEmpty && mode.toList.all (fun c => '0' ≤ c && c ≤ '7') && mode.length ≤ 5 then
    let bit (n : Nat) : Bool := (mode.toList.reverse[n]?).any (fun c => c.toNat % 2 = 1)
    some ⟨bit 2, bit 1, bit 0⟩
  else (Text.splitAt ',' mode).foldlM clause r

/-- Makes files executable, or takes that away. -/
def chmod (c : ToolCall) : ToolRun :=
  let isMode (a : Bytes) : Bool :=
    (bytesOf "-").isPrefixOf a && a.length ≠ 1
      && (a.drop 1).all (fun b => (bytesOf "rwxXst,+=-").contains b)
  let isLong (a : Bytes) : Bool := (bytesOf "--").isPrefixOf a
  let (modes, others) := c.arguments.partition (fun a => isMode a && !isLong a)
  let names := [("recursive", 'R'), ("changes", 'c'), ("silent", 'f'), ("verbose", 'v')]
  { c with arguments := others }.withOptions { plain := "Rcfv", names } 1 fun o =>
    match modes ++ o.operands with
    | [] => c.lacking "missing operand"
    | [mode] => c.lacking ("missing operand after " ++ Quoting.forReading mode)
    | mode :: named =>
      let runners (executable : Bool) : Option Runners :=
        Runners.changed? ⟨executable, executable, executable⟩ false (Text.lossyText mode)
      let changed (t : FileTree) (place : Location) : FileTree :=
        match t.entry? place with
        | some (.file content executable) =>
          let r := (runners executable).getD ⟨executable, executable, executable⟩
          t.set place (.file content (r.owner || r.group || r.others))
        | _ => t
      if (runners false).isNone then c.lacking ("invalid mode: " ++ Quoting.forReading mode)
      else
        named.foldl (fun (sofar : ToolRun) name =>
          match sofar.files.resolve true (c.path name) with
          | .ok (.found place _) =>
            let below := if o.has 'R' then
              (sofar.files.entries.map Prod.fst).filter place.isPrefixOf else [place]
            { sofar with files := below.foldl changed sofar.files }
          | .ok (.absent _) => complaining c sofar (cannot "access" name .notFound)
          | .error error => complaining c sofar (cannot "access" name error))
          (c.changed c.files)

/-- Where a source goes, as it is named: into a target that is a directory, else onto the target. -/
def destination (c : ToolCall) (source target : Bytes) : Bytes :=
  if c.files.isDirectory (c.path target) then
    let name := bytesOf ((c.path source).fileName?.getD "")
    if target.getLast? = some (byte '/') then target ++ name else target ++ byte '/' :: name
  else target

/-- Whether two paths lead to one entry. -/
def isSameEntry (c : ToolCall) (a b : Bytes) : Bool :=
  match c.files.resolve true (c.path a), c.files.resolve true (c.path b) with
  | .ok (.found here _), .ok (.found there _) => here = there
  | _, _ => false

/-- Brings sources to a target, one after another; several sources go into a directory. -/
def brought (c : ToolCall) (o : Options) (arrow : Bytes → Bytes → String)
    (bring : FileTree → Bytes → Bytes → Except String FileTree) : ToolRun :=
  let operands := o.operands ++ (o.value? 't').toList
  match operands.reverse with
  | [] => c.lacking "missing file operand"
  | [only] => c.lacking ("missing destination file operand after " ++ Quoting.always only)
  | target :: sources =>
    let blocked := match c.files.resolve true (c.path target) with
      | .error error => if error = .notFound then none else some error
      | .ok _ => none
    if let some error := blocked then c.failed (cannot "stat" target error) 1
    else if (1 < sources.length || o.has 't') && !c.files.isDirectory (c.path target) then
      c.failed ("target " ++ Quoting.always target ++ ": "
        ++ (if c.files.pathExists (c.path target) then "Not a directory"
          else "No such file or directory")) 1
    else
      sources.reverse.foldl (fun (sofar : ToolRun) source =>
        let place := if o.has 'T' then target
          else destination { c with files := sofar.files } source target
        if o.has 'n' && sofar.files.pathExists (c.path place) then sofar
        else
          match bring sofar.files source place with
          | .ok files =>
            if o.has 'v' then telling { sofar with files } (arrow source place)
            else { sofar with files }
          | .error fault => complaining c sofar fault) (c.changed c.files)

/-- The names of the options of tools that bring files to a place. -/
def bringingNames : List (String × Char) :=
  [("force", 'f'), ("interactive", 'i'), ("no-clobber", 'n'), ("update", 'u'), ("verbose", 'v'),
    ("target-directory", 't'), ("no-target-directory", 'T'), ("recursive", 'r'), ("archive", 'a'),
    ("symbolic", 's'), ("no-dereference", 'n')]

/-- Moves files and directories. -/
def mv (c : ToolCall) : ToolRun :=
  c.withOptions { plain := "finuvTbZ", valued := "tS", names := bringingNames } 1 fun o =>
    let arrow (source target : Bytes) : String :=
      "renamed " ++ Quoting.always source ++ " -> " ++ Quoting.always target
    brought c o arrow fun files source target =>
      let shown := Quoting.always source
      let onto := Quoting.always target
      let isSame := isSameEntry { c with files } source target
      match files.rename (c.path source) (c.path target) with
      | .ok files =>
        if isSame then .error (shown ++ " and " ++ onto ++ " are the same file") else .ok files
      | .error .other =>
        .error ("cannot move " ++ shown ++ " to a subdirectory of itself, " ++ onto)
      | .error error =>
        match files.resolve false (c.path source) with
        | .error absence => .error (cannot "stat" source absence)
        | .ok (.absent _) => .error (cannot "stat" source .notFound)
        | .ok (.found _ _) =>
          if error = .directoryNotEmpty then
            .error ("cannot overwrite " ++ onto ++ ": " ++ error.reason)
          else if files.isFile (c.path target) then
            .error ("cannot overwrite non-directory " ++ onto ++ " with directory " ++ shown)
          else .error ("cannot move " ++ shown ++ " to " ++ onto ++ ": " ++ error.reason)

/-- Copies files, and directories if asked to. -/
def cp (c : ToolCall) : ToolRun :=
  let g : OptionGrammar :=
    { plain := "abdfHilLnPprRsuvxTZ", valued := "tS", names := bringingNames }
  c.withOptions g 1 fun o =>
    let deep := (o.last? ['r', 'R', 'a']).isSome
    let arrow (source target : Bytes) : String :=
      Quoting.always source ++ " -> " ++ Quoting.always target
    brought c o arrow fun files source target =>
      let refused (error : FileError) : Except String FileTree :=
        .error ("cannot create regular file " ++ Quoting.always target ++ ": " ++ error.reason)
      if isSameEntry { c with files } source target then
        .error (Quoting.always source ++ " and " ++ Quoting.always target ++ " are the same file")
      else
        match files.metadata (c.path source), files.resolve true (c.path source),
          files.resolve true (c.path target) with
        | .ok (.file content executable), _, .ok place =>
          match files.writeBytes (c.path target) content, place with
          | .ok made, .absent at_ => .ok (made.set at_ (.file content executable))
          | .ok made, .found .. => .ok made
          | .error error, _ => refused error
        | .ok .device, _, _ => .ok ((files.writeBytes (c.path target) .empty).toOption.getD files)
        | .ok .directory, .ok (.found here _), .ok place =>
          let there := match place with
            | .found at_ _ => at_
            | .absent at_ => at_
          if !deep then
            .error ("-r not specified; omitting directory " ++ Quoting.always source)
          else if here.isPrefixOf there then
            .error ("cannot copy a directory, " ++ Quoting.always source ++ ", into itself, "
              ++ Quoting.always target)
          else
            .ok ((files.entries.filter (fun entry => here.isPrefixOf entry.1)).foldl
              (fun (t : FileTree) entry => t.set (there ++ entry.1.drop here.length) entry.2) files)
        | .ok _, _, .error error => refused error
        | .ok _, _, _ => refused .notFound
        | .error error, _, _ => .error (cannot "stat" source error)

/-- Makes links. One that is not symbolic is a file of its own with the same content. -/
def ln (c : ToolCall) : ToolRun :=
  let g : OptionGrammar := { plain := "bdFfiLnPrsTv", valued := "St", names := bringingNames }
  c.withOptions g 1 fun o =>
    let kind := if o.has 's' then "symbolic" else "hard"
    let step (sofar : ToolRun) (source place : Bytes) : ToolRun :=
      let refused (error : FileError) : ToolRun :=
        complaining c sofar ("failed to create " ++ kind ++ " link " ++ Quoting.always place ++ ": "
          ++ error.reason)
      let made : Except String Entry :=
        if o.has 's' then .ok (.link (Text.lossyText source))
        else
          match sofar.files.metadata (c.path source) with
          | .ok .directory =>
            .error (Quoting.asNeeded source ++ ": hard link not allowed for directory")
          | .ok entry => .ok entry
          | .error error =>
            .error ("failed to access " ++ Quoting.always source ++ ": " ++ error.reason)
      match made, sofar.files.resolve false (c.path place) with
      | .error fault, _ => complaining c sofar fault
      | .ok entry, .ok (.absent at_) => { sofar with files := sofar.files.set at_ entry }
      | .ok entry, .ok (.found at_ _) =>
        if o.has 'f' then { sofar with files := sofar.files.set at_ entry }
        else refused .alreadyExists
      | .ok _, .error error => refused error
    -- a link to a directory may be asked to be taken for itself
    let isPlace (target : Bytes) : Bool :=
      c.files.isDirectory (c.path target) && !o.has 'T'
        && !(o.has 'n' && (c.files.resolve false (c.path target)).toOption.any (fun found =>
          match found with
          | .found _ (.link _) => true
          | _ => false))
    match o.operands.reverse with
    | [] => c.lacking "missing file operand"
    | [source] => step (c.changed c.files) source (destination c source (bytesOf "."))
    | target :: sources =>
      if isPlace target then
        sources.reverse.foldl (fun sofar source => step sofar source (destination c source target))
          (c.changed c.files)
      else
        match sources with
        | [source] => step (c.changed c.files) source target
        | _ =>
          c.failed ("target " ++ Quoting.always target ++ ": "
            ++ (if c.files.pathExists (c.path target) then "Not a directory"
              else "No such file or directory")) 1

/-- Removes empty directories, and on request those above them. -/
def rmdir (c : ToolCall) : ToolRun :=
  let names := [("parents", 'p'), ("verbose", 'v'), ("ignore-fail-on-non-empty", 'i')]
  c.withOptions { plain := "pvi", names } 1 fun o =>
    let one (what : String) (sofar : ToolRun) (name : Bytes) : ToolRun :=
      let failure (error : FileError) : ToolRun :=
        complaining c sofar
          ("failed to remove " ++ what ++ Quoting.always name ++ ": " ++ error.reason)
      match sofar.files.resolve false (c.path name) with
      | .ok (.found place .directory) =>
        if (sofar.files.children place).isEmpty then
          { sofar with files := sofar.files.remove place }
        else if o.has 'i' then sofar
        else failure .directoryNotEmpty
      | .ok (.found _ _) => failure .notADirectory
      | .ok (.absent _) => failure .notFound
      | .error error => failure error
    forOperands c o "missing operand" fun sofar name =>
      if !o.has 'p' then one "" sofar name
      else
        (withDirectoriesAbove name).reverse.zipIdx.foldl (fun (sofar : ToolRun) (p, n) =>
          if sofar.ending = .exited 0 then one (if n = 0 then "" else "directory ") sofar p
          else sofar) sofar

/-- Names in order, each in a line. -/
def nameLines (names : List String) : Bytes := names.flatMap (fun name => bytesOf (name ++ "\n"))

/-- Names in ascending order, each once. -/
def inOrder (names : List String) : List String := (Dict.ofPairs (names.map (·, ()))).names

/-- What a listing says of a directory, and of those in it if that is asked for. -/
def listings (o : Options) (files : FileTree) : (fuel : Nat) → (name : String) →
    Location → List (String × Bytes)
  | 0, _, _ => []
  | fuel + 1, name, at_ =>
    let mark (entry : Entry) : String := match entry with
      | .directory => if o.has 'F' || o.has 'p' then "/" else ""
      | .file _ true => if o.has 'F' then "*" else ""
      | .link _ => if o.has 'F' then "@" else ""
      | _ => ""
    let children := files.children at_
    let isShown (n : String) : Bool := o.has 'a' || o.has 'A' || n.toList.head? ≠ some '.'
    let turned (names : List String) : List String := if o.has 'r' then names.reverse else names
    let ordered := turned (inOrder ((children.map Prod.fst).filter isShown))
    let texts := ordered.map fun n => n ++ ((children.lookup n).map mark).getD ""
    let dots := if !o.has 'a' then [] else if o.has 'F' || o.has 'p' then ["./", "../"] else [".", ".."]
    let own := nameLines (if o.has 'r' then texts ++ turned dots else dots ++ texts)
    let below := if !o.has 'R' then []
      else
        ordered.flatMap fun n =>
          match children.lookup n with
          | some .directory => listings o files fuel (name ++ "/" ++ n) (at_ ++ [n])
          | _ => []
    (name, own) :: below

/-- Names files, and lists directories. -/
def ls (c : ToolCall) : ToolRun :=
  let names := [("all", 'a'), ("almost-all", 'A'), ("directory", 'd'), ("recursive", 'R'),
    ("reverse", 'r'), ("classify", 'F')]
  let g : OptionGrammar :=
    { plain := "aAbBcCdfFgGhHiklLmnNopqQrRsStuUvxXZ1", valued := "ITw", names }
  c.withOptions g 2 fun o =>
    let operands := if o.operands.isEmpty then [bytesOf "."] else o.operands
    let fault (name : Bytes) : Option FileError :=
      match c.files.resolve false (c.path name) with
      | .ok (.found _ _) => none
      | .ok (.absent _) => some .notFound
      | .error error => some error
    let known := operands.filter (fun name => (fault name).isNone)
    let isListed (name : Bytes) : Bool := !o.has 'd' && c.files.isDirectory (c.path name)
    let turned (names : List String) : List String := if o.has 'r' then names.reverse else names
    let (directories, plain) := (turned (inOrder (texts known))).partition
      (fun name => isListed (bytesOf name))
    let listed := directories.flatMap fun name =>
      match c.files.resolve true (c.path (bytesOf name)) with
      | .ok (.found at_ .directory) => listings o c.files 1000 name at_
      | _ => []
    let isNamed := 1 < operands.length || o.has 'R'
    let parts := (if plain.isEmpty then [] else [nameLines plain])
      ++ listed.map fun (name, lines) => (if isNamed then bytesOf (name ++ ":\n") else []) ++ lines
    let complaints := operands.filterMap fun name =>
      (fault name).map (fun error => c.complaint (cannot "access" name error))
    let r := c.done ([byte '\n'].intercalate parts) (if complaints.isEmpty then 0 else 2)
    { r with said := complaints ++ r.said }

end Tool

end RubySupervisor.Shell
