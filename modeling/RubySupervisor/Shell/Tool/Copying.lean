import RubySupervisor.Shell.Tool.Call

/-!
# Tools that copy

Tools whose output is their input, a part of it, or their arguments.
-/

namespace RubySupervisor.Shell

namespace Tool

/-- A byte in a form that can be seen, line ends and tabs apart. -/
def visible (b : UInt8) : Bytes :=
  let low (b : UInt8) : Bytes :=
    if b < 32 then [byte '^', b + 64] else if b = 127 then bytesOf "^?" else [b]
  if 128 ≤ b then bytesOf "M-" ++ low (b - 128)
  else if b = byte '\t' then [b] else low b

/-- Lines as options want them to be shown: with numbers and marks, and without repeated empty
ones. -/
def shownLines (o : Options) (s : Bytes) : Bytes :=
  let has (letters : List Char) : Bool := (o.last? letters).isSome
  let (lines, ended) := splitLines s
  let content (line : Bytes) : Bytes :=
    let line := if has ['v', 'e', 't', 'A'] then line.flatMap visible else line
    if has ['T', 't', 'A'] then
      line.flatMap (fun b => if b = byte '\t' then bytesOf "^I" else [b])
    else line
  let lineEnd := if has ['E', 'e', 'A'] then bytesOf "$\n" else [byte '\n']
  let (shown, _) := lines.foldl (fun (sofar : List Bytes × Nat × Bool) line =>
    let (shown, number, afterEmpty) := sofar
    if o.has 's' && afterEmpty && line.isEmpty then sofar
    else if o.has 'b' && !line.isEmpty || o.has 'n' && !o.has 'b' then
      ((rightAligned 6 (Text.natText number) ++ byte '\t' :: content line) :: shown,
        number + 1, line.isEmpty)
    else (content line :: shown, number, line.isEmpty)) ([], 1, false)
  match shown with
  | [] => []
  | last :: others =>
    (others.reverse.flatMap (· ++ lineEnd)) ++ last ++ (if ended then lineEnd else [])

/-- Copies its input. -/
def cat (c : ToolCall) : ToolRun :=
  let names := [("show-all", 'A'), ("number-nonblank", 'b'), ("show-ends", 'E'), ("number", 'n'),
    ("squeeze-blank", 's'), ("show-tabs", 'T'), ("show-nonprinting", 'v')]
  c.withOptions { plain := "AbeEnstTuv", names } 1 fun o =>
    if o.given.all (·.1 = 'u') then c.onEach {} o.operands fun _ _ c => c.streamed c.input 0
    else c.onAll {} false o.operands fun c => c.streamed (shownLines o c.input) 0

/-- A number of bytes or of lines. -/
structure Amount where
  count : Nat
  inBytes : Bool
  /-- The count says where to begin. -/
  onward : Bool
  /-- The count says how much to leave out at the end. -/
  lessThanAll : Bool

/-- A number as the first argument stands for a number of lines. -/
def withLineCount : List Bytes → List Bytes
  | (dash :: digits) :: rest =>
    if dash = byte '-' && (natOf? digits).isSome then bytesOf "-n" :: digits :: rest
    else (dash :: digits) :: rest
  | arguments => arguments

/-- The amount that options ask for, ten lines if they do not say, or what is wrong with it. -/
def amountOf (o : Options) : Except String Amount :=
  match (o.given.filter (fun option => option.1 = 'n' || option.1 = 'c')).getLast? with
  | none => .ok ⟨10, false, false, false⟩
  | some (letter, value) =>
    let sign := value.head?
    let digits := if sign = some (byte '+') || sign = some (byte '-') then value.drop 1 else value
    match size? digits with
    | some count =>
      .ok ⟨count, decide (letter = 'c'), sign = some (byte '+'), sign = some (byte '-')⟩
    | none =>
      .error ("invalid number of " ++ (if letter = 'c' then "bytes" else "lines") ++ ": "
        ++ Quoting.forReading digits)

/-- The names of the options for a part of the input. -/
def partNames : List (String × Char) :=
  [("bytes", 'c'), ("lines", 'n'), ("quiet", 'q'), ("silent", 'q'), ("verbose", 'v'),
    ("follow", 'f'), ("retry", 'r'), ("zero-terminated", 'z')]

/-- How a tool complains that copies a part of the input. -/
def partWording : Wording where
  absent name reason := "cannot open " ++ Quoting.always name ++ " for reading: " ++ reason
  directory name reason := "error reading " ++ Quoting.always name ++ ": " ++ reason

/-- Copies a part of every input, with its name in front of it if there are several. -/
def partOfEach (c : ToolCall) (o : Options) (f : ToolCall → ToolRun) : ToolRun :=
  let isNamed := match o.last? ['q', 'v'] with
    | some letter => decide (letter = 'v')
    | none => 1 < o.operands.length
  c.onEach partWording o.operands fun isLater name c =>
    let r := f c
    if !isNamed then r
    else
      let shown := if ToolCall.isInput name then bytesOf "standard input" else name
      let header := (if isLater then [byte '\n'] else []) ++ bytesOf "==> " ++ shown
        ++ bytesOf " <==\n"
      { r with said := (.output, header) :: r.said }

/-- The first lines of a text with their ends, and what follows them; none if it has fewer. -/
def firstLines? : Nat → Bytes → Option (Bytes × Bytes)
  | 0, s => some ([], s)
  | n + 1, s =>
    match s.dropWhile (· != byte '\n') with
    | [] => none
    | newline :: rest =>
      (firstLines? n rest).map
        (fun found => (s.takeWhile (· != byte '\n') ++ newline :: found.1, found.2))

/-- The beginning of an input. -/
def beginning (a : Amount) (c : ToolCall) : ToolRun :=
  if a.lessThanAll then
    c.collected fun s =>
      if a.inBytes then (s.take (s.length - a.count), 0)
      else
        let (lines, ended) := splitLines s
        let kept := lines.take (lines.length - a.count)
        (joinLines (kept, ended || 0 < a.count), 0)
  else if a.inBytes then
    if a.count ≤ c.input.length then
      { c.done (c.input.take a.count) 0 with rest := c.input.drop a.count }
    else c.streamed c.input 0
  else
    match firstLines? a.count c.input with
    | some (lines, rest) =>
      let blocks := (lines.length + 8191) / 8192
      { c.done lines 0 with
        rest := if c.source = .pipe then c.input.drop (blocks * 8192) else rest }
    | none => c.streamed c.input 0

/-- Copies the beginning of its input. -/
def head (c : ToolCall) : ToolRun :=
  let c := { c with arguments := withLineCount c.arguments }
  c.withOptions { plain := "qvz", valued := "cn", names := partNames } 1 fun o =>
    match amountOf o with
    | .ok a => partOfEach c o (beginning a)
    | .error fault => c.failed fault 1

/-- The end of an input. -/
def ending (a : Amount) (c : ToolCall) : ToolRun :=
  c.collected fun s =>
    let dropped (size : Nat) : Nat := if a.onward then a.count - 1 else size - a.count
    if a.inBytes then (s.drop (dropped s.length), 0)
    else
      let (lines, ended) := splitLines s
      (joinLines (lines.drop (dropped lines.length), ended), 0)

/-- Copies the end of its input. On request it waits for more behind it, but not behind the end of
what a writer has written. -/
def tail (c : ToolCall) : ToolRun :=
  let c := { c with arguments := withLineCount c.arguments }
  c.withOptions { plain := "fFqrvz", valued := "cns", names := partNames } 1 fun o =>
    match amountOf o with
    | .error fault => c.failed fault 1
    | .ok a =>
      let r := partOfEach c o (ending a)
      let names := if o.operands.isEmpty then [[byte '-']] else o.operands
      let files := names.filter (!ToolCall.isInput ·)
      if (o.last? ['f', 'F']).isNone || files.length < names.length && c.source = .pipe then r
      else if files.length < names.length || files.any (fun name => (c.opened name).isOk) then
        { r with ending := if r.ending = .starved then .starved else .endless }
      else { r with said := r.said ++ [c.complaint "no files remaining"] }

/-- Copies its input to its output and to files. -/
def tee (c : ToolCall) : ToolRun :=
  c.withOptions { plain := "aip", names := [("append", 'a'), ("ignore-interrupts", 'i')] } 1 fun o =>
    let (files, complaints) := o.operands.foldl
      (fun (sofar : FileTree × List (Stream × Bytes)) name =>
        let (t, complaints) := sofar
        let old := if o.has 'a' then (t.readBytes (c.path name)).toOption.getD .empty else .empty
        match t.writeBytes (c.path name) (old ++ ⟨c.input.toArray⟩) with
        | .ok t => (t, complaints)
        | .error error => (t, complaints ++ [c.complaint (Wording.message {} name error)]))
      (c.files, [])
    let copies (name : String) : Bytes :=
      (List.replicate (o.operands.count (bytesOf name)) c.input).flatten
    let r := c.streamed (c.input ++ copies "/dev/stdout") (if complaints.isEmpty then 0 else 1)
    { r with files := files, said := complaints ++ r.said ++ [(.errors, copies "/dev/stderr")] }

/-- The settings of copying by blocks. -/
def blockSettings : List String :=
  ["bs", "cbs", "conv", "count", "ibs", "if", "iflag", "obs", "of", "oflag", "seek", "skip", "status"]

/-- Copies a number of blocks. -/
def dd (c : ToolCall) : ToolRun :=
  let isKnown (a : Bytes) : Bool := blockSettings.any (fun name => (setting? name [a]).isSome)
  let setting (name : String) : Option Nat := (setting? name c.arguments).bind size?
  let wrong := (["bs", "count", "skip"].filterMap (setting? · c.arguments)).find?
    (fun value => (size? value).isNone)
  let block := (setting "bs").getD 512
  let call := match setting? "if" c.arguments with
    | some name => c.opened name
    | none => .ok c
  match c.arguments.find? (!isKnown ·), wrong, call with
  | some argument, _, _ => c.lacking ("unrecognized operand " ++ Quoting.forReading argument)
  | none, some value, _ => c.failed ("invalid number: " ++ Quoting.forReading value) 1
  | none, none, .error error =>
    c.failed ("failed to open " ++ Quoting.always ((setting? "if" c.arguments).getD [])
      ++ ": " ++ error.reason) 1
  | none, none, .ok call =>
    let skipped := (setting "skip").getD 0 * block
    let input := call.input.drop skipped
    let taken := ((setting "count").map (fun n => input.take (n * block))).getD input
    let isDone := (setting "count").any (fun n => n * block ≤ taken.length)
    let records := Text.natText (taken.length / block) ++ "+"
      ++ (if taken.length % block = 0 then "0" else "1") ++ " records "
    let told := bytesOf (records ++ "in\n" ++ records ++ "out\n"
      ++ Text.natText taken.length ++ " bytes copied, 0 s, 0 B/s\n")
    let run := if isDone then
        { c.done taken 0 with
          rest := if call.source = c.source then input.drop taken.length else c.input }
      else { call.streamed taken 0 with rest := [] }
    let run := match setting? "of" c.arguments with
      | some name =>
        { run with
          said := []
          files := (c.files.writeBytes (c.path name) ⟨taken.toArray⟩).toOption.getD c.files }
      | none => run
    if run.ending ≠ .exited 0 || setting? "status" c.arguments = some (bytesOf "none") then run
    else { run with said := run.said ++ [(.errors, told)] }

/-- Copies the lines of its input in reverse order. -/
def tac (c : ToolCall) : ToolRun :=
  let wording : Wording :=
    { absent name reason := "failed to open " ++ Quoting.always name ++ " for reading: " ++ reason
      directory name _ := Quoting.asNeeded name ++ ": read error: Invalid argument" }
  c.withOptions { plain := "br", valued := "s" } 1 fun o =>
    c.onEach wording o.operands fun _ _ c =>
      c.collected fun s =>
        let (lines, ended) := splitLines s
        let closed (line : Bytes) : Bytes := line ++ [byte '\n']
        match lines.reverse with
        | [] => ([], 0)
        | last :: others =>
          ((if ended then closed last else last) ++ others.flatMap closed, 0)

/-- Copies its input with each line reversed. -/
def rev (c : ToolCall) : ToolRun :=
  let wording : Wording :=
    { absent name reason := "cannot open " ++ Text.lossyText name ++ ": " ++ reason }
  c.withOptions { plain := "" } 1 fun o =>
    c.onEach wording o.operands fun _ _ c =>
      c.collected fun s =>
        let (lines, ended) := splitLines s
        let turned (line : Bytes) : Bytes :=
          bytesOf (String.ofList (Text.lossyText line).toList.reverse)
        (joinLines (lines.map turned, ended), 0)

/-- Prints its arguments; only an option makes it read backslashes. -/
def echo (c : ToolCall) : ToolRun :=
  let isOption (a : Bytes) : Bool :=
    1 < a.length && a.head? = some (byte '-')
      && (a.drop 1).all (fun b => b = byte 'n' || b = byte 'e' || b = byte 'E')
  let (options, words) := c.arguments.span isOption
  let text := [byte ' '].intercalate words
  c.done (if options.any (·.contains (byte 'n')) then text else text ++ [byte '\n']) 0

/-- Prints a line again and again. -/
def yes (c : ToolCall) : ToolRun :=
  let words := if c.arguments.isEmpty then [[byte 'y']] else c.arguments
  let line := [byte ' '].intercalate words ++ [byte '\n']
  let times := c.flood / line.length + 1
  { c.done (List.replicate times line).flatten 0 with ending := .endless }

end Tool

end RubySupervisor.Shell
