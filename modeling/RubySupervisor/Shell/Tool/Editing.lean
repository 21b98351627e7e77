import RubySupervisor.Shell.Expression
import RubySupervisor.Shell.Tool.Translation

/-!
# The stream editor

A script is a list of instructions, each for some lines. The editor goes through it once for every
line of its input, which is in the pattern space meanwhile, and keeps a second space beside it.
-/

namespace RubySupervisor.Shell

/-- A line that an instruction is for. -/
inductive Address where
  | number (n : Nat)
  /-- A line and every so many lines behind it. -/
  | stepping (first step : Nat)
  /-- So many lines behind the other address. -/
  | behind (n : Nat)
  | last
  | like (expression : Expression)

/-- What an instruction does. -/
inductive Edit where
  | substitute (expression : Expression) (by_ : Bytes) (occurrence : Nat) (every prints : Bool)
  | translate (pairs : List (UInt8 × UInt8))
  | delete
  | deleteLine
  | print
  | printLine
  | printNumber
  | quit (code : Nat) (prints : Bool)
  | append (text : Bytes)
  | insert (text : Bytes)
  | change (text : Bytes)
  | next
  | join
  | hold (appends : Bool)
  | fetch (appends : Bool)
  | exchange
  /-- The next so many instructions are only for these lines. -/
  | block (size : Nat)
  | label (name : Bytes)
  /-- Goes on behind a label, or at the end; if asked for only behind a substitution. -/
  | jump (name : Bytes) (afterSubstitution : Option Bool)

/-- Whether an edit takes the rest of its line as a text. -/
def Edit.addsText : Edit → Bool
  | append _ => true
  | insert _ => true
  | change _ => true
  | _ => false

/-- An instruction with the lines that it is for. -/
structure Instruction where
  first : Option Address
  last : Option Address
  negated : Bool
  edit : Edit

/-- What is wrong with a script, and how many bytes are left where that is seen. -/
structure ScriptFault where
  cause : String
  left : Nat

namespace Instruction

/-- The text up to a delimiter that is not protected by a backslash, and what follows it. -/
def upTo? (delimiter : UInt8) : Bytes → Option (Bytes × Bytes)
  | [] => none
  | [c] => if c = delimiter then some ([], []) else none
  | c :: d :: rest =>
    if c = delimiter then some ([], d :: rest)
    else if c = byte '\\' then
      (upTo? delimiter rest).map fun found =>
        (if d = delimiter then d :: found.1 else c :: d :: found.1, found.2)
    else (upTo? delimiter (d :: rest)).map (fun found => (c :: found.1, found.2))

/-- The digits at the front of a text. -/
def digits (s : Bytes) : Bytes := s.takeWhile (fun b => byte '0' ≤ b && b ≤ byte '9')

/-- Drops blanks. -/
def skipBlanks (s : Bytes) : Bytes := s.dropWhile (fun c => c = byte ' ' || c = byte '\t')

/-- Drops the blanks and separators in front of an instruction. -/
def skipSeparators (s : Bytes) : Bytes :=
  s.dropWhile (fun c => c = byte ' ' || c = byte ';' || c = byte '\n' || c = byte '\t')

/-- The address at the front of a text. -/
def address (extended : Bool) (s : Bytes) : Option Address × Bytes :=
  match s with
  | [] => (none, [])
  | c :: rest =>
    let like (delimiter : UInt8) (rest : Bytes) : Option Address × Bytes :=
      match upTo? delimiter rest with
      | none => (none, s)
      | some (text, after) =>
        let expression := Expression.ofBytes extended text
        if after.head? = some (byte 'I') then
          (some (.like expression.ignoringCase), after.drop 1)
        else (some (.like expression), after)
    if c = byte '$' then (some .last, rest)
    else if c = byte '/' then like c rest
    else if c = byte '\\' then
      match rest with
      | delimiter :: rest => like delimiter rest
      | [] => (none, s)
    else if c = byte '+' && !(digits rest).isEmpty then
      (some (.behind ((Tool.natOf? (digits rest)).getD 0)), rest.drop (digits rest).length)
    else
      match Tool.natOf? (digits s), s.drop (digits s).length with
      | none, _ => (none, s)
      | some n, tilde :: rest =>
        if tilde = byte '~' then
          (some (.stepping n ((Tool.natOf? (digits rest)).getD 0)),
            rest.drop (digits rest).length)
        else (some (.number n), tilde :: rest)
      | some n, [] => (some (.number n), [])

/-- The text of an instruction that adds text: up to a line end without a backslash in front. -/
def addedText (s : Bytes) : Bytes × Bytes :=
  let s := skipBlanks s
  let s := if s.head? = some (byte '\\') then
      let rest := skipBlanks (s.drop 1)
      if rest.head? = some (byte '\n') then rest.drop 1 else rest
    else s
  let rec go : Bytes → Bytes × Bytes
    | [] => ([], [])
    | [c] => if c = byte '\n' then ([], []) else ([c], [])
    | c :: d :: rest =>
      if c = byte '\n' then ([], d :: rest)
      else if c = byte '\\' then
        let (text, after) := go rest
        (d :: text, after)
      else
        let (text, after) := go (d :: rest)
        (c :: text, after)
  go s

/-- The flags behind a substitution. -/
structure SubstituteFlags where
  occurrence : Nat := 1
  every : Bool := false
  prints : Bool := false
  ignoresCase : Bool := false

/-- The flags at the front of a text. -/
def substituteFlags (f : SubstituteFlags) : (fuel : Nat) → Bytes →
    Except ScriptFault (SubstituteFlags × Bytes)
  | 0, s => .ok (f, s)
  | _, [] => .ok (f, [])
  | fuel + 1, c :: rest =>
    if c = byte ' ' then substituteFlags f fuel rest
    else if c = byte 'g' then substituteFlags { f with every := true } fuel rest
    else if c = byte 'p' then substituteFlags { f with prints := true } fuel rest
    else if c = byte 'i' || c = byte 'I' then
      substituteFlags { f with ignoresCase := true } fuel rest
    else
      let number := digits (c :: rest)
      match Tool.natOf? number with
      | some n =>
        substituteFlags { f with occurrence := n } fuel ((c :: rest).drop number.length)
      | none =>
        if (bytesOf "\n;\x7d#").contains c then .ok (f, c :: rest)
        else .error ⟨"unknown option to \x60s'", rest.length⟩

/-- The edit at the front of a text, if it is none that holds others. -/
def editOf (extended : Bool) (c : UInt8) (rest : Bytes) : Except ScriptFault (Edit × Bytes) :=
  let name (s : Bytes) : Bytes × Bytes :=
    (skipBlanks s).span (fun b => b ≠ byte '\n' && b ≠ byte ';' && b ≠ byte '\x7d')
  let code : Nat := (Tool.natOf? (digits (skipBlanks rest))).getD 0
  let behindCode := (skipBlanks rest).drop (digits (skipBlanks rest)).length
  let parts (letter : String) (rest : Bytes) : Except ScriptFault (Bytes × Bytes × Bytes) :=
    let unterminated : ScriptFault := ⟨"unterminated \x60" ++ letter ++ "' command", 0⟩
    match rest with
    | [] => .error unterminated
    | delimiter :: rest =>
      match upTo? delimiter rest with
      | none => .error unterminated
      | some (first, rest) =>
        match upTo? delimiter rest with
        | none => .error unterminated
        | some (second, rest) => .ok (first, second, rest)
  match Char.ofNat c.toNat with
  | 's' => do
    let (expression, by_, rest) ← parts "s" rest
    let (f, rest) ← substituteFlags {} (rest.length + 1) rest
    let expression := Expression.ofBytes extended expression
    let expression := if f.ignoresCase then expression.ignoringCase else expression
    return (.substitute expression by_ f.occurrence f.every f.prints, rest)
  | 'y' => do
    let (first, second, rest) ← parts "y" rest
    let bytes (s : Bytes) : Bytes := Tool.listed (s.length + 1) s
    return (.translate ((bytes first).zip (bytes second)), rest)
  | 'd' => .ok (.delete, rest)
  | 'D' => .ok (.deleteLine, rest)
  | 'p' => .ok (.print, rest)
  | 'P' => .ok (.printLine, rest)
  | '=' => .ok (.printNumber, rest)
  | 'q' => .ok (.quit code true, behindCode)
  | 'Q' => .ok (.quit code false, behindCode)
  | 'a' => .ok (.append (addedText rest).1, (addedText rest).2)
  | 'i' => .ok (.insert (addedText rest).1, (addedText rest).2)
  | 'c' => .ok (.change (addedText rest).1, (addedText rest).2)
  | 'n' => .ok (.next, rest)
  | 'N' => .ok (.join, rest)
  | 'h' => .ok (.hold false, rest)
  | 'H' => .ok (.hold true, rest)
  | 'g' => .ok (.fetch false, rest)
  | 'G' => .ok (.fetch true, rest)
  | 'x' => .ok (.exchange, rest)
  | ':' => .ok (.label (name rest).1, (name rest).2)
  | 'b' => .ok (.jump (name rest).1 none, (name rest).2)
  | 't' => .ok (.jump (name rest).1 (some true), (name rest).2)
  | 'T' => .ok (.jump (name rest).1 (some false), (name rest).2)
  | _ => .error ⟨"unknown command: \x60" ++ Text.lossyText [c] ++ "'", rest.length⟩

/-- The instructions at the front of a text, up to the end of the block that they are in. -/
def ofBytes (extended : Bool) : (fuel : Nat) → (depth : Nat) → Bytes →
    Except ScriptFault (List Instruction × Bytes)
  | 0, _, s => .ok ([], s)
  | fuel + 1, depth, s => do
    let s := skipSeparators s
    let (first, s) := address extended s
    let s := skipBlanks s
    let (last, s) := if first.isSome && s.head? = some (byte ',') then
        address extended (skipBlanks (s.drop 1)) else (none, s)
    let s := skipBlanks s
    let negated := s.head? = some (byte '!')
    let s := if negated then skipBlanks (s.dropWhile (· = byte '!')) else s
    match s with
    | [] => if first.isSome then throw ⟨"missing command", 0⟩ else return ([], [])
    | c :: rest =>
      if c = byte '#' then ofBytes extended fuel depth (rest.dropWhile (· != byte '\n'))
      else if c = byte '\x7d' then
        if depth = 0 then throw ⟨"unexpected \x60\x7d'", rest.length⟩ else return ([], rest)
      else if c = byte '\x7b' then
        let (inside, rest) ← ofBytes extended fuel (depth + 1) rest
        let (others, rest) ← ofBytes extended fuel depth rest
        return (⟨first, last, negated, .block inside.length⟩ :: inside ++ others, rest)
      else
        let (found, rest) ← editOf extended c rest
        let rest := skipBlanks rest
        match rest with
        | next :: _ =>
          -- text that is added takes the rest of its line, so that nothing can follow
          if (bytesOf "\n;\x7d#").contains next || found.addsText then
            let (others, rest) ← ofBytes extended fuel depth rest
            return (⟨first, last, negated, found⟩ :: others, rest)
          else throw ⟨"extra characters after command", rest.length - 1⟩
        | [] => return ([⟨first, last, negated, found⟩], [])

end Instruction

/-- An editor on its way through its input. -/
structure Editor where
  space : Bytes
  held : Bytes
  /-- The lines to come. -/
  left : List Bytes
  number : Nat
  /-- The lines that were written, the last one first. -/
  written : List Bytes
  /-- What is written at the end of the round. -/
  appended : List Bytes
  hasSubstituted : Bool
  /-- The places of the instructions whose ranges have begun, with the lines that end them. -/
  ranges : List (Nat × Option Nat)
  /-- The code that the editor has ended with. -/
  code? : Option Nat

namespace Editor

/-- Whether an address describes the line. -/
def isAt (e : Editor) (closed : Bool) : Address → Bool
  | .number n => n = e.number
  | .stepping first step =>
    if step = 0 then first = e.number else first ≤ e.number && (e.number - first) % step = 0
  | .behind _ => false
  | .last => closed && e.left.isEmpty
  | .like expression => (expression.find? e.space).isSome

/-- Whether an instruction at a place of the script is for the line, and what is then known of its
range. -/
def concerns (e : Editor) (closed : Bool) (place : Nat) (i : Instruction) : Bool × Editor :=
  match i.first, i.last with
  | none, _ => (true, e)
  | some first, none => (e.isAt closed first, e)
  | some first, some final =>
    let others := e.ranges.filter (·.1 ≠ place)
    match e.ranges.lookup place with
    | some limit =>
      let isEnd : Bool := match limit with
        | some n => n ≤ e.number
        | none => e.isAt closed final
      (limit.all (e.number ≤ ·) || e.isAt closed first,
        if isEnd then { e with ranges := others } else e)
    | none =>
      if !e.isAt closed first then (false, e)
      else
        let limit := match final with
          | .number n => some n
          | .behind n => some (e.number + n)
          | _ => none
        let isOver := limit.any (· ≤ e.number) || (final matches .last) && e.isAt closed final
        (true, if isOver then e else { e with ranges := (place, limit) :: others })

/-- Writes a line. -/
def write (e : Editor) (line : Bytes) : Editor := { e with written := line :: e.written }

/-- Writes what waits for the end of the round. -/
def flush (e : Editor) : Editor :=
  { e with written := e.appended.reverse ++ e.written, appended := [] }

/-- The end of a round, at which the line is written unless the editor is quiet. -/
def finish (e : Editor) (quiet : Bool) : Editor :=
  (if quiet then e else e.write e.space).flush

/-- Takes the next line. -/
def advance (e : Editor) (line : Bytes) (left : List Bytes) : Editor :=
  { e with space := line, left, number := e.number + 1 }

/-- Goes on with a script from a place on. -/
def run (quiet closed : Bool) (script : List (Nat × Instruction)) : (fuel : Nat) →
    List (Nat × Instruction) → Editor → Editor
  | 0, _, e => e
  | fuel + 1, [], e =>
    let e := e.finish quiet
    match e.left with
    | [] => e
    | line :: left =>
      run quiet closed script fuel script { e.advance line left with hasSubstituted := false }
  | fuel + 1, (place, i) :: rest, e =>
    let (isFor, e) := e.concerns closed place i
    let nextRound (e : Editor) : Editor :=
      match e.left with
      | [] => e
      | line :: left =>
        run quiet closed script fuel script { e.advance line left with hasSubstituted := false }
    if isFor = i.negated then
      match i.edit with
      | .block size => run quiet closed script fuel (rest.drop size) e
      | _ => run quiet closed script fuel rest e
    else
      match i.edit with
      | .substitute expression by_ occurrence every prints =>
        let new := expression.substitute by_ occurrence every e.space
        -- a substitution of a later occurrence needs as many of them
        let isDone := (expression.find? e.space).isSome
          && (occurrence ≤ 1
            || (expression.findAll (e.space.length + 1) none e.space).length ≥ occurrence)
        let e := { e with space := new, hasSubstituted := e.hasSubstituted || isDone }
        run quiet closed script fuel rest (if isDone && prints then e.write new else e)
      | .translate pairs =>
        run quiet closed script fuel rest
          { e with space := e.space.map (fun b => (pairs.lookup b).getD b) }
      | .delete => nextRound e.flush
      | .deleteLine =>
        match e.space.dropWhile (· != byte '\n') with
        | [] => nextRound e.flush
        | _ :: after => run quiet closed script fuel script { e.flush with space := after }
      | .print => run quiet closed script fuel rest (e.write e.space)
      | .printLine => run quiet closed script fuel rest (e.write (e.space.takeWhile (· != byte '\n')))
      | .printNumber =>
        run quiet closed script fuel rest (e.write (bytesOf (Text.natText e.number)))
      | .quit code prints =>
        { (if prints then e.finish quiet else e) with code? := some code }
      | .append text =>
        run quiet closed script fuel rest { e with appended := e.appended ++ [text] }
      | .insert text => run quiet closed script fuel rest (e.write text)
      | .change text =>
        -- of a range the text comes once, behind its last line
        let isWithin := (e.ranges.lookup place).isSome && !i.negated
        nextRound (if isWithin then e else e.write text).flush
      | .next =>
        match e.left with
        | [] => if quiet then e else e.finish quiet
        | line :: left =>
          run quiet closed script fuel rest ((e.finish quiet).advance line left)
      | .join =>
        match e.left with
        | [] => e.finish quiet
        | line :: left =>
          run quiet closed script fuel rest
            (e.flush.advance (e.space ++ byte '\n' :: line) left)
      | .hold appends =>
        run quiet closed script fuel rest
          { e with held := if appends then e.held ++ byte '\n' :: e.space else e.space }
      | .fetch appends =>
        run quiet closed script fuel rest
          { e with space := if appends then e.space ++ byte '\n' :: e.held else e.held }
      | .exchange =>
        run quiet closed script fuel rest { e with space := e.held, held := e.space }
      | .block _ => run quiet closed script fuel rest e
      | .label _ => run quiet closed script fuel rest e
      | .jump name afterSubstitution =>
        if afterSubstitution.any (· != e.hasSubstituted) then run quiet closed script fuel rest e
        else
          let e := if afterSubstitution.isSome then { e with hasSubstituted := false } else e
          let target := if name.isEmpty then []
            else script.dropWhile (fun entry => match entry.2.edit with
              | .label other => other ≠ name
              | _ => true)
          run quiet closed script fuel target e

/-- What a script makes of lines: the lines that are written, and the code with which it ends them
early. -/
def edited (quiet closed : Bool) (script : List Instruction) (lines : List Bytes) :
    List Bytes × Option Nat :=
  match lines with
  | [] => ([], none)
  | line :: left =>
    let script := (script.zipIdx).map Prod.swap
    let e := run quiet closed script (1000000 + lines.length * (script.length + 2)) script
      ⟨line, [], left, 1, [], [], false, [], none⟩
    (e.written.reverse, e.code?)

end Editor

namespace Tool

/-- The names of the options of the stream editor. -/
def editorNames : List (String × Char) :=
  [("quiet", 'n'), ("silent", 'n'), ("expression", 'e'), ("file", 'f'), ("regexp-extended", 'E'),
    ("in-place", 'i'), ("separate", 's'), ("unbuffered", 'u'), ("posix", 'p')]

/-- How the stream editor complains of files. -/
def editorWording : Wording where
  absent name reason := "can't read " ++ Text.lossyText name ++ ": " ++ reason
  directory name reason := "couldn't edit " ++ Text.lossyText name ++ ": " ++ reason
  code := 2

/-- Edits its input line by line. -/
def sed (c : ToolCall) : ToolRun :=
  let g : OptionGrammar :=
    { plain := "nErsuz", valued := "ef", attached := "i", names := editorNames }
  c.withOptions g 1 fun o =>
    let given := o.given.filterMap fun option =>
      if option.1 = 'e' then some option.2
      else if option.1 = 'f' then
        (c.files.readBytes (c.path option.2)).toOption.map (fun content => content.toList)
      else none
    let (text, named) := match given, o.operands with
      | [], text :: named => (text, named)
      | given, named => ([byte '\n'].intercalate given, named)
    let extended := o.has 'E' || o.has 'r'
    match Instruction.ofBytes extended (text.length + 2) 0 text with
    | .error fault =>
      c.failed ("-e expression #1, char " ++ Text.natText (text.length - fault.left) ++ ": "
        ++ fault.cause) 1
    | .ok (script, _) =>
      let result (closed : Bool) (s : Bytes) : Bytes × Option Nat :=
        let (lines, ended) := splitLines s
        let (lines, code?) := Editor.edited (o.has 'n') closed script lines
        (joinLines (lines, ended), code?)
      if o.has 'i' then
        named.foldl (fun (sofar : ToolRun) name =>
          match sofar.files.readBytes (c.path name) with
          | .ok content =>
            let new := (result true content.toList).1
            let kept := match (o.value? 'i').filter (!·.isEmpty) with
              | some ending => (sofar.files.writeBytes (c.path (name ++ ending)) content).toOption
              | none => none
            match (kept.getD sofar.files).writeBytes (c.path name) ⟨new.toArray⟩ with
            | .ok files => { sofar with files }
            | .error _ => sofar
          | .error error =>
            { sofar with
              said := sofar.said ++ [c.complaint (editorWording.message name error)]
              ending := .exited 2 }) (c.changed c.files)
      else
        let f (c : ToolCall) : ToolRun :=
          -- a line that may still go on is not edited yet
          let complete := (c.input.reverse.dropWhile (· != byte '\n')).reverse
          match result c.closed (if c.closed then c.input else complete) with
          | (output, some code) => { c.done output code with rest := [] }
          | _ => c.filtered (fun closed s => ((result closed s).1, 0))
        if o.has 's' then c.onEach editorWording named (fun _ _ c => f c)
        else c.onAll editorWording true named f

end Tool

end RubySupervisor.Shell
