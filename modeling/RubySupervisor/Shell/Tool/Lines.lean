import RubySupervisor.Shell.Expression
import RubySupervisor.Shell.Tool.Call

/-!
# Tools for lines

Tools that search, count, sort and select the lines of their input.
-/

namespace RubySupervisor.Shell

namespace Tool

/-- The names of the options of a search. -/
def searchNames : List (String × Char) :=
  [("extended-regexp", 'E'), ("fixed-strings", 'F'), ("basic-regexp", 'G'), ("regexp", 'e'),
    ("ignore-case", 'i'), ("invert-match", 'v'), ("word-regexp", 'w'), ("line-regexp", 'x'),
    ("count", 'c'), ("files-without-match", 'L'), ("files-with-matches", 'l'), ("max-count", 'm'),
    ("only-matching", 'o'), ("quiet", 'q'), ("silent", 'q'), ("no-messages", 's'),
    ("with-filename", 'H'), ("no-filename", 'h'), ("line-number", 'n'), ("text", 'a'),
    ("line-buffered", 'u')]

/-- What a search looks for: any of the lines of its patterns. -/
def soughtBy (o : Options) (patterns : List Bytes) : Expression :=
  let written (line : Bytes) : Expression :=
    if o.has 'F' then Expression.literally line else Expression.ofBytes (o.has 'E') line
  let lines := patterns.flatMap fun pattern =>
    match (splitLines pattern).1 with
    | [] => [[]]
    | lines => lines
  let any := match (lines.map written).reverse with
    | [] => Expression.nothing
    | last :: others => others.foldl (fun rest line => .either line rest) last
  let any := if o.has 'i' then any.ignoringCase else any
  if o.has 'x' then any.wholeLine else if o.has 'w' then any.wholeWords else any

/-- Searches one input. The code is zero if something was found. -/
def searched (o : Options) (sought : Expression) (most : Option Nat) (isNamed : Bool)
    (name : Bytes) (c : ToolCall) : ToolRun :=
  let isFound (line : Bytes) : Bool := (sought.find? line).isSome != o.has 'v'
  let shownName := if ToolCall.isInput name then bytesOf "(standard input)" else name
  let mark := if isNamed then shownName ++ [byte ':'] else []
  let shown (line : Bytes) (number : Nat) : List Bytes :=
    let mark := if o.has 'n' then mark ++ bytesOf (Text.natText number ++ ":") else mark
    let parts := if !o.has 'o' then [line]
      else if o.has 'v' then []
      else (sought.findAll (line.length + 1) none line).filter (!·.isEmpty)
    parts.map (mark ++ ·)
  let lines := (splitLines c.input).1
  let lines := if c.closed || c.input.getLast? = some (byte '\n') then lines else lines.dropLast
  let isOverAtOnce := o.has 'q' || o.has 'l' || o.has 'L'
  let most := if isOverAtOnce then some (min 1 (most.getD 1)) else most
  let all := (lines.zipIdx 1).filter (fun (line, _) => isFound line)
  let found := most.elim all all.take
  let listing := joinLines (found.flatMap (fun (line, number) => shown line number), true)
  let output :=
    if o.has 'q' then []
    else if o.has 'l' || o.has 'L' then
      if found.isEmpty = o.has 'L' then shownName ++ [byte '\n'] else []
    else if o.has 'c' then mark ++ bytesOf (Text.natText found.length ++ "\n")
    else listing
  let code := if found.isEmpty then 1 else 0
  if c.closed || most = some found.length then { c.done output code with rest := [] }
  else c.filtered (fun _ _ => (if isOverAtOnce || o.has 'c' then [] else listing, code))

/-- Searches its input for lines. Of the codes of several inputs the success counts, unless one
cannot be read. -/
def grep (c : ToolCall) : ToolRun :=
  let usage := "Usage: grep [OPTION]... PATTERNS [FILE]...\nTry '" ++ c.called
    ++ " --help' for more information.\n"
  let misused (said : List (Stream × Bytes)) : ToolRun :=
    { c.done [] 2 with said := said ++ [(.errors, bytesOf usage)] }
  let g : OptionGrammar :=
    { plain := "EFGaHLchilnoqsuvwxyzrR", valued := "em", names := searchNames }
  match Options.read g c.arguments with
  | .error fault => misused [c.complaint fault.message]
  | .ok o =>
    let (patterns, named) := match o.values 'e', o.operands with
      | [], pattern :: named => ([pattern], named)
      | patterns, named => (patterns, named)
    let most := (o.value? 'm').map natOf?
    if patterns.isEmpty then misused []
    else if most = some none then c.failed "invalid max count" 2
    else
      let sought := soughtBy o patterns
      let isNamed := match o.last? ['h', 'H'] with
        | some letter => decide (letter = 'H')
        | none => 1 < named.length
      let wording : Wording :=
        { absent name reason := Text.lossyText name ++ ": " ++ reason, code := 2 }
      let one (name : Bytes) (c : ToolCall) : ToolRun :=
        searched o sought (most.bind id) isNamed name c
      let isFoundIn (name : Bytes) : Bool :=
        let call := if ToolCall.isInput name then some c else (c.opened name).toOption
        call.any (fun c => (one name c).ending = .exited 0)
      let named := if named.isEmpty then [[byte '-']] else named
      let (vain, others) := named.span (!isFoundIn ·)
      let r := c.onEach wording (if o.has 'q' then vain ++ others.take 1 else named) fun _ name c =>
        let r := one name c
        { r with ending := if r.ending = .exited 1 then .exited 0 else r.ending }
      let said := if o.has 's' then r.said.filter (·.1 = .output) else r.said
      let ending := if !others.isEmpty && (o.has 'q' || r.ending = .exited 0) then .exited 0
        else if r.ending = .exited 0 then .exited 1 else r.ending
      { r with said, ending }

/-- The number of words of a text, of which the front may continue one. -/
def words : (inWord : Bool) → Bytes → Nat
  | _, [] => 0
  | inWord, b :: rest =>
    if b = byte ' ' || (byte '\t' ≤ b && b ≤ byte '\r') then words false rest
    else (if inWord then 0 else 1) + words true rest

/-- Counts lines, words and bytes. The numbers are as wide as the number of all bytes, where that is
known beforehand. -/
def wc (c : ToolCall) : ToolRun :=
  let names := [("lines", 'l'), ("words", 'w'), ("chars", 'm'), ("bytes", 'c'),
    ("max-line-length", 'L')]
  c.withOptions { plain := "lwmcL", names } 1 fun o =>
    let named := if o.operands.isEmpty then [[byte '-']] else o.operands
    let isShown (letter : Char) : Bool :=
      if o.given.isEmpty then ['l', 'w', 'c'].contains letter else o.has letter
    let counts (s : Bytes) : List (Char × Nat) :=
      [('l', s.count (byte '\n')), ('w', words false s), ('m', s.length), ('c', s.length),
        ('L', ((splitLines s).1.map List.length).foldl max 0)]
    let known (name : Bytes) : Option Bytes :=
      if ToolCall.isInput name then if c.source = .file then some c.input else none
      else (c.files.readBytes (c.path name)).toOption.map (·.toList)
    let isUnknown (name : Bytes) : Bool :=
      (known name).isNone && (ToolCall.isInput name || c.files.pathExists (c.path name))
    let columns := (counts []).filter (fun entry => isShown entry.1)
    let width :=
      if named.length = 1 && columns.length = 1 then 1
      else max (if named.any isUnknown then 7 else 1)
        (Text.natText (((named.filterMap known).map List.length).foldl (· + ·) 0)).length
    let line (numbers : List (Char × Nat)) (name : Bytes) : Bytes :=
      [byte ' '].intercalate ((numbers.filter (fun entry => isShown entry.1)).map
        (fun entry => rightAligned width (Text.natText entry.2)))
        ++ (if name.isEmpty then [] else byte ' ' :: name) ++ [byte '\n']
    let shownName (name : Bytes) : Bytes := if o.operands.isEmpty then [] else name
    let r := c.onEach { besides := line (counts []) } o.operands fun _ name c =>
      c.collected fun s => (line (counts s) (shownName name), 0)
    let input := named.map fun name =>
      if ToolCall.isInput name then c.input else (known name).getD []
    let total := (input.map counts).foldl (fun (sum : List (Char × Nat)) numbers =>
      (sum.zip numbers).map (fun (a, b) =>
        (a.1, if a.1 = 'L' then max a.2 b.2 else a.2 + b.2))) (counts [])
    match r.ending with
    | .exited _ =>
      if named.length < 2 then r
      else { r with said := r.said ++ [(.output, line total (bytesOf "total"))] }
    | _ => r

/-- A byte without the case of a letter. -/
def raised (b : UInt8) : UInt8 := if byte 'a' ≤ b && b ≤ byte 'z' then b - 32 else b

/-- Lines that are the same, one behind another. -/
def runsOf (isSame : Bytes → Bytes → Bool) : List Bytes → List (List Bytes)
  | [] => []
  | line :: rest =>
    match runsOf isSame rest with
    | (next :: run) :: runs =>
      if isSame line next then (line :: next :: run) :: runs else [line] :: (next :: run) :: runs
    | runs => [line] :: runs

/-- A byte string cut at a byte. -/
def cutAt (delimiter : UInt8) (s : Bytes) : List Bytes :=
  s.foldr (fun b (pieces : List Bytes) =>
    if b = delimiter then [] :: pieces
    else
      match pieces with
      | [] => [[b]]
      | piece :: rest => (b :: piece) :: rest) [[]]

/-- What lines are ordered by: fields from one to another, and how they are compared. -/
structure SortKey where
  first : Nat
  last : Option Nat
  flags : List Char

/-- The key that an option describes, or what is wrong with it. -/
def sortKeyOf (s : Bytes) : Except String SortKey :=
  let isDigit (b : UInt8) : Bool := byte '0' ≤ b && b ≤ byte '9'
  let isLetter (b : UInt8) : Bool := byte 'a' ≤ b && b ≤ byte 'z'
  let part (s : Bytes) : Option Nat × List Char :=
    (natOf? (s.takeWhile isDigit),
      (s.filter isLetter).map (fun b => Char.ofNat b.toNat))
  match (cutAt (byte ',') s).map part with
  | (none, _) :: _ =>
    .error ("invalid number at field start: invalid count at start of " ++ Quoting.forReading s)
  | (some 0, _) :: _ =>
    .error ("field number is zero: invalid field specification " ++ Quoting.forReading s)
  | (some first, flags) :: (last, more) :: _ => .ok ⟨first, last, flags ++ more⟩
  | [(some first, flags)] => .ok ⟨first, none, flags⟩
  | [] => .error "invalid key"

/-- The fields of a line: what stands between separators, or words with the blanks in front. -/
def fieldsOf (separator : Option UInt8) (line : Bytes) : List Bytes :=
  match separator with
  | some separator => cutAt separator line
  | none =>
    let isBlank (b : UInt8) : Bool := b = byte ' ' || b = byte '\t'
    line.foldr (fun b (fields : List Bytes) =>
      match fields with
      | [] => [[b]]
      | field :: rest =>
        if isBlank b || !field.head?.any isBlank then (b :: field) :: rest
        else [b] :: field :: rest) []

/-- What of a line a key is about. -/
def SortKey.part (k : SortKey) (separator : Option UInt8) (line : Bytes) : Bytes :=
  let fields := (fieldsOf separator line).drop (k.first - 1)
  let fields := match k.last with
    | some last => fields.take (last + 1 - k.first)
    | none => fields
  (separator.toList).intercalate fields

/-- Whether a text comes before another one or is equal to it, as flags say. -/
def comesFirst (flags : List Char) (a b : Bytes) : Bool :=
  let isBlank (b : UInt8) : Bool := b = byte ' ' || b = byte '\t'
  let number (s : Bytes) : Int :=
    let s := s.dropWhile isBlank
    let digits (s : Bytes) : Bytes := s.takeWhile (fun b => byte '0' ≤ b && b ≤ byte '9')
    match s with
    | sign :: rest =>
      if sign = byte '-' then -(((natOf? (digits rest)).getD 0 : Nat) : Int)
      else ((natOf? (digits s)).getD 0 : Nat)
    | [] => 0
  let text (s : Bytes) : Bytes :=
    let s := if flags.contains 'b' then s.dropWhile isBlank else s
    if flags.contains 'f' then s.map raised else s
  if flags.contains 'n' then number a ≤ number b else isOrdered (text a) (text b)

/-- Whether a line comes before another one or is equal to it under the keys. -/
def keysInOrder (separator : Option UInt8) (flags : List Char) :
    List SortKey → Bytes → Bytes → (isSame : Bool) → Bool
  | [], a, b, isSame => isSame || (if flags.contains 'r' then isOrdered b a else isOrdered a b)
  | key :: rest, a, b, isSame =>
    let own := if key.flags.isEmpty then flags else key.flags
    let (x, y) := (key.part separator a, key.part separator b)
    let (x, y) := if own.contains 'r' then (y, x) else (x, y)
    match comesFirst own x y, comesFirst own y x with
    | true, true => keysInOrder separator flags rest a b isSame
    | before, _ => before

/-- Sorts lines. Those that no key tells apart are ordered by their bytes, unless they are wanted only
once. -/
def sort (c : ToolCall) : ToolRun :=
  let names := [("numeric-sort", 'n'), ("reverse", 'r'), ("unique", 'u'), ("ignore-case", 'f'),
    ("ignore-leading-blanks", 'b'), ("key", 'k'), ("field-separator", 't'), ("output", 'o'),
    ("stable", 's'), ("check", 'c')]
  c.withOptions { plain := "bcdfginrsuVz", valued := "kotS", names } 2 fun o =>
    let flags := o.given.map Prod.fst
    let separator := (o.value? 't').bind List.head?
    match (o.values 'k').mapM sortKeyOf, (o.value? 't').filter (1 < ·.length) with
    | .error fault, _ => c.failed fault 2
    | .ok _, some long =>
      c.failed ("multi-character tab " ++ Quoting.forReading long) 2
    | .ok keys, none =>
      let keys := if keys.isEmpty then [⟨1, none, []⟩] else keys
      let isSameEnough := o.has 'u' || o.has 's'
      let before (a b : Bytes) : Bool := keysInOrder separator flags keys a b isSameEnough
      let isSame (a b : Bytes) : Bool :=
        keysInOrder separator flags keys a b true && keysInOrder separator flags keys b a true
      let wording : Wording :=
        { absent name reason := "cannot read: " ++ Quoting.asNeeded name ++ ": " ++ reason
          directory name reason := "read failed: " ++ Quoting.asNeeded name ++ ": " ++ reason
          code := 2 }
      let r := c.onAll wording true o.operands fun c =>
        c.collected fun s =>
          let sorted := (splitLines s).1.mergeSort before
          let sorted := if o.has 'u' then (runsOf isSame sorted).filterMap List.head? else sorted
          (joinLines (sorted, true), 0)
      let (complaints, output) := r.said.partition (·.1 = .errors)
      if !complaints.isEmpty then { r with said := complaints.take 1 }
      else
        match o.value? 'o', r.ending with
        | some name, .exited _ =>
          match c.files.writeBytes (c.path name) ⟨(output.flatMap Prod.snd).toArray⟩ with
          | .ok files => { r with said := [], files }
          | .error error =>
            c.failed ("open failed: " ++ Quoting.asNeeded name ++ ": " ++ error.reason) 2
        | _, _ => r

/-- Drops lines that repeat the one before. -/
def uniq (c : ToolCall) : ToolRun :=
  let names := [("count", 'c'), ("repeated", 'd'), ("unique", 'u'), ("ignore-case", 'i')]
  let wording : Wording :=
    { directory name reason := "error reading " ++ Quoting.always name ++ ": " ++ reason }
  c.withOptions { plain := "cdiuDz", valued := "fsw", names } 1 fun o =>
    let isSame (a b : Bytes) : Bool :=
      if o.has 'i' then a.map raised = b.map raised else a = b
    let shown (run : List Bytes) : List Bytes :=
      if o.has 'd' && run.length < 2 || o.has 'u' && 1 < run.length then []
      else
        (run.take 1).map fun line =>
          if o.has 'c' then rightAligned 7 (Text.natText run.length) ++ byte ' ' :: line else line
    match o.operands with
    | _ :: _ :: extra :: _ => c.lacking ("extra operand " ++ Quoting.forReading extra)
    | operands =>
      let r := c.onEach wording (operands.take 1) fun _ _ c =>
        c.filtered fun closed s =>
          let runs := runsOf isSame (splitLines s).1
          (joinLines ((if closed then runs else runs.dropLast).flatMap shown, true), 0)
      match operands.drop 1, r.ending with
      | name :: _, .exited 0 =>
        let output := (r.said.map Prod.snd).flatten
        match c.files.writeBytes (c.path name) ⟨output.toArray⟩ with
        | .ok files => { r with said := [], files }
        | .error error => c.failed (Wording.message {} name error) 1
      | _, _ => r

/-- The places that a list of numbers and ranges names, each with its last one, or what is wrong. -/
def placesOf (isField : Bool) (s : Bytes) : Except String (List (Nat × Option Nat)) :=
  let wrong {α : Type} (piece : Bytes) : Except String α :=
    .error ("invalid " ++ (if isField then "field value " else "byte/character position ")
      ++ Quoting.forReading piece)
  let place (piece : Bytes) : Except String Nat :=
    match natOf? piece with
    | none => wrong piece
    | some 0 =>
      .error ((if isField then "fields" else "byte/character positions") ++ " are numbered from 1")
    | some n => .ok n
  (cutAt (byte ',') s).mapM fun range => do
    match cutAt (byte '-') range with
    | [[]] => place (bytesOf "0") >>= fun n => return (n, none)
    | [only] => (place only).map (fun n => (n, some n))
    | [[], []] => throw "invalid range with no endpoint: -"
    | [[], last] => return (1, some (← place last))
    | [first, []] => return (← place first, none)
    | [first, last] =>
      let first ← place first
      let last ← place last
      if last < first then throw "invalid decreasing range" else return (first, some last)
    | _ => throw ("invalid " ++ (if isField then "field" else "byte or character") ++ " range")

/-- The members of a list at given places, counted from one, or at all others. -/
def selected {α : Type} (places : List (Nat × Option Nat)) (others : Bool) (xs : List α) : List α :=
  (xs.zipIdx 1).filterMap fun (x, n) =>
    if places.any (fun (first, last) => first ≤ n && last.all (n ≤ ·)) != others then some x
    else none

/-- Copies selected bytes or fields of each line. -/
def cut (c : ToolCall) : ToolRun :=
  let names := [("bytes", 'b'), ("characters", 'c'), ("fields", 'f'), ("delimiter", 'd'),
    ("only-delimited", 's'), ("complement", 'C'), ("output-delimiter", 'O')]
  c.withOptions { plain := "nszC", valued := "bcdfO", names } 1 fun o =>
    let lists := o.given.filter (fun option => ['b', 'c', 'f'].contains option.1)
    let isTooLong := (o.value? 'd').any (1 < ·.length)
    match lists, isTooLong with
    | [], _ => c.lacking "you must specify a list of bytes, characters, or fields"
    | _ :: _ :: _, _ => c.lacking "only one list may be specified"
    | [_], true => c.lacking "the delimiter must be a single character"
    | [(letter, list)], false =>
      match placesOf (letter = 'f') list with
      | .error fault => c.lacking fault
      | .ok places =>
        if letter ≠ 'f' && o.has 'd' then
          c.lacking "an input delimiter may be specified only when operating on fields"
        else
          let delimiter := ((o.value? 'd').bind List.head?).getD 9
          c.onEach {} o.operands fun _ _ c =>
            c.filtered fun _ text =>
              let lines := (splitLines text).1.filterMap fun line =>
                if letter ≠ 'f' then some (selected places (o.has 'C') line)
                else if !line.contains delimiter then if o.has 's' then none else some line
                else some (((o.value? 'O').getD [delimiter]).intercalate
                  (selected places (o.has 'C') (cutAt delimiter line)))
              (joinLines (lines, true), 0)

end Tool

end RubySupervisor.Shell
