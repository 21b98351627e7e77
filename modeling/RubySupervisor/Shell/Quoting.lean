import RubySupervisor.Shell.Pattern
import RubySupervisor.Text.Utf8

/-!
# Names in complaints

A complaint names a file in such a way that a shell reads the name as one word. Bytes that are not
printable ASCII are written as escapes, and these stand between quotes of their own.
-/

namespace RubySupervisor.Shell.Quoting

/-- Whether a byte is written as it stands. -/
def isPrintable (b : UInt8) : Bool := 32 ≤ b && b < 127

/-- The bytes that are escaped by a letter, with that letter. -/
def letters : List (UInt8 × Char) :=
  [(7, 'a'), (8, 'b'), (9, 't'), (10, 'n'), (11, 'v'), (12, 'f'), (13, 'r')]

/-- The escape of a byte: a letter, or three octal digits. -/
def escaped (b : UInt8) : Bytes :=
  byte '\\' :: match letters.lookup b with
    | some letter => [byte letter]
    | none => [b / 64, b / 8 % 8, b % 8].map (· + byte '0')

/-- Whether a shell reads a byte as more than itself, wherever it stands in a word. -/
def isSpecial (b : UInt8) : Bool := (bytesOf " !\"$&()*;<=>?[\\^`|").contains b

/-- Whether the first byte of a word makes a shell read more than the word, or the only one. -/
def leads : Bytes → Bool
  | [] => true
  | [only] => (bytesOf "#~\x7b\x7d").contains only
  | first :: _ => (bytesOf "#~").contains first

/-- Whether a shell would not read a name as it stands. -/
def isNeeded (name : Bytes) : Bool :=
  leads name || name.any (fun b => isSpecial b || b = byte '\'' || !isPrintable b)

/-- Whether a name with an apostrophe may stand between double quotes. -/
def fitsDouble (name : Bytes) : Bool :=
  name.contains (byte '\'') &&
    name.all (fun b => isPrintable b && (b = byte ' ' || !isSpecial b)) &&
    !(name.drop (if leads name then 1 else 0)).any (bytesOf "#~\x7b\x7d").contains

/-- The bytes of a name between single quotes; the flag says whether escapes come before them. -/
def inside (escapes : Bool) : Bytes → Bytes
  | [] => []
  | b :: rest =>
    if !isPrintable b then
      (if escapes then [] else bytesOf "'$'") ++ escaped b ++ inside true rest
    else if b = byte '\'' then bytesOf "'\\''" ++ inside false rest
    else (if escapes then bytesOf "''" else []) ++ b :: inside false rest

/-- A name as one quoted word. -/
def always (name : Bytes) : String :=
  Text.lossyText (if fitsDouble name then byte '"' :: name ++ [byte '"']
    else byte '\'' :: inside false name ++ [byte '\''])

/-- A name as one word, in quotes if it needs them. -/
def asNeeded (name : Bytes) : String :=
  if isNeeded name then always name else Text.lossyText name

/-- A name between single quotes, for people: an apostrophe and a backslash follow a backslash. -/
def forReading (name : Bytes) : String :=
  Text.lossyText (byte '\'' :: name.flatMap (fun b =>
    if !isPrintable b then escaped b
    else if b = byte '\'' || b = byte '\\' then [byte '\\', b] else [b]) ++ [byte '\''])

/-- The text between single quotes, with the runs of apostrophes in it between double quotes; `isIn`
says whether such a run is under way. -/
def alternating (isIn : Bool) : Bytes → Bytes
  | [] => [byte (if isIn then '"' else '\'')]
  | b :: rest =>
    if b = byte '\'' then (if isIn then [b] else bytesOf "'\"'") ++ alternating true rest
    else (if isIn then bytesOf "\"'" else []) ++ b :: alternating false rest

/-- A value as a shell can read it again. -/
def again (value : Bytes) : Bytes := byte '\'' :: alternating false value

end RubySupervisor.Shell.Quoting
