import RubySupervisor.Decimal.Places
import RubySupervisor.Shell.Tool
import RubySupervisor.Text.Blank
import RubySupervisor.Text.Scan

/-!
# Printing

What a shell prints when it is told to: words with blanks between them, and arguments in the
layouts that a format describes. A format is used again as long as it uses up arguments.
-/

namespace RubySupervisor.Shell.Printing

/-- Whether a byte is a digit below a base of at most ten. -/
def isDigitBelow (base : Nat) (b : UInt8) : Bool :=
  byte '0' ≤ b && b.toNat < 48 + base

/-- The byte that octal digits write. -/
def octal (digits : Bytes) : UInt8 :=
  UInt8.ofNat (digits.foldl (fun n b => n * 8 + (b.toNat - 48)) 0)

/-- The bytes that letters behind a backslash stand for. -/
def letters : List (UInt8 × UInt8) :=
  [(byte 'a', 7), (byte 'b', 8), (byte 'e', 27), (byte 'f', 12), (byte 'n', 10),
    (byte 'r', 13), (byte 't', 9),
    (byte 'v', 11), (byte '\\', byte '\\')]

/-- A text with the sequences behind backslashes replaced, and whether printing goes on. Three octal
digits may have a zero in front of them. -/
def unescape (zeroFirst : Bool) : (fuel : Nat) → Bytes → Bytes × Bool
  | 0, s => (s, true)
  | _, [] => ([], true)
  | fuel + 1, c :: rest =>
    let onward (bytes : Bytes) (rest : Bytes) : Bytes × Bool :=
      let (others, goesOn) := unescape zeroFirst fuel rest
      (bytes ++ others, goesOn)
    if c ≠ byte '\\' then onward [c] rest
    else
      match rest with
      | [] => ([c], true)
      | d :: after =>
        if zeroFirst && d = byte 'c' then ([], false)
        else
          match letters.lookup d with
          | some b => onward [b] after
          | none =>
            let digits := ((if zeroFirst && d = byte '0' then after else rest).takeWhile
              (isDigitBelow 8)).take 3
            if zeroFirst && d = byte '0' then onward [octal digits] (after.drop digits.length)
            else if digits.isEmpty then onward [c, d] after
            else onward [octal digits] (rest.drop digits.length)

/-- The words with a blank between any two. -/
def joined (words : List Bytes) : Bytes := [byte ' '].intercalate words

/-- What `echo` prints. -/
def echo (arguments : List Bytes) : Bytes :=
  let (newline, words) := match arguments with
    | first :: rest => if first = bytesOf "-n" then (false, rest) else (true, first :: rest)
    | [] => (true, [])
  let text := joined words
  let (text, goesOn) := unescape true (text.length + 1) text
  if newline && goesOn then text ++ [byte '\n'] else text

/-- How a value is brought to a width. -/
structure Layout where
  /-- The flags in front of the width. -/
  flags : Bytes
  width : Nat
  precision : Option Nat

namespace Layout

/-- Whether a flag is set. -/
def has (l : Layout) (flag : Char) : Bool := l.flags.contains (byte flag)

/-- A text brought to a width. -/
def pad (l : Layout) (s : Bytes) : Bytes :=
  let fill : Bytes := List.replicate (l.width - s.length) (byte ' ')
  if l.has '-' then s ++ fill else fill ++ s

/-- What stands in front of a number. -/
def sign (l : Layout) (negative : Bool) : List Char :=
  if negative then ['-'] else if l.has '+' then ['+'] else if l.has ' ' then [' '] else []

/-- Digits behind a sign, brought to a width; zeros may fill it. -/
def number (l : Layout) (zeros : Bool) (sign digits : List Char) : Bytes :=
  let missing := if zeros && l.has '0' && !l.has '-' then l.width - sign.length - digits.length
    else 0
  l.pad ((sign ++ List.replicate missing '0' ++ digits).map byte)

/-- An integer brought to a width; the precision is the least number of its digits. -/
def integer (l : Layout) (sign digits : List Char) : Bytes :=
  let digits := if l.precision = some 0 && digits = ['0'] then [] else digits
  let filled := List.replicate ((l.precision.getD 0) - digits.length) '0' ++ digits
  l.number l.precision.isNone sign filled

end Layout

/-- What arguments are read as, and what is wrong with them. -/
structure Reading (α : Type) where
  value : α
  faults : List String

/-- The reading of a text of which some is left over. -/
def Reading.of {α : Type} (argument : Bytes) (value : α) (left : List Char)
    (outOfRange : Bool) : Reading α :=
  let text := Text.lossyText argument
  let fault (reason : String) : List String := [text ++ ": " ++ reason]
  ⟨value,
    if !left.isEmpty then
      fault (if left.length = text.length then "expected numeric value"
        else "not completely converted")
    else if outOfRange then fault "Numerical result out of range"
    else []⟩

/-- A text without the blanks in front of it, split behind its sign. -/
def signed (text : List Char) : Bool × List Char :=
  match text.dropWhile Text.isBlank with
  | '-' :: rest => (true, rest)
  | '+' :: rest => (false, rest)
  | rest => (false, rest)

/-- The digits of a base at the front of a text, as a number, and what follows them. -/
def digitsOf (base : Nat) (text : List Char) : Nat × List Char :=
  let (digits, rest) := text.span (fun c => (Text.hexValue? c).any (· < base))
  (digits.foldl (fun n c => n * base + (Text.hexValue? c).getD 0) 0, rest)

/-- The integer that an argument writes, in base sixteen or eight behind the usual marks. Behind a
quote it is the number of a byte. -/
def integerOf (bounded : Bool) (argument : Bytes) : Reading Int :=
  match argument with
  | quote :: rest =>
    if quote = byte '"' || quote = byte '\'' then ⟨((rest.head?.map (·.toNat)).getD 0 : Nat), []⟩
    else
      let text := (Text.lossyText argument).toList
      let (negative, digits) := signed text
      let isHex (c : Char) : Bool := (Text.hexValue? c).isSome
      let (n, left) : Nat × List Char := match digits with
        | '0' :: 'x' :: c :: rest => if isHex c then digitsOf 16 (c :: rest)
            else (0, 'x' :: c :: rest)
        | '0' :: 'X' :: c :: rest => if isHex c then digitsOf 16 (c :: rest)
            else (0, 'X' :: c :: rest)
        | '0' :: rest => digitsOf 8 ('0' :: rest)
        | c :: rest => if Text.isAsciiDigit c then digitsOf 10 (c :: rest) else (0, text)
        | [] => (0, text)
      let value : Int := if negative then -(n : Int) else n
      if bounded then
        .of argument (max (-9223372036854775808) (min 9223372036854775807 value)) left
          (value < -9223372036854775808 || 9223372036854775808 ≤ value)
      else .of argument (if Nat.pow 2 64 ≤ n then 18446744073709551615 else value % 18446744073709551616) left
          (Nat.pow 2 64 ≤ n)
  | [] => ⟨0, []⟩

/-- A number with a point. -/
inductive Real where
  | finite (x : Decimal.Binary64)
  | infinite (negative : Bool)
  | undefined

/-- The power behind a letter, if there is one. -/
def powerOf (letters : List Char) (text : List Char) : Int × List Char :=
  match text with
  | c :: rest =>
    let (negative, digits) : Bool × List Char := match rest with
      | '-' :: digits => (true, digits)
      | '+' :: digits => (false, digits)
      | digits => (false, digits)
    if letters.contains c && digits.head?.any Text.isAsciiDigit then
      let (n, rest) := digitsOf 10 digits
      (if negative then -(min n 100000 : Nat) else (min n 100000 : Nat), rest)
    else (0, text)
  | [] => (0, text)

/-- The number with a point that an argument writes. -/
def realOf (argument : Bytes) : Reading Real :=
  match argument with
  | quote :: rest =>
    if quote = byte '"' || quote = byte '\'' then
      let n := (rest.head?.map (·.toNat)).getD 0
      ⟨((Decimal.Binary64.ofNat? n).map Real.finite).getD .undefined, []⟩
    else
      let text := (Text.lossyText argument).toList
      let (negative, rest) := signed text
      let lower := rest.map Char.toLower
      let named (name : String) : Option (List Char) :=
        (Text.literal? name.toList lower).map (fun left => rest.drop (rest.length - left.length))
      match (named "infinity").orElse (fun () => named "inf"), named "nan" with
      | some left, _ => .of argument (.infinite negative) left false
      | none, some left => .of argument .undefined left false
      | none, none =>
        let (base, mark, letters, rest) : Nat × Nat × List Char × List Char := match rest with
          | '0' :: x :: after =>
            if (x = 'x' || x = 'X') && (after.dropWhile (· = '.')).head?.any (fun c =>
              (Text.hexValue? c).isSome) then (16, 2, ['p', 'P'], after)
            else (10, 10, ['e', 'E'], rest)
          | rest => (10, 10, ['e', 'E'], rest)
        let (whole, after) := digitsOf base rest
        let (all, places, left) : Nat × Nat × List Char := match after with
          | '.' :: behind =>
            let (fraction, left) := digitsOf base behind
            let places := behind.length - left.length
            (whole * Nat.pow base places + fraction, places, left)
          | after => (whole, 0, after)
        if rest.length - left.length ≤ (if rest.length = left.length then 0 else 1)
            && !(rest.head?.bind Text.hexValue?).any (· < base) then
          .of argument (.finite { Decimal.Binary64.zero with negative }) text false
        else
          let (power, left) := powerOf letters left
          let found := if all = 0 then some { Decimal.Binary64.zero with negative }
            else Decimal.Binary64.ofQuotient? negative (all * Nat.pow mark power.toNat)
              (Nat.pow base places * Nat.pow mark (-power).toNat)
          .of argument ((found.map Real.finite).getD (.infinite negative)) left found.isNone
  | [] => ⟨.finite Decimal.Binary64.zero, []⟩

/-- A number with a point in a layout. -/
def Layout.real (l : Layout) (conversion : Char) (x : Real) : Bytes :=
  let cased (s : List Char) : List Char :=
    if conversion.isUpper then s.map Char.toUpper else s
  let places := l.precision.getD 6
  match x with
  | .undefined => l.number false (l.sign false) (cased "nan".toList)
  | .infinite negative => l.number false (l.sign negative) (cased "inf".toList)
  | .finite x =>
    let num := x.significand * Nat.pow 2 x.shift
    let den := Nat.pow 2 1074
    let keeps := l.has '#'
    let digits := match conversion.toLower with
      | 'f' => Decimal.fixed num den places keeps
      | 'e' => Decimal.scientific num den places keeps
      | _ => Decimal.general num den places keeps
    l.number true (l.sign x.negative) (cased digits)

/-- The bytes of one conversion with what is wrong with its argument, and whether printing goes on;
none if there is no such conversion. -/
def convert? (l : Layout) (conversion : UInt8) (argument : Bytes) :
    Option (Bytes × List String × Bool) :=
  let cut (s : Bytes) : Bytes := match l.precision with
    | some n => s.take n
    | none => s
  let plain (s : Bytes) : Option (Bytes × List String × Bool) := some (s, [], true)
  let c := Char.ofNat conversion.toNat
  let based (base : Nat) (mark : List Char) : Option (Bytes × List String × Bool) :=
    let n := integerOf false argument
    let digits := Nat.toDigits base n.value.toNat
    let mark := if l.has '#' && n.value ≠ 0 then mark else []
    let digits := if c.isUpper then digits.map Char.toUpper else digits
    let (mark, digits) := if base = 8 then
        ([], if (l.precision.getD 0) ≤ digits.length then mark ++ digits else digits)
      else (mark, digits)
    let l := if base = 8 && l.has '#' then { l with precision := l.precision.map (max 1) } else l
    some (l.integer mark digits, n.faults, true)
  match c with
  | 's' => plain (l.pad (cut argument))
  | 'c' => plain (l.pad [argument.head?.getD 0])
  | 'b' =>
    let (text, goesOn) := unescape true (argument.length + 1) argument
    some (l.pad (cut text), [], goesOn)
  | 'u' => based 10 []
  | 'o' => based 8 ['0']
  | 'x' => based 16 ['0', 'x']
  | 'X' => based 16 ['0', 'X']
  | _ =>
    if c = 'd' || c = 'i' then
      let n := integerOf true argument
      some (l.integer (l.sign (n.value < 0)) (Nat.toDigits 10 n.value.natAbs), n.faults, true)
    else if ['e', 'E', 'f', 'F', 'g', 'G'].contains c then
      let x := realOf argument
      some (l.real c x.value, x.faults, true)
    else none

/-- How printing goes on behind a part of a format. -/
inductive Ending where
  | complete
  /-- A text asked for the end of all output. -/
  | cut
  /-- The format has a fault. -/
  | refused (reason : String)
  deriving DecidableEq, Repr

/-- What a format prints: the bytes, what is wrong with arguments, and the arguments that remain. -/
structure Printed where
  bytes : Bytes
  faults : List String
  remaining : List Bytes
  ending : Ending

/-- A number in a layout: digits, or an asterisk for the next argument. -/
def measure (s : Bytes) (arguments : List Bytes) :
    Option Int × List String × Bytes × List Bytes :=
  match s with
  | star :: rest =>
    if star = byte '*' then
      let n := integerOf true (arguments.head?.getD [])
      (some (n.value.bmod (Nat.pow 2 32)), n.faults, rest, arguments.drop 1)
    else
      let digits := s.takeWhile (isDigitBelow 10)
      (((Tool.natOf? digits).map Int.ofNat), [], s.drop digits.length, arguments)
  | [] => (none, [], [], arguments)

/-- The layout in front of a conversion, what is wrong with the arguments that it takes, and what
follows it. -/
def layout (s : Bytes) (arguments : List Bytes) : Layout × List String × Bytes × List Bytes :=
  let isFlag (b : UInt8) : Bool := (bytesOf "#-+ 0").contains b
  let flags := s.takeWhile isFlag
  let (width, faults, s, arguments) := measure (s.dropWhile isFlag) arguments
  let width := width.getD 0
  let flags := if width < 0 then byte '-' :: flags else flags
  match s with
  | dot :: rest =>
    if dot = byte '.' then
      let (precision, others, rest, arguments) := measure rest arguments
      let precision := precision.getD 0
      (⟨flags, width.natAbs, if precision < 0 then none else some precision.toNat⟩,
        faults ++ others, rest, arguments)
    else (⟨flags, width.natAbs, none⟩, faults, s, arguments)
  | [] => (⟨flags, width.natAbs, none⟩, faults, [], arguments)

/-- One pass over a format. -/
def formatOnce : (fuel : Nat) → Bytes → List Bytes → Printed
  | 0, _, arguments => ⟨[], [], arguments, .complete⟩
  | _, [], arguments => ⟨[], [], arguments, .complete⟩
  | fuel + 1, c :: rest, arguments =>
    let onward (bytes : Bytes) (faults : List String) (rest : Bytes) (arguments : List Bytes) :
        Printed :=
      let others := formatOnce fuel rest arguments
      { others with bytes := bytes ++ others.bytes, faults := faults ++ others.faults }
    if c = byte '\\' then
      let digits := (rest.takeWhile (isDigitBelow 8)).take 3
      let taken := if digits.isEmpty then 1 else digits.length
      onward (unescape false (rest.length + 2) (c :: rest.take taken)).1 [] (rest.drop taken)
        arguments
    else if c ≠ byte '%' then onward [c] [] rest arguments
    else if rest.head? = some (byte '%') then onward [c] [] (rest.drop 1) arguments
    else
      let (l, faults, after, arguments) := layout rest arguments
      match after with
      | [] => ⟨[], faults, arguments, .refused "missing format character"⟩
      | conversion :: after =>
        match convert? l conversion (arguments.head?.getD []) with
        | none =>
          let written := c :: rest.take (rest.length - after.length)
          ⟨[], faults, arguments, .refused (Text.lossyText written ++ ": invalid directive")⟩
        | some (bytes, others, goesOn) =>
          if goesOn then onward bytes (faults ++ others) after (arguments.drop 1)
          else ⟨bytes, faults ++ others, arguments.drop 1, .cut⟩

/-- Prints a format until every argument is used. -/
def format : (fuel : Nat) → Bytes → List Bytes → Printed
  | 0, _, arguments => ⟨[], [], arguments, .complete⟩
  | fuel + 1, f, arguments =>
    let printed := formatOnce (f.length + 1) f arguments
    if printed.remaining.isEmpty || printed.remaining.length = arguments.length
        || printed.ending ≠ .complete then printed
    else
      let others := format fuel f printed.remaining
      { others with
        bytes := printed.bytes ++ others.bytes, faults := printed.faults ++ others.faults }

/-- What `printf` prints for a format with arguments. -/
def printf (f : Bytes) (arguments : List Bytes) : Printed := format (arguments.length + 1) f arguments

end RubySupervisor.Shell.Printing
