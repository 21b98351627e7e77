import RubySupervisor.Text.Digit
import RubySupervisor.Text.Scan

/-!
# Texts and numbers of a settings document

Texts stand between double quotes, with escapes, or between single quotes, as they are; three
quotes hold several lines. Integers are decimal with an optional sign, or hexadecimal, octal or
binary; underscores may stand between their digits.
-/

namespace RubySupervisor.Toml

open Text (hexValue? isAsciiDigit)

/-- The blanks within a line. -/
def isSpace (c : Char) : Bool := c == ' ' || c == '\t'

/-- The text from its first character that is no blank. -/
def skipSpace (s : List Char) : List Char := s.dropWhile isSpace

/-- The characters that may stand in a line: all but control characters. -/
def isPrintable (c : Char) : Bool := c == '\t' || (0x20 ≤ c.toNat && c.toNat != 0x7F)

/-- A line end at the front of the text: its characters, and the rest. -/
def lineEnd? : List Char → Option (List Char × List Char)
  | '\n' :: rest => some (['\n'], rest)
  | '\r' :: '\n' :: rest => some (['\r', '\n'], rest)
  | _ => none

/-- The text without a line end at its front. -/
def dropLineEnd (s : List Char) : List Char :=
  match lineEnd? s with
  | some (_, rest) => rest
  | none => s

/-- A number of hexadecimal digits. -/
def hexDigits? : (count value : Nat) → List Char → Option (Nat × List Char)
  | 0, value, s => some (value, s)
  | count + 1, value, c :: rest => do
    let d ← hexValue? c
    hexDigits? count (value * 16 + d) rest
  | _ + 1, _, [] => none

/-- The character of a code point, unless it is a surrogate or too large. -/
def scalar? (n : Nat) : Option Char :=
  if n < 0xD800 ∨ (0xDFFF < n ∧ n < 0x110000) then some (Char.ofNat n) else none

/-- The character of an escape with a number of hexadecimal digits. -/
def codeEscape? (count : Nat) (s : List Char) : Option (Char × List Char) := do
  let (n, rest) ← hexDigits? count 0 s
  return (← scalar? n, rest)

/-- The character of an escape after its backslash. -/
def escape? : List Char → Option (Char × List Char)
  | 'b' :: rest => some ('\x08', rest)
  | 't' :: rest => some ('\t', rest)
  | 'n' :: rest => some ('\n', rest)
  | 'f' :: rest => some ('\x0c', rest)
  | 'r' :: rest => some ('\r', rest)
  | 'e' :: rest => some ('\x1b', rest)
  | '"' :: rest => some ('"', rest)
  | '\\' :: rest => some ('\\', rest)
  | 'x' :: rest => codeEscape? 2 rest
  | 'u' :: rest => codeEscape? 4 rest
  | 'U' :: rest => codeEscape? 8 rest
  | _ => none

/-- A text in double quotes after its opening quote. -/
def quoted? : (fuel : Nat) → List Char → Option (List Char × List Char)
  | 0, _ => none
  | fuel + 1, s =>
    match s with
    | '"' :: rest => some ([], rest)
    | '\\' :: rest => do
      let (c, rest) ← escape? rest
      let (body, rest) ← quoted? fuel rest
      return (c :: body, rest)
    | c :: rest => do
      if isPrintable c then
        let (body, rest) ← quoted? fuel rest
        return (c :: body, rest)
      else none
    | [] => none

/-- A text in single quotes after its opening quote. -/
def literalText? : List Char → Option (List Char × List Char)
  | '\'' :: rest => some ([], rest)
  | c :: rest => do
    if isPrintable c then
      let (body, rest) ← literalText? rest
      return (c :: body, rest)
    else none
  | [] => none

/-- The quotes of a run that belong to the text when the run closes it, and what follows. -/
def closingQuotes (quote : Char) (run : Nat) (rest : List Char) : List Char × List Char :=
  let kept := min (run - 3) 2
  (List.replicate kept quote, List.replicate (run - 3 - kept) quote ++ rest)

/-- The text without the blanks and line ends at its front. -/
def skipLines : (fuel : Nat) → List Char → List Char
  | 0, s => s
  | fuel + 1, s =>
    match lineEnd? (skipSpace s) with
    | some (_, rest) => skipLines fuel rest
    | none => skipSpace s

/-- The text after an escaped line end: without the blanks and line ends that follow. -/
def afterEscapedLineEnd (rest : List Char) : Option (List Char) :=
  match lineEnd? (skipSpace rest) with
  | some (_, rest) => some (skipLines (rest.length + 1) rest)
  | none => none

/-- A text of several lines after its three opening quotes; escapes count between double quotes
only. -/
def severalLines? (quote : Char) : (fuel : Nat) → List Char → Option (List Char × List Char)
  | 0, _ => none
  | fuel + 1, s =>
    match s with
    | [] => none
    | c :: rest =>
      if c = quote then
        let run := (s.takeWhile (· == quote)).length
        let after := s.dropWhile (· == quote)
        if run < 3 then do
          let (body, rest) ← severalLines? quote fuel after
          return (List.replicate run quote ++ body, rest)
        else some (closingQuotes quote run after)
      else if c = '\\' ∧ quote = '"' then
        match afterEscapedLineEnd rest with
        | some rest => severalLines? quote fuel rest
        | none => do
          let (c, rest) ← escape? rest
          let (body, rest) ← severalLines? quote fuel rest
          return (c :: body, rest)
      else
        match lineEnd? s with
        | some (ending, rest) => do
          let (body, rest) ← severalLines? quote fuel rest
          return (ending ++ body, rest)
        | none => do
          if isPrintable c then
            let (body, rest) ← severalLines? quote fuel rest
            return (c :: body, rest)
          else none

/-- A text on one line at the front of the input. -/
def shortText? : List Char → Option (String × List Char)
  | '"' :: rest => (quoted? (rest.length + 1) rest).map (fun r => (String.ofList r.1, r.2))
  | '\'' :: rest => (literalText? rest).map (fun r => (String.ofList r.1, r.2))
  | _ => none

/-- A text at the front of the input. -/
def anyText? : List Char → Option (String × List Char)
  | '"' :: '"' :: '"' :: rest =>
    (severalLines? '"' (rest.length + 1) (dropLineEnd rest)).map
      (fun r => (String.ofList r.1, r.2))
  | '\'' :: '\'' :: '\'' :: rest =>
    (severalLines? '\'' (rest.length + 1) (dropLineEnd rest)).map
      (fun r => (String.ofList r.1, r.2))
  | s => shortText? s

/-- The value of a digit below a base. -/
def digitBelow? (base : Nat) (c : Char) : Option Nat := (hexValue? c).filter (· < base)

/-- The number that digits write, single underscores between them. -/
def digits? (base : Nat) : (value : Nat) → List Char → Option Nat
  | _, [] => none
  | value, [c] => (digitBelow? base c).map (fun d => value * base + d)
  | value, c :: '_' :: rest => do
    let d ← digitBelow? base c
    digits? base (value * base + d) rest
  | value, c :: rest => do
    let d ← digitBelow? base c
    digits? base (value * base + d) rest

/-- A decimal number without leading zeros. -/
def decimal? (s : List Char) : Option Nat :=
  match s with
  | '0' :: _ :: _ => none
  | _ => digits? 10 0 s

/-- The integer that a word writes. -/
def integer? : List Char → Option Int
  | '0' :: 'x' :: rest => (digits? 16 0 rest).map Int.ofNat
  | '0' :: 'o' :: rest => (digits? 8 0 rest).map Int.ofNat
  | '0' :: 'b' :: rest => (digits? 2 0 rest).map Int.ofNat
  | '+' :: rest => (decimal? rest).map Int.ofNat
  | '-' :: rest => (decimal? rest).map (fun n => -Int.ofNat n)
  | s => (decimal? s).map Int.ofNat

/-- The characters of a word: those of numbers and names. -/
def isWordChar (c : Char) : Bool :=
  Text.isAsciiAlphanumeric c || c == '_' || c == '+' || c == '-' || c == '.' || c == ':'

end RubySupervisor.Toml
