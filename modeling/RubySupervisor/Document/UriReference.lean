import RubySupervisor.Json.Value
import RubySupervisor.Text.Digit
import RubySupervisor.Text.Scan

/-!
# References to documents

A document is referred to by a URI or by a reference relative to one. A reference may have a scheme,
an authority, a path, a query and a fragment; each part has its own characters, and any other byte
stands behind a percent sign as two hexadecimal digits.
-/

namespace RubySupervisor.UriReference

open Text (cutFirst? isAsciiAlphanumeric isAsciiDigit isAsciiLetter)

/-- A character that means itself everywhere. -/
def isUnreserved (c : Char) : Bool := isAsciiAlphanumeric c || ['-', '.', '_', '~'].contains c

/-- A character that may delimit what a part is made of. -/
def isSubDelimiter (c : Char) : Bool :=
  ['!', '$', '&', '\'', '(', ')', '*', '+', ',', ';', '='].contains c

/-- A character of a name in an authority. -/
def isNameChar (c : Char) : Bool := isUnreserved c || isSubDelimiter c

/-- A character of the user part of an authority. -/
def isUserChar (c : Char) : Bool := isNameChar c || c == ':'

/-- A character of a path. -/
def isPathChar (c : Char) : Bool := isUserChar c || c == '@' || c == '/'

/-- A character of a query or a fragment. -/
def isQueryChar (c : Char) : Bool := isPathChar c || c == '?'

/-- Whether a digit is hexadecimal. -/
def isHexDigit (c : Char) : Bool := (Text.hexValue? c).isSome

/-- Whether a part holds only characters of its class and encoded bytes. -/
def consistsOf (allowed : Char → Bool) : List Char → Bool
  | [] => true
  | '%' :: high :: low :: rest => isHexDigit high && isHexDigit low && consistsOf allowed rest
  | c :: rest => allowed c && consistsOf allowed rest

/-- What stands before a mark, and what stands behind it where the mark occurs. -/
def cutAt (mark : Char) (s : List Char) : List Char × Option (List Char) :=
  match cutFirst? [mark] s with
  | some (before, after) => (before, some after)
  | none => (s, none)

/-- Whether a text names a scheme: a letter, then letters, digits and three marks. -/
def isScheme : List Char → Bool
  | [] => false
  | c :: rest =>
    isAsciiLetter c && rest.all (fun c => isAsciiAlphanumeric c || ['+', '-', '.'].contains c)

/-- The parts of a text between marks. -/
def splitAt (mark : Char) : List Char → List (List Char)
  | [] => [[]]
  | c :: rest =>
    if c = mark then [] :: splitAt mark rest
    else
      match splitAt mark rest with
      | [] => [[c]]
      | part :: parts => (c :: part) :: parts

/-- Whether a text writes a byte in decimal digits without leading zeros. -/
def isByte (s : List Char) : Bool :=
  ((Text.numeral? s).any (· < 256)) && (s.length = 1 || s.head? != some '0')

/-- Whether a text is an address of four bytes. -/
def isFourByteAddress (s : List Char) : Bool :=
  let parts := splitAt '.' s
  parts.length = 4 && parts.all isByte

/-- Whether a text is a group of a long address: up to four hexadecimal digits. -/
def isGroup (s : List Char) : Bool := 1 ≤ s.length && s.length ≤ 4 && s.all isHexDigit

/-- The number of groups that a text writes between colons, the last two of them perhaps as an
address of four bytes. -/
def groups? (fourBytesAllowed : Bool) (s : List Char) : Option Nat :=
  if s.isEmpty then some 0
  else
    let parts := splitAt ':' s
    if parts.all isGroup then some parts.length
    else if fourBytesAllowed && parts.dropLast.all isGroup
        && (parts.getLast?.any isFourByteAddress) then
      some (parts.length + 1)
    else none

/-- Whether a text is an address of eight groups, some of them perhaps left out at one place. -/
def isLongAddress (s : List Char) : Bool :=
  match cutFirst? [':', ':'] s with
  | none => groups? true s = some 8
  | some (before, after) =>
    match groups? false before, groups? true after with
    | some m, some n => m + n ≤ 7
    | _, _ => false

/-- Whether what follows a host is a port or nothing. -/
def isPort : List Char → Bool
  | [] => true
  | ':' :: digits => digits.all isAsciiDigit
  | _ => false

/-- Whether a text is a host, perhaps with a port. -/
def isHost : List Char → Bool
  | '[' :: rest =>
    match cutAt ']' rest with
    | (address, some port) => isLongAddress address && isPort port
    | (_, none) => false
  | s => consistsOf isNameChar (s.takeWhile (· ≠ ':')) && isPort (s.dropWhile (· ≠ ':'))

/-- Whether a text is an authority: a host, perhaps behind a user. -/
def isAuthority (s : List Char) : Bool :=
  match cutAt '@' s with
  | (user, some host) => consistsOf isUserChar user && isHost host
  | (host, none) => isHost host

/-- Whether a text is a path, perhaps behind an authority. -/
def isLocation : List Char → Bool
  | '/' :: '/' :: rest =>
    isAuthority (rest.takeWhile (· ≠ '/')) && consistsOf isPathChar (rest.dropWhile (· ≠ '/'))
  | s => consistsOf isPathChar s

/-- Whether a text is a path, perhaps behind a scheme and an authority. A colon in the first step
always ends a scheme. -/
def isTarget (s : List Char) : Bool :=
  if (s.takeWhile (· ≠ '/')).contains ':' then
    match cutAt ':' s with
    | (scheme, rest) => isScheme scheme && isLocation (rest.getD [])
  else isLocation s

/-- Whether a text refers to a document. -/
def isWellFormed (s : String) : Bool :=
  let (body, fragment) := cutAt '#' s.toList
  let (target, query) := cutAt '?' body
  isTarget target && (query.all (consistsOf isQueryChar))
    && (fragment.all (consistsOf isQueryChar))

/-- The reference that a value writes. -/
def ofJson? (j : Json) : Option String := j.text?.filter isWellFormed

example : isWellFormed "file:///a%20b.rb?x#y" = true := by decide +kernel

example : ["file:///a b", "1a:b", "a%2", "//h:x/p", "//[::1]:8/p"].map isWellFormed
    = [false, false, false, false, true] := by decide +kernel

end RubySupervisor.UriReference
