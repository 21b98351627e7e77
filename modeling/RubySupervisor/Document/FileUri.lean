import RubySupervisor.Files.Path
import RubySupervisor.Text.Digit
import RubySupervisor.Text.Utf8

/-!
# Document addresses of files

A file is addressed by a `file:` URI whose path holds the steps of the file's path, percent-encoded
byte by byte. A few characters are left as they are although no URI may hold them; a path with such
a character has no address.
-/

namespace RubySupervisor.FileUri

/-- The printable ASCII characters that are percent-encoded. -/
def isEscaped (c : Char) : Bool :=
  [' ', '"', '<', '>', '`', '#', '?', '\x7b', '\x7d', '/', '%', '\\'].contains c

/-- The printable ASCII characters that stay and that no URI may hold. -/
def isForbidden (c : Char) : Bool := ['^', '|', '[', ']'].contains c

/-- The upper-case hexadecimal digit of a value below sixteen. -/
def upperDigit (n : Nat) : Char := if n < 10 then Char.ofNat (48 + n) else Char.ofNat (55 + n)

/-- One byte behind a percent sign. -/
def escapedByte (byte : UInt8) : List Char :=
  ['%', upperDigit (byte.toNat / 16), upperDigit (byte.toNat % 16)]

/-- One character of a step. -/
def encodedChar (c : Char) : List Char :=
  if 0x20 ≤ c.toNat && c.toNat < 0x7F && !isEscaped c then [c]
  else (Text.utf8 c.toString).flatMap escapedByte

/-- The text of a step. -/
def encodedStep : Path.Component → List Char
  | .root => []
  | .current => ['.']
  | .up => ['.', '.']
  | .name s => s.toList.flatMap encodedChar

/-- The address of an absolute path. -/
def ofPath? (p : Path) : Option String :=
  if !p.isAbsolute then none
  else
    let steps := p.components.drop 1
    let body := steps.flatMap (fun step => '/' :: encodedStep step)
    if body.any isForbidden then none
    else some ("file://" ++ (if body.isEmpty then "/" else String.ofList body))

example : ofPath? ⟨"/a b/é"⟩ = some "file:///a%20b/%C3%A9" := by decide +kernel

end RubySupervisor.FileUri
