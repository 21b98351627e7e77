import RubySupervisor.Shell.Pattern

/-!
# Fields

An expanded word is a list of chunks, of which some are split at separators. A blank among the
separators ends a field, and so does any other separator, but a separator with blanks around it
ends only one.
-/

namespace RubySupervisor.Shell

/-- Whether a byte is a blank, of which many separate no more than one. -/
def isBlank (b : UInt8) : Bool := b = byte ' ' || b = byte '\t' || b = byte '\n'

/-- A piece of an expanded word. -/
inductive Chunk where
  /-- Bytes that belong together; quoted ones are no pattern. -/
  | fixed (s : Bytes) (quotes : Bool)
  /-- Bytes that are split at separators. -/
  | loose (s : Bytes)
  /-- The end of a field. -/
  | fieldEnd

namespace Chunk

/-- A chunk whose bytes are split unless they were quoted. -/
def loosen : Chunk → Chunk
  | fixed s false => loose s
  | chunk => chunk

/-- A chunk as if it stood in quotes. -/
def quote : Chunk → Chunk
  | fixed s _ => fixed s true
  | loose s => fixed s true
  | fieldEnd => fieldEnd

/-- The chunks of a value; where it has a zero byte, a field ends. -/
def ofValue (quotes : Bool) (value : Bytes) : List Chunk :=
  let field := value.takeWhile (· ≠ 0)
  let chunk := if quotes then fixed field true else loose field
  match h : value.dropWhile (· ≠ 0) with
  | [] => [chunk]
  | _ :: rest =>
    have : rest.length < value.length := by
      have shorter := (value.dropWhile_sublist (· ≠ 0)).length_le
      rw [h] at shorter
      exact Nat.lt_of_lt_of_le (by simp) shorter
    chunk :: fieldEnd :: ofValue quotes rest
termination_by value.length

/-- A field under construction, its last byte first. -/
abbrev Field := List (UInt8 × Bool)

/-- Fields so far, the last one first, and the one under construction. -/
structure Splitting where
  finished : List Field := []
  current : Option Field := none
  /-- A blank has ended the last field, so that a separator behind it belongs to the blank. -/
  isAfterBlank : Bool := false

/-- Ends the field under construction, if there is one. -/
def Splitting.flush (s : Splitting) : Splitting :=
  match s.current with
  | some field => ⟨field :: s.finished, none, false⟩
  | none => s

/-- Adds bytes to the field under construction. -/
def Splitting.extend (s : Splitting) (field : Field) : Splitting :=
  { s with current := some (field.reverse ++ s.current.getD []), isAfterBlank := false }

/-- Adds one byte of a loose chunk. -/
def Splitting.add (separators : Bytes) (s : Splitting) (b : UInt8) : Splitting :=
  if !separators.contains b then s.extend [(b, false)]
  else if isBlank b then
    if s.current.isSome then { s.flush with isAfterBlank := true } else s
  else if s.isAfterBlank then { s with isAfterBlank := false }
  else ⟨s.current.getD [] :: s.finished, none, false⟩

/-- The fields of chunks. -/
def fields (separators : Bytes) (chunks : List Chunk) : List Field :=
  let final := chunks.foldl (fun (s : Splitting) chunk =>
    match chunk with
    | .fixed bytes quotes => s.extend (bytes.map (fun b => (b, quotes)))
    | .loose bytes => bytes.foldl (Splitting.add separators) { s with isAfterBlank := false }
    | .fieldEnd => s.flush) {}
  (final.flush.finished.map List.reverse).reverse

/-- The bytes of chunks that are not split; the first separator stands between fields. -/
def unsplit (separators : Bytes) (chunks : List Chunk) : List (UInt8 × Bool) :=
  chunks.flatMap fun chunk =>
    match chunk with
    | .fixed bytes quotes => bytes.map (fun b => (b, quotes))
    | .loose bytes => bytes.map (fun b => (b, false))
    | .fieldEnd => (separators.take 1).map (fun b => (b, true))

end Chunk

namespace Line

/-- Whether a byte separates; a protected one does not. -/
def separates (separators : Bytes) (b : UInt8 × Bool) : Bool := !b.2 && separators.contains b.1

/-- Whether a byte separates and is a blank. -/
def blankSeparates (separators : Bytes) (b : UInt8 × Bool) : Bool :=
  separates separators b && isBlank b.1

/-- The first field of a line, and what follows the separator behind it. -/
def cut (separators : Bytes) (line : List (UInt8 × Bool)) :
    List (UInt8 × Bool) × List (UInt8 × Bool) :=
  let (field, rest) := line.span (fun b => !separates separators b)
  let rest := rest.dropWhile (blankSeparates separators)
  let rest := match rest with
    | b :: others => if separates separators b then others else rest
    | [] => []
  (field, rest.dropWhile (blankSeparates separators))

/-- A line divided into so many fields; the last one is all that is left, without the blanks at its
end, and without a separator if it is only one field. -/
def divide (separators : Bytes) : (count : Nat) → List (UInt8 × Bool) → List Bytes
  | 0, _ => []
  | 1, line =>
    let line := line.dropWhile (blankSeparates separators)
    let (field, rest) := cut separators line
    let whole := (line.reverse.dropWhile (blankSeparates separators)).reverse
    [(if rest.isEmpty then field else whole).map Prod.fst]
  | count + 2, line =>
    let (field, rest) := cut separators (line.dropWhile (blankSeparates separators))
    field.map Prod.fst :: divide separators (count + 1) rest

theorem length_divide (separators : Bytes) (count : Nat) (line : List (UInt8 × Bool)) :
    (divide separators count line).length = count := by
  induction count generalizing line with
  | zero => rfl
  | succ count ih =>
    cases count with
    | zero => simp [divide]
    | succ count => simp [divide, ih]

/-- A line at the front of a text: its bytes, of which some are protected, what follows it, and
whether it has an end; a backslash in front of an end joins two lines. -/
def read (raw : Bool) : Bytes → List (UInt8 × Bool) × Bytes × Bool
  | [] => ([], [], false)
  | [b] =>
    if b = byte '\n' then ([], [], true)
    else if b = byte '\\' && !raw || b = 0 then ([], [], false)
    else ([(b, false)], [], false)
  | b :: c :: rest =>
    if b = byte '\n' then ([], c :: rest, true)
    else if b = byte '\\' && !raw then
      let (line, after, ended) := read raw rest
      (if c = byte '\n' then line else (c, true) :: line, after, ended)
    else
      let (line, after, ended) := read raw (c :: rest)
      (if b = 0 then line else (b, false) :: line, after, ended)

end Line

end RubySupervisor.Shell
