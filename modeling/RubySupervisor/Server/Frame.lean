import RubySupervisor.Server.Error
import RubySupervisor.Text.Utf8

/-!
# Frames

A message body travels behind header lines that give its length in bytes and end with an empty
line. Reading takes one frame off the front of a finished stream; at the very end of the stream
there is no frame, and a stream that ends anywhere else is an error.
-/

namespace RubySupervisor.Frame

/-- The name of the header that gives the length of the body. -/
def lengthHeader : String := "Content-Length"

/-- A body with its headers. -/
def write (body : List UInt8) : List UInt8 :=
  Text.utf8 (lengthHeader ++ ": " ++ Text.natText body.length ++ "\r\n\r\n") ++ body

/-- The bytes up to and including the first line feed, and the rest; all bytes if there is none. -/
def cutLine : List UInt8 → List UInt8 × List UInt8
  | [] => ([], [])
  | byte :: rest =>
    if byte = 10 then ([byte], rest)
    else
      let (line, rest) := cutLine rest
      (byte :: line, rest)

theorem cutLine_length (s : List UInt8) :
    (cutLine s).1.length + (cutLine s).2.length = s.length := by
  induction s with
  | nil => rfl
  | cons byte rest ih =>
    by_cases h : byte = 10
    · simp [cutLine, h, Nat.add_comm]
    · simp [cutLine, h, ← ih, Nat.add_right_comm]

/-- A line without the carriage returns and line feeds at its end. -/
def dropLineEnd (line : List Char) : List Char :=
  (line.reverse.dropWhile (fun c => c == '\r' || c == '\n')).reverse

/-- The lower-case form of an ASCII letter; every other character stays. -/
def lower (c : Char) : Char :=
  if 'A' ≤ c && c ≤ 'Z' then Char.ofNat (c.toNat + 32) else c

/-- The length that a header line gives: none for another header. -/
def headerLength? (header : List Char) : Except ProtocolFault (Option Nat) :=
  match Text.cutFirst? [':'] header with
  | none => .ok none
  | some (name, value) =>
    if (Text.trimChars name).map lower = lengthHeader.toList.map lower then
      match Text.unsigned? (Nat.pow 2 64) (Text.trimChars value) with
      | some n => .ok (some n)
      | none => .error (.invalidLength (String.ofList value))
    else .ok none

/-- Reads header lines up to the empty one; `length` is the length given so far, and `fuel` bounds
the number of lines. -/
def readHeaders : (fuel : Nat) → (length : Option Nat) → List UInt8 →
    Except ServerError (Option Nat × List UInt8)
  | 0, _, _ => .error (.protocol .closedInHeaders)
  | fuel + 1, length, s =>
    let (line, rest) := cutLine s
    if line.isEmpty then .error (.protocol .closedInHeaders)
    else
      match Text.ofUtf8? ⟨line.toArray⟩ with
      | none => .error (.io .notText)
      | some text =>
        let header := dropLineEnd text.toList
        if header.isEmpty then .ok (length, rest)
        else
          match headerLength? header with
          | .error fault => .error (.protocol fault)
          | .ok none => readHeaders fuel length rest
          | .ok (some n) => readHeaders fuel (some n) rest

/-- One frame at the front of a finished stream: its body and the rest of the stream, or nothing
at the end of the stream. -/
def read (s : List UInt8) : Except ServerError (Option (List UInt8 × List UInt8)) :=
  if s.isEmpty then .ok none
  else
    match readHeaders (s.length + 1) none s with
    | .error e => .error e
    | .ok (none, _) => .error (.protocol .missingLength)
    | .ok (some length, rest) =>
      if maxBodyLength < length then .error (.protocol (.lengthExceedsLimit length))
      else if rest.length < length then .error (.io .endOfStream)
      else .ok (some (rest.take length, rest.drop length))

/-- The complete lines of a stream and what is behind them cut off. -/
def completeLines (s : List UInt8) : List UInt8 := (s.reverse.dropWhile (· != 10)).reverse

/-- What the front of a stream that goes on later is known to be: a frame, an error, or nothing
yet. What rests on an unfinished line is not known. -/
def arrived? (s : List UInt8) : Option (Except ServerError (List UInt8 × List UInt8)) :=
  match read s with
  | .ok none => none
  | .ok (some ([], rest)) =>
    match read (completeLines s) with
    | .ok (some _) => some (.ok ([], rest))
    | _ => none
  | .ok (some frame) => some (.ok frame)
  | .error _ =>
    match read (completeLines s) with
    | .error (.protocol .closedInHeaders) => none
    | .error (.io .endOfStream) => none
    | .error error => some (.error error)
    | .ok _ => none

/-- The message that a body holds. -/
def decode? (body : List UInt8) : Option Message :=
  (Text.ofUtf8? ⟨body.toArray⟩).bind Message.decode?

/-- The bodies of a finished stream up to its end or the first error; `fuel` bounds their number. -/
def readAllUpTo : (fuel : Nat) → List UInt8 → List (List UInt8) × Option ServerError
  | 0, _ => ([], none)
  | fuel + 1, s =>
    match read s with
    | .error e => ([], some e)
    | .ok none => ([], none)
    | .ok (some (body, rest)) =>
      let (bodies, failure) := readAllUpTo fuel rest
      (body :: bodies, failure)

/-- The bodies of a finished stream, and the error that ends them if there is one. -/
def readAll (s : List UInt8) : List (List UInt8) × Option ServerError :=
  readAllUpTo (s.length + 1) s

end RubySupervisor.Frame
