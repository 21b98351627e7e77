import RubySupervisor.Text.Digit

/-!
# Dates and times of a settings document

A date, a time of day, or both with a `T` or a blank between them; a date with a time may end in an
offset. Every part has a fixed number of digits, seconds may be left out, and a fraction of a
second may follow them. The written form of a value is unique: `T` and `Z` are capitals, a fraction
has at most nine digits and no zeros at its end that can go, and no offset is minus zero.
-/

namespace RubySupervisor.Toml

open Text (isAsciiDigit digitsValue natText)

/-- A day of the calendar. -/
structure Date where
  year : Nat
  month : Nat
  day : Nat
  deriving DecidableEq, Repr

/-- Whether February has a day more. -/
def isLeapYear (year : Nat) : Bool :=
  year % 4 == 0 && (year % 100 != 0 || year % 400 == 0)

/-- The days of a month. -/
def daysOfMonth (year month : Nat) : Nat :=
  if month = 2 then (if isLeapYear year then 29 else 28)
  else if [4, 6, 9, 11].contains month then 30
  else 31

/-- Whether the calendar has the day. -/
def Date.isValid (d : Date) : Bool :=
  1 ≤ d.month && d.month ≤ 12 && 1 ≤ d.day && d.day ≤ daysOfMonth d.year d.month

/-- A time of day. -/
structure TimeOfDay where
  hour : Nat
  minute : Nat
  /-- The second, where it is written, up to a leap second. -/
  second : Option Nat
  /-- The digits of a fraction of a second. -/
  fraction : Option (List Char)
  deriving DecidableEq, Repr

/-- Whether a clock shows the time. -/
def TimeOfDay.isValid (t : TimeOfDay) : Bool :=
  t.hour ≤ 23 && t.minute ≤ 59 && t.second.getD 0 ≤ 60

/-- The distance of a local time from universal time. -/
inductive Offset where
  | zero
  | shifted (east : Bool) (hours minutes : Nat)
  deriving DecidableEq, Repr

/-- Whether the distance is less than a day. -/
def Offset.isValid : Offset → Bool
  | zero => true
  | shifted _ hours minutes => hours ≤ 23 && minutes ≤ 59

/-- A decimal number filled with zeros to a width. -/
def padded (width n : Nat) : String :=
  let digits := natText n
  String.ofList (List.replicate (width - digits.length) '0') ++ digits

/-- The written form of a day. -/
def Date.render (d : Date) : String :=
  padded 4 d.year ++ "-" ++ padded 2 d.month ++ "-" ++ padded 2 d.day

/-- The digits of a fraction that are written: nine at most, without zeros at the end, at least
one. -/
def shortFraction (digits : List Char) : List Char :=
  match ((digits.take 9).reverse.dropWhile (· == '0')).reverse with
  | [] => ['0']
  | kept => kept

/-- The written form of a time. -/
def TimeOfDay.render (t : TimeOfDay) : String :=
  let second := (t.second.map (fun s => ":" ++ padded 2 s)).getD ""
  let fraction := (t.fraction.map (fun f => "." ++ String.ofList (shortFraction f))).getD ""
  padded 2 t.hour ++ ":" ++ padded 2 t.minute ++ second ++ fraction

/-- The written form of an offset. -/
def Offset.render : Offset → String
  | zero => "Z"
  | shifted east hours minutes =>
    let sign := if east || (hours == 0 && minutes == 0) then "+" else "-"
    sign ++ padded 2 hours ++ ":" ++ padded 2 minutes

/-- A number of a fixed count of digits at the front of the text. -/
def fixedDigits? (count : Nat) (s : List Char) : Option (Nat × List Char) :=
  let digits := s.take count
  if digits.length = count ∧ digits.all isAsciiDigit then
    some (digitsValue digits, s.drop count)
  else none

/-- A day at the front of the text. -/
def date? (s : List Char) : Option (Date × List Char) :=
  match fixedDigits? 4 s with
  | some (year, '-' :: s) =>
    match fixedDigits? 2 s with
    | some (month, '-' :: s) => do
      let (day, rest) ← fixedDigits? 2 s
      let date : Date := ⟨year, month, day⟩
      if date.isValid then some (date, rest) else none
    | _ => none
  | _ => none

/-- The digits of a fraction at the front of the text, after its point. -/
def fraction? (s : List Char) : Option (List Char × List Char) :=
  match s with
  | '.' :: rest =>
    let digits := rest.takeWhile isAsciiDigit
    if digits.isEmpty then none else some (digits, rest.dropWhile isAsciiDigit)
  | _ => none

/-- The seconds at the front of the text, after their colon, and a fraction. -/
def seconds? (s : List Char) : Option (Nat × Option (List Char) × List Char) :=
  match s with
  | ':' :: rest => do
    let (second, rest) ← fixedDigits? 2 rest
    match fraction? rest with
    | some (digits, rest) => return (second, some digits, rest)
    | none => return (second, none, rest)
  | _ => none

/-- A time at the front of the text. -/
def time? (s : List Char) : Option (TimeOfDay × List Char) :=
  match fixedDigits? 2 s with
  | some (hour, ':' :: s) => do
    let (minute, s) ← fixedDigits? 2 s
    let (time, rest) : TimeOfDay × List Char :=
      match seconds? s with
      | some (second, fraction, rest) => (⟨hour, minute, some second, fraction⟩, rest)
      | none => (⟨hour, minute, none, none⟩, s)
    if time.isValid then some (time, rest) else none
  | _ => none

/-- An offset at the front of the text, after its sign. -/
def shift? (east : Bool) (s : List Char) : Option (Offset × List Char) :=
  match fixedDigits? 2 s with
  | some (hours, ':' :: s) => do
    let (minutes, rest) ← fixedDigits? 2 s
    let offset : Offset := .shifted east hours minutes
    if offset.isValid then some (offset, rest) else none
  | _ => none

/-- An offset at the front of the text. -/
def offset? : List Char → Option (Offset × List Char)
  | 'Z' :: rest => some (.zero, rest)
  | 'z' :: rest => some (.zero, rest)
  | '+' :: rest => shift? true rest
  | '-' :: rest => shift? false rest
  | _ => none

/-- What stands between a day and a time. -/
def separated? : List Char → Option (List Char)
  | 'T' :: rest => some rest
  | 't' :: rest => some rest
  | ' ' :: rest => some rest
  | _ => none

/-- The written form of a date or time at the front of the text. -/
def dateTime? (s : List Char) : Option (String × List Char) :=
  match date? s with
  | none => (time? s).map (fun r => (r.1.render, r.2))
  | some (date, rest) =>
    match (separated? rest).bind time? with
    | none => some (date.render, rest)
    | some (time, rest) =>
      let moment := date.render ++ "T" ++ time.render
      match offset? rest with
      | none => some (moment, rest)
      | some (offset, rest) => some (moment ++ offset.render, rest)

end RubySupervisor.Toml
