import RubySupervisor.Shell.Expression
import RubySupervisor.Shell.Tool.Call

/-!
# Tools that calculate

Sequences of numbers, and calculations whose operators and values are arguments.
-/

namespace RubySupervisor.Shell

namespace Tool

/-- Numbers from one to another. -/
def counting (first step last : Int) : (fuel : Nat) → List Int
  | 0 => []
  | fuel + 1 =>
    if (0 < step ∧ last < first) ∨ (step < 0 ∧ first < last) ∨ step = 0 then []
    else first :: counting (first + step) step last fuel

/-- A decimal number: an integer and the number of its digits behind the point. -/
def decimal? (s : Bytes) : Option (Int × Nat) :=
  let (negative, s) := match s with
    | sign :: rest =>
      if sign = byte '-' then (true, rest) else if sign = byte '+' then (false, rest) else (false, s)
    | [] => (false, s)
  let whole := s.takeWhile (· != byte '.')
  let fraction := (s.dropWhile (· != byte '.')).drop 1
  (natOf? (whole ++ fraction)).map fun n =>
    (if negative then -(n : Int) else n, fraction.length)

/-- An integer with a point in front of so many of its digits. -/
def withPlaces (places : Nat) (n : Int) : String :=
  let digits := Text.natText n.natAbs
  let filled := String.ofList (List.replicate (places + 1 - digits.length) '0') ++ digits
  (if n < 0 then "-" else "") ++ String.ofList (filled.toList.take (filled.length - places))
    ++ (if places = 0 then ""
      else "." ++ String.ofList (filled.toList.drop (filled.length - places)))

/-- A number with zeros in front of its digits. -/
def filledTo (width : Nat) (s : String) : String :=
  let zeros := String.ofList (List.replicate (width - s.length) '0')
  match s.toList with
  | '-' :: digits => "-" ++ zeros ++ String.ofList digits
  | _ => zeros ++ s

/-- How many numbers a sequence may have that is printed as a whole. -/
def longestSequence : Nat := 2000000

/-- Prints a sequence of numbers. -/
def seq (c : ToolCall) : ToolRun :=
  let isNegative (a : Bytes) : Bool := a.head? = some (byte '-') && (decimal? a).isSome
  let names := [("separator", 's'), ("equal-width", 'w'), ("format", 'f')]
  let g : OptionGrammar := { plain := "w", valued := "sf", names, endsAtOperand := true }
  let (before, numbers) := c.arguments.span (!isNegative ·)
  let isBehindOptions := (Options.read g before).toOption.any (·.operands.isEmpty)
  let arguments := if isBehindOptions then before ++ bytesOf "--" :: numbers else c.arguments
  { c with arguments }.withOptions g 1 fun o =>
    let printed (first step last : Int × Nat) : ToolRun :=
      let scale := max first.2 (max step.2 last.2)
      let places := max first.2 step.2
      let scaled (n : Int × Nat) : Int := n.1 * Nat.pow 10 (scale - n.2)
      let text (n : Int) : String := withPlaces places (n / Nat.pow 10 (scale - places))
      let count := (scaled last - scaled first).natAbs / max 1 (scaled step).natAbs + 1
      let isWhole := count ≤ longestSequence
      let all := counting (scaled first) (scaled step) (scaled last)
        (if isWhole then count else c.flood)
      let width := (all.map (fun n => (text n).length)).foldl max 0
      let texts := all.map (fun n => bytesOf (if o.has 'w' then filledTo width (text n) else text n))
      let output := ((o.value? 's').getD [byte '\n']).intercalate texts
      { c.done (if all.isEmpty then [] else output ++ [byte '\n']) 0 with
        ending := if isWhole then .exited 0 else .endless }
    match o.operands.find? (fun a => (decimal? a).isNone), o.operands.mapM decimal?, o.operands with
    | _, _, _ :: _ :: _ :: extra :: _ => c.lacking ("extra operand " ++ Quoting.forReading extra)
    | some wrong, _, _ =>
      c.lacking ("invalid floating point argument: " ++ Quoting.forReading wrong)
    | none, some [last], _ => printed (1, 0) (1, 0) last
    | none, some [first, last], _ => printed first (1, 0) last
    | none, some [first, step, last], operands =>
      if step.1 = 0 then
        c.lacking ("invalid Zero increment value: " ++ Quoting.forReading (operands[1]?.getD []))
      else printed first step last
    | _, _, _ => c.lacking "missing operand"

/-- The operators of calculations with two values, those that bind least first. -/
def operatorLevels : List (List String) :=
  [["|"], ["&"], ["<", "<=", "=", "==", "!=", ">=", ">"], ["+", "-"], ["*", "/", "%"], [":"]]

/-- A byte string as one character after another, compared in the order of bytes. -/
def compared (operator : String) (a b : Bytes) : Option Bool :=
  let (less, same) := match intOf? a, intOf? b with
    | some m, some n => (decide (m < n), decide (m = n))
    | _, _ => (a ≠ b && isOrdered a b, decide (a = b))
  match operator with
  | "<" => some less
  | "<=" => some (less || same)
  | "=" => some same
  | "==" => some same
  | "!=" => some !same
  | ">=" => some !less
  | ">" => some (!less && !same)
  | _ => none

/-- The value of two values behind an operator, or what is wrong with it. -/
def operated (operator : String) (a b : Bytes) : Except String Bytes :=
  let isNothing (s : Bytes) : Bool := s.isEmpty || s = [byte '0']
  let ofInt (n : Int) : Bytes := bytesOf (Text.intText n)
  match operator with
  | "|" => .ok (if isNothing a then (if isNothing b then [byte '0'] else b) else a)
  | "&" => .ok (if isNothing a || isNothing b then [byte '0'] else a)
  | ":" =>
    let expression := Expression.ofBytes false b
    match (Expression.both .start expression).find? a with
    | some found =>
      .ok (if expression.hasGroup then (found.groups.lookup 1).getD []
        else ofInt found.taken.length)
    | none => .ok (if expression.hasGroup then [] else [byte '0'])
  | operator =>
    match compared operator a b, intOf? a, intOf? b with
    | some answer, _, _ => .ok (ofInt (if answer then 1 else 0))
    | none, some m, some n =>
      match operator with
      | "+" => .ok (ofInt (m + n))
      | "-" => .ok (ofInt (m - n))
      | "*" => .ok (ofInt (m * n))
      | "/" => if n = 0 then .error "division by zero" else .ok (ofInt (Int.tdiv m n))
      | "%" => if n = 0 then .error "division by zero" else .ok (ofInt (Int.tmod m n))
      | _ => .error "syntax error"
    | none, _, _ => .error "non-integer argument"

/-- A value that was read, the word that was read last, and the words to come. -/
structure Reading where
  value : Bytes
  last : Bytes
  rest : List Bytes

/-- The refusal of words that end too early. -/
def missingAfter {α : Type} (last : Bytes) : Except String α :=
  .error ("syntax error: missing argument after " ++ Quoting.forReading last)

/-- A part of a text: so many bytes from a place on, counted from one. -/
def part (s place size : Bytes) : Bytes :=
  match intOf? place, intOf? size with
  | some place, some size => if place ≤ 0 then [] else (s.drop (place.toNat - 1)).take size.toNat
  | _, _ => []

mutual

/-- Reads a value, words in brackets, or the name of a function with its arguments. -/
def factor : (fuel : Nat) → (last : Bytes) → List Bytes → Except String Reading
  | 0, last, _ => missingAfter last
  | _, last, [] => missingAfter last
  | fuel + 1, _, word :: rest =>
    match Text.lossyText word, rest with
    | "+", value :: rest => .ok ⟨value, value, rest⟩
    | "+", [] => missingAfter word
    | ")", _ => .error "syntax error: unexpected ')'"
    | "(", _ => do
      let inside ← calculation fuel 0 word rest
      match inside.rest with
      | [] => throw ("syntax error: expecting ')' after " ++ Quoting.forReading inside.last)
      | closing :: rest =>
        if closing = [byte ')'] then return ⟨inside.value, closing, rest⟩
        else throw ("syntax error: expecting ')' instead of " ++ Quoting.forReading closing)
    | "length", _ => do
      let a ← factor fuel word rest
      return { a with value := bytesOf (Text.natText a.value.length) }
    | "match", _ => do
      let a ← factor fuel word rest
      let b ← factor fuel a.last a.rest
      return { b with value := ← operated ":" a.value b.value }
    | "index", _ => do
      let a ← factor fuel word rest
      let b ← factor fuel a.last a.rest
      let place := ((a.value.findIdx? b.value.contains).map (· + 1)).getD 0
      return { b with value := bytesOf (Text.natText place) }
    | "substr", _ => do
      let a ← factor fuel word rest
      let b ← factor fuel a.last a.rest
      let d ← factor fuel b.last b.rest
      return { d with value := part a.value b.value d.value }
    | _, _ => .ok ⟨word, word, rest⟩

/-- Reads a calculation whose operators bind at least as much as those of a level. -/
def calculation : (fuel : Nat) → (level : Nat) → (last : Bytes) → List Bytes →
    Except String Reading
  | 0, _, last, _ => missingAfter last
  | fuel + 1, level, last, words => do
    if operatorLevels.length ≤ level then factor fuel last words
    else continuation fuel level (← calculation fuel (level + 1) last words)

/-- Goes on with the operators of a level behind a value. -/
def continuation : (fuel : Nat) → (level : Nat) → Reading → Except String Reading
  | 0, _, r => .ok r
  | fuel + 1, level, r =>
    match r.rest with
    | [] => .ok r
    | operator :: rest =>
      let name := Text.lossyText operator
      if !((operatorLevels[level]?).getD []).contains name then .ok r
      else do
        let b ← calculation fuel (level + 1) operator rest
        continuation fuel level { b with value := ← operated name r.value b.value }

end

/-- Calculates with its arguments. -/
def expr (c : ToolCall) : ToolRun :=
  let words := if c.arguments.head? = some (bytesOf "--") then c.arguments.drop 1 else c.arguments
  if words.isEmpty then c.misused "missing operand" 2
  else
    match calculation (8 * (words.length + 2)) 0 [] words with
    | .error fault => c.failed fault 2
    | .ok ⟨_, _, extra :: _⟩ =>
      c.failed ("syntax error: unexpected argument " ++ Quoting.forReading extra) 2
    | .ok ⟨value, _, []⟩ =>
      c.done (value ++ [byte '\n']) (if value.isEmpty || value = [byte '0'] then 1 else 0)

end Tool

end RubySupervisor.Shell
