import RubySupervisor.Shell.Printing

/-!
# Arithmetic in scripts

The integers of an expression have 64 bits. An expression is calculated while it is read, so that a
fault hides those behind it; an operand that is not needed is read without being calculated, and
then neither divides by zero nor gives variables values.
-/

namespace RubySupervisor.Shell.Arithmetic

/-- Why a text has no value. -/
inductive Fault where
  | noOperand
  | noEnd
  | unclosed
  | noAlternative
  | divisionByZero
  /-- The value of a variable is not an integer. -/
  | noInteger (value : String)
  deriving DecidableEq, Repr

/-- What is said about a fault of a text. -/
def Fault.message (text : String) : Fault → String
  | noOperand => calculating "expecting primary"
  | noEnd => calculating "expecting EOF"
  | unclosed => calculating "expecting ')'"
  | noAlternative => calculating "expecting ':'"
  | divisionByZero => calculating "division by zero"
  | noInteger value => "Illegal number: " ++ value
where
  calculating (s : String) : String := "arithmetic expression: " ++ s ++ ": \"" ++ text ++ "\""

/-- A calculation in progress. -/
structure Progress where
  /-- The text that is left. -/
  rest : List Char
  /-- The values that variables were given, the last one first. -/
  given : List (String × Int) := []

/-- A part of a calculation. -/
abbrev Calculation (α : Type) := StateT Progress (Except Fault) α

/-- An operator of two operands. -/
abbrev Operator := Int → Int → Except Fault Int

/-- An integer cut to 64 bits. -/
def wrap (n : Int) : Int := n.bmod (Nat.pow 2 64)

/-- An operator that always has a value. -/
def total (f : Int → Int → Int) : Operator := fun a b => .ok (wrap (f a b))

/-- One for true and zero for false. -/
def truth (b : Bool) : Int := if b then 1 else 0

/-- An operator that compares. -/
def comparing (f : Int → Int → Bool) : Operator := fun a b => .ok (truth (f a b))

/-- An operator on the bits of both operands. -/
def bitwise (f : BitVec 64 → BitVec 64 → BitVec 64) : Operator :=
  total (fun a b => (f (BitVec.ofInt 64 a) (BitVec.ofInt 64 b)).toInt)

/-- A division; nothing is divided by zero. -/
def dividing (f : Int → Int → Int) : Operator := fun a b =>
  if b = 0 then .error .divisionByZero else total f a b

/-- A shift to the left by the last six bits of the second operand. -/
def shiftLeft : Operator := total (fun a b => a * Nat.pow 2 (b % 64).toNat)

/-- A shift to the right by the last six bits of the second operand. -/
def shiftRight : Operator := total (fun a b => a.fdiv (Nat.pow 2 (b % 64).toNat))

/-- The operators that need both operands by how tightly they bind, loosest first. -/
def operators : List (List (String × Operator)) :=
  [[("|", bitwise (· ||| ·))],
    [("^", bitwise (· ^^^ ·))],
    [("&", bitwise (· &&& ·))],
    [("==", comparing (· == ·)), ("!=", comparing (· != ·))],
    [("<=", comparing (· ≤ ·)), (">=", comparing (· ≥ ·)), ("<", comparing (· < ·)),
      (">", comparing (· > ·))],
    [("<<", shiftLeft), (">>", shiftRight)],
    [("+", total (· + ·)), ("-", total (· - ·))],
    [("*", total (· * ·)), ("/", dividing Int.tdiv), ("%", dividing Int.tmod)]]

/-- The signs of assignments, with the operators that they combine the old value by. -/
def assigning : List (String × Option Operator) :=
  [("=", none), ("+=", total (· + ·)), ("-=", total (· - ·)), ("*=", total (· * ·)),
    ("/=", dividing Int.tdiv), ("%=", dividing Int.tmod), ("<<=", shiftLeft), (">>=", shiftRight),
    ("&=", bitwise (· &&& ·)), ("|=", bitwise (· ||| ·)), ("^=", bitwise (· ^^^ ·))]

/-- Texts that begin like an operator and are another one. -/
def others : List (String × List String) :=
  [("|", ["||", "|="]), ("&", ["&&", "&="]), ("<", ["<<"]), (">", [">>"]), ("<<", ["<<="]),
    (">>", [">>="]), ("^", ["^="]), ("+", ["+="]), ("-", ["-="]), ("*", ["*="]), ("/", ["/="]),
    ("%", ["%="]), ("=", ["=="]), ("!", ["!="])]

/-- The operator of a list that stands at the front of a text, and what follows it. -/
def operator? {α : Type} (listed : List (String × α)) (s : List Char) : Option (α × List Char) :=
  listed.findSome? fun (name, f) =>
    if ((others.lookup name).getD []).any (fun other => other.toList.isPrefixOf s) then none
    else (Text.literal? name.toList s).map (fun rest => (f, rest))

/-- The text without the blanks in front. -/
def skip (s : List Char) : List Char := s.dropWhile (fun c => c = ' ' || c = '\t' || c = '\n')

/-- The largest integer. -/
def largest : Nat := 9223372036854775807

/-- The number at the front of a text, whose first characters tell its base, and what follows. -/
def magnitude? (s : List Char) : Option (Nat × List Char) :=
  let isDigitOf (base : Nat) (c : Char) : Bool := (Text.hexValue? c).any (· < base)
  let based (base : Nat) (s : List Char) : Option (Nat × List Char) :=
    (Text.run? (isDigitOf base) s).map (fun (digits, rest) =>
      (digits.foldl (fun n c => n * base + (Text.hexValue? c).getD 0) 0, rest))
  match s with
  | '0' :: 'x' :: rest => based 16 rest <|> some (0, 'x' :: rest)
  | '0' :: 'X' :: rest => based 16 rest <|> some (0, 'X' :: rest)
  | '0' :: _ => based 8 s
  | _ => based 10 s

/-- The integer that a value stands for; nothing stands for zero. -/
def integer? (value : List Char) : Option Int :=
  let isSpace (c : Char) : Bool := c = ' ' || '\t' ≤ c && c ≤ '\r'
  let (negative, s) := match value.dropWhile isSpace with
    | '-' :: rest => (true, rest)
    | '+' :: rest => (false, rest)
    | rest => (false, rest)
  match magnitude? s with
  | some (n, rest) =>
    if !rest.all isSpace || n > largest + (if negative then 1 else 0) then none
    else some (if negative then -(n : Int) else n)
  | none => if value.all isSpace then some 0 else none

/-- The name at the front of a text, and what follows it. -/
def name? (s : List Char) : Option (String × List Char) :=
  match s with
  | c :: _ =>
    if Text.isAsciiDigit c then none
    else (Text.run? (fun c => Text.isAsciiAlphanumeric c || c = '_') s).map (fun found =>
      (String.ofList found.1, found.2))
  | [] => none

/-- Passes a literal behind blanks, if there is one. -/
def pass (mark : String) : Calculation Bool := do
  match Text.literal? mark.toList (skip (← get).rest) with
  | some rest =>
    modify (fun p => { p with rest })
    return true
  | none => return false

/-- The value of a variable. -/
def variableValue (known : String → List Char) (name : String) : Calculation Int := do
  match (← get).given.lookup name with
  | some n => return n
  | none =>
    match integer? (known name) with
    | some n => return n
    | none => throw (.noInteger (String.ofList (known name)))

mutual

/-- The value of an expression that may be an assignment; one that is not needed is not
calculated. -/
def assignment (known : String → List Char) (fuel : Nat) (needed : Bool) : Calculation Int :=
  match fuel with
  | 0 => throw .noOperand
  | fuel + 1 => do
    let target := (name? (skip (← get).rest)).bind fun (name, rest) =>
      (operator? assigning (skip rest)).map fun (f, rest) => (name, f, rest)
    match target with
    | none => choice known fuel needed
    | some (name, f, rest) =>
      modify (fun p => { p with rest })
      let n ← assignment known fuel needed
      if !needed then return n
      let n ← match f with
        | some f => f (← variableValue known name) n
        | none => pure n
      modify (fun p => { p with given := (name, n) :: p.given })
      return n

/-- The value of an expression with a choice. -/
def choice (known : String → List Char) (fuel : Nat) (needed : Bool) : Calculation Int :=
  match fuel with
  | 0 => throw .noOperand
  | fuel + 1 => do
    let condition ← either known fuel needed
    if ← pass "?" then
      let yes ← assignment known fuel (needed && condition != 0)
      if !(← pass ":") then throw .noAlternative
      let no ← choice known fuel (needed && condition == 0)
      return if condition != 0 then yes else no
    else return condition

/-- The value of an expression of which one part has to be true. -/
def either (known : String → List Char) (fuel : Nat) (needed : Bool) : Calculation Int :=
  match fuel with
  | 0 => throw .noOperand
  | fuel + 1 => do
    let first ← both known fuel needed
    if ← pass "||" then
      let second ← either known fuel (needed && first == 0)
      return truth (first != 0 || second != 0)
    else return first

/-- The value of an expression of which all parts have to be true. -/
def both (known : String → List Char) (fuel : Nat) (needed : Bool) : Calculation Int :=
  match fuel with
  | 0 => throw .noOperand
  | fuel + 1 => do
    let first ← binary known fuel needed operators
    if ← pass "&&" then
      let second ← both known fuel (needed && first != 0)
      return truth (first != 0 && second != 0)
    else return first

/-- The value of an expression whose operators are on given levels. -/
def binary (known : String → List Char) (fuel : Nat) (needed : Bool)
    (levels : List (List (String × Operator))) : Calculation Int :=
  match fuel with
  | 0 => throw .noOperand
  | fuel + 1 =>
    match levels with
    | [] => operand known fuel needed
    | level :: tighter => do
      let first ← binary known fuel needed tighter
      onward known fuel needed level tighter first

/-- Goes on with the operators of one level. -/
def onward (known : String → List Char) (fuel : Nat) (needed : Bool)
    (level : List (String × Operator)) (tighter : List (List (String × Operator))) (first : Int) :
    Calculation Int :=
  match fuel with
  | 0 => throw .noOperand
  | fuel + 1 => do
    match operator? level (skip (← get).rest) with
    | none => return first
    | some (f, rest) =>
      modify (fun p => { p with rest })
      let second ← binary known fuel needed tighter
      let value ← if needed then f first second else pure second
      onward known fuel needed level tighter value

/-- The value of an operand. -/
def operand (known : String → List Char) (fuel : Nat) (needed : Bool) : Calculation Int :=
  match fuel with
  | 0 => throw .noOperand
  | fuel + 1 => do
    let s := skip (← get).rest
    let changed (rest : List Char) (f : Int → Int) : Calculation Int := do
      modify (fun p => { p with rest })
      return f (← operand known fuel needed)
    match s with
    | '-' :: rest => changed rest (fun n => wrap (-n))
    | '+' :: rest => changed rest id
    | '~' :: rest => changed rest (fun n => -n - 1)
    | '!' :: '=' :: _ => throw .noOperand
    | '!' :: rest => changed rest (fun n => truth (n == 0))
    | '(' :: rest =>
      modify (fun p => { p with rest })
      let n ← assignment known fuel needed
      if ← pass ")" then return n else throw .unclosed
    | s =>
      match magnitude? s, name? s with
      | some (n, rest), _ =>
        modify (fun p => { p with rest })
        return (min n largest : Nat)
      | none, some (name, rest) =>
        modify (fun p => { p with rest })
        if needed then variableValue known name else return 0
      | none, none => throw .noOperand

end

/-- The value of a text, and the values that it gives to variables, the last one first. -/
def run (known : String → List Char) (text : List Char) :
    Except Fault (Int × List (String × Int)) := do
  let (n, p) ← (assignment known (32 * (text.length + 4)) true).run { rest := text }
  if (skip p.rest).isEmpty then return (n, p.given) else throw .noEnd

end RubySupervisor.Shell.Arithmetic
