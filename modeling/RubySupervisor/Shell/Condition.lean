import RubySupervisor.Shell.Tool
import RubySupervisor.Text.Scan

/-!
# Conditions

A condition is a list of words: tests of one or two operands, joined by `-a` and `-o`, negated by
`!`, and in parentheses. A word counts as an operator only where operands are left for it, and up
to four words have a reading of their own. All parts are looked at, so that each can be at fault.
-/

namespace RubySupervisor.Shell.Condition

/-- What a word of a condition is. -/
inductive Lexeme where
  | ending
  | operand
  | test (name : String)
  | comparison (name : String)
  | negation
  | both
  | either
  | opening
  | closing
  deriving DecidableEq, Repr

/-- The tests of one operand. -/
def tests : List String :=
  ["-r", "-w", "-x", "-e", "-f", "-d", "-c", "-b", "-p", "-u", "-g", "-k", "-s", "-t", "-z", "-n",
    "-h", "-O", "-G", "-L", "-S"]

/-- The tests of two operands. -/
def comparisons : List String :=
  ["=", "!=", "<", ">", "-eq", "-ne", "-ge", "-gt", "-le", "-lt", "-nt", "-ot", "-ef"]

/-- What a word is, wherever it stands. -/
def lexemeOf (word : Bytes) : Lexeme :=
  match Text.lossyText word with
  | "!" => .negation
  | "-a" => .both
  | "-o" => .either
  | "(" => .opening
  | ")" => .closing
  | name =>
    if tests.contains name then .test name
    else if comparisons.contains name then .comparison name
    else .operand

/-- What the first of some words is. -/
def front : List Bytes → Lexeme
  | [] => .ending
  | word :: rest =>
    match lexemeOf word, rest with
    | .test _, [] => .operand
    | .test name, [_] => .test name
    | .test name, next :: _ :: _ =>
      match lexemeOf next with
      | .comparison _ => .operand
      | _ => .test name
    | .opening, [] => .operand
    | lexeme, _ => lexeme

/-- The integer that a word writes, or what is wrong with it. -/
def number (word : Bytes) : Except String Int :=
  let text := Text.trimChars (Text.lossyText word).toList
  let digits := match text with
    | '-' :: rest => rest
    | '+' :: rest => rest
    | rest => rest
  match (Text.numeral? digits).map (fun n => if text.head? = some '-' then -(n : Int) else n) with
  | some n =>
    if -9223372036854775808 ≤ n ∧ n < 9223372036854775808 then .ok n
    else .error ("Illegal number: " ++ Text.lossyText word)
  | none => .error ("Illegal number: " ++ Text.lossyText word)

/-- Whether a path leads to a symbolic link. -/
def isLink (files : FileTree) (p : Path) : Bool :=
  match files.resolve false p with
  | .ok (.found _ (.link _)) => true
  | _ => false

/-- Whether a path leads to a device. -/
def isDevice (files : FileTree) (p : Path) : Bool :=
  match files.metadata p with
  | .ok .device => true
  | _ => false

/-- Whether a test of an operand holds. -/
def holds (files : FileTree) (directory : Path) (name : String) (operand : Bytes) :
    Except String Bool :=
  let p := if operand.isEmpty then ⟨""⟩ else directory.join (Text.lossyText operand)
  match name with
  | "-n" => .ok (!operand.isEmpty)
  | "-z" => .ok operand.isEmpty
  | "-t" => (number operand).map (fun _ => false)
  | "-f" => .ok (files.isFile p)
  | "-d" => .ok (files.isDirectory p)
  | "-x" => .ok (files.isExecutable p || files.isDirectory p)
  | "-s" => .ok (files.isDirectory p ||
      (files.readBytes p).toOption.any (fun content => content.size ≠ 0))
  | "-L" => .ok (isLink files p)
  | "-h" => .ok (isLink files p)
  | "-c" => .ok (isDevice files p)
  | _ =>
    .ok (["-e", "-r", "-w", "-O", "-G"].contains name && files.pathExists p)

/-- Whether a comparison of two operands holds. Files are never older or newer than others. -/
def compares (files : FileTree) (directory : Path) (name : String) (a b : Bytes) :
    Except String Bool :=
  let numbers (p : Int → Int → Bool) : Except String Bool := do
    let m ← number a
    let n ← number b
    return p m n
  let place (word : Bytes) : Option Path :=
    (files.canonical (directory.join (Text.lossyText word))).toOption
  match name with
  | "=" => .ok (a = b)
  | "!=" => .ok (a ≠ b)
  | "<" => .ok (a ≠ b && Tool.isOrdered a b)
  | ">" => .ok (a ≠ b && Tool.isOrdered b a)
  | "-eq" => numbers (· == ·)
  | "-ne" => numbers (· != ·)
  | "-lt" => numbers (fun m n => m < n)
  | "-le" => numbers (fun m n => m ≤ n)
  | "-gt" => numbers (fun m n => n < m)
  | "-ge" => numbers (fun m n => n ≤ m)
  | "-ef" => .ok ((place a).isSome && place a = place b)
  | _ => .ok false

/-- A part of a condition: whether it holds, and the words from its last one on. -/
abbrev Reading := Except String (Bool × List Bytes)

mutual

/-- Parts of which one has to hold. -/
def anyOf (files : FileTree) (directory : Path) (fuel : Nat) (first : Lexeme) (words : List Bytes) :
    Reading :=
  match fuel with
  | 0 => .ok (false, words)
  | fuel + 1 => do
    let (answer, words) ← allOf files directory fuel first words
    if front (words.drop 1) ≠ .either then return (answer, words)
    let (other, words) ← anyOf files directory fuel (front (words.drop 2)) (words.drop 2)
    return (answer || other, words)

/-- Parts that all have to hold. -/
def allOf (files : FileTree) (directory : Path) (fuel : Nat) (first : Lexeme) (words : List Bytes) :
    Reading :=
  match fuel with
  | 0 => .ok (false, words)
  | fuel + 1 => do
    let (answer, words) ← negated files directory fuel first words
    if front (words.drop 1) ≠ .both then return (answer, words)
    let (other, words) ← allOf files directory fuel (front (words.drop 2)) (words.drop 2)
    return (answer && other, words)

/-- A part with the negations in front of it. -/
def negated (files : FileTree) (directory : Path) (fuel : Nat) (first : Lexeme)
    (words : List Bytes) : Reading :=
  match fuel with
  | 0 => .ok (false, words)
  | fuel + 1 =>
    if first ≠ .negation then part files directory fuel first words
    else do
      let next := front (words.drop 1)
      let (answer, words) ← negated files directory fuel next
        (if next = .ending then words else words.drop 1)
      return (!answer, words)

/-- A test, a word that may not be empty, or a condition in parentheses. -/
def part (files : FileTree) (directory : Path) (fuel : Nat) (first : Lexeme) (words : List Bytes) :
    Reading :=
  match fuel with
  | 0 => .ok (false, words)
  | fuel + 1 =>
    match first, words with
    | .ending, words => .ok (false, words)
    | .opening, _ :: inner =>
      if front inner = .closing then .ok (false, inner)
      else do
        let (answer, words) ← anyOf files directory fuel (front inner) inner
        if front (words.drop 1) ≠ .closing then throw "closing paren expected"
        return (answer, words.drop 1)
    | .test name, _ :: rest =>
      match rest with
      | [] => .error (name ++ ": argument expected")
      | operand :: _ => (holds files directory name operand).map (·, rest)
    | _, a :: rest =>
      match front rest, rest.drop 1 with
      | .comparison name, [] => .error (name ++ ": argument expected")
      | .comparison name, b :: others => (compares files directory name a b).map (·, b :: others)
      | _, _ => .ok (!a.isEmpty, a :: rest)
    | _, [] => .ok (false, [])

end

/-- Whether words form a condition that holds; nothing stands behind the condition. -/
def whole (files : FileTree) (directory : Path) (first : Lexeme) (words : List Bytes) :
    Except String Bool := do
  let (answer, left) ← anyOf files directory (8 * words.length + 8) first words
  match left with
  | word :: _ :: _ =>
    throw (if word.isEmpty then "unexpected operator"
      else Text.lossyText word ++ ": unexpected operator")
  | _ => return answer

/-- Whether a condition holds, or what is wrong with it. Three words with a comparison between two
others are that comparison; three or four words in parentheses are those in between, and behind a
negation the others. -/
def evaluate (files : FileTree) (directory : Path) : List Bytes → Except String Bool
  | [] => .ok false
  | [a, b, c] =>
    match lexemeOf b with
    | .comparison _ => whole files directory .operand [a, b, c]
    | _ =>
      if lexemeOf a = .opening ∧ lexemeOf c = .closing then whole files directory (front [b]) [b]
      else if lexemeOf a = .negation then denial [b, c]
      else whole files directory (front [a, b, c]) [a, b, c]
  | [a, b, c, d] =>
    if lexemeOf a = .opening ∧ lexemeOf d = .closing then whole files directory (front [b, c]) [b, c]
    else if lexemeOf a = .negation then
      match lexemeOf c with
      | .comparison _ => (whole files directory .operand [b, c, d]).map (!·)
      | _ =>
        if lexemeOf b = .opening ∧ lexemeOf d = .closing then
          (whole files directory (front [c]) [c]).map (!·)
        else if lexemeOf b = .negation then denial [c, d]
        else denial [b, c, d]
    else whole files directory (front [a, b, c, d]) [a, b, c, d]
  | words => whole files directory (front words) words
where
  /-- The negation of words. -/
  denial (words : List Bytes) : Except String Bool :=
    (whole files directory (front words) words).map (!·)

end RubySupervisor.Shell.Condition
