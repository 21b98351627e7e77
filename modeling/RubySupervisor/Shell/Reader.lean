import RubySupervisor.Shell.Token

/-!
# Reading shell scripts

The reader goes through the text once, a line of commands at a time, so that what stands in front
of a fault can be run before the fault is found. Reserved words count only where a command may
begin.
-/

namespace RubySupervisor.Shell.Reader

/-- What ends a list of pieces. -/
inductive Context where
  /-- A blank or an operator. -/
  | bare
  /-- A closing brace, inside or outside double quotes. -/
  | braces (quoted : Bool)
  /-- A closing double quote. -/
  | quotes
  /-- Two closing parentheses, as long as no other one is open. -/
  | arithmetic (depth : Nat)
  /-- The end of the text or a line that is a mark, in front of which quotes are ordinary
  characters; a line may begin here, and tabs at its front may not count. -/
  | text (mark : List Char) (dropTabs : Bool) (fresh : Bool)
  deriving DecidableEq

namespace Context

/-- Whether a list of pieces ends before a text. -/
def endsBefore : Context → List Char → Bool
  | bare, c :: _ => isOperator c
  | braces _, c :: _ => c = '\x7d'
  | quotes, c :: _ => c = '"'
  | arithmetic 0, ')' :: ')' :: _ => true
  | bare, [] => true
  | text _ _ _, [] => true
  | text mark _ true, s => s.takeWhile (· != '\n') = mark
  | _, _ => false

/-- The text without the characters that do not count here. -/
def counted : Context → List Char → List Char
  | text _ true true, s => s.dropWhile (· = '\t')
  | _, s => s

/-- What is wrong if the text ends before the list of pieces does. -/
def cause : Context → Cause
  | braces false => .openBraces
  | arithmetic _ => .openArithmetic
  | _ => .openQuote

/-- Whether expansions are in quotes. -/
def inQuotes : Context → Bool
  | bare => false
  | braces quoted => quoted
  | _ => true

/-- Whether double quotes are ordinary characters. -/
def isLiteral : Context → Bool
  | arithmetic _ => true
  | text _ _ _ => true
  | _ => false

/-- The characters that a backslash protects. -/
def isProtected : Context → Char → Bool
  | bare, _ => true
  | braces false, _ => true
  | braces true, c => ['$', '`', '"', '\\', '\x7d'].contains c
  | text _ _ _, c => ['$', '`', '\\'].contains c
  | _, c => ['$', '`', '"', '\\'].contains c

/-- The context behind a character. -/
def behind : Context → Char → Context
  | arithmetic depth, '(' => arithmetic (depth + 1)
  | arithmetic depth, ')' => arithmetic (depth - 1)
  | text mark dropTabs _, c => text mark dropTabs (c = '\n')
  | context, _ => context

end Context

/-- The names of special parameters. -/
def isSpecial (c : Char) : Bool := ['@', '*', '#', '?', '-', '$', '!'].contains c

/-- The name at the front of the text. -/
def name? (s : List Char) : Option (String × List Char) :=
  match s with
  | c :: _ =>
    if isNameStart c then some (String.ofList (s.takeWhile isNameChar), s.dropWhile isNameChar)
    else none
  | [] => none

/-- The name of a parameter at the front of the text that is a name or digits. -/
def plainParameter? (s : List Char) : Option (String × List Char) :=
  (name? s) <|> (Text.run? Text.isAsciiDigit s).map (fun found =>
    (String.ofList found.1, found.2))

/-- The name of a parameter at the front of the text: a name, digits, or a special character. -/
def parameter? (s : List Char) : Option (String × List Char) :=
  (plainParameter? s) <|>
    match s with
    | c :: rest => if isSpecial c then some (String.singleton c, rest) else none
    | [] => none

/-- The variable that a word at the front of the text assigns to, and what follows the sign. -/
def assignment? (s : List Char) : Option (String × List Char) :=
  match name? s with
  | some (name, '=' :: rest) => some (name, rest)
  | _ => none

/-- The script in backquotes, without the backslashes that protect it. -/
def backquoted (inQuotes : Bool) : List Char → Except Fault (List Char × List Char)
  | [] => Cause.openBackquote.before []
  | '`' :: rest => .ok ([], rest)
  | '\\' :: c :: rest =>
    let bare := c = '`' ∨ c = '\\' ∨ c = '$' ∨ c = '\n' ∨ inQuotes ∧ c = '"'
    let kept := if c = '\n' then [] else if bare then [c] else ['\\', c]
    (backquoted inQuotes rest).map (fun found => (kept ++ found.1, found.2))
  | c :: rest => (backquoted inQuotes rest).map (fun found => (c :: found.1, found.2))

/-- The text without the ends of lines that go on. -/
def joined : List Char → List Char
  | '\\' :: '\n' :: rest => joined rest
  | s => s

/-- Puts a character in front of pieces. -/
def consChar (quoted : Bool) (c : Char) : List Piece → List Piece
  | .plain s :: rest => if quoted then .quoted [c] :: .plain s :: rest else .plain (c :: s) :: rest
  | .quoted s :: rest =>
    if quoted then .quoted (c :: s) :: rest else .plain [c] :: .quoted s :: rest
  | pieces => if quoted then .quoted [c] :: pieces else .plain [c] :: pieces

/-- The lines of a text in place up to a delimiter, and what follows it. -/
def linesBefore (dropTabs : Bool) (delimiter : List Char) :
    (fuel : Nat) → List Char → List Char × List Char
  | 0, s => (s, [])
  | fuel + 1, s =>
    if s.isEmpty then ([], [])
    else
      let line := s.takeWhile (· != '\n')
      let line := if dropTabs then line.dropWhile (· == '\t') else line
      let rest := (s.dropWhile (· != '\n')).drop 1
      if line = delimiter then ([], rest)
      else
        let (body, after) := linesBefore dropTabs delimiter fuel rest
        (line ++ '\n' :: body, after)

/-- The text of a word that is a delimiter, and whether any of it is quoted. -/
def delimiterOf : Word → List Char × Bool
  | [] => ([], false)
  | .plain s :: rest =>
    let (text, quoted) := delimiterOf rest
    (s ++ text, quoted)
  | .quoted s :: rest => (s ++ (delimiterOf rest).1, true)
  | _ :: rest => delimiterOf rest

/-- The name that a word is, if it is one. -/
def nameOf? : Word → Option String
  | [.plain s] => if isName s then some (String.ofList s) else none
  | _ => none

/-- Whether the pieces between two quotes leave nothing of a word if there are no arguments. -/
def vanishes : List Piece → Bool
  | [.parameter _ name] => name = "@"
  | _ => false

/-- What an expansion in braces does with a word, which begins behind the first characters; the
word may be in quotes. -/
def operation? (quotes : Bool) (name : String) :
    List Char → Option ((List Piece → Piece) × Bool × List Char)
  | ':' :: '-' :: rest => some (.fallback quotes name true .value, quotes, rest)
  | ':' :: '=' :: rest => some (.fallback quotes name true .assign, quotes, rest)
  | ':' :: '+' :: rest => some (.fallback quotes name true .whenSet, quotes, rest)
  | ':' :: '?' :: rest => some (.fallback quotes name true .fail, quotes, rest)
  | '-' :: rest => some (.fallback quotes name false .value, quotes, rest)
  | '=' :: rest => some (.fallback quotes name false .assign, quotes, rest)
  | '+' :: rest => some (.fallback quotes name false .whenSet, quotes, rest)
  | '?' :: rest => some (.fallback quotes name false .fail, quotes, rest)
  | '#' :: '#' :: rest => some (.trimmed quotes name ⟨true, true⟩, false, rest)
  | '#' :: rest => some (.trimmed quotes name ⟨true, false⟩, false, rest)
  | '%' :: '%' :: rest => some (.trimmed quotes name ⟨false, true⟩, false, rest)
  | '%' :: rest => some (.trimmed quotes name ⟨false, false⟩, false, rest)
  | ':' :: '\x7d' :: rest => some (fun _ => .parameter quotes name, quotes, rest)
  | _ => none

mutual

/-- The pieces up to the end of their context. -/
def pieces (fuel : Nat) (context : Context) (s : List Char) :
    Except Fault (List Piece × List Char) :=
  match fuel with
  | 0 => Cause.depth.before s
  | fuel + 1 =>
    let onward (piece : Piece) (rest : List Char) : Except Fault (List Piece × List Char) :=
      (pieces fuel (context.behind ' ') rest).map (fun found => (piece :: found.1, found.2))
    let character (quoted : Bool) (c : Char) (rest : List Char) :
        Except Fault (List Piece × List Char) :=
      (pieces fuel (context.behind c) rest).map (fun found => (consChar quoted c found.1, found.2))
    let s := context.counted s
    if context.endsBefore s then .ok ([], s)
    else
      match s with
      | [] => context.cause.before []
      -- a line end behind a backslash is no part of the text
      | '\\' :: '\n' :: rest => pieces fuel (context.behind ' ') rest
      | '\\' :: c :: rest =>
        if context.isProtected c then
          (pieces fuel (context.behind ' ') rest).map
            (fun found => (consChar true c found.1, found.2))
        else character true '\\' (c :: rest)
      | '$' :: rest => do
        match ← expansion fuel context.inQuotes (joined rest) with
        | (some piece, rest) => onward piece rest
        | (none, rest) => character context.inQuotes '$' rest
      | '`' :: rest => do
        let (text, rest) ← backquoted context.inQuotes rest
        let lineEnds := some (text.count '\n')
        match list fuel true text with
        | .error fault => .error { fault with lineEnds := fault.lineEnds <|> lineEnds }
        | .ok (body, _) => onward (.output context.inQuotes lineEnds body) rest
      | '\'' :: rest =>
        if context.inQuotes then character true '\'' rest
        else
          match Text.cutFirst? ['\''] rest with
          | some (text, rest) => onward (.quoted text) rest
          | none => Cause.openQuote.before []
      | '"' :: rest =>
        if context.isLiteral then character true '"' rest
        else do
          let (inner, rest) ← pieces fuel .quotes rest
          let (others, rest) ← pieces fuel (context.behind ' ') (rest.drop 1)
          return ((if vanishes inner then inner else .quoted [] :: inner) ++ others, rest)
      | c :: rest => character context.inQuotes c rest

/-- The expansion behind a dollar sign, if there is one. -/
def expansion (fuel : Nat) (quotes : Bool) (s : List Char) :
    Except Fault (Option Piece × List Char) :=
  match fuel with
  | 0 => Cause.depth.before s
  | fuel + 1 =>
    match s with
    | '(' :: '(' :: rest => do
      let (expression, rest) ← pieces fuel (.arithmetic 0) rest
      return (some (.arithmetic quotes expression), rest.drop 2)
    | '(' :: rest => do
      let (body, rest) ← list fuel true rest
      return (some (.output quotes none body), ← expect fuel (.operator ")") rest)
    | '\x7b' :: '#' :: rest =>
      match plainParameter? rest, rest with
      | some (name, '\x7d' :: rest), _ => .ok (some (.length quotes name), rest)
      | some (_, rest), _ => malformed fuel quotes rest
      | none, '\x7d' :: rest => .ok (some (.parameter quotes "#"), rest)
      | none, c :: '\x7d' :: after =>
        if isSpecial c then .ok (some (.length quotes (String.singleton c)), after)
        else malformed fuel quotes ('\x7d' :: after)
      | none, rest => inBraces fuel quotes "#" rest
    | '\x7b' :: rest =>
      match parameter? rest with
      | some (name, rest) => inBraces fuel quotes name rest
      | none => malformed fuel quotes (if rest.head? = some '\x7d' then rest else rest.drop 1)
    | c :: rest =>
      if Text.isAsciiDigit c then .ok (some (.parameter quotes (String.singleton c)), rest)
      else
        match parameter? s with
        | some (name, rest) => .ok (some (.parameter quotes name), rest)
        | none => .ok (none, s)
    | [] => .ok (none, s)

/-- The rest of an expansion in braces behind the name of its parameter. -/
def inBraces (fuel : Nat) (quotes : Bool) (name : String) (s : List Char) :
    Except Fault (Option Piece × List Char) :=
  match fuel with
  | 0 => Cause.depth.before s
  | fuel + 1 =>
    match operation? quotes name s, s with
    | some (piece, quotes, rest), _ => do
      let (word, rest) ← pieces fuel (.braces quotes) rest
      return (some (piece word), rest.drop 1)
    | none, '\x7d' :: rest => .ok (some (.parameter quotes name), rest)
    | none, ':' :: _ :: rest => malformed fuel quotes rest
    | none, _ :: rest => malformed fuel quotes rest
    | none, [] => malformed fuel quotes []

/-- The rest of an expansion in braces that stands for nothing. -/
def malformed (fuel : Nat) (quotes : Bool) (s : List Char) :
    Except Fault (Option Piece × List Char) :=
  match fuel with
  | 0 => Cause.depth.before s
  | fuel + 1 => do
    let (_, rest) ← pieces fuel (.braces quotes) s
    return (some .malformed, rest.drop 1)

/-- The fault of a text that goes on with another token than it may. -/
def refuse (fuel : Nat) (found : Token) (wanted : Option Token) (s : List Char) :
    Except Fault (List Char) :=
  match fuel with
  | 0 => Cause.depth.before s
  | fuel + 1 =>
    match found with
    | .word => do
      let (_, rest) ← pieces fuel .bare (skipBlanks s)
      (Cause.unexpected found wanted).before rest
    | found => (Cause.unexpected found wanted).before (front s).2

/-- What follows a token with which the text has to go on. -/
def expect (fuel : Nat) (wanted : Token) (s : List Char) : Except Fault (List Char) :=
  match fuel with
  | 0 => Cause.depth.before s
  | fuel + 1 =>
    let (found, rest) := front s
    if found = wanted then .ok rest else refuse fuel found (some wanted) s

/-- A word with which the text has to go on. -/
def word (fuel : Nat) (wanted : Option Token) (s : List Char) : Except Fault (Word × List Char) :=
  match fuel with
  | 0 => Cause.depth.before s
  | fuel + 1 =>
    match (front s).1.unreserved with
    | .word => pieces fuel .bare (skipBlanks s)
    | found => do
      let rest ← refuse fuel found wanted s
      return ([], rest)

/-- A redirection at the front of the text. -/
def redirection (fuel : Nat) (s : List Char) : Except Fault (Redirection × List Char) :=
  match fuel with
  | 0 => Cause.depth.before s
  | fuel + 1 =>
    let onto (descriptor : Nat) (direction : Direction) (rest : List Char) :
        Except Fault (Redirection × List Char) := do
      let (target, rest) ← word fuel none rest
      return (.mk descriptor direction target, rest)
    let inPlace (descriptor : Nat) (dropTabs : Bool) (rest : List Char) :
        Except Fault (Redirection × List Char) := do
      let (delimiter, rest) ← word fuel none rest
      -- the body begins on the next line; what is left of this one is still to be read
      let line := rest.takeWhile (· != '\n')
      let start := (rest.dropWhile (· != '\n')).drop 1
      let (mark, literal) := delimiterOf delimiter
      if literal then
        let (body, after) := linesBefore dropTabs mark rest.length start
        return (.mk descriptor .text [.quoted body], line ++ '\n' :: after)
      else
        match pieces fuel (.text mark dropTabs true) start with
        | .error fault =>
          .error (if fault.cause = .openQuote then { fault with cause := .openBraces } else fault)
        | .ok (body, after) =>
          let after := (after.dropWhile (· != '\n')).drop 1
          return (.mk descriptor .text body, line ++ '\n' :: after)
    match redirection? (skipBlanks s) with
    | some (descriptor, "<<-", rest) => inPlace (descriptor.getD 0) true rest
    | some (descriptor, "<<", rest) => inPlace (descriptor.getD 0) false rest
    | some (descriptor, "<&", rest) => onto (descriptor.getD 0) .duplicate rest
    | some (descriptor, "<>", rest) => onto (descriptor.getD 0) .update rest
    | some (descriptor, "<", rest) => onto (descriptor.getD 0) .input rest
    | some (descriptor, ">>", rest) => onto (descriptor.getD 1) .append rest
    | some (descriptor, ">&", rest) => onto (descriptor.getD 1) .duplicate rest
    | some (descriptor, ">|", rest) => onto (descriptor.getD 1) .replacement rest
    | some (descriptor, _, rest) => onto (descriptor.getD 1) .output rest
    | none => (Cause.unexpected .word (some .redirection)).before s

/-- The redirections behind a compound command. No word is reserved behind one of them, so that
such a word is put in quotes. -/
def redirections (fuel : Nat) (s : List Char) : Except Fault (List Redirection × List Char) :=
  match fuel with
  | 0 => Cause.depth.before s
  | fuel + 1 =>
    match (front s).1 with
    | .redirection => do
      let (first, rest) ← redirection fuel s
      match (front rest).1 with
      | .reserved _ => return ([first], '\'' :: '\'' :: skipBlanks rest)
      | _ =>
        let (others, rest) ← redirections fuel rest
        return (first :: others, rest)
    | _ => .ok ([], s)

/-- A simple command behind the assignments, words and redirections that it begins with, or the
definition of a function; its place is behind the first of them. -/
def simple (fuel : Nat) (place : Option Nat) (assigned : List (String × Word)) (words : List Word)
    (redirected : List Redirection) (s : List Char) : Except Fault (Script × List Char) :=
  match fuel with
  | 0 => Cause.depth.before s
  | fuel + 1 =>
    let finished : Except Fault (Script × List Char) :=
      .ok (.simple (place.getD 0) assigned words redirected, s)
    let placed (rest : List Char) : Option Nat := place <|> some (rest.count '\n')
    match front s with
    | (.redirection, behind) => do
      let (next, rest) ← redirection fuel s
      simple fuel (placed behind) assigned words (redirected ++ [next]) rest
    | (.operator "(", rest) =>
      match assigned, words, redirected with
      | [], [name], [] => do
        let found := (front rest).1.unreserved
        let rest ← if found = .operator ")" then pure (front rest).2
          else refuse fuel found (some (.operator ")")) rest
        match (nameOf? name).filter (fun name => !specialNames.contains name) with
        | none => Cause.functionName.before rest
        | some name =>
          let (body, rest) ← command fuel (skipLines fuel rest)
          return (.function name body, rest)
      | _, _, _ => finished
    | (found, _) =>
      if found.unreserved = .word then
        match words, assignment? (skipBlanks s) with
        | [], some (name, rest) => do
          let (value, rest) ← pieces fuel .bare rest
          simple fuel (placed rest) (assigned ++ [(name, value)]) words redirected rest
        | words, _ => do
          let (next, rest) ← pieces fuel .bare (skipBlanks s)
          simple fuel (placed rest) assigned (words ++ [next]) redirected rest
      else finished

/-- The rest of a conditional behind its first word. -/
def branch (fuel : Nat) (s : List Char) : Except Fault (Script × List Char) :=
  match fuel with
  | 0 => Cause.depth.before s
  | fuel + 1 => do
    let (condition, rest) ← list fuel false s
    let rest ← expect fuel (.reserved "then") rest
    let (yes, rest) ← list fuel false rest
    match front rest with
    | (.reserved "elif", rest) =>
      let (no, rest) ← branch fuel rest
      return (.branch condition yes no [], rest)
    | (.reserved "else", rest) =>
      let (no, rest) ← list fuel false rest
      return (.branch condition yes no [], ← expect fuel (.reserved "fi") rest)
    | _ => return (.branch condition yes .nothing [], ← expect fuel (.reserved "fi") rest)

/-- The body of a loop. -/
def body (fuel : Nat) (s : List Char) : Except Fault (Script × List Char) :=
  match fuel with
  | 0 => Cause.depth.before s
  | fuel + 1 => do
    let rest ← expect fuel (.reserved "do") (skipLines fuel s)
    let (body, rest) ← list fuel false rest
    return (body, ← expect fuel (.reserved "done") rest)

/-- The words at the front of the text. -/
def words (fuel : Nat) (s : List Char) : Except Fault (List Word × List Char) :=
  match fuel with
  | 0 => Cause.depth.before s
  | fuel + 1 =>
    match (front s).1.unreserved with
    | .word => do
      let (first, rest) ← pieces fuel .bare (skipBlanks s)
      let (others, rest) ← words fuel rest
      return (first :: others, rest)
    | _ => .ok ([], s)

/-- The variable and the words of a loop over values. -/
def values (fuel : Nat) (s : List Char) :
    Except Fault ((String × Option (List Word)) × List Char) :=
  match fuel with
  | 0 => Cause.depth.before s
  | fuel + 1 =>
    if (front s).1.unreserved ≠ .word then Cause.loopVariable.before (front s).2
    else do
      let (named, rest) ← pieces fuel .bare (skipBlanks s)
      match nameOf? named with
      | none => Cause.loopVariable.before rest
      | some name =>
        let rest := skipLines fuel rest
        match front rest with
        | (.reserved "in", rest) =>
          let (words, rest) ← words fuel rest
          match front rest with
          | (.operator ";", rest) => return ((name, some words), rest)
          | (.lineEnd, rest) => return ((name, some words), rest)
          | (found, _) => return ((name, some words), ← refuse fuel found none rest)
        | (.operator ";", rest) => return ((name, none), rest)
        | _ => return ((name, none), rest)

/-- The patterns of an arm, and what follows their parenthesis. -/
def patterns (fuel : Nat) (s : List Char) : Except Fault (List Word × List Char) :=
  match fuel with
  | 0 => Cause.depth.before s
  | fuel + 1 => do
    let (first, rest) ← if (front s).1.unreserved = .word then pieces fuel .bare (skipBlanks s)
      else pure ([], (front s).2)
    match front rest with
    | (.operator "|", rest) =>
      let (others, rest) ← patterns fuel rest
      return (first :: others, rest)
    | (.operator ")", rest) => return ([first], rest)
    | (found, _) =>
      return ([first], ← refuse fuel found.unreserved (some (.operator ")")) rest)

/-- The arms of a choice up to its last word. -/
def arms (fuel : Nat) (s : List Char) : Except Fault ((List (List Word × Script)) × List Char) :=
  match fuel with
  | 0 => Cause.depth.before s
  | fuel + 1 =>
    let s := skipLines fuel s
    match front s with
    | (.reserved "esac", rest) => .ok ([], rest)
    | (first, rest) => do
      let (words, rest) ← patterns fuel (if first = .operator "(" then rest else s)
      let (body, rest) ← list fuel true rest
      match front rest with
      | (.reserved "esac", rest) => return ([(words, body)], rest)
      | _ =>
        let (others, rest) ← arms fuel (← expect fuel (.operator ";;") rest)
        return ((words, body) :: others, rest)

/-- A command with its redirections. -/
def command (fuel : Nat) (s : List Char) : Except Fault (Script × List Char) :=
  match fuel with
  | 0 => Cause.depth.before s
  | fuel + 1 =>
    let redirected (script : List Redirection → Script) (rest : List Char) :
        Except Fault (Script × List Char) := do
      let (found, rest) ← redirections fuel rest
      return (script found, rest)
    match front s with
    | (.operator "(", rest) => do
      let (body, rest) ← list fuel false rest
      redirected (.subshell body) (← expect fuel (.operator ")") rest)
    | (.reserved "\x7b", rest) => do
      let (body, rest) ← list fuel false rest
      redirected (.group body) (← expect fuel (.reserved "\x7d") rest)
    | (.reserved "if", rest) => do
      let (found, rest) ← branch fuel rest
      redirected (.group found) rest
    | (.reserved "while", rest) => do
      let (condition, rest) ← list fuel false rest
      let (body, rest) ← body fuel rest
      redirected (.loop true condition body) rest
    | (.reserved "until", rest) => do
      let (condition, rest) ← list fuel false rest
      let (body, rest) ← body fuel rest
      redirected (.loop false condition body) rest
    | (.reserved "for", rest) => do
      let ((name, words), rest) ← values fuel rest
      let (body, rest) ← body fuel rest
      redirected (.each name words body) rest
    | (.reserved "case", rest) => do
      let (subject, rest) ← word fuel (some .word) rest
      let rest ← expect fuel (.reserved "in") (skipLines fuel rest)
      let (arms, rest) ← arms fuel rest
      redirected (.choose subject arms) rest
    | (.word, _) => simple fuel none [] [] [] s
    | (.redirection, _) => simple fuel none [] [] [] s
    | (found, _) => do
      let rest ← refuse fuel found none s
      return (.nothing, rest)

/-- The commands of a pipeline. -/
def pipelineParts (fuel : Nat) (s : List Char) : Except Fault (List Script × List Char) :=
  match fuel with
  | 0 => Cause.depth.before s
  | fuel + 1 => do
    let (first, rest) ← command fuel s
    match front rest with
    | (.operator "|", rest) =>
      let (others, rest) ← pipelineParts fuel (skipLines fuel rest)
      return (first :: others, rest)
    | _ => return ([first], rest)

/-- A pipeline, negated by an exclamation mark in front of it. -/
def pipeline (fuel : Nat) (s : List Char) : Except Fault (Script × List Char) :=
  match fuel with
  | 0 => Cause.depth.before s
  | fuel + 1 => do
    let (negated, s) := match front s with
      | (.reserved "!", rest) => (true, rest)
      | _ => (false, s)
    match ← pipelineParts fuel s with
    | ([only], rest) => return (if negated then .pipeline true [only] else only, rest)
    | (parts, rest) => return (.pipeline negated parts, rest)

/-- Pipelines of which each depends on the end of those before it. -/
def chain (fuel : Nat) (first : Script) (s : List Char) : Except Fault (Script × List Char) :=
  match fuel with
  | 0 => Cause.depth.before s
  | fuel + 1 =>
    match front s with
    | (.operator "&&", rest) => do
      let (second, rest) ← pipeline fuel (skipLines fuel rest)
      chain fuel (.both first second) rest
    | (.operator "||", rest) => do
      let (second, rest) ← pipeline fuel (skipLines fuel rest)
      chain fuel (.either first second) rest
    | _ => .ok (first, s)

/-- The commands up to one with something else behind it, or up to a token that closes them if
there may be none. -/
def list (fuel : Nat) (mayBeEmpty : Bool) (s : List Char) : Except Fault (Script × List Char) :=
  match fuel with
  | 0 => Cause.depth.before s
  | fuel + 1 =>
    let s := skipLines fuel s
    let (found, _) := front s
    if found = .ending || mayBeEmpty && found.closes then .ok (.nothing, s)
    else do
      let (first, rest) ← pipeline fuel s
      let (first, rest) ← chain fuel first rest
      let onward (first : Script) (rest : List Char) : Except Fault (Script × List Char) := do
        let (others, rest) ← list fuel true rest
        match others with
        | .nothing => return (first, rest)
        | _ => return (.sequence first others, rest)
      match front rest with
      | (.operator ";", rest) => onward first rest
      | (.operator "&", rest) => onward (.background first) rest
      | (.lineEnd, rest) => onward first rest
      | _ => return (first, rest)

/-- The commands up to the end of a line. -/
def line (fuel : Nat) (s : List Char) : Except Fault (Script × List Char) :=
  match fuel with
  | 0 => Cause.depth.before s
  | fuel + 1 => do
    let (first, rest) ← pipeline fuel s
    let (first, rest) ← chain fuel first rest
    let onward (first : Script) (rest : List Char) : Except Fault (Script × List Char) :=
      match front rest with
      | (.ending, rest) => .ok (first, rest)
      | (.lineEnd, rest) => .ok (first, rest)
      | _ => do
        let (others, rest) ← line fuel rest
        return (.sequence first others, rest)
    match front rest with
    | (.operator ";", rest) => onward first rest
    | (.operator "&", rest) => onward (.background first) rest
    | (.lineEnd, rest) => return (first, rest)
    | (.ending, rest) => return (first, rest)
    | (found, _) => return (first, ← refuse fuel found none rest)

end

/-- The first line of commands of a text, and what follows it; none if there are no commands. -/
def next? (s : List Char) : Except Fault (Option (Script × List Char)) :=
  let s := skipLines s.length s
  if (front s).1 = .ending then .ok none else (line (32 * (s.length + 8)) s).map some

end RubySupervisor.Shell.Reader
