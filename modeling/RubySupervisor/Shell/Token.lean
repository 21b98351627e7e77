import RubySupervisor.Shell.Script
import RubySupervisor.Text.Digit
import RubySupervisor.Text.Scan

/-!
# The tokens of shell scripts

What stands at the front of a text is told from its first characters: words end at blanks and
operators, and a reserved word is one that is written without quotes. A text that is not a script
has a fault, which names the token or the open quote that is wrong and says where it shows.
-/

namespace RubySupervisor.Shell

/-- What stands at the front of a text. -/
inductive Token where
  | ending
  | lineEnd
  | redirection
  | word
  | reserved (name : String)
  | operator (text : String)
  deriving DecidableEq, Repr

/-- The words that are reserved where a command may begin. -/
def reservedWords : List String :=
  ["!", "case", "do", "done", "elif", "else", "esac", "fi", "for", "if", "in", "then", "until",
    "while", "\x7b", "\x7d"]

/-- The operators, those that begin like a longer one behind it. -/
def operatorTexts : List String := [";;", ";", "&&", "&", "||", "|", "(", ")"]

/-- The redirections, those that begin like a longer one behind it. -/
def redirectionTexts : List String := ["<<-", "<<", "<&", "<>", "<", ">>", ">&", ">|", ">"]

namespace Token

/-- How a fault calls a token. -/
def text : Token → String
  | ending => "end of file"
  | lineEnd => "newline"
  | redirection => "redirection"
  | word => "word"
  | reserved name => "\"" ++ name ++ "\""
  | operator text => "\"" ++ text ++ "\""

/-- Whether a list of commands that has begun ends before a token. -/
def closes : Token → Bool
  | ending => true
  | reserved name => ["then", "do", "done", "fi", "elif", "else", "esac", "\x7d"].contains name
  | operator text => text = ")" || text = ";;"
  | _ => false

/-- The token as it is where no word is reserved. -/
def unreserved : Token → Token
  | reserved _ => word
  | token => token

end Token

/-- The characters that end a word. -/
def isOperator (c : Char) : Bool :=
  [' ', '\t', '\n', ';', '&', '|', '<', '>', '(', ')'].contains c

/-- The characters that may begin a name. -/
def isNameStart (c : Char) : Bool := Text.isAsciiLetter c || c = '_'

/-- The characters of a name. -/
def isNameChar (c : Char) : Bool := Text.isAsciiAlphanumeric c || c = '_'

/-- Whether a text can be the name of a variable. -/
def isName (s : List Char) : Bool :=
  match s with
  | [] => false
  | c :: rest => isNameStart c && rest.all isNameChar

/-- The text without the blanks and the comment before the next token. -/
def skipBlanks : List Char → List Char
  | ' ' :: rest => skipBlanks rest
  | '\t' :: rest => skipBlanks rest
  | '\\' :: '\n' :: rest => skipBlanks rest
  | '#' :: rest => rest.dropWhile (· != '\n')
  | s => s

/-- The text without the blank lines before the next token; `fuel` bounds their number. -/
def skipLines : (fuel : Nat) → List Char → List Char
  | 0, s => s
  | fuel + 1, s =>
    match skipBlanks s with
    | '\n' :: rest => skipLines fuel rest
    | s => s

/-- The first of several literals that stands at the front of a text, and what follows it. -/
def firstLiteral? (literals : List String) (s : List Char) : Option (String × List Char) :=
  literals.findSome? (fun l => (Text.literal? l.toList s).map (fun rest => (l, rest)))

/-- The redirection at the front of a text: the descriptor that it names, its own text, and what
follows it. -/
def redirection? (s : List Char) : Option (Option Nat × String × List Char) :=
  let marked (descriptor : Option Nat) (s : List Char) : Option (Option Nat × String × List Char) :=
    (firstLiteral? redirectionTexts s).map (fun found => (descriptor, found))
  match s with
  | c :: rest =>
    if Text.isAsciiDigit c then marked (some (Text.digitsValue [c])) rest else marked none s
  | [] => none

/-- The token at the front of a text, and what follows it; a word is not passed. -/
def front (s : List Char) : Token × List Char :=
  match skipBlanks s with
  | [] => (.ending, [])
  | '\n' :: rest => (.lineEnd, rest)
  | s =>
    match firstLiteral? operatorTexts s, redirection? s with
    | some (text, rest), _ => (.operator text, rest)
    | none, some (_, _, rest) => (.redirection, rest)
    | none, none =>
      let run := String.ofList (s.takeWhile (fun c => !isOperator c))
      if reservedWords.contains run then
        (.reserved run, s.dropWhile (fun c => !isOperator c))
      else (.word, s)

/-- What keeps a text from being a script. -/
inductive Cause where
  | unexpected (found : Token) (wanted : Option Token)
  | openQuote
  | openBackquote
  | openBraces
  | openArithmetic
  | loopVariable
  | functionName
  | descriptor
  | depth
  deriving DecidableEq, Repr

/-- What is said about a cause. -/
def Cause.message : Cause → String
  | unexpected found none => found.text ++ " unexpected"
  | unexpected found (some wanted) => found.text ++ " unexpected (expecting " ++ wanted.text ++ ")"
  | openQuote => "Unterminated quoted string"
  | openBackquote => "EOF in backquote substitution"
  | openBraces => "Missing '\x7d'"
  | openArithmetic => "Missing '))'"
  | loopVariable => "Bad for loop variable"
  | functionName => "Bad function name"
  | descriptor => "Bad fd number"
  | depth => "Too many levels"

/-- A fault of a text. -/
structure Fault where
  cause : Cause
  /-- The number of line ends behind the place where it shows. -/
  place : Nat
  /-- The number of line ends in the text, if it is a text of its own. -/
  lineEnds : Option Nat := none
  deriving DecidableEq, Repr

/-- A fault that shows before a text. -/
def Cause.before {α : Type} (cause : Cause) (rest : List Char) : Except Fault α :=
  .error { cause, place := rest.count '\n' }

end RubySupervisor.Shell
