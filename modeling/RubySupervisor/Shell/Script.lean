/-!
# Shell scripts

A script is a tree of commands. A command is made of words, and a word of pieces: text as it is
written, and expansions that are replaced when the command is run. What stands in quotes is
neither split into fields nor read as a pattern.
-/

namespace RubySupervisor.Shell

/-- Which end of a value a pattern is cut from, and how much of it. -/
structure Trimming where
  front : Bool
  longest : Bool
  deriving DecidableEq, Repr

/-- What an expansion does if its parameter is unset. -/
inductive Fallback where
  /-- Takes a word instead. -/
  | value
  /-- Sets the parameter to a word. -/
  | assign
  /-- Takes a word if the parameter is set, and nothing otherwise. -/
  | whenSet
  /-- Ends the shell with a message. -/
  | fail
  deriving DecidableEq, Repr

/-- What a redirection connects a descriptor to. -/
inductive Direction where
  | input
  | output
  /-- A file that may always be emptied. -/
  | replacement
  | append
  /-- A file that is neither emptied nor has to be there. -/
  | update
  /-- Another descriptor. -/
  | duplicate
  /-- The text of the word itself. -/
  | text
  deriving DecidableEq, Repr

mutual

/-- A piece of a word. -/
inductive Piece where
  /-- Text outside quotes. -/
  | plain (s : List Char)
  /-- Text in quotes. -/
  | quoted (s : List Char)
  /-- The value of a parameter. -/
  | parameter (quotes : Bool) (name : String)
  /-- The length of the value of a parameter. -/
  | length (quotes : Bool) (name : String)
  /-- The value of a parameter with a fallback; an empty value may count as unset. -/
  | fallback (quotes : Bool) (name : String) (emptyToo : Bool) (kind : Fallback)
      (word : List Piece)
  /-- The value of a parameter without what a pattern matches at one end. -/
  | trimmed (quotes : Bool) (name : String) (trimming : Trimming) (pattern : List Piece)
  /-- The output of a script; one that is a text of its own has its number of line ends. -/
  | output (quotes : Bool) (lineEnds : Option Nat) (script : Script)
  /-- The value of an arithmetic expression. -/
  | arithmetic (quotes : Bool) (expression : List Piece)
  /-- An expansion that stands for nothing. -/
  | malformed

/-- A redirection of a descriptor. -/
inductive Redirection where
  | mk (descriptor : Nat) (direction : Direction) (word : List Piece)

/-- A command. -/
inductive Script where
  | nothing
  /-- Assignments, words and redirections; `place` is the number of line ends from where the
  command begins to the end of the text. -/
  | simple (place : Nat) (assignments : List (String × List Piece)) (words : List (List Piece))
      (redirections : List Redirection)
  /-- Commands of which each reads what the one before it writes. -/
  | pipeline (negated : Bool) (parts : List Script)
  | both (first second : Script)
  | either (first second : Script)
  | sequence (first second : Script)
  | background (body : Script)
  | group (body : Script) (redirections : List Redirection)
  | subshell (body : Script) (redirections : List Redirection)
  | branch (condition yes no : Script) (redirections : List Redirection)
  /-- Runs the body as long as the condition ends as wanted. -/
  | loop (wanted : Bool) (condition body : Script) (redirections : List Redirection)
  /-- Runs the body for each field of the words, or of the arguments if there are no words. -/
  | each (name : String) (words : Option (List (List Piece))) (body : Script)
      (redirections : List Redirection)
  /-- Runs the body of the first arm with a pattern that matches. -/
  | choose (subject : List Piece) (arms : List (List (List Piece) × Script))
      (redirections : List Redirection)
  | function (name : String) (body : Script)

end

/-- A word of a command. -/
abbrev Word := List Piece

instance : Inhabited Script := ⟨.nothing⟩

/-- The commands that are so much a part of the shell that their failure ends it. No function can
take their names. -/
def specialNames : List String :=
  [":", ".", "break", "continue", "eval", "exec", "exit", "export", "local", "readonly", "return",
    "set", "shift", "times", "trap", "unset"]

end RubySupervisor.Shell
