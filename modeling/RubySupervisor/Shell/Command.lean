import RubySupervisor.Shell.Command.Jobs
import RubySupervisor.Shell.Command.Place
import RubySupervisor.Shell.Condition
import RubySupervisor.Shell.Lookup
import RubySupervisor.Shell.Matching
import RubySupervisor.Shell.Reader

/-!
# Commands of the shell

What a shell does itself when a command is run, and what it says about the names of commands.
-/

namespace RubySupervisor.Shell

/-- Shows a command before it is run, if the shell is asked to. -/
def showCommand (assigned : List (String × Bytes)) (words : List Bytes) : Run Unit := do
  if (← get).modes.contains .xtrace then
    let shown := assigned.map (fun entry => bytesOf (entry.1 ++ "=") ++ entry.2) ++ words
    modify (fun s => s.written s.errors
      ((s.bindings.find? "PS4").getD (bytesOf "+ ") ++ Printing.joined shown ++ [byte '\n']))

/-- The output of a script without the line ends behind it. -/
def withoutLineEnds (s : Bytes) : Bytes := (s.reverse.dropWhile (· = byte '\n')).reverse

/-- The home directory of a user, or the own one if no user is named. -/
def home? (s : State) (user : String) : Option String :=
  match user with
  | "" => (s.bindings.find? "HOME").map Text.lossyText
  | "root" => some "/root"
  | _ => none

/-- A word with the home directory in place of a tilde, with or without a user, at its front. -/
def withHome (s : State) (w : Word) : Word :=
  match w with
  | .plain ('~' :: rest) :: others =>
    let (user, path) := rest.span (· != '/')
    match home? s (String.ofList user) with
    | some home =>
      if !path.isEmpty || others.isEmpty then .quoted home.toList :: .plain path :: others else w
    | none => w
  | w => w

/-- The redirections of the process that a command makes up. -/
def ownRedirections : Script → List Redirection
  | .simple _ _ _ redirections => redirections
  | .group body redirections => redirections ++ ownRedirections body
  | .subshell body redirections => redirections ++ ownRedirections body
  | .branch _ _ _ redirections => redirections
  | .loop _ _ _ redirections => redirections
  | .each _ _ _ redirections => redirections
  | .choose _ _ redirections => redirections
  | .sequence (.simple _ [] [[.plain ['e', 'x', 'e', 'c']]] redirections) rest =>
    redirections ++ ownRedirections rest
  | _ => []

/-- The places that a process can write to behind redirections, as far as they were there before. -/
def State.sinksOf (s : State) (redirections : List Redirection) : List Sink :=
  let (output, errors) := redirections.foldl (fun (sinks : Sink × Sink) redirection =>
    let (output, errors) := sinks
    match redirection with
    | .mk 1 .duplicate [.plain ['2']] => (errors, errors)
    | .mk 1 .duplicate [.plain ['1']] => (output, errors)
    | .mk 2 .duplicate [.plain ['1']] => (output, output)
    | .mk 2 .duplicate [.plain ['2']] => (output, errors)
    | .mk 1 _ _ => (.nowhere, errors)
    | .mk 2 _ _ => (output, .nowhere)
    | _ => (output, errors)) (s.output, s.errors)
  output :: errors :: s.further.map Prod.snd

/-- The names of the commands that are part of the shell. -/
def commandNames : List String :=
  specialNames ++ ["[", "alias", "bg", "cd", "chdir", "command", "echo", "false", "fg", "getopts",
    "hash", "jobs", "kill", "printf", "pwd", "read", "test", "true", "type", "ulimit", "umask",
    "unalias", "wait"]

/-- What a name stands for at the front of a command: for people, or as it would be written. A
program that is found is found faster from then on. -/
def describe? (forPeople : Bool) (name : String) : Run (Option String) := do
  let s ← get
  let told (what : String) : Option String := some (if forPeople then name ++ " is " ++ what else name)
  if reservedWords.contains name then return told "a shell keyword"
  else if let some text := s.aliases.lookup name then
    return some (if forPeople then name ++ " is an alias for " ++ Text.lossyText text
      else "alias " ++ name ++ "=" ++ Text.lossyText (Quoting.again text))
  else if (s.functions.lookup name).isSome then return told "a shell function"
  else if specialNames.contains name then return told "a special shell builtin"
  else if commandNames.contains name then return told "a shell builtin"
  else if let some path := s.tracked.lookup name then
    return some (if forPeople then name ++ " is a tracked alias for " ++ path else path)
  else if let some path := s.program? name then
    set (s.tracking name path)
    return some (if forPeople then name ++ " is " ++ path else path)
  else return none

/-- Describes names, each one on a line. -/
def describe (forPeople : Bool) (names : List String) : Run Unit := do
  Run.setStatus 0
  names.forM fun name => do
    match ← describe? forPeople name with
    | some text => Run.write (bytesOf (text ++ "\n"))
    | none =>
      Run.write (bytesOf (if forPeople then name ++ ": not found\n" else ""))
      Run.setStatus 127

/-- The place of a program among those that were found: thirty-one shelves, one after another. -/
def trackShelf (name : String) : Nat :=
  let bytes := bytesOf name
  (bytes.foldl (fun n b => n + b.toNat) (((bytes.head?).map (16 * ·.toNat)).getD 0)) % 31

/-- Lists the programs that were found, forgets them, or looks for others. -/
def trackPrograms (arguments : List Bytes) : Run Unit :=
  Run.withOptions "r" "" arguments fun o => do
    Run.setStatus 0
    if o.has 'r' then modify (fun s => { s with tracked := [] })
    else if o.operands.isEmpty then
      let found := (← get).tracked.reverse.mergeSort (fun a b => trackShelf a.1 ≤ trackShelf b.1)
      Run.write (bytesOf (String.join (found.map (·.2 ++ "\n"))))
    else
      (Tool.texts o.operands).forM fun name => do
        if (← describe? false name).isNone then
          Run.complain (name ++ ": not found")
          Run.setStatus 1

/-- Keeps texts for names, or tells them. -/
def keepAliases (arguments : List Bytes) : Run Unit := do
  Run.setStatus 0
  let tell (entry : String × Bytes) : Run Unit :=
    Run.write (bytesOf (entry.1 ++ "=") ++ Quoting.again entry.2 ++ [byte '\n'])
  if arguments.isEmpty then (← get).aliases.reverse.forM tell
  else
    arguments.forM fun argument => do
      let s ← get
      match binding argument with
      | (name, some text) => set { s with aliases := (name, text) :: s.aliases.filter (·.1 ≠ name) }
      | (name, none) =>
        match s.aliases.lookup name with
        | some text => tell (name, text)
        | none =>
          Run.writeErrors ("alias: " ++ name ++ " not found\n")
          Run.setStatus 1

/-- Forgets texts for names. -/
def dropAliases (arguments : List Bytes) : Run Unit :=
  Run.withOptions "a" "" arguments fun o => do
    Run.setStatus 0
    if o.has 'a' then modify (fun s => { s with aliases := [] })
    else
      (Tool.texts o.operands).forM fun name => do
        let s ← get
        if (s.aliases.lookup name).isSome then
          set { s with aliases := s.aliases.filter (·.1 ≠ name) }
        else
          Run.writeErrors ("unalias: " ++ name ++ " not found\n")
          Run.setStatus 1

/-- Prints arguments in a format. -/
def printFormat (arguments : List Bytes) : Run Unit :=
  Run.withOptions "" "" arguments fun o =>
    match o.operands with
    | [] => Run.fail "usage: printf format [arg ...]"
    | format :: others => do
      let printed := Printing.printf format others
      printed.faults.forM Run.complain
      match printed.ending with
      | .refused reason =>
        Run.complain reason
        Run.write printed.bytes
        throw .failed
      | _ =>
        Run.write printed.bytes
        Run.setStatus (if printed.faults.isEmpty then 0 else 1)

/-- Tells the limit that is asked for, none; other limits are taken over without being kept. -/
def tellLimit (arguments : List Bytes) : Run Unit :=
  Run.withOptions "HSatfdscmlpnvwr" "" arguments fun o => do
    if o.operands.isEmpty then Run.write (bytesOf "unlimited\n")
    Run.setStatus 0

/-- The work of a command that is part of the shell and runs no other command; none for any other
name. -/
def builtin? (name : String) (arguments : List Bytes) : Option (Run Unit) :=
  let texts := Tool.texts arguments
  let testing (arguments : List Bytes) : Option (Run Unit) := some do
    let s ← get
    match Condition.evaluate s.files s.directory arguments with
    | .ok answer => Run.setStatus (if answer then 0 else 1)
    | .error fault => Run.fail fault
  let counted (standard : State → Nat) (least : Nat) (act : Nat → Run Unit) :
      Option (Run Unit) := some do
    match arguments with
    | [] => act (standard (← get))
    | a :: _ =>
      match (Tool.natOf? a).filter (least ≤ ·) with
      | some n => act n
      | none => Run.fail ("Illegal number: " ++ Text.lossyText a)
  let leaving (halt : Nat → Halt) : Option (Run Unit) := counted (fun _ => 1) 1 fun n => do
    let loops := (← get).loops
    if loops = 0 then Run.setStatus 0 else throw (halt (min n loops))
  match name with
  | ":" => some (Run.setStatus 0)
  | "true" => some (Run.setStatus 0)
  | "false" => some (Run.setStatus 1)
  | "echo" => some do
    Run.write (Printing.echo arguments)
    Run.setStatus 0
  | "printf" => some (printFormat arguments)
  | "test" => testing arguments
  | "[" => if arguments.getLast? = some [byte ']'] then testing arguments.dropLast
    else some (Run.fail "missing ]")
  | "exit" => counted (fun s => s.trapped.getD s.status) 0 Run.exit
  | "return" => counted (·.status) 0 fun n => do
    Run.setStatus n
    throw .returning
  | "break" => leaving .breaking
  | "continue" => leaving .continuing
  | "shift" => counted (fun _ => 1) 0 fun n => do
    let s ← get
    if s.arguments.length < n then Run.fail "can't shift that many"
    set { s with
      arguments := s.arguments.drop n, status := 0, optionWord := 1, optionPlace := none }
  | "set" => some (changeSettings arguments)
  | "export" => some (exportVariables arguments)
  | "readonly" => some (fixVariables arguments)
  | "local" => some (keepLocal arguments)
  | "unset" => some (unsetNames arguments)
  | "getopts" => some (takeOption arguments)
  | "read" => some (readLine arguments)
  | "pwd" => some (tellDirectory arguments)
  | "cd" => some (changeDirectory arguments)
  | "chdir" => some (changeDirectory arguments)
  | "umask" => some (changeMask arguments)
  | "trap" => some (keepTraps arguments)
  | "wait" => some (awaitNamed arguments)
  | "jobs" => some (showJobs arguments)
  | "fg" => some (bringJob arguments)
  | "bg" => some (bringJob arguments)
  | "hash" => some (trackPrograms arguments)
  | "type" => some (describe true texts)
  | "alias" => some (keepAliases arguments)
  | "unalias" => some (dropAliases arguments)
  | "ulimit" => some (tellLimit arguments)
  | "times" => some do
    Run.write (bytesOf "0m0.000000s 0m0.000000s\n0m0.000000s 0m0.000000s\n")
    Run.setStatus 0
  | _ => none

end RubySupervisor.Shell
