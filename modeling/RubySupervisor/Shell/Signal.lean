import RubySupervisor.Shell.Command.Settings
import RubySupervisor.Shell.Tool
import RubySupervisor.Text.Scan

/-!
# Signals

The signals that processes send each other, what a shell says about a program that one of them
ended, and the actions that a shell keeps for them.
-/

namespace RubySupervisor.Shell

/-- The signals, by number and name; zero stands for the end of the shell. -/
def signals : List (Nat × String) :=
  [(0, "EXIT"), (1, "HUP"), (2, "INT"), (3, "QUIT"), (4, "ILL"), (5, "TRAP"), (6, "ABRT"),
    (7, "BUS"), (8, "FPE"), (9, "KILL"), (10, "USR1"), (11, "SEGV"), (12, "USR2"), (13, "PIPE"),
    (14, "ALRM"), (15, "TERM"), (16, "16"), (17, "CHLD"), (18, "CONT"), (19, "STOP"), (20, "TSTP"),
    (21, "TTIN"), (22, "TTOU"), (23, "URG"), (24, "XCPU"), (25, "XFSZ"), (26, "VTALRM"),
    (27, "PROF"), (28, "WINCH"), (29, "IO"), (30, "PWR"), (31, "SYS"), (32, "32"), (33, "33"),
    (34, "RTMIN")]
  ++ (List.range 15).map (fun n => (35 + n, "RTMIN+" ++ Text.natText (n + 1)))
  ++ (List.range 14).map (fun n => (50 + n, "RTMAX-" ++ Text.natText (14 - n))) ++ [(64, "RTMAX")]

/-- The name of a signal. -/
def signalName? (number : Nat) : Option String := signals.lookup number

/-- What a shell says about a program that a signal ended. -/
def obituaries : List (Nat × String) :=
  [(1, "Hangup"), (3, "Quit"), (4, "Illegal instruction"), (6, "Aborted"), (7, "Bus error"),
    (8, "Floating point exception"), (9, "Killed"), (10, "User defined signal 1"),
    (11, "Segmentation fault"), (12, "User defined signal 2"), (14, "Alarm clock"),
    (15, "Terminated")]

/-- The signals that a process ignores by itself. -/
def idleSignals : List Nat := [0, 17, 18, 23, 28]

/-- The signals that stop a process and do not end it. -/
def stoppingSignals : List Nat := [19, 20, 21, 22]

/-- The number of the signal that a text names. -/
def signalOf (s : String) : Nat :=
  match Text.numeral? s.toList with
  | some n => n
  | none =>
    let name := (Text.literal? "SIG".toList s.toList).getD s.toList
    ((signals.find? (fun entry => entry.2.toList = name)).map Prod.fst).getD 15

/-- The signal, not below a number, that a text writes or names in letters of any case. -/
def signalNamed? (least : Nat) (text : Bytes) : Option Nat :=
  match Tool.natOf? text with
  | some n => if n < 65 then some n else none
  | none =>
    let upper := String.ofList ((Text.lossyText text).toList.map Char.toUpper)
    (signals.find? (fun entry => least ≤ entry.1 && entry.2 = upper)).map Prod.fst

/-- What a shell is asked to do with signals. -/
inductive SignalRequest where
  /-- Name the signals of numbers or codes, or all of them. -/
  | naming (codes : List Bytes)
  | send (signal : Nat) (targets : List Bytes)
  deriving DecidableEq

/-- How a request is made. -/
def SignalRequest.usage : String :=
  "Usage: kill [-s sigspec | -signum | -sigspec] [pid | job]... or\nkill -l [exitstatus]"

/-- The request that arguments make. -/
def SignalRequest.of (arguments : List Bytes) : Except String SignalRequest := do
  let direct := match arguments with
    | (dash :: name) :: _ => if dash = byte '-' then signalNamed? 1 name else none
    | _ => none
  let (signal?, isName, operands) : Option Nat × Bool × List Bytes ← match direct with
    | some signal => pure (some signal, false, arguments.drop 1)
    | none =>
      let o ← commandOptions "l" "s" arguments
      let chosen := (o.values 's').map (fun name => (name, signalNamed? 1 name))
      match chosen.find? (·.2.isNone) with
      | some (name, _) => throw ("invalid signal number or name: " ++ Text.lossyText name)
      | none => pure (chosen.getLast?.bind (·.2), o.has 'l', o.operands)
  if isName then
    if signal?.isSome then throw usage
    return .naming operands
  else if operands.isEmpty then throw usage
  else return .send (signal?.getD 15) operands

/-- The names of the signals of numbers or codes. -/
def signalNames : List Bytes → Except String String
  | [] => .ok ("0\n" ++ String.join ((signals.drop 1).map (·.2 ++ "\n")))
  | code :: _ =>
    match Tool.natOf? code with
    | none => .error ("Illegal number: " ++ Text.lossyText code)
    | some n =>
      match (if 0 < n then signalName? (if 128 < n then n - 128 else n) else none) with
      | some name => .ok (name ++ "\n")
      | none => .error ("invalid signal number or exit status: " ++ Text.lossyText code)

/-- The settings of traps after an action for signals; no action restores what signals do. -/
def withTraps (action : Option Bytes) (signals : List Nat) (traps : List (Nat × Bytes)) :
    List (Nat × Bytes) :=
  let others := traps.filter (fun entry => !signals.contains entry.1)
  match action with
  | some action => signals.map (fun n => (n, action)) ++ others
  | none => others

/-- The settings of traps that operands ask for, up to one that names no signal. -/
def trapsOf (operands : List Bytes) (traps : List (Nat × Bytes)) :
    List (Nat × Bytes) × Option Bytes :=
  let (action, names) := match operands with
    | first :: second :: rest =>
      if (Tool.natOf? first).any (· < 65) then (none, operands)
      else (if first = [byte '-'] then none else some first, second :: rest)
    | operands => (none, operands)
  let known := names.takeWhile (fun name => (signalNamed? 0 name).isSome)
  (withTraps action (known.filterMap (signalNamed? 0)) traps, names[known.length]?)

/-- The commands that set all traps again. -/
def trapListing (traps : List (Nat × Bytes)) : Bytes :=
  signals.flatMap fun (number, name) =>
    (traps.lookup number).elim [] fun action =>
      bytesOf "trap -- " ++ Quoting.again action ++ bytesOf (" " ++ name ++ "\n")

end RubySupervisor.Shell
