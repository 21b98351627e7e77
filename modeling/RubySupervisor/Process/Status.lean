import RubySupervisor.Text.Digit

/-!
# How a process ended

A process ends with an exit code from 0 to 255 or by a signal.
-/

namespace RubySupervisor

/-- How a process ended. -/
inductive ExitStatus where
  | code (n : Int)
  | signal (number : Nat)
  deriving DecidableEq, Repr

namespace ExitStatus

/-- The exit code, none after a signal. -/
def code? : ExitStatus → Option Int
  | code n => some n
  | signal _ => none

/-- Whether the process ended with code zero. -/
def isSuccess (s : ExitStatus) : Bool := s = code 0

/-- The name of a signal, in parentheses after a blank. -/
def signalName (n : Nat) : String :=
  let names := ["SIGHUP", "SIGINT", "SIGQUIT", "SIGILL", "SIGTRAP", "SIGABRT", "SIGBUS", "SIGFPE",
    "SIGKILL", "SIGUSR1", "SIGSEGV", "SIGUSR2", "SIGPIPE", "SIGALRM", "SIGTERM", "SIGSTKFLT",
    "SIGCHLD", "SIGCONT", "SIGSTOP", "SIGTSTP", "SIGTTIN", "SIGTTOU", "SIGURG", "SIGXCPU",
    "SIGXFSZ", "SIGVTALRM", "SIGPROF", "SIGWINCH", "SIGIO", "SIGPWR", "SIGSYS"]
  match n with
  | 0 => ""
  | n + 1 =>
    match names[n]? with
    | some name => " (" ++ name ++ ")"
    | none => ""

/-- The wording of the status. -/
def message : ExitStatus → String
  | code n => "exit status: " ++ Text.intText n
  | signal n => "signal: " ++ Text.natText n ++ signalName n

/-- The wording of an optional exit code. -/
def codeText : Option Int → String
  | some n => "Some(" ++ Text.intText n ++ ")"
  | none => "None"

end ExitStatus

end RubySupervisor
