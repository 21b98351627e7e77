import RubySupervisor.Host.Call
import RubySupervisor.Process.Child

/-!
# Running programs to their end

Commands, debuggees and activation probes are child processes whose input is empty. Each is found,
started and run on the files as they are; the answer comes with what the process does besides. A
process that is not at its end when its time is over counts as timed out.
-/

namespace RubySupervisor.Execution

/-- The child process of a command; the program is looked up on the command's own search path. -/
def childOf (files : FileTree) (c : Command) : Except ServerError Child :=
  match files.which c.program (c.environment.find? "PATH") c.directory with
  | .error failure => .error (.spawnFailed c.program failure.message)
  | .ok program =>
    let child : Child := ⟨program, c.arguments, c.environment, c.directory⟩
    match child.refusal? files with
    | some error => .error (.io (.file error))
    | none => .ok child

/-- What running a program does besides giving an answer. -/
structure Effect where
  /-- The files as it leaves them. -/
  files : FileTree
  /-- What it writes to the output of the process that runs it. -/
  above : Shell.Bytes
  /-- The nanoseconds until its end, or until nobody waits for it any more. -/
  elapsed : Nat

/-- A program that does not run does nothing. -/
def Effect.none (files : FileTree) : Effect := ⟨files, [], 0⟩

/-- Runs a command. -/
def command (files : FileTree) (c : Command) : Except ServerError CommandOutput × Effect :=
  match childOf files c with
  | .error error => (.error error, .none files)
  | .ok child =>
    let r := child.run files { ChildInput.nothing with deadline := c.timeout.map Span.nanoseconds }
    let answer :=
      match r.ending with
      | .ended status =>
        if c.timeout = some ⟨0⟩ then .error (.timedOut c.line ⟨0⟩)
        else .ok ⟨status.code?, Text.lossyText r.output, Text.lossyText r.errors⟩
      | _ => .error (.timedOut c.line (c.timeout.getD ⟨0⟩))
    let limit := (c.timeout.map Span.nanoseconds).getD r.lasting
    (answer, ⟨r.files, r.above, if r.ending = .busy then limit else min limit r.lasting⟩)

/-- The lines of an error stream; a line that is no text ends what is known. -/
def linesOf (s : Shell.Bytes) : List (Option String) :=
  (Shell.Tool.splitLines s).1.map fun line =>
    let line := if line.getLast? = some 13 then line.dropLast else line
    Text.ofUtf8? ⟨line.toArray⟩

/-- Runs a debuggee as far as it comes by itself. Its end is noticed behind the lines that it has
ended itself; what it leaves behind in the background may write more of them. -/
def debuggee (files : FileTree) (c : Command) : Except ServerError DebuggeeRun × FileTree :=
  match childOf files c with
  | .error error => (.error error, files)
  | .ok child =>
    let r := child.run files { ChildInput.nothing with awaited := [1] }
    let exit : ExitStatus :=
      match r.ending with
      | .ended status => status
      | _ => .signal 9
    let lines := linesOf r.errors
    let ended := r.errorsByEnd.count 10
    let noticed := if !r.isAlive && ended < lines.length then some ended else none
    (.ok ⟨lines, exit, noticed⟩, r.files)

/-- The process of a program that is given by a path; one without a separator is looked up. -/
def started (files : FileTree) (child : Child) : Except FileError Child :=
  if child.program.text.toList.contains '/' then
    match child.refusal? files with
    | some error => .error error
    | none => .ok child
  else child.lookedUp files

/-- Asks an interpreter about itself. -/
def activation (files : FileTree) (rubyBin directory : Path) (environment : Dict String) :
    Except RubyError Activation × Effect :=
  let ruby := rubyBin.join "ruby"
  let fail (reason : ActivationFailure) : Except RubyError Activation :=
    .error (.activationFailed ruby reason)
  match started files ⟨ruby, Activation.arguments, environment, directory⟩ with
  | .error error => (fail (.notStarted error), .none files)
  | .ok child =>
    let r := child.run files .nothing
    let errors := Text.lossyText r.errors
    let answer :=
      match r.ending with
      | .ended (.code 0) => (Activation.ofOutput errors).mapError (.activationFailed ruby)
      | .ended status => fail (.exited status errors)
      | _ => fail (.exited (.signal 9) errors)
    (answer, ⟨r.files, r.above, r.lasting⟩)

end RubySupervisor.Execution
