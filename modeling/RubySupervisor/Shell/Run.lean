import RubySupervisor.Shell.State

/-!
# The work of a shell

The work of a shell changes its state and may leave its normal course: the process ends, or the
running function or loop does, or there is no end to be seen.
-/

namespace RubySupervisor.Shell

/-- How a shell leaves its normal course. -/
inductive Halt where
  | exited (code : Nat)
  /-- It has given up with a complaint. -/
  | failed
  | killed (signal : Nat)
  /-- It waits for input that has not arrived. -/
  | starved
  /-- It does not end in the time that it has. -/
  | endless
  | returning
  | breaking (loops : Nat)
  | continuing (loops : Nat)
  deriving DecidableEq, Repr

/-- A part of the work of a shell. -/
abbrev Run (α : Type) := ExceptT Halt (StateM State) α

namespace Run

/-- Writes to the output. -/
def write (bytes : Bytes) : Run Unit :=
  modify fun s =>
    if s.output.refusal?.isSome && !bytes.isEmpty then { s with spilled := true }
    else s.written s.output bytes

/-- Writes to the errors. -/
def writeErrors (text : String) : Run Unit := modify (fun s => s.written s.errors (bytesOf text))

/-- Writes a line to the errors, behind the name of the shell, the line of the running command, and
the command whose text is running. -/
def complain (message : String) : Run Unit :=
  modify (fun s => s.written s.errors
    (s.name ++ bytesOf (": " ++ Text.natText s.line ++ ": " ++ s.speaker.elim "" (· ++ ": ")
      ++ message ++ "\n")))

/-- Sets the code of the last command. -/
def setStatus (code : Nat) : Run Unit := modify (fun s => { s with status := code % 256 })

/-- Ends the process in an orderly way. -/
def exit {α : Type} (code : Nat) : Run α := throw (.exited (code % 256))

/-- Gives up with a complaint, which ends the process unless it is about a command that may fail. -/
def fail {α : Type} (message : String) : Run α := do
  complain message
  throw .failed

/-- Gives up because of a fault in the running text. -/
def refuse {α : Type} (fault : Fault) : Run α := do
  modify (fun s => { s with line := fault.lineEnds.getD s.lineEnds + 1 - fault.place })
  fail ("Syntax error: " ++ fault.cause.message)

/-- Gives a value to a variable, unless it is no name or keeps its value. -/
def assign (name : String) (value : Bytes) : Run Unit := do
  if !isName name.toList then fail (name ++ ": bad variable name")
  if (← get).fixed.contains name then fail (name ++ ": is read only")
  modify (·.assign name value)

/-- Lets time pass, as far as the process has it. -/
def pass (n : Nat) : Run Unit := do
  if n = 0 then return
  modify (fun s => { s with elapsed := s.elapsed + n })
  let s ← get
  if s.deadline.any (· ≤ s.elapsed) then throw .endless

/-- Does something, and restores parts of the state however it ends. -/
def restoring {α : Type} (restore : State → State → State) (act : Run α) : Run α := do
  let before ← get
  try
    let a ← act
    modify (restore before)
    return a
  catch halt =>
    modify (restore before)
    throw halt

/-- Restores what belongs to one process. -/
def restoreProcess (before after : State) : State :=
  { before with
    files := after.files, buffers := after.buffers
    inflows := after.inflows.extract 0 before.inflows.size
    elapsed := after.elapsed, status := after.status
    jobs := after.jobs, jobCount := after.jobCount, pending := after.pending }

/-- Restores where input comes from. -/
def restoreInput (before after : State) : State := { after with inflow := before.inflow }

/-- Waits until jobs are done. -/
def awaitJobs (jobs : List Job) : Run Unit := do
  let s ← get
  let latest := (jobs.filterMap (·.done?)).foldl max s.elapsed
  if jobs.all (·.done?.isSome) then pass (latest - s.elapsed)
  else
    let woken := ((jobs.filterMap Job.wakes?).min?).getD s.elapsed
    set { s with elapsed := max s.elapsed woken }
    throw .endless

/-- Does something in a process of its own; an orderly end is that process's end. Signals that are
ignored stay so. -/
def isolated (act : Run Unit) : Run Unit :=
  restoring restoreProcess do
    modify (fun s => { s with
      traps := s.traps.filter (·.2.isEmpty), ownJobs := [], isApart := true })
    try act
    catch
      | .exited code => setStatus code
      | .failed => setStatus 2
      | .returning => pure ()
      | .breaking _ => pure ()
      | .continuing _ => pure ()
      | halt => throw halt

/-- Does something whose end somebody asks about. -/
def asking (act : Run Unit) : Run Unit :=
  restoring (fun before after => { after with asked := before.asked }) do
    modify (fun s => { s with asked := true })
    act

/-- Does the work of a command of the shell. The failure of a special one ends the shell. -/
def asCommand (isSpecial : Bool) (name : String) (act : Run Unit) : Run Unit :=
  restoring (fun before after => { after with speaker := before.speaker }) do
    modify (fun s => { s with speaker := some name, spilled := false })
    try
      act
      let s ← get
      if s.spilled then
        complain (name ++ ": I/O error")
        modify (fun s => { s with spilled := false, status := s.status ||| 1 })
    catch
      | .failed => if isSpecial then throw .failed else setStatus 2
      | halt => throw halt

/-- Ends the shell after a failure that nobody asks about, if it is to end then. -/
def check : Run Unit := do
  let s ← get
  if s.modes.contains .errexit && !s.asked && s.status ≠ 0 then exit s.status

/-- Does something and collects what it writes, up to the end of the last job that can write
there. -/
def collecting {α : Type} (act : Run α) : Run (List Portion × α) := do
  let n := (← get).buffers.size
  let a ← restoring (fun before after => { after with output := before.output }) do
    modify (fun s => { s with buffers := s.buffers.push [], output := .buffer n })
    act
  awaitJobs ((← get).holders n)
  let s ← get
  let jobs := s.jobs.map (fun (j : Job) => { j with buffers := j.buffers.filter (· ≠ n) })
  set { s with buffers := s.buffers.extract 0 n, jobs }
  return (s.portions n, a)

/-- What becomes of somebody who needs more input than has arrived. -/
def starve {α : Type} : Run α := do
  throw (if (← get).source = .zeros then .endless else .starved)

end Run

end RubySupervisor.Shell
