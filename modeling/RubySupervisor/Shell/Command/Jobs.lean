import RubySupervisor.Shell.Command.Variables
import RubySupervisor.Shell.Signal

/-!
# Commands on jobs and signals

A shell waits for its jobs, shows them, and keeps actions for signals. A job is named by its number
as a process or by its place among the jobs.
-/

namespace RubySupervisor.Shell

namespace State

/-- The jobs of this process with their places, the last one first. -/
def own (s : State) : List (Nat × Job) :=
  s.ownJobs.filterMap fun (place, number) =>
    (s.jobs.find? (·.number = number)).map (place, ·)

/-- The job of this process that a text names by its place, or what is wrong with the text. -/
def jobAt (s : State) (text : String) : Except String Job :=
  let found := match text.toList with
    | ['%'] => s.own.head?
    | ['%', '%'] => s.own.head?
    | ['%', '+'] => s.own.head?
    | ['%', '-'] => s.own.tail.head?
    | '%' :: digits => (Text.numeral? digits).bind (fun n => s.own.find? (·.1 = n))
    | _ => none
  found.elim (.error ("No such job: " ++ text)) (fun entry => .ok entry.2)

/-- Whether a job is not done. -/
def isRunning (s : State) (j : Job) : Bool := j.done?.all (s.elapsed < ·)

/-- Whether a process can still be sent signals. One that is done can until its end is noticed. -/
def isThere (j : Job) : Bool := !j.isNoticed

/-- The places of the jobs with a new one, which takes the first place that is free. A job that is
done leaves its place when somebody has waited for it. -/
def placing (s : State) (number : Nat) : List (Nat × Nat) :=
  let kept := (s.own.filter (fun (_, j) => s.isRunning j || !j.isAwaited)).map
    (fun (place, j) => (place, j.number))
  let free := ((List.range (kept.length + 1)).map (· + 1)).find?
    (fun place => !(kept.map Prod.fst).contains place)
  (free.getD 1, number) :: kept

/-- The state in which somebody has waited for jobs. -/
def awaited (s : State) (numbers : List Nat) : State :=
  { s with jobs := s.jobs.map (fun j =>
    if numbers.contains j.number then { j with isAwaited := true, isNoticed := true } else j) }

/-- The state behind waiting for a process that is no job: the ends of jobs are noticed meanwhile. -/
def reaped (s : State) : State :=
  if s.ownJobs.isEmpty then s
  else
    { s with jobs := s.jobs.map (fun j =>
      if (s.ownJobs.any (·.2 = j.number)) && !s.isRunning j then { j with isNoticed := true }
      else j) }

end State

/-- Who is sent a signal. -/
inductive SignalTarget where
  /-- The process itself. -/
  | here
  | job (number : Nat)
  /-- A process that ignores what is sent. -/
  | indifferent
  | nobody
  deriving DecidableEq, Repr

/-- The target that a text names, or what is wrong with the text. A job has no group of its own, so
that nobody is reached by its place or by the number of a group. -/
def State.target (s : State) (text : Bytes) : Except String SignalTarget :=
  let shown := Text.lossyText text
  match shown.toList with
  | '%' :: _ => (s.jobAt shown).map (fun _ => .nobody)
  | '-' :: digits =>
    if (Text.numeral? digits).isSome then .ok .nobody
    else .error ("Illegal number: " ++ String.ofList digits)
  | digits =>
    if (Text.numeral? digits).isNone then .error ("Illegal number: " ++ shown)
    else if shown = processNumber then .ok .here
    else if shown = parentNumber then .ok .indifferent
    else
      match s.jobs.find? (fun j => jobText j.number = shown) with
      | some j => .ok (if State.isThere j then .job j.number else .nobody)
      | none => .ok .nobody

/-- Says that a signal ended a program. -/
def complainOfSignal (signal : Nat) : Run Unit :=
  (obituaries.lookup signal).forM (fun text => Run.writeErrors (text ++ "\n"))

/-- Waits for one job. -/
def awaitJob (j : Job) : Run Unit := do
  Run.awaitJobs [j]
  modify (·.awaited [j.number])
  if !j.isNoticed then j.signal?.forM complainOfSignal
  Run.setStatus j.status

/-- Waits for all jobs, or up to a signal. -/
def awaitAll : Run Unit := do
  let s ← get
  let jobs := s.own.map Prod.snd
  match (s.pending.map Prod.fst).min? with
  | some moment =>
    Run.awaitJobs (jobs.filter (·.done?.any (· ≤ moment)))
    Run.pass (moment - (← get).elapsed)
  | none =>
    Run.awaitJobs jobs
    modify (·.awaited (jobs.map Job.number))
  Run.setStatus 0

/-- Waits for jobs. -/
def awaitNamed (arguments : List Bytes) : Run Unit :=
  Run.withOptions "" "" arguments fun o => do
    if o.operands.isEmpty then awaitAll
    else
      (Tool.texts o.operands).forM fun target => do
        let s ← get
        if target.toList.head? = some '%' then
          match s.jobAt target with
          | .ok j => awaitJob j
          | .error complaint => Run.fail complaint
        else if (Text.numeral? target.toList).isNone then Run.fail ("Illegal number: " ++ target)
        else
          match s.own.find? (fun entry => jobText entry.2.number = target) with
          | some (_, j) => awaitJob j
          | none => Run.setStatus 127

/-- What has become of a job. -/
def State.condition (s : State) (j : Job) : String :=
  if s.isRunning j then "Running"
  else
    match j.signal?.bind (fun n => obituaries.lookup n) with
    | some text => text
    | none => if j.status = 0 then "Done" else "Done(" ++ Text.natText j.status ++ ")"

/-- Shows the jobs, the last one first. -/
def showJobs (arguments : List Bytes) : Run Unit :=
  Run.withOptions "lp" "" arguments fun o => do
    let s ← get
    let lines := s.own.mapIdx fun i (place, j) =>
      let running := (s.own.take i).filter (fun other => s.isRunning other.2)
      let mark := if running.isEmpty then '+' else if running.length = 1 then '-' else ' '
      let process := jobText j.number
      if o.last? ['l', 'p'] = some 'p' then process
      else
        let text := "[" ++ Text.natText place ++ "] " ++ String.singleton mark ++ " "
          ++ (if o.has 'l' then process ++ " " else "") ++ s.condition j
        text ++ String.ofList (List.replicate (33 - text.length) ' ')
    let running := s.own.filter (fun entry => s.isRunning entry.2)
    set { s with ownJobs := running.map (fun (entry : Nat × Job) => (entry.1, entry.2.number)) }
    Run.write (bytesOf (String.join (lines.map (· ++ "\n"))))
    Run.setStatus 0

/-- Would bring a job to the front, which only a shell for people can do. -/
def bringJob (arguments : List Bytes) : Run Unit :=
  Run.withOptions "" "" arguments fun o => do
    match o.operands.head?.map Text.lossyText, (← get).own with
    | none, [] => Run.fail "No current job"
    | none, _ => Run.fail "job (null) not created under job control"
    | some name, _ =>
      match (← get).jobAt name with
      | .ok _ => Run.fail ("job " ++ name ++ " not created under job control")
      | .error complaint => Run.fail complaint

/-- Keeps actions for signals, or lists them. -/
def keepTraps (arguments : List Bytes) : Run Unit :=
  Run.withOptions "" "" arguments fun o => do
    let s ← get
    if o.operands.isEmpty then
      Run.write (trapListing s.traps)
      Run.setStatus 0
    else
      let (traps, wrong?) := trapsOf o.operands s.traps
      set { s with traps }
      wrong?.forM (fun name => Run.writeErrors ("trap: " ++ Text.lossyText name ++ ": bad trap\n"))
      Run.setStatus (if wrong?.isSome then 1 else 0)

end RubySupervisor.Shell
