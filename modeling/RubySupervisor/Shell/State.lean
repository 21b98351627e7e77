import RubySupervisor.Shell.Printing
import RubySupervisor.Shell.Script
import RubySupervisor.Shell.Token

/-!
# The state of a shell

What a running shell holds. Output goes to numbered buffers: the first two are those of the
process, the third is the output of the process that has started it, and further ones hold what
expansions and pipelines collect. What is written carries the moment of the writing, because a
command in the background is run to its end before the shell goes on, and their outputs are put in
order afterwards. Input comes from numbered inflows, so that all who read from one of them take from
the same bytes.

A shell can be asked to do more than its work. A mode in which it does so has a name, and most have
a letter; the modes that are on are kept as a set.
-/

namespace RubySupervisor.Shell

/-! ## Modes -/

/-- What a shell can be asked to do beside its work. -/
inductive Mode where
  /-- A failure that nobody asks about ends the shell. -/
  | errexit
  /-- A pattern stands for itself. -/
  | noglob
  | ignoreeof
  | interactive
  | monitor
  /-- Commands are read and not run. -/
  | noexec
  | stdin
  /-- Commands are shown before they are run. -/
  | xtrace
  | verbose
  | vi
  | emacs
  /-- A redirection empties no file. -/
  | noclobber
  /-- A variable that is given a value is exported. -/
  | allexport
  | notify
  /-- The use of a variable without a value ends the shell. -/
  | nounset
  | privileged
  | nolog
  | debug
  deriving DecidableEq, Repr

namespace Mode

/-- The modes with their names and letters, in the order in which a shell lists them. -/
def all : List (Mode × String × Option Char) :=
  [(errexit, "errexit", some 'e'), (noglob, "noglob", some 'f'), (ignoreeof, "ignoreeof", some 'I'),
    (interactive, "interactive", some 'i'), (monitor, "monitor", some 'm'),
    (noexec, "noexec", some 'n'), (stdin, "stdin", some 's'), (xtrace, "xtrace", some 'x'),
    (verbose, "verbose", some 'v'), (vi, "vi", some 'V'), (emacs, "emacs", some 'E'),
    (noclobber, "noclobber", some 'C'), (allexport, "allexport", some 'a'),
    (notify, "notify", some 'b'), (nounset, "nounset", some 'u'),
    (privileged, "privileged", some 'p'), (nolog, "nolog", none), (debug, "debug", none)]

/-- The mode of a letter. -/
def ofLetter? (letter : Char) : Option Mode :=
  (all.find? (fun entry => entry.2.2 = some letter)).map (·.1)

/-- The mode of a name. -/
def ofName? (name : String) : Option Mode :=
  (all.find? (fun entry => entry.2.1 = name)).map (·.1)

theorem ofName?_of_mem {entry : Mode × String × Option Char} (h : entry ∈ all) :
    ofName? entry.2.1 = some entry.1 := by
  revert entry
  decide

end Mode

/-- The modes that are on. -/
abbrev Modes := List Mode

namespace Modes

/-- The modes after turning one on or off. -/
def turn (modes : Modes) (on : Bool) (mode : Mode) : Modes :=
  let others := modes.filter (· ≠ mode)
  if on then mode :: others else others

theorem mem_turn (modes : Modes) (on : Bool) (mode : Mode) :
    mode ∈ modes.turn on mode ↔ on = true := by
  cases on <;> simp [turn]

/-- The letters of the modes that are on, the last one of the list first. -/
def letters (modes : Modes) : String :=
  String.ofList ((Mode.all.reverse.filter (fun entry => modes.contains entry.1)).filterMap (·.2.2))

/-- All modes with their settings, for people. -/
def table (modes : Modes) : String :=
  "Current option settings\n" ++ String.join (Mode.all.map fun (mode, name, _) =>
    name ++ String.ofList (List.replicate (16 - name.length) ' ')
      ++ (if modes.contains mode then "on" else "off") ++ "\n")

/-- The commands that restore all settings. -/
def restoring (modes : Modes) : String :=
  String.join (Mode.all.map fun (mode, name, _) =>
    "set " ++ (if modes.contains mode then "-" else "+") ++ "o " ++ name ++ "\n")

end Modes

/-! ## States -/

/-- What can be read from somewhere. -/
structure Inflow where
  /-- What has arrived and is not read. -/
  bytes : Bytes
  source : Source

/-- Bytes that were written at one moment. -/
structure Portion where
  moment : Nat
  /-- The number of the job in the background that wrote them; zero for the shell itself. -/
  job : Nat
  bytes : Bytes

/-- A command in the background. -/
structure Job where
  number : Nat
  /-- The buffers that it can write to. Nobody sees their end before the job is done. -/
  buffers : List Nat
  /-- The moment at which it is done, if that is in the time that the shell has. -/
  done? : Option Nat
  /-- The moment at which it goes on, if it is not done and ever goes on. -/
  wakes? : Option Nat
  /-- The code of its end. -/
  status : Nat
  /-- The signal that ended it. -/
  signal? : Option Nat
  /-- Somebody has waited for it. -/
  isAwaited : Bool := false
  /-- The shell knows that it is done. -/
  isNoticed : Bool := false

/-- What a running shell holds. -/
structure State where
  files : FileTree
  directory : Path
  /-- The directory as it was entered, with its links. -/
  entered : Path := directory
  bindings : Dict Bytes
  /-- The names of exported variables, each once, in the order in which they came to be so. -/
  exported : List String
  functions : List (String × Script)
  /-- The name under which the shell runs. -/
  name : Bytes
  arguments : List Bytes
  /-- The code of the last command. -/
  status : Nat
  /-- All that was ever opened for reading. -/
  inflows : Array Inflow
  /-- The number of the inflow that is the input. -/
  inflow : Nat := 0
  /-- The inflows of descriptors above the first three. -/
  furtherInflows : List (Nat × Nat) := []
  /-- What was written, the last portion first. -/
  buffers : Array (List Portion)
  output : Sink
  errors : Sink
  /-- Where descriptors above the first three write to. -/
  further : List (Nat × Sink) := []
  /-- The output of the process that has started this one. -/
  above : Sink := .buffer 2
  /-- The nanoseconds that have passed. -/
  elapsed : Nat
  /-- The time that the process has. -/
  deadline : Option Nat
  /-- The line of the running command. -/
  line : Nat := 1
  /-- The number of line ends in the running text. -/
  lineEnds : Nat := 0
  /-- The number of line ends behind the line of commands that is running. -/
  unread : Nat := 0
  /-- The command whose text is running, if it is not the shell's own text. -/
  speaker : Option String := none
  /-- The variables that keep their values. -/
  fixed : List String := []
  /-- The code of the last script that was expanded. -/
  inner : Nat := 0
  modes : Modes := []
  /-- Somebody asks how the running command ends. -/
  asked : Bool := false
  /-- The number of loops around the running command. -/
  loops : Nat := 0
  /-- The number of running functions. -/
  calls : Nat := 0
  /-- The values to be restored at the end of the running function, if one is running. -/
  kept : Option (List (String × Option Bytes)) := none
  /-- What to do at signals, and at the end under the number zero. -/
  traps : List (Nat × Bytes) := []
  /-- The code of the command behind which the running trap was sprung, if one is running. -/
  trapped : Option Nat := none
  /-- All commands that were put into the background. -/
  jobs : List Job := []
  /-- How many there are. -/
  jobCount : Nat := 0
  /-- The number of the job that is running, or zero. -/
  job : Nat := 0
  /-- The jobs of this process by their places and numbers, the last one first. -/
  ownJobs : List (Nat × Nat) := []
  /-- The number of the job that was started last. -/
  lastJob? : Option Nat := none
  /-- How many bytes a program writes that would go on for ever. -/
  flood : Nat := 65536
  /-- The signals that jobs have sent to the shell, with their moments. -/
  pending : List (Nat × Nat) := []
  /-- A process that the shell has made of itself. -/
  isApart : Bool := false
  /-- The process reads no more from where its input came from at first. -/
  inputShut : Bool := false
  /-- Something was written where nothing can be written. -/
  spilled : Bool := false
  /-- The number of the argument in which the next option is looked for. -/
  optionWord : Nat := 1
  /-- The number of characters in the argument before it that have been looked at, if some of them
  are left. -/
  optionPlace : Option Nat := none
  /-- The permissions that new files do not get. -/
  mask : Nat := 0o022
  /-- The texts that names stand for at the front of a command. -/
  aliases : List (String × Bytes) := []
  /-- The programs that have been found along the search path, and where. -/
  tracked : List (String × String) := []

/-- The number of every process that a shell runs in. -/
def processNumber : String := "4243"

/-- The number of the process that has started it. -/
def parentNumber : String := "4242"

/-- The path under which a process finds the output of the one that has started it. -/
def pathAbove : String := "/proc/" ++ parentNumber ++ "/fd/1"

/-- The number by which a job is known to a shell. -/
def jobText (number : Nat) : String := Text.natText (4243 + number)

namespace State

/-- The value of a parameter. -/
def value? (s : State) (name : String) : Option Bytes :=
  match name with
  | "@" => some (Printing.joined s.arguments)
  | "*" =>
    let separators := (s.bindings.find? "IFS").getD (bytesOf " ")
    some ((separators.take 1).intercalate s.arguments)
  | "#" => some (bytesOf (Text.natText s.arguments.length))
  | "?" => some (bytesOf (Text.natText s.status))
  | "$" => some (bytesOf processNumber)
  | "-" => some (bytesOf s.modes.letters)
  | "!" => s.lastJob?.map (fun n => bytesOf (jobText n))
  | "0" => some s.name
  | name =>
    match Text.numeral? name.toList with
    | some n => s.arguments[n - 1]?
    | none => s.bindings.find? name

/-- The value of a parameter whose arguments may stay apart: a zero byte is between any two. -/
def spread? (s : State) (quotes : Bool) (name : String) : Option Bytes :=
  if name = "@" || name = "*" && !quotes then some ([0].intercalate s.arguments)
  else s.value? name

/-- The state with a value for a variable. The search path and the place of the next option are
kept elsewhere too. -/
def assign (s : State) (name : String) (value : Bytes) : State :=
  let s := { s with bindings := s.bindings.insert name value }
  let s := if s.modes.contains .allexport && !s.exported.contains name then
      { s with exported := s.exported ++ [name] } else s
  match name with
  | "OPTIND" => { s with optionWord := max 1 ((Tool.natOf? value).getD 1), optionPlace := none }
  | "PATH" => { s with tracked := [] }
  | _ => s

/-- The state with values for variables. -/
def assignAll (s : State) (values : List (String × Bytes)) : State :=
  values.foldl (fun s (name, value) => s.assign name value) s

/-- The state in which a program is known to be at a path, unless its name is a path. -/
def tracking (s : State) (name path : String) : State :=
  if name.toList.contains '/' then s
  else { s with tracked := (name, path) :: s.tracked.filter (·.1 ≠ name) }

/-- The state without variables. -/
def forget (s : State) (names : List String) : State :=
  { s with
    bindings := s.bindings.filter (fun entry => !names.contains entry.1)
    exported := s.exported.filter (fun name => !names.contains name) }

/-- The place of a variable in the order in which programs are given variables: thirty-nine shelves,
one after another. -/
def shelf (name : String) : Nat :=
  let bytes := bytesOf name
  (bytes.foldl (fun n b => n + b.toNat) (((bytes.head?).map (16 * ·.toNat)).getD 0)) % 39

/-- The variables that programs are run with: shelf by shelf, and on each shelf in the order in
which they came to be exported. -/
def environment (s : State) : Dict Bytes :=
  let entries := s.exported.filterMap (fun name => (s.bindings.find? name).map (name, ·))
  entries.mergeSort (fun a b => shelf a.1 ≤ shelf b.1)

/-- The state with names among those of exported variables. -/
def withExported (s : State) (names : List String) : State :=
  let add (old : List String) (name : String) : List String :=
    if old.contains name then old else old ++ [name]
  { s with exported := names.foldl add s.exported }

/-- The path that a text names from the directory of the shell; an empty one names nothing. -/
def path (s : State) (text : String) : Path := if text = "" then ⟨""⟩ else s.directory.join text

/-- The bytes at which values are split. -/
def separators (s : State) : Bytes := (s.bindings.find? "IFS").getD (bytesOf " \t\n")

/-- The text of a variable in a calculation; one without a value has none. -/
def shown (s : State) (name : String) : List Char :=
  (Text.lossyText ((s.value? name).getD [])).toList

/-- The state after writing to a sink. -/
def written (s : State) (sink : Sink) (bytes : Bytes) : State :=
  match sink with
  | .nowhere => s
  | .closed => s
  | .full => s
  | .buffer n =>
    if bytes.isEmpty then s
    else { s with buffers := s.buffers.modify n (⟨s.elapsed, s.job, bytes⟩ :: ·) }
  | .file p =>
    let old := ((s.files.readBytes p).toOption.map (·.toList)).getD []
    { s with files := (s.files.writeBytes p ⟨(old ++ bytes).toArray⟩).toOption.getD s.files }

/-- The inflow that is the input. -/
def feed (s : State) : Inflow := s.inflows[s.inflow]?.getD ⟨[], .file⟩

/-- What has arrived on the input and is not read. -/
def input (s : State) : Bytes := s.feed.bytes

/-- Where the input comes from. -/
def source (s : State) : Source := s.feed.source

/-- The state with other bytes left of the input. -/
def leaving (s : State) (bytes : Bytes) : State :=
  { s with inflows := s.inflows.modify s.inflow ({ · with bytes }) }

/-- The state with a new inflow and the number of that. -/
def opening (s : State) (inflow : Inflow) : State × Nat :=
  ({ s with inflows := s.inflows.push inflow }, s.inflows.size)

/-- The state with a new inflow as its input. -/
def reading (s : State) (bytes : Bytes) (source : Source) : State :=
  let (s, n) := s.opening ⟨bytes, source⟩
  { s with inflow := n }

/-- The state with another input in place of the first one. -/
def rewired (s : State) (bytes : Bytes) (source : Source) : State :=
  { s.reading bytes source with inputShut := true }

/-- The inflow that a descriptor leads to. -/
def inflowOf? (s : State) (descriptor : Nat) : Option Nat :=
  if descriptor = 0 then some s.inflow else s.furtherInflows.lookup descriptor

/-- The sink that a descriptor leads to. -/
def sinkOf? (s : State) : (descriptor : Nat) → Option Sink
  | 0 => none
  | 1 => some s.output
  | 2 => some s.errors
  | descriptor => s.further.lookup descriptor

/-- The state without what a descriptor above the first three leads to. -/
def withoutFurther (s : State) (descriptor : Nat) : State :=
  { s with
    further := s.further.filter (·.1 ≠ descriptor)
    furtherInflows := s.furtherInflows.filter (·.1 ≠ descriptor) }

/-- The state with a descriptor that leads to a sink. -/
def writingTo (s : State) (descriptor : Nat) (sink : Sink) : State :=
  match descriptor with
  | 0 => s.rewired [] .file
  | 1 => { s with output := sink }
  | 2 => { s with errors := sink }
  | descriptor =>
    let s := s.withoutFurther descriptor
    { s with further := (descriptor, sink) :: s.further }

/-- The state with a descriptor that leads to an inflow. -/
def readingFrom (s : State) (descriptor inflow : Nat) : State :=
  match descriptor with
  | 0 => { s with inflow, inputShut := true }
  | 1 => { s with output := .closed }
  | 2 => { s with errors := .closed }
  | descriptor =>
    let s := s.withoutFurther descriptor
    { s with furtherInflows := (descriptor, inflow) :: s.furtherInflows }

/-- The state with a descriptor that leads nowhere. -/
def closing (s : State) (descriptor : Nat) : State :=
  if descriptor < 3 then s.writingTo descriptor .closed else s.withoutFurther descriptor

/-- The state with a descriptor that leads where another one does, if that leads somewhere. -/
def duplicating (s : State) (descriptor other : Nat) : Option State :=
  match s.inflowOf? other, s.sinkOf? other with
  | none, none => none
  | some inflow, none => some (s.readingFrom descriptor inflow)
  | none, some sink => some (s.writingTo descriptor sink)
  | some inflow, some sink =>
    let after := s.readingFrom descriptor inflow
    some (if descriptor = 0 then after
      else if descriptor < 3 then after.writingTo descriptor sink
      else { after with further := (descriptor, sink) :: after.further })

/-- The state with a descriptor that leads where it led before. -/
def restoringDescriptor (before after : State) (descriptor : Nat) : State :=
  match descriptor with
  | 0 => { after with inflow := before.inflow, inputShut := before.inputShut }
  | 1 => { after with output := before.output }
  | 2 => { after with errors := before.errors }
  | descriptor =>
    let after := after.withoutFurther descriptor
    { after with
      further := before.further.filter (·.1 = descriptor) ++ after.further
      furtherInflows := before.furtherInflows.filter (·.1 = descriptor) ++ after.furtherInflows }

/-- Where the descriptors lead to that the process can write to. -/
def sinks (s : State) : List Sink := s.output :: s.errors :: s.further.map Prod.snd

/-- What was written to a buffer, in the order of the moments. -/
def portions (s : State) (n : Nat) : List Portion :=
  (s.buffers[n]?.getD []).reverse.mergeSort (fun a b => a.moment ≤ b.moment)

/-- The bytes that were written to a buffer. -/
def content (s : State) (n : Nat) : Bytes := (s.portions n).flatMap Portion.bytes

/-- The jobs that can write to a buffer. -/
def holders (s : State) (n : Nat) : List Job := s.jobs.filter (·.buffers.contains n)

/-- The state with a job ended by a signal, unless it was done before: what it would have written
later is not written. -/
def endJob (s : State) (number signal : Nat) : State :=
  let isRunning (j : Job) : Bool := j.number = number && j.done?.all (s.elapsed < ·)
  if !s.jobs.any isRunning then s
  else
    { s with
      jobs := s.jobs.map (fun j =>
        if isRunning j then
          { j with
            done? := some s.elapsed
            wakes? := none
            status := 128 + signal
            signal? := some signal }
        else j)
      buffers := s.buffers.map (·.filter (fun p => p.job ≠ number || p.moment ≤ s.elapsed)) }

end State

end RubySupervisor.Shell
