import RubySupervisor.Shell.Arithmetic
import RubySupervisor.Shell.Command
import RubySupervisor.Shell.Wrapper

/-!
# Running shell scripts

Scripts are run command by command; `fuel` bounds the depth of the evaluation, and a script that
exceeds it counts as one that does not end. Programs are files: tools, scripts with an interpreter
in their first line, and plain shell scripts.
-/

namespace RubySupervisor.Shell

/-- How many functions may run inside one another. -/
def deepest : Nat := 1000

/-- The bytes that a command has to have written if it is believed to write for ever. -/
def leastFlood : Nat := 4096

/-- The bytes that a command is made to write at most if it writes for ever. -/
def greatestFlood : Nat := 4194304

/-- The first moment at which something is written behind so many bytes, and later than those. -/
def later? : (taken : Nat) → List Portion → Option Nat
  | _, [] => none
  | _, [_] => none
  | taken, p :: q :: rest =>
    if taken ≤ p.bytes.length && p.moment < q.moment then some q.moment
    else later? (taken - p.bytes.length) (q :: rest)

mutual

/-- The chunks of a piece. -/
def expandPiece (fuel : Nat) (piece : Piece) : Run (List Chunk) :=
  match fuel with
  | 0 => throw .endless
  | fuel + 1 => do
    let s ← get
    let requireSet (name : String) : Run Unit := do
      if s.modes.contains .nounset && (s.value? name).isNone then
        Run.fail (name ++ ": parameter not set")
    match piece with
    | .plain text => return [.fixed (bytesOf (String.ofList text)) false]
    | .quoted text => return [.fixed (bytesOf (String.ofList text)) true]
    | .parameter quotes name =>
      requireSet name
      if (name = "@" ∨ name = "*" ∧ !quotes) ∧ s.arguments.isEmpty then return []
      else return Chunk.ofValue quotes ((s.spread? quotes name).getD [])
    | .length quotes name =>
      requireSet name
      return Chunk.ofValue quotes (bytesOf (Text.natText ((s.value? name).getD []).length))
    | .fallback quotes name emptyToo kind word =>
      let found := (s.spread? quotes name).filter (fun v => !(emptyToo && v.isEmpty))
      let other : Run (List Chunk) := do
        return (← expandWord fuel word).map (if quotes then Chunk.quote else Chunk.loosen)
      match kind, found with
      | .whenSet, some _ => other
      | .whenSet, none => return if quotes then [.fixed [] true] else []
      | _, some v => return Chunk.ofValue quotes v
      | .value, none => other
      | .assign, none =>
        let v ← single fuel word
        Run.assign name v
        return Chunk.ofValue quotes v
      | .fail, none =>
        let message ← single fuel word
        let standard := if emptyToo then "parameter not set or null" else "parameter not set"
        let message := if message.isEmpty then bytesOf standard else message
        Run.fail (name ++ ": " ++ Text.lossyText message)
    | .trimmed quotes name trimming pattern =>
      requireSet name
      let pattern ← patternOf fuel pattern
      return Chunk.ofValue quotes
        (Pattern.trim trimming pattern ((s.spread? quotes name).getD []))
    | .output quotes lineEnds script =>
      let (portions, ()) ← Run.collecting <| apart fuel do
        modify (fun s => { s with asked := false, lineEnds := lineEnds.getD s.lineEnds })
        exec fuel script
      modify (fun after => { after.reaped with inner := after.status, status := s.status })
      -- a value holds no zero byte
      let bytes := (portions.flatMap Portion.bytes).filter (· ≠ 0)
      return Chunk.ofValue quotes (withoutLineEnds bytes)
    | .arithmetic quotes expression =>
      let text := Text.lossyText (← single fuel expression)
      let s ← get
      match Arithmetic.run s.shown text.toList with
      | .ok (n, given) =>
        given.reverse.forM (fun (name, n) => Run.assign name (bytesOf (Text.intText n)))
        return Chunk.ofValue quotes (bytesOf (Text.intText n))
      | .error fault =>
        Run.fail (fault.message text)
    | .malformed => Run.fail "Bad substitution"

/-- The chunks of a word. -/
def expandWord (fuel : Nat) (word : Word) : Run (List Chunk) :=
  match fuel with
  | 0 => throw .endless
  | fuel + 1 =>
    match word with
    | [] => return []
    | piece :: rest => do
      let chunks ← expandPiece fuel piece
      return chunks ++ (← expandWord fuel rest)

/-- The bytes of a word that is not split. -/
def single (fuel : Nat) (word : Word) : Run Bytes :=
  match fuel with
  | 0 => throw .endless
  | fuel + 1 => do
    let s ← get
    let chunks ← expandWord fuel (withHome s word)
    return (Chunk.unsplit (← get).separators chunks).map Prod.fst

/-- The pattern that a word describes. -/
def patternOf (fuel : Nat) (word : Word) : Run (List Pattern.Element) :=
  match fuel with
  | 0 => throw .endless
  | fuel + 1 => do
    let chunks ← expandWord fuel word
    return Pattern.ofBytes (Chunk.unsplit (← get).separators chunks)

/-- The fields of words. -/
def fields (fuel : Nat) (words : List Word) : Run (List Bytes) :=
  match fuel with
  | 0 => throw .endless
  | fuel + 1 =>
    match words with
    | [] => return []
    | word :: rest => do
      let s ← get
      let chunks ← expandWord fuel (withHome s word)
      let s ← get
      let split := Chunk.fields s.separators chunks
      let found := if s.modes.contains .noglob then split.map Noted.bytes
        else split.flatMap (Noted.paths s.files s.directory)
      return found ++ (← fields fuel rest)

/-- Connects descriptors; the answer says whether all could be connected. -/
def connect (fuel : Nat) (redirections : List Redirection) : Run Bool :=
  match fuel with
  | 0 => throw .endless
  | fuel + 1 =>
    match redirections with
    | [] => return true
    | .mk descriptor direction word :: rest => do
      let bytes ← single fuel word
      let target := Text.lossyText bytes
      let s ← get
      let onward (s : State) : Run Bool := do
        set s
        connect fuel rest
      let refused (what : String) (reason : String) : Run Bool := do
        Run.complain ("cannot " ++ what ++ " " ++ target ++ ": " ++ reason)
        return false
      -- all that flows is known at once, so that no descriptor has to wait here
      let flowing (bytes : Bytes) (source : Source) : Run Bool :=
        let (s, inflow) := s.opening ⟨bytes, source⟩
        onward (s.readingFrom descriptor inflow)
      let written (append replaces : Bool) : Run Bool := do
        match s.device? target with
        | some (some sink) => onward (s.writingTo descriptor sink)
        | some none => refused "create" "No such device or address"
        | none =>
          let p := s.path target
          if !append && !replaces && s.modes.contains .noclobber && s.files.isFile p then
            refused "create" "File exists"
          else
            let old := if append then (s.files.readBytes p).toOption.getD .empty else .empty
            match s.files.writeBytes p old with
            | .ok files => onward ({ s with files }.writingTo descriptor (.file p))
            | .error error => refused "create" (creationFault s.files p error)
      match direction with
      | .text => flowing bytes .pipe
      | .input =>
        if ["/dev/stdin", "/dev/fd/0"].contains target then
          onward (s.readingFrom descriptor s.inflow)
        else if target = "/dev/tty" then refused "open" "No such device or address"
        else
          let p := s.path target
          if isOfZeros s.files p then flowing (List.replicate s.flood 0) .zeros
          else
            match s.files.readBytes p with
            | .ok content => flowing content.toList .file
            | .error .isADirectory => flowing [] .file
            | .error error =>
              refused "open" (if isAbsence error then "No such file" else error.reason)
      | .duplicate =>
        -- this is told before anything runs, and ends the shell
        if target ≠ "-" && !(target.length = 1 && (Tool.natOf? bytes).isSome) then
          Run.refuse { cause := .descriptor, place := s.unread }
        else
          match Tool.natOf? bytes with
          | none => onward (s.closing descriptor)
          | some other =>
            match s.duplicating descriptor other with
            | some s => onward s
            | none =>
              Run.complain (target ++ ": Bad file descriptor")
              return false
      | .update =>
        let p := s.path target
        match (s.files.readBytes p).toOption, s.files.writeBytes p .empty with
        | some content, _ =>
          if descriptor < 3 then flowing content.toList .file
          else
            let (s, inflow) := s.opening ⟨content.toList, .file⟩
            let s := s.readingFrom descriptor inflow
            onward { s with further := (descriptor, .file p) :: s.further }
        | none, .ok files =>
          if descriptor = 0 then
            set { s with files }
            flowing [] .file
          else onward ({ s with files }.writingTo descriptor (.file p))
        | none, .error error => refused "create" (creationFault s.files p error)
      | .output => written false false
      | .replacement => written false true
      | .append => written true false

/-- Does something with descriptors connected, and restores them; a failure to connect them may
end the shell. -/
def redirected (fuel : Nat) (fatal : Bool) (redirections : List Redirection) (act : Run Unit) :
    Run Unit :=
  match fuel with
  | 0 => throw .endless
  | fuel + 1 =>
    if redirections.isEmpty then act
    else
      let descriptors := redirections.map fun
        | .mk descriptor _ _ => descriptor
      Run.restoring (fun before after =>
        descriptors.foldl (State.restoringDescriptor before) after) do
        if ← connect fuel redirections then act
        else if fatal then throw .failed
        else Run.setStatus 2

/-- Becomes another program, which ends the process; `called` is the name that it is told. -/
def become (fuel : Nat) (p : Path) (called : String) (arguments : List Bytes)
    (environment : Dict Bytes) : Run Unit :=
  match fuel with
  | 0 => throw .endless
  | fuel + 1 => do
    let s ← get
    match s.files.readBytes (s.directory.join p.text) with
    | .error _ =>
      Run.complain (called ++ ": not found")
      Run.exit 127
    | .ok content =>
      match Program.ofContent content with
      | .interpreted interpreter argument =>
        let before := (argument.map bytesOf).toList
        become fuel ⟨interpreter⟩ interpreter (before ++ bytesOf p.text :: arguments) environment
      | .plain => shell fuel (bytesOf "sh") (bytesOf p.text :: arguments) environment
      | .tool name =>
        -- what is refused only shows at the end, where it replaces the code
        modify (fun s => { s with spilled := false })
        let leave (code : Nat) : Run Unit := do
          let s ← get
          match s.output.refusal?.filter (fun _ => s.spilled) with
          | none => Run.exit code
          | some reason =>
            let (complaint, code) := Tool.spillage name called s.output reason
            Run.writeErrors complaint
            Run.exit code
        if shellNames.contains name then shell fuel (bytesOf called) arguments environment
        else if name = "env" then
          let (changed, command) := environmentOf environment arguments
          match command with
          | [] =>
            Run.write (Tool.environmentLines changed)
            leave 0
          | program :: arguments =>
            let path := (changed.find? "PATH").map Text.lossyText
            let name := Text.lossyText program
            match findRunnable s.files s.directory path name with
            | .ok found => become fuel ⟨found.path⟩ name arguments changed
            | .error error =>
              Run.writeErrors
                (called ++ ": " ++ Quoting.forReading program ++ ": " ++ error.reason ++ "\n")
              Run.exit (if error = .notFound then 127 else 126)
        else if wrappers.contains name then
          match Wrapped.of name called arguments with
          | .error u =>
            Run.write (bytesOf u.output)
            Run.writeErrors u.errors
            Run.exit u.code
          | .ok w =>
            let program := Text.lossyText w.program
            match findRunnable s.files s.directory ((environment.find? "PATH").map Text.lossyText)
              program with
            | .error error =>
              Run.writeErrors (called ++ ": " ++ Wrapped.refusal name w.program error ++ "\n")
              Run.exit (if error = .notFound then 127 else 126)
            | .ok found =>
              let act := become fuel ⟨found.path⟩ program w.arguments environment
              match w.limit with
              | none => act
              | some limit =>
                let moment := s.elapsed + limit
                -- an earlier limit comes first in any case
                if s.deadline.any (· ≤ moment) then act
                else
                  try
                    Run.restoring (fun before after =>
                      { after with deadline := before.deadline }) do
                      modify (fun s => { s with deadline := some moment })
                      act
                  catch
                    | .endless => do
                      modify (fun s => { s with elapsed := moment })
                      if w.signal = 9 then throw (.killed 9)
                      else Run.exit (if w.isPreserved then 128 + w.signal else 124)
                    | halt => throw halt
        else
          match Tool.find? name with
          | none =>
            match builtin? name arguments with
            | some act =>
              try act
              catch
                | .failed => Run.setStatus 2
                | halt => throw halt
              leave (← get).status
            | none => Run.exit 127
          | some tool =>
            let c : ToolCall :=
              ⟨called, arguments, environment, s.directory, s.files, s.input, s.source, s.flood⟩
            let r := tool (if s.source = .zeros then c.reading c.zeros .zeros else c)
            modify (fun s => { s.leaving r.rest with files := r.files })
            r.said.forM fun (stream, bytes) =>
              if stream = .output then Run.write bytes
              else modify (fun s => s.written s.errors bytes)
            Run.pass r.elapsed
            match r.ending with
            | .exited code => leave code
            | .starved => if (← get).spilled && name = "cat" then leave 1 else Run.starve
            | .endless => if (← get).spilled then leave 1 else throw .endless

/-- Becomes a shell with arguments, called by a name. -/
def shell (fuel : Nat) (called : Bytes) (arguments : List Bytes) (environment : Dict Bytes) :
    Run Unit :=
  match fuel with
  | 0 => throw .endless
  | fuel + 1 => do
    let refused (message : String) : Run Unit := do
      Run.writeErrors (Text.lossyText called ++ ": 0: " ++ message ++ "\n")
      Run.exit 2
    match Settings.read true [] arguments with
    | .error complaint => refused complaint
    | .ok settings =>
      let enter (name : Bytes) (arguments : List Bytes) (text : String) : Run Unit := do
        modify (·.entering environment settings.modes name arguments text)
        toTheEnd fuel (lines fuel text.toList)
      Run.write (bytesOf settings.shown)
      match settings.isText, settings.operands with
      | true, [] => refused "-c requires an argument"
      | true, text :: rest => enter (rest.head?.getD called) (rest.drop 1) (Text.lossyText text)
      | false, operands =>
        match (if settings.modes.contains .stdin then none else operands.head?) with
        | none =>
          let s ← get
          if s.source.hasEnded then
            set (s.leaving [])
            enter called operands (Text.lossyText s.input)
          else Run.starve
        | some file =>
          let s ← get
          match s.files.readBytes (s.directory.join (Text.lossyText file)) with
          | .ok content => enter file (operands.drop 1) (Text.lossyText content.toList)
          | .error _ => refused ("cannot open " ++ Text.lossyText file ++ ": No such file")

/-- Does something as the last thing before the process ends, but for what is to be done at the
end. -/
def toTheEnd (fuel : Nat) (act : Run Unit) : Run Unit :=
  match fuel with
  | 0 => throw .endless
  | fuel + 1 => do
    try act
    catch
      | .returning => pure ()
      | .breaking _ => pure ()
      | .continuing _ => pure ()
      | .exited code => Run.setStatus code
      | .failed => Run.setStatus 2
      | halt => throw halt
    let s ← get
    match s.traps.lookup 0 with
    | some action =>
      -- it is done once, whatever it does itself
      modify (fun s => { s with traps := withTraps none [0] s.traps, trapped := some s.status })
      try follow fuel action
      catch
        | .exited code => Run.exit code
        | .failed => Run.exit 2
        | .returning => pure ()
        | .breaking _ => pure ()
        | .continuing _ => pure ()
        | halt => throw halt
    | none => pure ()
    Run.exit s.status

/-- Does something in a process of its own. -/
def apart (fuel : Nat) (act : Run Unit) : Run Unit :=
  match fuel with
  | 0 => throw .endless
  | fuel + 1 => Run.isolated (toTheEnd fuel act)

/-- Does what a text says, in the running shell. -/
def follow (fuel : Nat) (text : Bytes) : Run Unit :=
  match fuel with
  | 0 => throw .endless
  | fuel + 1 => do
    let text := (Text.lossyText text).toList
    if (front (skipLines text.length text)).1 = .ending then Run.setStatus 0
    else
      Run.restoring (fun before after =>
        { after with
          line := before.line, lineEnds := before.lineEnds, unread := before.unread }) do
        modify (fun s => { s with lineEnds := text.count '\n' })
        lines fuel text

/-- Does what a text says, a line of commands after the other, up to a fault. -/
def lines (fuel : Nat) (text : List Char) : Run Unit :=
  match fuel with
  | 0 => throw .endless
  | fuel + 1 =>
    match Reader.next? text with
    | .ok none => pure ()
    | .ok (some (script, rest)) => do
      modify (fun s => { s with unread := rest.count '\n' })
      exec fuel script
      lines fuel rest
    | .error fault => Run.refuse fault

/-- Runs a program in a process of its own and sets the code of its end. -/
def runProgram (fuel : Nat) (name : String) (arguments : List Bytes)
    (assigned : List (String × Bytes)) : Run Unit :=
  match fuel with
  | 0 => throw .endless
  | fuel + 1 => do
    let s ← get
    match s.runnable assigned name with
    | .error (error, code) =>
      Run.complain (name ++ ": " ++ faultText error)
      Run.setStatus code
    | .ok found =>
      if (assigned.lookup "PATH").isNone then set (s.tracking name found.path)
      Run.restoring (fun before after =>
        { Run.restoreProcess before after with pending := before.pending }) do
        modify (fun s => { s with above := s.output })
        try become fuel ⟨found.path⟩ name arguments (s.exporting assigned).environment
        catch
          | .exited code => Run.setStatus code
          | .killed signal =>
            complainOfSignal signal
            Run.setStatus (128 + signal)
          | halt => throw halt
      modify State.reaped

/-- Sends a signal; one that the shell itself gets may be expected there. -/
def signal (fuel : Nat) (number : Nat) (targets : List Bytes) : Run Unit :=
  match fuel with
  | 0 => throw .endless
  | fuel + 1 => do
    let ends := number ≠ 0 && !idleSignals.contains number && !stoppingSignals.contains number
    Run.setStatus 0
    Run.asCommand false "kill" <| targets.forM fun text => do
      let s ← get
      match s.target text with
      | .error complaint => Run.fail complaint
      | .ok .nobody =>
        Run.complain "No such process\n"
        Run.setStatus 1
      | .ok (.job n) => if ends then set (s.endJob n number)
      | .ok _ => pure ()
    if !targets.contains (bytesOf processNumber) then return
    let s ← get
    if s.isApart then
      -- the shell that gets it goes on only behind this part of it
      set { s with pending := s.pending ++ [(s.elapsed, number)] }
      return
    match s.traps.lookup number with
    | some action =>
      if number = 9 then throw (.killed number)
      Run.restoring (fun before after =>
        { after with trapped := before.trapped, status := before.status }) do
        modify (fun s => { s with trapped := some s.status })
        follow fuel action
    | none =>
      if stoppingSignals.contains number then throw .endless
      if ends then throw (.killed number)

/-- Does what the signals ask for that jobs have sent up to now. -/
def spring (fuel : Nat) : Run Unit :=
  match fuel with
  | 0 => throw .endless
  | fuel + 1 => do
    let s ← get
    let (due, later) := s.pending.partition (fun entry => entry.1 ≤ s.elapsed)
    if s.isApart || due.isEmpty then return
    set { s with pending := later }
    due.forM fun (_, number) => do
      signal fuel number [bytesOf processNumber]
    modify (fun after => { after with status := s.status })

/-- Does something with values for variables that the variables lose behind it. -/
def temporarily (fuel : Nat) (assigned : List (String × Bytes)) (act : Run Unit) : Run Unit :=
  match fuel with
  | 0 => throw .endless
  | _ + 1 =>
    if assigned.isEmpty then act
    else
      Run.restoring (fun before after =>
        let kept := assigned.map (fun entry => (entry.1, before.bindings.find? entry.1))
        { after.restoreValues kept with exported := before.exported }) do
        modify (fun s => s.exporting assigned)
        act

/-- Runs a function, a command of the shell or a program. A plain command is no function, and its
failure does not end the shell. -/
def invoke (fuel : Nat) (isPlain : Bool) (name : String) (arguments : List Bytes)
    (assigned : List (String × Bytes)) : Run Unit :=
  match fuel with
  | 0 => throw .endless
  | fuel + 1 => do
    let s ← get
    match if isPlain then none else s.functions.lookup name with
    | some body =>
      if deepest ≤ s.calls then
        Run.fail ("Maximum function recursion depth (" ++ Text.natText deepest ++ ") reached")
      temporarily fuel assigned <| Run.restoring (fun before after =>
        { after.restoreValues (after.kept.getD []) with
          arguments := before.arguments, loops := before.loops, kept := before.kept
          calls := before.calls
          optionWord := before.optionWord, optionPlace := before.optionPlace }) do
        modify (fun s => { s with
          arguments, loops := 0, kept := some [], calls := s.calls + 1
          optionWord := 1, optionPlace := none })
        try exec fuel body
        catch
          | .returning => pure ()
          | halt => throw halt
    | none =>
      -- behind a special command the assignments stay
      let isSpecial := specialNames.contains name && !isPlain
      let perform (act : Run Unit) : Run Unit :=
        Run.asCommand isSpecial name do
          if isSpecial then
            assigned.forM (fun (name, value) => Run.assign name value)
            act
          else temporarily fuel assigned act
      match name with
      | "eval" => perform (follow fuel (Printing.joined arguments))
      | "." => perform <| Run.withOptions "" "" arguments fun o =>
        match o.operands with
        | [] => Run.setStatus 0
        | file :: _ => do
          let file := Text.lossyText file
          match s.sourcePath? file with
          | none => Run.fail (file ++ ": not found")
          | some p =>
            match s.files.readBytes p with
            | .error _ => Run.fail ("cannot open " ++ file ++ ": No such file")
            | .ok content =>
              modify (fun s => { s with speaker := some file })
              try follow fuel content.toList
              catch
                | .returning => pure ()
                | halt => throw halt
      | "exec" => perform <| Run.withOptions "" "" arguments fun o =>
        match o.operands with
        | [] => Run.setStatus 0
        | program :: arguments => do
          let s ← get
          let name := Text.lossyText program
          match anyRunnable s.files s.directory .notFound (s.candidates assigned name) with
          | .ok found =>
            -- what is ignored stays ignored in the other program, what is trapped does not
            set { s with traps := s.traps.filter (·.2.isEmpty) }
            become fuel ⟨found.path⟩ name arguments (s.exporting assigned).environment
          | .error error =>
            Run.complain (name ++ ": " ++ faultText error)
            Run.exit (faultCode error)
      | "kill" =>
        match SignalRequest.of arguments with
        | .error complaint => perform (Run.fail complaint)
        | .ok (.naming codes) => perform do
          match signalNames codes with
          | .ok names => Run.write (bytesOf names)
          | .error complaint => Run.fail complaint
          Run.setStatus 0
        | .ok (.send number targets) => signal fuel number targets
      | "command" =>
        match commandOptions "pvV" "" arguments with
        | .error complaint => perform (Run.fail complaint)
        | .ok o =>
          match o.last? ['v', 'V'], Tool.texts o.operands with
          | _, [] => Run.setStatus 0
          | some letter, name :: _ => perform (describe (letter = 'V') [name])
          | none, name :: _ => invoke fuel true name (o.operands.drop 1) assigned
      | name =>
        match builtin? name arguments with
        | some act => perform act
        | none => runProgram fuel name arguments assigned

/-- The values of assignments. -/
def assignmentValues (fuel : Nat) (assignments : List (String × Word)) :
    Run (List (String × Bytes)) :=
  match fuel with
  | 0 => throw .endless
  | fuel + 1 =>
    match assignments with
    | [] => return []
    | (name, word) :: rest => do
      let v ← single fuel word
      if (← get).fixed.contains name then Run.fail (name ++ ": is read only")
      return (name, v) :: (← assignmentValues fuel rest)

/-- Runs a simple command. -/
def runSimple (fuel : Nat) (place : Nat) (assignments : List (String × Word)) (words : List Word)
    (redirections : List Redirection) : Run Unit :=
  match fuel with
  | 0 => throw .endless
  | fuel + 1 => do
    modify (fun s => { s with line := s.lineEnds - place + 1, inner := 0 })
    let found ← fields fuel words
    match found with
    | [] =>
      redirected fuel false redirections do
        let values ← assignmentValues fuel assignments
        showCommand values []
        modify (fun s => { s.assignAll values with status := s.inner })
    | name :: arguments =>
      let assigned ← assignmentValues fuel assignments
      showCommand assigned found
      let name := Text.lossyText name
      if name = "exec" then
        if !(← connect fuel redirections) then throw .failed
        invoke fuel false name arguments assigned
      else
        redirected fuel (specialNames.contains name) redirections
          (invoke fuel false name arguments assigned)

/-- Runs commands of which each reads what the one before it writes; the answer says whether one
before the last waits for more input. One that would write for ever ends when nobody reads any
more; as long as somebody waits for more, it is run again to write more. -/
def runPipeline (fuel : Nat) (parts : List Script) : Run Bool :=
  match fuel with
  | 0 => throw .endless
  | fuel + 1 =>
    match parts with
    | [] => return false
    | [last] => do
      apart fuel (exec fuel last)
      return false
    | first :: rest => do
      let before ← get
      let (portions, unfinished) ← Run.collecting do
        try
          apart fuel (exec fuel first)
          return none
        catch
          | .starved => return some Halt.starved
          | .endless => return some .endless
          | halt => throw halt
      let bytes := portions.flatMap Portion.bytes
      let (ending, left) ← Run.restoring Run.restoreInput do
        modify (fun s => s.reading bytes (if unfinished.isNone then .pipe else .writer))
        try
          let waiting ← runPipeline fuel rest
          return (some waiting, (← get).input.length)
        catch
          | .starved => return (none, 0)
          | halt => throw halt
      let s ← get
      match unfinished, ending with
      | none, _ => return ending.getD false
      | some .endless, none =>
        -- the reader has come to the end of what was written so far, so that more is written
        if before.flood ≤ bytes.length && before.flood < greatestFlood then
          set { before with flood := before.flood * 4 }
          let waiting ← runPipeline fuel parts
          modify (fun s => { s with flood := before.flood })
          return waiting
        else throw .endless
      | some .endless, some _ =>
        -- the writer ends where the reader has stopped reading
        match later? (bytes.length - left) portions with
        | some moment =>
          set { s with elapsed := max before.elapsed (min moment s.elapsed) }
          return false
        | none =>
          if leastFlood ≤ bytes.length && s.deadline.all (s.elapsed < ·) then return false
          else throw .endless
      | some halt, none => throw halt
      | some _, some _ => return true

/-- Runs the body of a loop; the answer says whether the loop goes on. -/
def runBody (fuel : Nat) (body : Script) : Run Bool :=
  match fuel with
  | 0 => throw .endless
  | fuel + 1 => do
    try
      Run.restoring (fun before after => { after with loops := before.loops }) do
        modify (fun s => { s with loops := s.loops + 1 })
        exec fuel body
      return true
    catch
      | .breaking n => if n ≤ 1 then return false else throw (.breaking (n - 1))
      | .continuing n => if n ≤ 1 then return true else throw (.continuing (n - 1))
      | halt => throw halt

/-- Runs a loop on a condition; `last` is the code of the last body. -/
def runLoop (fuel : Nat) (wanted : Bool) (condition body : Script) (last : Nat) : Run Unit :=
  match fuel with
  | 0 => throw .endless
  | fuel + 1 => do
    Run.asking (exec fuel condition)
    if ((← get).status = 0) = wanted then
      if ← runBody fuel body then runLoop fuel wanted condition body (← get).status
    else Run.setStatus last

/-- Runs a loop over values. -/
def runEach (fuel : Nat) (name : String) (values : List Bytes) (body : Script) : Run Unit :=
  match fuel with
  | 0 => throw .endless
  | fuel + 1 =>
    match values with
    | [] => pure ()
    | value :: rest => do
      Run.assign name value
      if ← runBody fuel body then runEach fuel name rest body

/-- Whether one of several patterns describes a value. -/
def anyMatch (fuel : Nat) (patterns : List Word) (value : Bytes) : Run Bool :=
  match fuel with
  | 0 => throw .endless
  | fuel + 1 =>
    match patterns with
    | [] => return false
    | word :: rest => do
      if Pattern.isMatch (← patternOf fuel word) value then return true
      anyMatch fuel rest value

/-- Runs the first arm with a pattern that describes a value. -/
def runArms (fuel : Nat) (value : Bytes) (arms : List (List Word × Script)) : Run Unit :=
  match fuel with
  | 0 => throw .endless
  | fuel + 1 =>
    match arms with
    | [] => Run.setStatus 0
    | (patterns, body) :: rest => do
      if ← anyMatch fuel patterns value then exec fuel body else runArms fuel value rest

/-- Runs a script. -/
def exec (fuel : Nat) (script : Script) : Run Unit :=
  match fuel with
  | 0 => throw .endless
  | fuel + 1 => do
    if (← get).modes.contains .noexec then return
    match script with
    | .nothing => Run.setStatus 0
    | .simple place assignments words redirections => do
      runSimple fuel place assignments words redirections
      spring fuel
      Run.check
    | .pipeline negated parts => do
      let act : Run Unit := match parts with
        | [only] => exec fuel only
        | parts => do
          if ← runPipeline fuel parts then throw .starved
          modify State.reaped
          spring fuel
      if negated then
        Run.asking act
        Run.setStatus (if (← get).status = 0 then 1 else 0)
      else
        act
        Run.check
    | .both first second => do
      Run.asking (exec fuel first)
      if (← get).status = 0 then exec fuel second
    | .either first second => do
      Run.asking (exec fuel first)
      if (← get).status ≠ 0 then exec fuel second
    | .sequence first second => do
      exec fuel first
      exec fuel second
    | .background body => do
      let before ← get
      let number := before.jobCount + 1
      -- what the command writes there is not complete before it ends
      let buffers := ((before.sinksOf (ownRedirections body)).filterMap fun sink =>
        match sink with
        | .buffer n => some n
        | _ => none).eraseDups
      modify (fun s => { s with jobCount := number, elapsed := s.elapsed + 1 })
      let (ended, signal?) ← Run.restoring (fun before after =>
          { Run.restoreInput before after with job := before.job }) do
        modify (fun s => { s with job := number })
        try
          apart fuel do
            -- nothing is read from where the shell reads
            modify (fun s => s.reading [] .file)
            exec fuel body
          return (true, none)
        catch
          | .killed signal => return (true, some signal)
          | .endless => return (false, none)
          | _ => return (true, none)
      let s ← get
      let isLate := s.deadline.any (· ≤ s.elapsed)
      let job : Job := {
        number, buffers, signal?
        done? := if ended then some s.elapsed else none
        wakes? := if ended || !isLate then none else some s.elapsed
        status := (signal?.map (128 + ·)).getD s.status }
      set { s with
        jobs := s.jobs ++ [job], ownJobs := s.placing number, lastJob? := some number
        elapsed := before.elapsed, status := 0 }
    | .group body redirections => redirected fuel false redirections (exec fuel body)
    | .subshell body redirections => do
      redirected fuel false redirections (apart fuel (exec fuel body))
      modify State.reaped
      spring fuel
      Run.check
    | .branch condition yes no redirections =>
      redirected fuel false redirections do
        Run.asking (exec fuel condition)
        if (← get).status = 0 then exec fuel yes else exec fuel no
    | .loop wanted condition body redirections =>
      redirected fuel false redirections (runLoop fuel wanted condition body 0)
    | .each name words body redirections =>
      redirected fuel false redirections do
        let values ← match words with
          | some words => fields fuel words
          | none => pure (← get).arguments
        Run.setStatus 0
        runEach fuel name values body
    | .choose subject arms redirections =>
      redirected fuel false redirections do
        let value ← single fuel subject
        runArms fuel value arms
    | .function name body =>
      modify (fun s => { s with functions := (name, body) :: s.functions, status := 0 })

end

end RubySupervisor.Shell
