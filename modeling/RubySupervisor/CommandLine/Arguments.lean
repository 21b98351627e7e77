import RubySupervisor.Files.Path
import RubySupervisor.Text.Scan

/-!
# Arguments of the command line

Arguments are read at two levels: global options and the name of a subcommand, then the options of
that subcommand, among which the global ones may stand again. Reading goes from left to right, and
the first argument that decides the outcome decides it: a fault, or a wish for help or the version.
A value that is an argument of its own is looked at late: behind the last option of a level it is a
fault only after everything that the subcommand says.

Help names the subcommands and options of a level in columns. A subcommand with more to say than
one line also has a long form, in which the description of an option stands below it.
-/

/-! ## Arguments -/

namespace RubySupervisor.CommandLine

/-- What an option does. -/
inductive OptionKind where
  | flag
  /-- It takes a value; the flag says whether the value may be empty. -/
  | value (name : String) (emptyAllowed : Bool)
  | help
  | version
  deriving DecidableEq, Repr

/-- An option. -/
structure OptionSpec where
  long : String
  short : Option Char
  kind : OptionKind
  about : String
  deriving DecidableEq, Repr

/-- The options that every level knows. -/
def globalOptions : List OptionSpec :=
  [⟨"dir", some 'C', .value "DIR" false, "Workspace folder (defaults to the current directory)"⟩,
    ⟨"verbose", some 'v', .flag, "Verbose logging"⟩,
    ⟨"telemetry", none, .flag, "Write telemetry events to the log"⟩]

/-- The option that asks for help. -/
def helpOption : OptionSpec := ⟨"help", some 'h', .help, "Print help"⟩

/-- The option that asks for the version. -/
def versionOption : OptionSpec := ⟨"version", some 'V', .version, "Print version"⟩

/-- A subcommand as it is documented. -/
structure SubcommandSpec where
  name : String
  about : String
  /-- What there is to say beyond one line. -/
  details : Option String
  options : List OptionSpec
  deriving DecidableEq, Repr

/-- The subcommands. -/
def subcommands : List SubcommandSpec :=
  [⟨"env", "Activate Ruby and print the environment the server would run in", none,
      [⟨"json", none, .flag, "Print a JSON object instead of KEY=VALUE lines"⟩]⟩,
    ⟨"serve", "Start the server and supervise it until interrupted",
      some ("Command identifiers such as `rubyLsp.restart` read from stdin are executed against "
        ++ "the running workspace. Code lens arguments may follow the identifier as a JSON array."),
      [⟨"no-watch", none, .flag, "Do not restart on lockfile or RuboCop configuration changes"⟩]⟩,
    ⟨"status", "Start the server and print the status items", none, []⟩,
    ⟨"update",
      "Install the server gem, or update it when a day has passed since the last update", none,
      []⟩,
    ⟨"debug-socket", "Print the socket of a debuggee", none,
      [⟨"launch", none, .value "PROGRAM" true,
        "Launch this program under the debugger instead of attaching to a running one"⟩]⟩]

/-- What an option is sorted by among options of one rank: its short form in lower case, a capital
after its small letter, or else its long form. -/
def OptionSpec.listingKey (o : OptionSpec) : String :=
  match o.short with
  | some c => String.ofList [c.toLower, if c.isLower then '0' else '1']
  | none => o.long

/-- The options of a subcommand as they are listed. Its own options and the global ones are ranked
apart and then put together by rank; those of one rank are sorted by their keys. -/
def SubcommandSpec.allOptions (s : SubcommandSpec) : List OptionSpec :=
  let before (a b : OptionSpec × Nat) : Bool :=
    a.2 < b.2 || (a.2 = b.2 && a.1.listingKey ≤ b.1.listingKey)
  ((s.options.zipIdx ++ globalOptions.zipIdx).mergeSort before).map Prod.fst ++ [helpOption]

/-- The options at the top as they are listed. -/
def topOptions : List OptionSpec := globalOptions ++ [helpOption, versionOption]

/-- Options that were given, with their values. -/
abbrev Given := List (String × Option String)

/-- What reading the arguments of one level comes to. -/
inductive Level where
  | misuse
  /-- Help is asked for, in long form or not. -/
  | help (long : Bool)
  | version
  /-- A word that is no option, and what follows it; nothing is given if an option before it has a
  value that does not fit. -/
  | word (given : Option Given) (word : String) (rest : List String)
  | finished (given : Given)
  deriving Repr

/-- Whether an argument cannot be the value of an option because it looks like an option. -/
def looksLikeOption (s : String) : Bool :=
  match s.toList with
  | '-' :: _ :: _ => true
  | _ => false

/-- The options given so far and one more, which must be new and have a fitting value. -/
def add? (spec : OptionSpec) (value : Option String) (given : Given) : Option Given :=
  let fits := match spec.kind, value with
    | .flag, none => true
    | .value _ emptyAllowed, some s => emptyAllowed || s ≠ ""
    | _, _ => false
  if fits && !(given.any (fun entry => entry.1 = spec.long)) then
    some (given ++ [(spec.long, value)])
  else none

/-- What the short options of one argument come to. -/
inductive Cluster where
  | misuse
  | help
  | version
  | finished (given : Given)
  /-- The last one needs the next argument as its value. -/
  | pending (given : Given) (spec : OptionSpec)

/-- Reads the short options of one argument. What follows an option that takes a value is the
value, behind an equals sign or not. -/
def readCluster (specs : List OptionSpec) : (given : Given) → List Char → Cluster
  | given, [] => .finished given
  | given, c :: rest =>
    match specs.find? (fun spec => spec.short = some c) with
    | none => .misuse
    | some spec =>
      match spec.kind with
      | .help => .help
      | .version => .version
      | .flag =>
        match add? spec none given with
        | some given => readCluster specs given rest
        | none => .misuse
      | .value .. =>
        match rest with
        | [] => .pending given spec
        | '=' :: value => ((add? spec (some (String.ofList value)) given).map .finished).getD .misuse
        | value => ((add? spec (some (String.ofList value)) given).map .finished).getD .misuse

/-- Options that were given. The last one may have a value from an argument of its own, which is
looked at only when the next option is read or the level is at its end. -/
structure Progress where
  given : Given
  pending : Option (OptionSpec × String)

/-- The options given so far with the last one, if its value fits. -/
def Progress.settled (p : Progress) : Option Given :=
  match p.pending with
  | none => some p.given
  | some (spec, value) => add? spec (some value) p.given

/-- What reading one argument comes to. -/
inductive Step where
  | decided (level : Level)
  | more (given : Given)
  /-- The next argument is taken as a value, too. -/
  | moreBehindValue (p : Progress)

/-- Goes on with one more option. -/
def taken (spec : OptionSpec) (attached : Option String) (given : Given) : Step :=
  match add? spec attached given with
  | some given => .more given
  | none => .decided .misuse

/-- Goes on with one more option whose value is the next argument. -/
def takenWithNext (spec : OptionSpec) (next : Option String) (given : Given) : Step :=
  match next.filter (fun value => !looksLikeOption value) with
  | none => .decided .misuse
  | some value => .moreBehindValue ⟨given, some (spec, value)⟩

/-- Reads a long option with the value attached to it, if there is one. -/
def readLong (specs : List OptionSpec) (name : String) (attached next : Option String)
    (given : Given) : Step :=
  match specs.find? (fun spec => spec.long = name) with
  | none => .decided .misuse
  | some spec =>
    match spec.kind, attached with
    | .help, none => .decided (.help true)
    | .version, none => .decided .version
    | .value .., none => takenWithNext spec next given
    | _, attached => taken spec attached given

/-- Reads the options of one argument. -/
def readArgument (specs : List OptionSpec) (p : Progress) (argument : String)
    (rest : List String) : Step :=
  let settling (act : Given → Step) : Step := (p.settled.map act).getD (.decided .misuse)
  match argument.toList with
  | ['-', '-'] =>
    settling fun given => .decided (if rest.isEmpty then .finished given else .misuse)
  | '-' :: '-' :: body =>
    settling fun given =>
      match Text.cutFirst? ['='] body with
      | some (name, value) =>
        readLong specs (String.ofList name) (some (String.ofList value)) rest.head? given
      | none => readLong specs (String.ofList body) none rest.head? given
  | '-' :: c :: body =>
    settling fun given =>
      match readCluster specs given (c :: body) with
      | .misuse => .decided .misuse
      | .help => .decided (.help false)
      | .version => .decided .version
      | .finished given => .more given
      | .pending given spec => takenWithNext spec rest.head? given
  | _ => .decided (.word p.settled argument rest)

/-- The end of a level. -/
def Progress.finished (p : Progress) : Level := (p.settled.map .finished).getD .misuse

/-- Reads the options of one level, up to the first word that is no option. -/
def readLevel (specs : List OptionSpec) : (p : Progress) → List String → Level
  | p, [] => p.finished
  | p, [argument] =>
    match readArgument specs p argument [] with
    | .decided level => level
    | .more given => .finished given
    | .moreBehindValue p => p.finished
  | p, argument :: next :: rest =>
    match readArgument specs p argument (next :: rest) with
    | .decided level => level
    | .more given => readLevel specs ⟨given, none⟩ (next :: rest)
    | .moreBehindValue p => readLevel specs p rest

/-- Reads the options of one level from its beginning. -/
def levelOf (specs : List OptionSpec) (arguments : List String) : Level :=
  readLevel specs ⟨[], none⟩ arguments

/-- What to do. -/
inductive Subcommand where
  | env (json : Bool)
  | serve (watch : Bool)
  | status
  | update
  | debugSocket (launch : Option String)
  deriving DecidableEq, Repr

/-- What to do, and where. -/
structure Invocation where
  directory : Option Path
  verbose : Bool
  telemetry : Bool
  subcommand : Subcommand
  deriving DecidableEq, Repr

/-- What a command line asks for. -/
inductive Wish where
  | misuse
  | version
  /-- Help on everything, or on one subcommand. -/
  | help (topic : Option SubcommandSpec) (long : Bool)
  | run (invocation : Invocation)
  deriving DecidableEq, Repr

/-- The value of an option; of one given at both levels, that of the inner one. -/
def valueOf (outer inner : Given) (name : String) : Option String :=
  ((inner.lookup name) <|> (outer.lookup name)).join

/-- Whether a flag was given at either level. -/
def isGiven (outer inner : Given) (name : String) : Bool :=
  (outer ++ inner).any (fun entry => entry.1 = name)

/-- The subcommand of a name with its options. -/
def subcommandOf? (name : String) (given : Given) : Option Subcommand :=
  match name with
  | "env" => some (.env (isGiven [] given "json"))
  | "serve" => some (.serve !(isGiven [] given "no-watch"))
  | "status" => some .status
  | "update" => some .update
  | "debug-socket" => some (.debugSocket (valueOf [] given "launch"))
  | _ => none

/-- The subcommand that gives help. -/
def helpSubcommand : SubcommandSpec :=
  ⟨"help", "Print this message or the help of the given subcommand(s)", none, []⟩

/-- What asking for help on topics comes to. -/
def helpOn : List String → Wish
  | [] => .help none true
  | [topic] =>
    match (subcommands ++ [helpSubcommand]).find? (fun spec => spec.name = topic) with
    | some spec => .help (some spec) true
    | none => .misuse
  | _ => .misuse

/-- What the arguments of a subcommand ask for, behind options that fit or do not. -/
def readSubcommand (spec : SubcommandSpec) (outer : Option Given) (arguments : List String) :
    Wish :=
  match levelOf spec.allOptions arguments, outer with
  | .help long, _ => .help (some spec) long
  | .finished inner, some outer =>
    match subcommandOf? spec.name inner with
    | none => .misuse
    | some subcommand => .run {
        directory := (valueOf outer inner "dir").map Path.mk
        verbose := isGiven outer inner "verbose"
        telemetry := isGiven outer inner "telemetry"
        subcommand }
  | _, _ => .misuse

/-- What arguments ask for. -/
def read (arguments : List String) : Wish :=
  match levelOf topOptions arguments with
  | .misuse => .misuse
  | .finished _ => .misuse
  | .help long => .help none long
  | .version => .version
  | .word outer word rest =>
    if word = "help" then helpOn rest
    else
      match subcommands.find? (fun spec => spec.name = word) with
      | none => .misuse
      | some spec => readSubcommand spec outer rest

/-! ## Help texts -/

/-- The name of the program. -/
def programName : String := "garnet"

/-- The version of the program. -/
def programVersion : String := "0.10.0"

/-- What the program is. -/
def programAbout : String := "Ruby language server supervisor"

/-- How an option is written, with the place of its short form kept free where it has none. -/
def OptionSpec.shown (o : OptionSpec) : String :=
  let short := match o.short with
    | some c => String.ofList ['-', c, ',', ' ']
    | none => "    "
  let value := match o.kind with
    | .value name _ => " <" ++ name ++ ">"
    | _ => ""
  short ++ "--" ++ o.long ++ value

/-- A text followed by blanks up to a width. -/
def padded (width : Nat) (s : String) : String :=
  String.ofList (s.toList ++ List.replicate (width - s.length) ' ')

/-- Entries in two columns. -/
def columns (entries : List (String × String)) : List String :=
  let width := (entries.map (fun entry => entry.1.length)).foldl max 0
  entries.map (fun entry => "  " ++ padded width entry.1 ++ "  " ++ entry.2)

/-- Entries with the second part below the first. -/
def stacked (entries : List (String × String)) : List String :=
  (entries.map (fun entry => "  " ++ entry.1 ++ "\n          " ++ entry.2)).intersperse ""

/-- The description of an option; that of the help option tells of the other form. -/
def OptionSpec.described (hasLong long : Bool) (o : OptionSpec) : String :=
  match o.kind, hasLong, long with
  | .help, true, true => o.about ++ " (see a summary with '-h')"
  | .help, true, false => o.about ++ " (see more with '--help')"
  | _, _, _ => o.about

/-- The lines that list options. -/
def optionLines (hasLong long : Bool) (options : List OptionSpec) : List String :=
  let entries := options.map (fun o => (o.shown, o.described hasLong long))
  "Options:" :: (if hasLong && long then stacked entries else columns entries)

/-- Lines as a text. -/
def ofLines (lines : List String) : String := String.join (lines.map (· ++ "\n"))

/-- The help text of a topic. -/
def helpText (topic : Option SubcommandSpec) (long : Bool) : String :=
  match topic with
  | none =>
    ofLines ([programAbout, "", "Usage: " ++ programName ++ " [OPTIONS] <COMMAND>", "", "Commands:"]
      ++ columns ((subcommands ++ [helpSubcommand]).map (fun s => (s.name, s.about)))
      ++ [""] ++ optionLines false long topOptions)
  | some spec =>
    if spec = helpSubcommand then
      ofLines [spec.about, "", "Usage: " ++ programName ++ " help [COMMAND]...", "", "Arguments:",
        "  [COMMAND]...  Print help for the subcommand(s)"]
    else
      let about := match spec.details, long with
        | some details, true => [spec.about, "", details]
        | _, _ => [spec.about]
      ofLines (about ++ ["", "Usage: " ++ programName ++ " " ++ spec.name ++ " [OPTIONS]", ""]
        ++ optionLines spec.details.isSome long spec.allOptions)

/-- The text that tells the version. -/
def versionText : String := ofLines [programName ++ " " ++ programVersion]

end RubySupervisor.CommandLine
