import RubySupervisor.Files.Tree
import RubySupervisor.Ruby.Error
import RubySupervisor.Ruby.Version
import RubySupervisor.Text.Scan

/-!
# Declared versions

A project declares its Ruby in one of five files, looked for in a fixed order. The first readable
file decides: it either declares a version or is an error, and no later file is consulted. The
files are searched for a pattern; they are not parsed.
-/

namespace RubySupervisor

/-- A version that a project declares. -/
structure Declaration where
  engine : Option String
  version : String
  source : VersionSource
  path : Path
  deriving DecidableEq, Repr

namespace Declaration

open Text (isDecimalDigit isAsciiLetter isAsciiAlphanumeric isBlank literal? run? firstMatch?)

/-- Whether the declared version has major, minor and patch. -/
def isComplete (d : Declaration) : Bool := RubyVersion.isComplete d.version

/-- A dot and digits at the front of the text. -/
def dotDigits? (s : List Char) : Option (List Char × List Char) := do
  let rest ← literal? ['.'] s
  let (digits, rest) ← run? isDecimalDigit rest
  return ('.' :: digits, rest)

/-- A dash and letters or digits at the front of the text. -/
def dashSuffix? (s : List Char) : Option (List Char × List Char) := do
  let rest ← literal? ['-'] s
  let (suffix, rest) ← run? isAsciiAlphanumeric rest
  return ('-' :: suffix, rest)

/-- The result of an optional part: nothing read where it is absent. -/
def orNothing (s : List Char) (part : Option (List Char × List Char)) : List Char × List Char :=
  part.getD ([], s)

/-- A version at the front of the text: `digits.digits`, an optional third number and an optional
suffix, each as long as possible. -/
def version? (s : List Char) : Option (List Char) := do
  let (major, rest) ← run? isDecimalDigit s
  let (minor, rest) ← dotDigits? rest
  let (patch, rest) := orNothing rest (dotDigits? rest)
  let (suffix, _) := orNothing rest (dashSuffix? rest)
  return major ++ minor ++ patch ++ suffix

/-- A version of exactly three numbers at the front of the text. -/
def threeNumbers? (s : List Char) : Option (List Char) := do
  let (major, rest) ← run? isDecimalDigit s
  let (minor, rest) ← dotDigits? rest
  let (patch, _) ← dotDigits? rest
  return major ++ minor ++ patch

/-- The text after a quote at its front, or the text itself. -/
def afterQuote (s : List Char) : List Char :=
  match s with
  | '\'' :: rest => rest
  | '"' :: rest => rest
  | _ => s

/-- The version of a `dev.yml`: three numbers after `- ruby: ` and an optional quote. -/
def inDevYml? (contents : List Char) : Option (List Char) :=
  firstMatch? (fun s => do
    let rest ← literal? "- ruby: ".toList s
    threeNumbers? (afterQuote rest)) contents

/-- The engine and version at the front of the text: `engine-version`, or the version alone. -/
def engineVersion? (s : List Char) : Option (Option (List Char) × List Char) :=
  let named : Option (Option (List Char) × List Char) := do
    let (engine, rest) ← run? isAsciiLetter s
    let version ← version? (← literal? ['-'] rest)
    return (some engine, version)
  named <|> (version? s).map (fun version => (none, version))

/-- The engine and version of a `.ruby-version` file: the first place where one stands. -/
def inRubyVersion? (contents : List Char) : Option (Option (List Char) × List Char) :=
  firstMatch? engineVersion? contents

/-- The text at the start of each line, to the end of the text. -/
def lineStarts (s : List Char) : List (List Char) :=
  s :: after s
where
  /-- What follows each line feed. -/
  after : List Char → List (List Char)
    | [] => []
    | c :: rest => if c = '\n' then rest :: after rest else after rest

/-- The version after `ruby` and blanks, with blanks before it. -/
def toolEntry? (s : List Char) : Option (List Char) := do
  let rest ← literal? "ruby".toList (Text.trimStart s)
  let (_, rest) ← run? isBlank rest
  version? rest

/-- The version of a `.tool-versions` file: the first line start from which an entry for `ruby`
follows. -/
def inToolVersions? (contents : List Char) : Option (List Char) :=
  (lineStarts contents).findSome? toolEntry?

/-- Whether a character is a single or double quote. -/
def isQuote (c : Char) : Bool := c == '\'' || c == '"'

/-- What stands in quotes after `ruby =`, on one line. -/
def quotedEntry? (s : List Char) : Option (List Char) := do
  let rest ← literal? "ruby".toList s
  let rest ← literal? ['='] (Text.trimStart rest)
  match Text.trimStart rest with
  | quote :: rest =>
    if isQuote quote then
      let content := rest.takeWhile (fun c => !isQuote c && c != '\n')
      match rest.drop content.length with
      | close :: _ => if isQuote close then some content else none
      | [] => none
    else none
  | [] => none

/-- The version of a `.rtx.toml` file: the first quoted entry for `ruby`, unless it is empty. -/
def inRtxToml? (contents : List Char) : Option (List Char) :=
  (firstMatch? quotedEntry? contents).filter (fun content => !content.isEmpty)

/-- The engine and version that a file of a kind declares. -/
def inFile? (source : VersionSource) (contents : List Char) :
    Option (Option (List Char) × List Char) :=
  match source with
  | .devYml => (inDevYml? contents).map (fun v => (none, v))
  | .rubyVersion => inRubyVersion? contents
  | .globalRbenv => inRubyVersion? contents
  | .toolVersions => (inToolVersions? contents).map (fun v => (none, v))
  | .rtxToml => (inRtxToml? contents).map (fun v => (none, v))

/-- The files that may declare the version for a directory, in the order in which they count. -/
def candidates (directory : Path) (home : Option Path) : List (VersionSource × Path) :=
  [(.devYml, directory.join "dev.yml")]
    ++ directory.ancestors.map (fun d => (.rubyVersion, d.join ".ruby-version"))
    ++ (home.map fun h => (VersionSource.globalRbenv, (h.join ".rbenv").join "version")).toList
    ++ directory.ancestors.map (fun d => (.toolVersions, d.join ".tool-versions"))
    ++ [(.rtxToml, directory.join ".rtx.toml")]

/-- The first candidate that can be read, with its text. -/
def firstReadable? (files : FileTree) :
    List (VersionSource × Path) → Option (VersionSource × Path × String)
  | [] => none
  | (source, path) :: rest =>
    match files.readText path with
    | .ok contents => some (source, path, contents)
    | .error _ => firstReadable? files rest

/-- What one readable candidate declares. -/
def ofContents (source : VersionSource) (path : Path) (contents : String) :
    Except RubyError Declaration :=
  match inFile? source contents.toList with
  | some (engine, version) =>
    .ok ⟨engine.map String.ofList, String.ofList version, source, path⟩
  | none => .error (.invalidVersionFile path source)

/-- The version declared for a directory. -/
def read (files : FileTree) (directory : Path) (home : Option Path) :
    Except RubyError Declaration :=
  match firstReadable? files (candidates directory home) with
  | some (source, path, contents) => ofContents source path contents
  | none => .error (.noVersionDeclared directory)

end Declaration

end RubySupervisor
