import RubySupervisor.Shell.Quoting
import RubySupervisor.Text.Utf8

/-!
# Options of tools

Arguments behind one dash are letters, arguments behind two dashes are names for letters. The value
of an option is the rest of its argument, or the next argument. Operands may stand between options
unless the tool runs its operands; two dashes alone end the options.
-/

namespace RubySupervisor.Shell

/-- The options that a tool knows. -/
structure OptionGrammar where
  /-- The letters of options without a value. -/
  plain : String
  /-- The letters of options with a value. -/
  valued : String := ""
  /-- The letters of options with a value only if it is attached to them. -/
  attached : String := ""
  /-- Names for the letters. -/
  names : List (String × Char) := []
  /-- Nothing behind the first operand is an option. -/
  endsAtOperand : Bool := false

/-- What arguments say. -/
structure Options where
  /-- The options in their order, with their values. -/
  given : List (Char × Bytes)
  operands : List Bytes

/-- What is wrong with an option. -/
inductive OptionFault where
  | unknown (letter : UInt8)
  | unknownName (argument : Bytes)
  | valueLacks (letter : Char)
  | valueOfNameLacks (name : String)
  | valueOfNameUnexpected (name : String)
  deriving DecidableEq, Repr

/-- The wording of the fault. -/
def OptionFault.message : OptionFault → String
  | unknown letter => "invalid option -- '" ++ Text.lossyText [letter] ++ "'"
  | unknownName argument => "unrecognized option '" ++ Text.lossyText argument ++ "'"
  | valueLacks letter => "option requires an argument -- '" ++ String.singleton letter ++ "'"
  | valueOfNameLacks name => "option '--" ++ name ++ "' requires an argument"
  | valueOfNameUnexpected name => "option '--" ++ name ++ "' doesn't allow an argument"

namespace Options

/-- Whether an option is given. -/
def has (o : Options) (letter : Char) : Bool := o.given.any (·.1 = letter)

/-- The values of an option, in their order. -/
def values (o : Options) (letter : Char) : List Bytes :=
  (o.given.filter (·.1 = letter)).map Prod.snd

/-- The value that counts, which is the last one. -/
def value? (o : Options) (letter : Char) : Option Bytes := (o.values letter).getLast?

/-- Of some letters the one that is given last. -/
def last? (o : Options) (letters : List Char) : Option Char :=
  ((o.given.map Prod.fst).filter letters.contains).getLast?

/-- Arguments on the way to options. -/
structure Progress where
  options : Options := ⟨[], []⟩
  /-- The option whose value is the next argument, and what is wrong if there is none. -/
  awaited : Option (Char × OptionFault) := none
  isOver : Bool := false

namespace Progress

/-- Adds an option. -/
def give (p : Progress) (letter : Char) (value : Bytes) : Progress :=
  { p with options.given := p.options.given ++ [(letter, value)], awaited := none }

/-- Reads the letters behind one dash. -/
def cluster (g : OptionGrammar) (p : Progress) : Bytes → Except OptionFault Progress
  | [] => .ok p
  | b :: rest =>
    let letter := Char.ofNat b.toNat
    if g.valued.toList.contains letter then
      if rest.isEmpty then .ok { p with awaited := some (letter, .valueLacks letter) }
      else .ok (p.give letter rest)
    else if g.attached.toList.contains letter then .ok (p.give letter rest)
    else if g.plain.toList.contains letter then cluster g (p.give letter []) rest
    else .error (.unknown b)

/-- Reads what stands behind two dashes: a name, or the only one that begins so. -/
def named (g : OptionGrammar) (p : Progress) (argument : Bytes) : Except OptionFault Progress :=
  let name := (argument.drop 2).takeWhile (· != byte '=')
  let value? := ((argument.drop 2).dropWhile (· != byte '=')).tail?
  let found := (g.names.find? (fun entry => bytesOf entry.1 = name)).orElse fun () =>
    match g.names.filter (fun entry => name.isPrefixOf (bytesOf entry.1)) with
    | [only] => some only
    | _ => none
  match found, value? with
  | none, _ => .error (.unknownName argument)
  | some (name, letter), value? =>
    match g.valued.toList.contains letter, value? with
    | true, some value => .ok (p.give letter value)
    | true, none => .ok { p with awaited := some (letter, .valueOfNameLacks name) }
    | false, none => .ok (p.give letter [])
    | false, some value =>
      if g.attached.toList.contains letter then .ok (p.give letter value)
      else .error (.valueOfNameUnexpected name)

/-- Reads one argument. -/
def step (g : OptionGrammar) (p : Progress) (argument : Bytes) : Except OptionFault Progress :=
  match p.awaited, argument with
  | some (letter, _), _ => .ok (p.give letter argument)
  | none, dash :: second :: rest =>
    if p.isOver || dash ≠ byte '-' then operand
    else if second ≠ byte '-' then p.cluster g (second :: rest)
    else if rest.isEmpty then .ok { p with isOver := true }
    else p.named g argument
  | none, _ => operand
where
  operand : Except OptionFault Progress :=
    .ok { p with
      options.operands := p.options.operands ++ [argument]
      isOver := p.isOver || g.endsAtOperand }

end Progress

/-- Reads arguments. -/
def read (g : OptionGrammar) (arguments : List Bytes) : Except OptionFault Options := do
  let p ← arguments.foldlM (Progress.step g) {}
  match p.awaited with
  | some (_, fault) => throw fault
  | none => return p.options

end Options

end RubySupervisor.Shell
