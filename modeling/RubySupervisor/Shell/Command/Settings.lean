import RubySupervisor.Shell.Quoting
import RubySupervisor.Shell.State
import RubySupervisor.Shell.Tool.Options
import RubySupervisor.Text.Blank
import RubySupervisor.Text.Digit

/-!
# Options of commands and settings of a shell

The commands of a shell take options of one letter. A shell and the command that changes its
settings take modes, by letter or by name, and turn them on behind a dash and off behind a plus
sign. A script reads options of its own one at a time.
-/

namespace RubySupervisor.Shell

/-- What a command of the shell says about an option. -/
def OptionFault.complaint : OptionFault → String
  | unknown letter => "Illegal option -" ++ Text.lossyText [letter]
  | valueLacks letter => "No arg for -" ++ String.singleton letter ++ " option"
  | _ => "Illegal option --"

/-- The options in front of the operands of a command. -/
def commandOptions (plain valued : String) (arguments : List Bytes) : Except String Options :=
  (Options.read { plain, valued, endsAtOperand := true } arguments).mapError OptionFault.complaint

/-- What the arguments of a shell ask for. -/
structure Settings where
  modes : Modes
  /-- What is shown of the modes. -/
  shown : String := ""
  /-- The first operand is the text of a script. -/
  isText : Bool := false
  operands : List Bytes
  /-- The operands take the place of the arguments even if there are none. -/
  isFinal : Bool := false

namespace Settings

/-- Reads the letters of modes; the letter `o` takes the name of a mode from the operands. -/
def cluster (forShell on : Bool) : List Char → Settings → Except String Settings
  | [], s => .ok s
  | c :: letters, s =>
    if c = 'c' ∧ forShell then cluster forShell on letters { s with isText := true }
    else if c = 'l' ∧ forShell then cluster forShell on letters s
    else if c = 'o' then
      match s.operands with
      | [] => cluster forShell on letters
          { s with shown := s.shown ++ if on then s.modes.table else s.modes.restoring }
      | name :: operands =>
        match Mode.ofName? (Text.lossyText name) with
        | some mode =>
          cluster forShell on letters { s with modes := s.modes.turn on mode, operands }
        | none => .error ("Illegal option -o " ++ Text.lossyText name)
    else
      match Mode.ofLetter? c with
      | some mode => cluster forShell on letters { s with modes := s.modes.turn on mode }
      | none => .error ("Illegal option -" ++ String.singleton c)

/-- Reads so many operands as settings. -/
def readUpTo (forShell : Bool) : (fuel : Nat) → Settings → Except String Settings
  | 0, s => .ok s
  | fuel + 1, s =>
    match s.operands with
    | [] => .ok s
    | operand :: operands =>
      match (Text.lossyText operand).toList with
      | ['-'] =>
        .ok { s with modes := (s.modes.turn false .xtrace).turn false .verbose, operands }
      | ['-', '-'] => .ok { s with operands, isFinal := true }
      | '-' :: letters => do
        readUpTo forShell fuel (← cluster forShell true letters { s with operands })
      | '+' :: letters => do
        readUpTo forShell fuel (← cluster forShell false letters { s with operands })
      | _ => .ok s

/-- The settings that arguments ask for. -/
def read (forShell : Bool) (modes : Modes) (arguments : List Bytes) : Except String Settings :=
  readUpTo forShell arguments.length { modes, operands := arguments }

end Settings

/-- What looking for the next option of a script gives. -/
structure OptionStep where
  /-- The letter, or what stands for an end or a fault. -/
  letter : Bytes
  /-- The value of the option; none if that of the last one stays. -/
  value : Option Bytes
  complaint : Option String
  isOver : Bool
  /-- The number of the argument in which to look next, and where in the one before it. -/
  word : Nat
  place : Option Nat

/-- The characters of the option in which the search goes on, if some are left of it. -/
def pendingLetters (arguments : List Bytes) (word : Nat) (place : Option Nat) : Bytes :=
  match place, arguments[word - 2]? with
  | some n, some argument => if word ≤ 1 then [] else argument.drop n
  | _, _ => []

/-- Looks up a letter among those that a script knows; the answer says whether it takes a value. -/
def knownLetter? (letter : UInt8) : Bytes → Option Bool
  | [] => none
  | known :: rest =>
    let takesValue := rest.head? = some (byte ':')
    if known = letter then some takesValue
    else
      match rest with
      | next :: others =>
        if next = byte ':' then knownLetter? letter others else knownLetter? letter (next :: others)
      | [] => none

/-- Looks for the next option of a script. If the list of letters begins with a colon, faults are
told in the values. -/
def nextOption (known : Bytes) (arguments : List Bytes) (word : Nat) (place : Option Nat) :
    OptionStep :=
  let ended (word : Nat) : OptionStep := ⟨[byte '?'], none, none, true, word, none⟩
  let isQuiet := known.head? = some (byte ':')
  let found (letters : Bytes) (word : Nat) : OptionStep :=
    match letters with
    | [] => ended word
    | letter :: rest =>
      let place := (arguments[word - 2]?).map (·.length - rest.length)
      let fault (asked : Char) (text : String) (place : Option Nat) : OptionStep :=
        if isQuiet then ⟨[byte asked], some [letter], none, false, word, place⟩
        else ⟨[byte '?'], some [], some text, false, word, place⟩
      match knownLetter? letter known with
      | none => fault '?' ("Illegal option -" ++ Text.lossyText [letter]) place
      | some false => ⟨[letter], some [], none, false, word, place⟩
      | some true =>
        if !rest.isEmpty then ⟨[letter], some rest, none, false, word, none⟩
        else
          match arguments[word - 1]? with
          | some value => ⟨[letter], some value, none, false, word + 1, none⟩
          | none => fault ':' ("No arg for -" ++ Text.lossyText [letter] ++ " option") none
  match pendingLetters arguments word place with
  | [] =>
    match arguments[word - 1]? with
    | some (dash :: letter :: rest) =>
      if dash ≠ byte '-' then ended word
      else if letter = byte '-' && rest.isEmpty then ended (word + 1)
      else found (letter :: rest) (word + 1)
    | _ => ended word
  | letters => found letters word

/-- The letters that a symbolic mask names as owners, and the bits of each. -/
def maskShifts : List (Char × List Nat) :=
  [('u', [6]), ('g', [3]), ('o', [0]), ('a', [6, 3, 0])]

/-- The permissions that letters name, for one owner; an owner stands for what it has. -/
def permissionBits (mask : Nat) (letters : List Char) : Nat :=
  letters.foldl (fun bits c =>
    bits ||| match c with
      | 'r' => 4
      | 'w' => 2
      | 'x' => 1
      | 'u' => (7 - mask / 64 % 8)
      | 'g' => (7 - mask / 8 % 8)
      | 'o' => (7 - mask % 8)
      | _ => 0) 0

/-- The mask after one symbolic change, if it is one. -/
def changedMask? (mask : Nat) (change : List Char) : Option Nat :=
  let (owners, rest) := change.span (maskShifts.map Prod.fst).contains
  match rest with
  | operator :: letters =>
    if !(['+', '-', '='].contains operator) || !letters.all "rwxXstugo".toList.contains then none
    else
      let shifts := if owners.isEmpty then [6, 3, 0]
        else (owners.flatMap (fun c => (maskShifts.lookup c).getD [])).eraseDups
      let bits := permissionBits mask letters
      some (shifts.foldl (fun mask shift =>
        let old := mask / Nat.pow 2 shift % 8
        let new := match operator with
          | '+' => old - (old &&& bits)
          | '-' => old ||| bits
          | _ => 7 - bits
        mask - old * Nat.pow 2 shift + new * Nat.pow 2 shift) mask)
  | [] => if owners.isEmpty then none else some mask

/-- The mask that an argument asks for, or what is wrong with it. -/
def maskOf (mask : Nat) (argument : Bytes) : Except String Nat :=
  let text := (Text.lossyText argument).toList
  if text.head?.any Text.isAsciiDigit then
    if text.all (fun c => '0' ≤ c && c ≤ '7') then
      .ok (text.foldl (fun n c => n * 8 + (c.toNat - 48)) 0 % 512)
    else .error ("Illegal number: " ++ Text.lossyText argument)
  else
    match (Text.splitAt ',' (String.ofList text)).foldlM
      (fun mask change => changedMask? mask change.toList) mask with
    | some mask => .ok mask
    | none => .error ("Illegal mode: " ++ Text.lossyText argument)

/-- The digits of a mask. -/
def maskDigits (mask : Nat) : String :=
  let digits := Nat.toDigits 8 mask
  String.ofList (List.replicate (4 - digits.length) '0' ++ digits)

/-- The permissions that a mask leaves to each owner. -/
def maskText (mask : Nat) : String :=
  ",".intercalate ([("u", 64), ("g", 8), ("o", 1)].map fun (owner, unit) =>
    let bits := 7 - mask / unit % 8
    owner ++ "=" ++ String.ofList ((if bits / 4 = 1 then ['r'] else [])
      ++ (if bits / 2 % 2 = 1 then ['w'] else []) ++ if bits % 2 = 1 then ['x'] else []))

end RubySupervisor.Shell
