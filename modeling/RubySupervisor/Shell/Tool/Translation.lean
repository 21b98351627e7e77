import RubySupervisor.Shell.Tool.Call

/-!
# Translation of bytes

Sets of bytes, as they are listed by arguments, and the tool that translates, drops and squeezes the
bytes of its input.
-/

namespace RubySupervisor.Shell

namespace Tool

/-- A byte that a backslash stands for. -/
def unescaped (c : UInt8) : UInt8 :=
  if c = byte 'n' then byte '\n' else if c = byte 't' then byte '\t'
  else if c = byte 'r' then byte '\r' else if c = byte 'a' then 7 else if c = byte 'b' then 8
  else if c = byte 'f' then 12 else if c = byte 'v' then 11 else c

/-- The bytes from one to another. -/
def bytesFrom (low high : UInt8) : Bytes :=
  (List.range (high.toNat + 1 - low.toNat)).map (fun n => UInt8.ofNat (low.toNat + n))

/-- A byte with the number of its repetitions at the front of a set, and what follows it. The last
byte of a set stands for all that would follow, so a repetition without a number is one byte. -/
def repetition? : Bytes → Option (UInt8 × Nat × Bytes)
  | opening :: b :: star :: rest =>
    let digits := rest.takeWhile (fun b => byte '0' ≤ b && b ≤ byte '9')
    if opening = byte '[' && star = byte '*'
        && (rest.drop digits.length).head? = some (byte ']') then
      some (b, max 1 ((natOf? digits).getD 1), rest.drop (digits.length + 1))
    else none
  | _ => none

/-- The bytes that a set of characters lists. -/
def listed : (fuel : Nat) → Bytes → Bytes
  | 0, _ => []
  | _, [] => []
  | fuel + 1, c :: rest =>
    match Pattern.class? (c :: rest), repetition? (c :: rest) with
    | some (ranges, rest), _ =>
      ranges.flatMap (fun range => bytesFrom range.1 range.2) ++ listed fuel rest
    | none, some (b, times, rest) => List.replicate times b ++ listed fuel rest
    | none, none =>
      let (low, rest) : UInt8 × Bytes :=
        match rest with
        | d :: others =>
          if c = byte '\\' then
            let digits := (rest.takeWhile (fun b => byte '0' ≤ b && b ≤ byte '7')).take 3
            if digits.isEmpty then (unescaped d, others)
            else (UInt8.ofNat (digits.foldl (fun n b => n * 8 + (b.toNat - 48)) 0),
              rest.drop digits.length)
          else (c, rest)
        | [] => (c, [])
      match rest with
      | dash :: high :: rest =>
        if dash = byte '-' then bytesFrom low high ++ listed fuel rest
        else low :: listed fuel (dash :: high :: rest)
      | rest => low :: listed fuel rest

/-- Drops repetitions of the bytes of a set. -/
def squeeze (isSqueezed : UInt8 → Bool) : Bytes → Bytes
  | a :: b :: rest =>
    if a = b && isSqueezed a then squeeze isSqueezed (b :: rest)
    else a :: squeeze isSqueezed (b :: rest)
  | s => s

/-- What is wrong with the number of sets, if something is. -/
def setsFault (o : Options) : Option String :=
  let name (s : Bytes) : String := Quoting.forReading s
  let isEnough := o.has 'd' != o.has 's'
  match o.operands with
  | [] => some "missing operand"
  | [only] =>
    if isEnough then none
    else
      some ("missing operand after " ++ name only
        ++ (if o.has 'd' then "\nTwo strings must be given when both deleting and squeezing repeats."
          else "\nTwo strings must be given when translating."))
  | [_, second] =>
    if o.has 'd' && !o.has 's' then
      some ("extra operand " ++ name second
        ++ "\nOnly one string may be given when deleting without squeezing repeats.")
    else none
  | _ :: _ :: third :: _ => some ("extra operand " ++ name third)

/-- Translates or drops bytes. -/
def tr (c : ToolCall) : ToolRun :=
  let names := [("complement", 'c'), ("delete", 'd'), ("squeeze-repeats", 's'),
    ("truncate-set1", 't')]
  c.withOptions { plain := "cCdst", names, endsAtOperand := true } 1 fun o =>
    match setsFault o with
    | some fault => c.lacking fault
    | none =>
      let set (n : Nat) : Bytes := ((o.operands[n]?).map (fun s => listed (s.length + 1) s)).getD []
      let others := o.has 'c' || o.has 'C'
      let second := set 1
      let first := if o.has 't' then (set 0).take second.length else set 0
      let inFirst (b : UInt8) : Bool := first.contains b != others
      let output :=
        if o.has 'd' then c.input.filter (!inFirst ·)
        else if o.operands.length < 2 then c.input
        else
          c.input.map fun b =>
            if !inFirst b then b
            else if others then second.getLast?.getD b
            else ((second[first.idxOf b]?).orElse (fun () => second.getLast?)).getD b
      let isSqueezed := if o.operands.length < 2 then inFirst else second.contains
      c.streamed (if o.has 's' then squeeze isSqueezed output else output) 0

end Tool

end RubySupervisor.Shell
