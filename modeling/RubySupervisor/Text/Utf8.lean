/-!
# Text from bytes

Files and streams hold bytes. A strict reader refuses bytes that are not UTF-8; a lossy reader
puts one replacement character for every maximal part of an ill-formed sequence.
-/

namespace RubySupervisor.Text

/-- The text that the bytes encode in UTF-8, if they do. -/
def ofUtf8? (bytes : ByteArray) : Option String := String.fromUTF8? bytes

/-- How many bytes follow a first byte, and the range of the second byte. -/
def sequenceShape? (b : Nat) : Option (Nat × Nat × Nat) :=
  if 0xC2 ≤ b && b ≤ 0xDF then some (1, 0x80, 0xBF)
  else if b == 0xE0 then some (2, 0xA0, 0xBF)
  else if b == 0xED then some (2, 0x80, 0x9F)
  else if 0xE1 ≤ b && b ≤ 0xEF then some (2, 0x80, 0xBF)
  else if b == 0xF0 then some (3, 0x90, 0xBF)
  else if b == 0xF4 then some (3, 0x80, 0x8F)
  else if 0xF1 ≤ b && b ≤ 0xF3 then some (3, 0x80, 0xBF)
  else none

/-- Reads bytes of one character: `owed` continuation bytes are due, the next one between `low`
and `high`, and `value` holds the bits read so far. -/
def lossyFrom : (owed low high value : Nat) → List UInt8 → List Char
  | 0, _, _, _, [] => []
  | _ + 1, _, _, _, [] => ['\ufffd']
  | 0, _, _, _, byte :: rest =>
    let b := byte.toNat
    if b < 0x80 then Char.ofNat b :: lossyFrom 0 0 0 0 rest
    else
      match sequenceShape? b with
      | none => '\ufffd' :: lossyFrom 0 0 0 0 rest
      | some (1, low, high) => lossyFrom 1 low high (b % 0x20) rest
      | some (2, low, high) => lossyFrom 2 low high (b % 0x10) rest
      | some (_, low, high) => lossyFrom 3 low high (b % 8) rest
  | owed + 1, low, high, value, byte :: rest =>
    let b := byte.toNat
    if low ≤ b && b ≤ high then
      let value := value * 64 + b % 64
      if owed = 0 then Char.ofNat value :: lossyFrom 0 0 0 0 rest
      else lossyFrom owed 0x80 0xBF value rest
    else if b < 0x80 then '\ufffd' :: Char.ofNat b :: lossyFrom 0 0 0 0 rest
    else
      match sequenceShape? b with
      | none => '\ufffd' :: '\ufffd' :: lossyFrom 0 0 0 0 rest
      | some (1, low, high) => '\ufffd' :: lossyFrom 1 low high (b % 0x20) rest
      | some (2, low, high) => '\ufffd' :: lossyFrom 2 low high (b % 0x10) rest
      | some (_, low, high) => '\ufffd' :: lossyFrom 3 low high (b % 8) rest

/-- The text of the bytes, with replacement characters where they are not UTF-8. -/
def lossyText (bytes : List UInt8) : String := String.ofList (lossyFrom 0 0 0 0 bytes)

/-- The bytes of a text in UTF-8. -/
def utf8 (s : String) : List UInt8 := s.toUTF8.toList

theorem ofUtf8?_toUTF8 (s : String) : ofUtf8? s.toUTF8 = some s :=
  dif_pos s.isValidUTF8

end RubySupervisor.Text
