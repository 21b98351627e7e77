import RubySupervisor.Text.Digit

/-!
# Fingerprints of texts

A keyed hash of bytes with a 64-bit result: one compression round per word and three rounds at
the end, the key being zero. The fingerprint of a text hashes its bytes and a closing byte 0xff.
-/

namespace RubySupervisor.Fingerprint

/-- The four words of the hash state. -/
structure Words where
  a : UInt64
  b : UInt64
  c : UInt64
  d : UInt64

/-- The word rotated to the left. -/
def rotate (x : UInt64) (n : UInt64) : UInt64 := (x <<< n) ||| (x >>> (64 - n))

/-- One round of mixing. -/
def Words.mix (w : Words) : Words :=
  let a := w.a + w.b
  let b := rotate w.b 13 ^^^ a
  let a := rotate a 32
  let c := w.c + w.d
  let d := rotate w.d 16 ^^^ c
  let a := a + d
  let d := rotate d 21 ^^^ a
  let c := c + b
  let b := rotate b 17 ^^^ c
  let c := rotate c 32
  ⟨a, b, c, d⟩

/-- The state before any input, for the zero key. -/
def Words.start : Words :=
  ⟨0x736f6d6570736575, 0x646f72616e646f6d, 0x6c7967656e657261, 0x7465646279746573⟩

/-- Takes in one word of input. -/
def Words.absorb (w : Words) (m : UInt64) : Words :=
  let w := ({ w with d := w.d ^^^ m } : Words).mix
  { w with a := w.a ^^^ m }

/-- The number that bytes form, the first byte being the lowest. -/
def littleEndian : List UInt8 → UInt64
  | [] => 0
  | byte :: rest => byte.toUInt64 ||| (littleEndian rest <<< 8)

/-- Takes in all whole words of the input and returns the bytes left over. -/
def absorbWords : (fuel : Nat) → Words → List UInt8 → Words × List UInt8
  | 0, w, bytes => (w, bytes)
  | fuel + 1, w, bytes =>
    if bytes.length < 8 then (w, bytes)
    else absorbWords fuel (w.absorb (littleEndian (bytes.take 8))) (bytes.drop 8)

/-- The hash of bytes. -/
def ofBytes (bytes : List UInt8) : UInt64 :=
  let (w, rest) := absorbWords bytes.length Words.start bytes
  let last := littleEndian rest ||| (UInt64.ofNat (bytes.length % 256) <<< 56)
  let w := w.absorb last
  let w := ({ w with c := w.c ^^^ 0xff } : Words).mix.mix.mix
  w.a ^^^ w.b ^^^ w.c ^^^ w.d

/-- The fingerprint of a text as sixteen hexadecimal digits. -/
def ofText (s : String) : String :=
  Text.hexPadded 16 (ofBytes (s.toUTF8.toList ++ [0xff])).toNat

end RubySupervisor.Fingerprint
