import Pageloom.Text.Basic

/-!
# Base 64

Bytes written with 64 characters of ASCII, six bits each. Other characters between them do not
count. Padding that completes a group of four ends the text.

## Main definitions

* `Base64.decode?`: the bytes that a text stands for.
-/

namespace Pageloom.Base64

/-- The six bits that a character stands for. -/
def value? (c : Char) : Option Nat :=
  if c.isUpper then some (c.toNat - 'A'.toNat)
  else if c.isLower then some (c.toNat - 'a'.toNat + 26)
  else if c.isDigit then some (c.toNat - '0'.toNat + 52)
  else if c = '+' then some 62
  else if c = '/' then some 63
  else none

/-- Reads on inside a group of four characters: `place` of them are read, `bits` of the last one are
not written yet, and `pads` marks of padding came since. -/
def decodeFrom : (place bits pads : Nat) → Text → Option (List UInt8)
  | place, _, _, [] => if place = 0 then some [] else none
  | place, bits, pads, c :: cs =>
    if c = '=' then
      if 2 ≤ place && 4 ≤ place + pads + 1 then some []
      else decodeFrom place bits (if 2 ≤ place then pads + 1 else pads) cs
    else
      match value? c with
      | none => decodeFrom place bits pads cs
      | some v =>
        let byte (n : Nat) (rest : Option (List UInt8)) := rest.map (UInt8.ofNat n :: ·)
        match place with
        | 0 => decodeFrom 1 v 0 cs
        | 1 => byte (bits * 4 + v / 16) (decodeFrom 2 (v % 16) 0 cs)
        | 2 => byte (bits * 16 + v / 4) (decodeFrom 3 (v % 4) 0 cs)
        | _ => byte (bits * 64 + v) (decodeFrom 0 0 0 cs)

/-- The bytes that a text stands for, unless its last group is not complete. -/
def decode? (t : Text) : Option (List UInt8) := decodeFrom 0 0 0 t

end Pageloom.Base64
