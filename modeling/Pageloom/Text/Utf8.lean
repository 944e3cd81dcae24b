import Pageloom.Text.Basic

/-!
# UTF-8

Strict decoding: no overlong forms, no surrogates, nothing above U+10FFFF. The first byte sequence
that breaks the rules is reported with its place and with what is wrong with it.

## Main definitions

* `Utf8.encode`, `Utf8.decode`; `Utf8.decodeLossy` reads bad sequences as replacement characters.
* `Utf8.Malformed`: the first bad sequence; `Utf8.Malformed.message` words it.
-/

namespace Pageloom.Utf8

/-- What is wrong with a byte sequence. -/
inductive Fault where
  /-- The first byte can never begin a character. -/
  | invalidStart
  /-- A byte inside the sequence does not continue it. -/
  | invalidContinuation
  /-- The input ends inside the sequence. -/
  | unexpectedEnd
  /-- The byte lies outside ASCII where only ASCII is read. -/
  | outOfRange
deriving Repr, DecidableEq

/-- The wording of a fault. -/
def Fault.message : Fault → Text
  | .invalidStart => "invalid start byte"
  | .invalidContinuation => "invalid continuation byte"
  | .unexpectedEnd => "unexpected end of data"
  | .outOfRange => "ordinal not in range(128)"

/-- The first bad sequence of an input: `length` bytes from `position` on, of which `byte` is the
first. -/
structure Malformed where
  position : Nat
  length : Nat
  byte : UInt8
  fault : Fault
deriving Repr, DecidableEq

/-- The report on a bad sequence for an encoding of the given name. -/
def Malformed.message (encoding : Text) (m : Malformed) : Text :=
  let place :=
    if m.length = 1 then
      "byte 0x" ++ Text.ofHex 2 m.byte.toNat ++ " in position " ++ Text.ofNat m.position
    else
      "bytes in position " ++ Text.ofNat m.position ++ "-" ++
        Text.ofNat (m.position + m.length - 1)
  "'" ++ encoding ++ "' codec can't decode " ++ place ++ ": " ++ m.fault.message

/-! ### Encoding -/

/-- The bytes of a text. -/
def encode (t : Text) : List UInt8 := t.flatMap String.utf8EncodeChar

/-! ### Decoding -/

/-- How many bytes follow a lead byte, and the range of the first of them. The range keeps out
overlong forms, surrogates, and codes above U+10FFFF. -/
def leadByte? (b : Nat) : Option (Nat × Nat × Nat) :=
  if b < 0xC2 then none
  else if b < 0xE0 then some (1, 0x80, 0xBF)
  else if b = 0xE0 then some (2, 0xA0, 0xBF)
  else if b = 0xED then some (2, 0x80, 0x9F)
  else if b < 0xF0 then some (2, 0x80, 0xBF)
  else if b = 0xF0 then some (3, 0x90, 0xBF)
  else if b < 0xF4 then some (3, 0x80, 0xBF)
  else if b = 0xF4 then some (3, 0x80, 0x8F)
  else none

/-- Reads `missing` more bytes of a sequence whose bits so far are `code` and of which `seen` bytes
are read. The next byte must lie between `low` and `high`, those after it anywhere among the
continuation bytes. On failure it tells how many bytes the bad sequence has. -/
def readTail (code : Nat) : (missing seen low high : Nat) → List UInt8 → Except (Nat × Fault) Nat
  | 0, _, _, _, _ => .ok code
  | _ + 1, seen, _, _, [] => .error (seen, .unexpectedEnd)
  | missing + 1, seen, low, high, b :: bs =>
    if low ≤ b.toNat && b.toNat ≤ high then
      readTail (code * 64 + (b.toNat - 0x80)) missing (seen + 1) 0x80 0xBF bs
    else .error (seen, .invalidContinuation)

/-- The character that begins with byte `b` and goes on in `bs`, and how many bytes of `bs` it
takes. -/
def readChar (b : UInt8) (bs : List UInt8) : Except (Nat × Fault) (Char × Nat) :=
  if b.toNat < 0x80 then .ok (Char.ofNat b.toNat, 0)
  else
    match leadByte? b.toNat with
    | none => .error (1, .invalidStart)
    | some (tail, low, high) =>
      let bits := b.toNat % (if tail = 1 then 32 else if tail = 2 then 16 else 8)
      (readTail bits tail 1 low high bs).map fun code => (Char.ofNat code, tail)

/-- Decodes from `position` on; the first `skip` bytes belong to a character already read. -/
def decodeFrom (position : Nat) : (skip : Nat) → List UInt8 → Except Malformed Text
  | _, [] => .ok []
  | n + 1, _ :: bs => decodeFrom (position + 1) n bs
  | 0, b :: bs =>
    match readChar b bs with
    | .error (length, fault) => .error ⟨position, length, b, fault⟩
    | .ok (c, tail) => (decodeFrom (position + 1) tail bs).map (c :: ·)

/-- The text that the bytes encode. -/
def decode (bytes : List UInt8) : Except Malformed Text := decodeFrom 0 0 bytes

/-- Decodes with a replacement character for each bad sequence; the first `skip` bytes are already
accounted for. -/
def decodeLossyFrom : (skip : Nat) → List UInt8 → Text
  | _, [] => []
  | n + 1, _ :: bs => decodeLossyFrom n bs
  | 0, b :: bs =>
    match readChar b bs with
    | .error (length, _) => Char.ofNat 0xFFFD :: decodeLossyFrom (length - 1) bs
    | .ok (c, tail) => c :: decodeLossyFrom tail bs

/-- The text that the bytes encode, with a replacement character for each bad sequence. -/
def decodeLossy (bytes : List UInt8) : Text := decodeLossyFrom 0 bytes

/-- The text of bytes that must be ASCII. -/
def decodeAscii (position : Nat) : List UInt8 → Except Malformed Text
  | [] => .ok []
  | b :: bs =>
    if b.toNat < 0x80 then (decodeAscii (position + 1) bs).map (Char.ofNat b.toNat :: ·)
    else .error ⟨position, 1, b, .outOfRange⟩

end Pageloom.Utf8
