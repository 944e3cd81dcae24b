import Pageloom.Text.Category

/-!
# Quoted texts

The quoted form in which messages show a text, so that its ends and its control characters can be
seen: single quotes, or double ones for a text that holds a single quote and no double one. The
quote, the backslash, and every character that is not printable are escaped.

## Main definitions

* `Text.quoted`: the quoted form.
* `Pageloom.quoteBytes`: the same for raw bytes.
-/

namespace Pageloom

/-- The escape of a character that cannot be printed: two, four or eight hexadecimal digits. -/
def escapeCode (n : Nat) : Text :=
  if n < 0x100 then "\\x" ++ Text.ofHex 2 n
  else if n < 0x10000 then "\\u" ++ Text.ofHex 4 n
  else "\\U" ++ Text.ofHex 8 n

/-- One character between quotes of the given kind. -/
def quoteChar (quote c : Char) : Text :=
  if c = quote || c = '\\' then ['\\', c]
  else if c = '\n' then "\\n"
  else if c = '\r' then "\\r"
  else if c = '\t' then "\\t"
  else if isPrintable c then [c]
  else escapeCode c.toNat

/-- The quote that surrounds a text: a double one only if that saves escapes for certain. -/
def quoteFor (t : Text) : Char := if t.contains '\'' && !t.contains '"' then '"' else '\''

/-- The text between quotes, with everything escaped that could not be told from its
surroundings. -/
def Text.quoted (t : Text) : Text :=
  let quote := quoteFor t
  quote :: (t.map (quoteChar quote)).flatten ++ [quote]

/-- Bytes between quotes, ASCII as itself and the rest as hexadecimal escapes. -/
def quoteBytes (bytes : List UInt8) : Text :=
  let chars := bytes.map fun b => Char.ofNat b.toNat
  let quote := quoteFor chars
  let one (c : Char) : Text :=
    if c.toNat < 127 then quoteChar quote c else "\\x" ++ Text.ofHex 2 c.toNat
  "b" ++ quote :: (chars.map one).flatten ++ [quote]

end Pageloom
