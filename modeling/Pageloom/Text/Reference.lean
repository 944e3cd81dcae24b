import Pageloom.Text.ReferenceTable
import Pageloom.Text.Basic

/-!
# Character references

Reading `&amp;`, `&#38;` and `&#x26;` as the characters that they stand for, and writing the markup
characters of a text as references. A reference must end in a semicolon here. A name that is not in
the table is read by its longest beginning that old documents wrote without a semicolon.

## Main definitions

* `Reference.decode`: a text with its references read.
* `Reference.escape`: `&`, `<` and `>` as references; `Reference.escapeQuoted` the double quote,
  too.
-/

namespace Pageloom.Reference

/-! ### Numeric references -/

/-- What the codes 128 to 159 stand for: the characters of the old Windows code page. -/
def windowsCodes : List Nat :=
  [0x20AC, 0x81, 0x201A, 0x192, 0x201E, 0x2026, 0x2020, 0x2021, 0x2C6, 0x2030, 0x160, 0x2039, 0x152,
  0x8D, 0x17D, 0x8F, 0x90, 0x2018, 0x2019, 0x201C, 0x201D, 0x2022, 0x2013, 0x2014, 0x2DC, 0x2122,
  0x161, 0x203A, 0x153, 0x9D, 0x17E, 0x178]

/-- Codes that stand for nothing: control characters, and codes that are no character at all. -/
def isDropped (n : Nat) : Bool :=
  (1 ≤ n && n ≤ 8) || n == 11 || (14 ≤ n && n ≤ 31) || n == 127 ||
    (0xFDD0 ≤ n && n ≤ 0xFDEF) || 0xFFFE ≤ n % 0x10000

/-- The text of a numeric reference. -/
def ofCode (n : Nat) : Text :=
  if n = 0 then [Char.ofNat 0xFFFD]
  else if 128 ≤ n && n < 160 then [Char.ofNat (windowsCodes.getD (n - 128) 0xFFFD)]
  else if (0xD800 ≤ n && n ≤ 0xDFFF) || 0x10FFFF < n then [Char.ofNat 0xFFFD]
  else if isDropped n then []
  else [Char.ofNat n]

/-! ### Named references -/

/-- The text that a name stands for. -/
def ofName? (name : Text) : Option Text :=
  match name with
  | [] => none
  | c :: _ =>
    ((namesFrom c).find? fun entry => entry.1.toList == name).map fun entry =>
      entry.2.map Char.ofNat

/-- The text that a name stands for if it may stand without a semicolon. -/
def ofBareName? (name : Text) : Option Text :=
  if bareNames.any fun bare => bare.toList == name then ofName? name else none

/-- The longest beginning of `name`, of at most `length` characters, that may stand without a
semicolon: its text and what is left of the name. -/
def longestBare? (name : Text) : (length : Nat) → Option (Text × Text)
  | 0 => none
  | n + 1 =>
    match ofBareName? (name.take (n + 1)) with
    | some t => some (t, name.drop (n + 1))
    | none => longestBare? name n

/-! ### Reading -/

/-- Characters that a name consists of. -/
def isNameChar (c : Char) : Bool := !("\t\n\x0c <&#;".toList.elem c)

/-- The reference right behind an ampersand: its text and its length without the ampersand. -/
def read? (t : Text) : Option (Text × Nat) :=
  match t with
  | '#' :: x :: rest =>
    if x = 'x' || x = 'X' then
      let digits := rest.takeWhile fun c => (Text.hexValue? c).isSome
      if digits ≠ [] && (rest.drop digits.length).head? = some ';' then
        some (ofCode (Text.valueOf 16 (digits.filterMap Text.hexValue?)), digits.length + 3)
      else none
    else
      let digits := (x :: rest).takeWhile Char.isDigit
      if digits ≠ [] && digits.length ≤ 7 && ((x :: rest).drop digits.length).head? = some ';' then
        some (ofCode (Text.natValue digits), digits.length + 2)
      else none
  | _ =>
    let name := t.takeWhile isNameChar
    if name ≠ [] && name.length ≤ 32 && (t.drop name.length).head? = some ';' then
      match ofName? name with
      | some image => some (image, name.length + 1)
      | none =>
        (longestBare? name name.length).map fun (image, rest) =>
          (image ++ rest ++ [';'], name.length + 1)
    else none

/-- Reads references; the first `skip` characters belong to one that is already read. -/
def decodeFrom : (skip : Nat) → Text → Text
  | _, [] => []
  | n + 1, _ :: cs => decodeFrom n cs
  | 0, c :: cs =>
    if c = '&' then
      match read? cs with
      | some (image, length) => image ++ decodeFrom length cs
      | none => c :: decodeFrom 0 cs
    else c :: decodeFrom 0 cs

/-- The text with its references read. -/
def decode (t : Text) : Text := decodeFrom 0 t

/-! ### Writing -/

/-- The markup characters `&`, `<` and `>` as references. -/
def escapeChar (c : Char) : Text :=
  if c = '&' then "&amp;" else if c = '<' then "&lt;" else if c = '>' then "&gt;" else [c]

/-- A text with `&`, `<` and `>` written as references. -/
def escape (t : Text) : Text := (t.map escapeChar).flatten

/-- A text with `&`, `<`, `>` and the double quote written as references. -/
def escapeQuoted (t : Text) : Text :=
  (t.map fun c => if c = '"' then "&quot;".toList else escapeChar c).flatten

/-- References read, then written again where they are needed. -/
def normalize (t : Text) : Text := escapeQuoted (decode t)

end Pageloom.Reference
