import Pageloom.Text.Blank
import Pageloom.Text.Category
import Pageloom.Text.Quoted

/-!
# Integers in texts

Reading a whole number from a text that holds nothing else but blanks around it. The digits may be
decimal digits of any script. A decimal number with very many digits is refused before it is read,
since the time for reading it grows faster than its length, and for the same reason a number that
was read in another base is not written with so many.

## Main definitions

* `Integer.read`: the number that a text spells in a base.
* `Integer.isWritable`: whether a number is written in decimal digits.
* `Integer.Fault`: why a text is no number or a number gets no text, and how that is worded.
-/

namespace Pageloom.Integer

/-- Why a text cannot be read as a number, or a number not be written. -/
inductive Fault where
  /-- The text has more decimal digits than are read. -/
  | tooLong (digits : Nat)
  /-- The text does not spell a number in the base. -/
  | invalid (base : Nat) (t : Text)
  /-- The number has more decimal digits than are written. -/
  | unwritable
deriving Repr, DecidableEq

/-- The greatest number of decimal digits of a number that is read or written. -/
def maxDigits : Nat := 4300

/-- The wording of a fault. -/
def Fault.message : Fault → Text
  | .tooLong digits =>
    "Exceeds the limit (4300 digits) for integer string conversion: value has " ++
      Text.ofNat digits ++ " digits; use sys.set_int_max_str_digits() to increase the limit"
  | .invalid base t =>
    "invalid literal for int() with base " ++ Text.ofNat base ++ ": " ++ Text.quoted t
  | .unwritable =>
    "Exceeds the limit (4300 digits) for integer string conversion; " ++
      "use sys.set_int_max_str_digits() to increase the limit"

/-- Whether a number is written in decimal digits: there are not too many of them. -/
def isWritable (n : Int) : Bool := (Text.ofNat n.natAbs).length ≤ maxDigits

/-- The value of a digit of any script, or of a letter used as a digit. -/
def digitValue? (c : Char) : Option Nat :=
  if isDecimal c then some (decimalValue c) else Text.hexValue? c

/-- The value of a digit in the given base. -/
def digitBelow? (base : Nat) (c : Char) : Option Nat := (digitValue? c).filter (· < base)

/-- The values of the digits at the start of a text, and what follows them. -/
def digits (base : Nat) : Text → List Nat × Text
  | [] => ([], [])
  | c :: cs =>
    match digitBelow? base c with
    | some d =>
      let (ds, rest) := digits base cs
      (d :: ds, rest)
    | none => ([], c :: cs)

/-- A sign at the start, as whether it is a minus, and what follows it. -/
def sign (t : Text) : Bool × Text :=
  match t with
  | '-' :: cs => (true, cs)
  | '+' :: cs => (false, cs)
  | _ => (false, t)

/-- The number with the given sign. -/
def signed (negative : Bool) (n : Nat) : Int := if negative then -(n : Int) else n

/-- The letter that names a base behind a leading zero. -/
def baseLetter? (base : Nat) : Option Char :=
  if base = 16 then some 'x' else if base = 8 then some 'o' else if base = 2 then some 'b' else none

/-- What follows the name of the base, if it stands at the start. -/
def dropBase (base : Nat) (t : Text) : Text :=
  match t, baseLetter? base with
  | '0' :: c :: cs, some letter => if c.toLower = letter then cs else t
  | _, _ => t

/-- The number that a text spells in the given base. -/
def read (base : Nat) (t : Text) : Except Fault Int :=
  let (negative, rest) := sign (Text.strip t)
  let (ds, rest) := digits base (dropBase base rest)
  if base = 10 && maxDigits < ds.length then .error (.tooLong ds.length)
  else if ds = [] || rest ≠ [] then .error (.invalid base t)
  else .ok (signed negative (Text.valueOf base ds))

end Pageloom.Integer
