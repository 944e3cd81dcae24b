import Pageloom.Text.Case
import Pageloom.Text.Integer

/-!
# Binary floating-point numbers

The numbers `m * 2 ^ e` with a mantissa of at most 53 bits, infinity, and the value that is no
number. They are kept exactly, and every operation first computes exactly in natural numbers and
then rounds once, to the nearest number and to the even mantissa when two are equally near. So what
is said about an operation is a statement about natural numbers.

A number is written with the fewest digits that read back as it, the nearest such digits.

## Main definitions

* `Binary64`: the numbers; `Binary64.round`: the number nearest to a quotient.
* `Binary64.read`: the number that a text spells.
* `Binary64.shortest`: the digits and the decimal exponent that a number is written with.
* `Binary64.text`: its written form.
-/

namespace Pageloom

/-- A binary floating-point number. A finite one is `mantissa * 2 ^ exponent` with at most 53 bits
of mantissa and an exponent of at least -1074; the mantissa has 53 bits unless the exponent is
-1074. -/
inductive Binary64 where
  | finite (negative : Bool) (mantissa : Nat) (exponent : Int)
  | infinite (negative : Bool)
  | notNumber
deriving Repr, DecidableEq

namespace Binary64

/-- The least exponent. -/
def minExponent : Int := -1074

/-- The greatest exponent. -/
def maxExponent : Int := 971

/-- Zero. -/
def zero : Binary64 := .finite false 0 minExponent

/-! ### Rounding -/

/-- A quotient times a power of two, as a quotient. -/
def scale (num den : Nat) (e : Int) : Nat × Nat :=
  if 0 ≤ e then (num * Nat.pow 2 e.toNat, den) else (num, den * Nat.pow 2 (-e).toNat)

/-- The natural number nearest to a quotient, the even one of two. -/
def nearest (num den : Nat) : Nat :=
  let q := num / den
  let r := num % den
  if den < 2 * r || (2 * r = den && q % 2 = 1) then q + 1 else q

/-- The exponent with which a quotient has a mantissa of 53 bits, or the least one. -/
def exponentFor (num den : Nat) : Int :=
  let low : Int := max ((num.log2 : Int) - den.log2 - 53) minExponent
  let (n, d) := scale num den (-low)
  if n / d < Nat.pow 2 53 then low else low + 1

/-- The number nearest to `num / den` with the given sign; `den` is positive. -/
def round (negative : Bool) (num den : Nat) : Binary64 :=
  if num = 0 then .finite negative 0 minExponent
  else
    let e := exponentFor num den
    let (n, d) := scale num den (-e)
    let m := nearest n d
    let (m, e) := if m = Nat.pow 2 53 then (Nat.pow 2 52, e + 1) else (m, e)
    if maxExponent < e then .infinite negative else .finite negative m e

/-- The number nearest to a natural number. -/
def ofNat (n : Nat) : Binary64 := round false n 1

/-- The number nearest to `n * 10 ^ e`. Beyond the range of the format the power is not computed. -/
def ofDecimal (negative : Bool) (n : Nat) (e : Int) : Binary64 :=
  let size := (Text.ofNat n).length + e
  if n = 0 then .finite negative 0 minExponent
  else if 400 < size then .infinite negative
  else if size < -400 then .finite negative 0 minExponent
  else if 0 ≤ e then round negative (n * Nat.pow 10 e.toNat) 1
  else round negative n (Nat.pow 10 (-e).toNat)

/-! ### Operations -/

/-- The number with the other sign. -/
def negate : Binary64 → Binary64
  | .finite negative m e => .finite (!negative) m e
  | .infinite negative => .infinite (!negative)
  | .notNumber => .notNumber

/-- The numerator and denominator of a mantissa with its exponent. -/
def quotient (m : Nat) (e : Int) : Nat × Nat := scale m 1 e

/-- The product, rounded. -/
def mul : Binary64 → Binary64 → Binary64
  | .finite s m e, .finite t n f =>
    let (num, den) := quotient (m * n) (e + f)
    round (s != t) num den
  | .finite s m _, .infinite t => if m = 0 then .notNumber else .infinite (s != t)
  | .infinite s, .finite t n _ => if n = 0 then .notNumber else .infinite (s != t)
  | .infinite s, .infinite t => .infinite (s != t)
  | _, _ => .notNumber

/-- The sum, rounded. -/
def add : Binary64 → Binary64 → Binary64
  | .finite s m e, .finite t n f =>
    let low := min e f
    let x := Integer.signed s (m * Nat.pow 2 (e - low).toNat)
    let y := Integer.signed t (n * Nat.pow 2 (f - low).toNat)
    let (num, den) := quotient (x + y).natAbs low
    round (if x + y = 0 then s && t else x + y < 0) num den
  | .finite _ _ _, .infinite t => .infinite t
  | .infinite s, .finite _ _ _ => .infinite s
  | .infinite s, .infinite t => if s = t then .infinite s else .notNumber
  | _, _ => .notNumber

/-- Whether the number is zero. -/
def isZero : Binary64 → Bool
  | .finite _ m _ => m = 0
  | _ => false

/-- The integer that the number is, if it is one. -/
def toInt? : Binary64 → Option Int
  | .finite negative m e =>
    let (num, den) := quotient m e
    if num % den = 0 then some (Integer.signed negative (num / den)) else none
  | _ => none

/-- Whether two numbers are the same number; both zeros are, and what is no number is itself. -/
def same (x y : Binary64) : Bool := (x.isZero && y.isZero) || x = y

/-! ### Reading -/

/-- The decimal digits at the start of a text, and what follows them. -/
def digits (t : Text) : List Nat × Text := Integer.digits 10 t

/-- An exponent at the start of a text, and what follows it. -/
def exponent (t : Text) : Int × Text :=
  match t with
  | c :: cs =>
    let (negative, rest) := Integer.sign cs
    let (ds, rest) := digits rest
    if c.toLower = 'e' && ds ≠ [] then (Integer.signed negative (Text.valueOf 10 ds), rest)
    else (0, t)
  | [] => (0, t)

/-- The number that a text spells without blanks and sign. -/
def readUnsigned? (negative : Bool) (t : Text) : Option Binary64 :=
  let word := Text.lowerAscii t
  if word = "inf".toList || word = "infinity".toList then some (.infinite negative)
  else if word = "nan".toList then some .notNumber
  else
    let (whole, rest) := digits t
    let (fraction, rest) :=
      match rest with
      | '.' :: cs => digits cs
      | _ => ([], rest)
    let (e, rest) := exponent rest
    if (whole = [] && fraction = []) || rest ≠ [] then none
    else some (ofDecimal negative (Text.valueOf 10 (whole ++ fraction)) (e - fraction.length))

/-- The number that a text spells, with blanks around it and a sign. -/
def read? (t : Text) : Option Binary64 :=
  let (negative, rest) := Integer.sign (Text.strip t)
  readUnsigned? negative rest

/-! ### Writing -/

/-- The greatest `k` such that `10 ^ k` is at most the quotient, which is positive. -/
def decimalExponent (num den : Nat) : Int :=
  if den ≤ num then (Text.ofNat (num / den)).length - 1
  else
    let k := (Text.ofNat (den / num)).length - 1
    if den ≤ num * Nat.pow 10 k then -(k : Int) else -(k + 1 : Int)

/-- A quotient in units of `10 ^ unit`, as a quotient. -/
def inUnits (num den : Nat) (unit : Int) : Nat × Nat :=
  if 0 ≤ unit then (num, den * Nat.pow 10 unit.toNat) else (num * Nat.pow 10 (-unit).toNat, den)

/-- The digits, as a number in units of `10 ^ unit`, of the nearer one of the two neighbours of a
positive number on that grid that read back as the number. -/
def onGrid? (m : Nat) (e : Int) (unit : Int) : Option Nat :=
  let (num, den) := quotient m e
  let (num, den) := inUnits num den unit
  let below := num / den
  let back (d : Nat) : Bool := ofDecimal false d unit = .finite false m e
  let nearer := nearest num den
  let other := if nearer = below then below + 1 else below
  if back nearer then some nearer else if back other then some other else none

/-- The digits of a positive number on the coarsest grid on which it can be read back, with the unit
of that grid. Seventeen digits always suffice. -/
def shortestFrom (m : Nat) (e top : Int) : (count : Nat) → Nat × Int
  | 0 => (0, 0)
  | n + 1 =>
    let unit := top - (17 - (n + 1) : Int)
    match onGrid? m e unit with
    | some d => (d, unit)
    | none => shortestFrom m e top n

/-- The fewest digits that read back as a positive number, as a number and the power of ten of its
unit. -/
def shortest (m : Nat) (e : Int) : Nat × Int :=
  let (num, den) := quotient m e
  shortestFrom m e (decimalExponent num den) 17

/-- The digits without zeros at the end, but at least one. -/
def significant (ds : Text) : Text :=
  let kept := Text.trimEnd (· == '0') ds
  if kept = [] then ['0'] else kept

/-- A decimal exponent with its sign and at least two digits. -/
def exponentText (e : Int) : Text :=
  'e' :: (if e < 0 then '-' else '+') :: Text.padZeros 2 (Text.ofNat e.natAbs)

/-- Digits with a point behind the first one, if there are more. -/
def scientific (ds : Text) (e : Int) : Text :=
  match ds with
  | [d] => d :: exponentText e
  | d :: rest => d :: '.' :: rest ++ exponentText e
  | [] => []

/-- Digits, the first of which has the place value `10 ^ e`, with a point and at least one digit
behind it. -/
def positional (ds : Text) (e : Int) : Text :=
  if e < 0 then "0." ++ List.replicate (-e - 1).toNat '0' ++ ds
  else
    let whole := e.toNat + 1
    let fraction := ds.drop whole
    ds.take whole ++ List.replicate (whole - ds.length) '0' ++ "." ++
      (if fraction = [] then ['0'] else fraction)

/-- The written form of a positive number: positional from `10 ^ -4` up to below `10 ^ 16`. -/
def positiveText (m : Nat) (e : Int) : Text :=
  let (d, unit) := shortest m e
  let ds := Text.ofNat d
  let top := unit + ds.length - 1
  if -4 ≤ top && top < 16 then positional (significant ds) top else scientific (significant ds) top

/-- The written form of a number. -/
def text : Binary64 → Text
  | .finite negative m e =>
    (if negative then ['-'] else []) ++ (if m = 0 then "0.0".toList else positiveText m e)
  | .infinite negative => if negative then "-inf" else "inf"
  | .notNumber => "nan"

end Binary64

end Pageloom
