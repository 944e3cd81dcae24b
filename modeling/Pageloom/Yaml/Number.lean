import Pageloom.Binary64
import Pageloom.Yaml.Fault

/-!
# Numbers in YAML

The number that the text of a scalar stands for, once its tag says that it is one. Underscores group
digits and do not count. Colons separate the digits of a number in base sixty.

## Main definitions

* `Number.integer`, `Number.float`: the number, or why there is none.
-/

namespace Pageloom.Yaml.Number

/-- The text without underscores. -/
def ungrouped (t : Text) : Text := t.filter (· ≠ '_')

/-- Whether a minus stands at the start, and what follows one sign; the text must not be empty. -/
def signed (t : Text) : Except Fault (Bool × Text) :=
  if t = [] then .error .emptyNumber else .ok (Integer.sign t)

/-- A number that rules about texts in general read. -/
def plainInteger (base : Nat) (t : Text) : Except Fault Int :=
  (Integer.read base t).mapError .notInteger

/-- The value of digits in base sixty, the last one first. -/
def sixtieths : List Int → Int
  | [] => 0
  | d :: ds => d + 60 * sixtieths ds

/-- An integer without its sign, whose form says in which base it is written. -/
def unsignedInteger (t : Text) : Except Fault Int :=
  match t with
  | [] => .error .emptyNumber
  | ['0'] => .ok 0
  | '0' :: 'b' :: rest => plainInteger 2 rest
  | '0' :: 'x' :: rest => plainInteger 16 rest
  | '0' :: _ => plainInteger 8 t
  | _ =>
    if t.elem ':' then
      ((Text.split ':' t).mapM (plainInteger 10)).map fun ds => sixtieths ds.reverse
    else plainInteger 10 t

/-- The integer that a scalar stands for. -/
def integer (t : Text) : Except Fault Int :=
  (signed (ungrouped t)).bind fun (negative, rest) =>
    (unsignedInteger rest).map fun n => if negative then -n else n

/-- A floating-point number that rules about texts in general read. -/
def plainFloat (t : Text) : Except Fault Binary64 :=
  match Binary64.read? t with
  | some x => .ok x
  | none => .error (.notFloat t)

/-- The sum of digits times powers of sixty from `power` on, the last digit first. Every product and
sum is rounded. -/
def floatSixtieths (power : Nat) (sum : Binary64) : List Binary64 → Binary64
  | [] => sum
  | d :: ds => floatSixtieths (power * 60) (sum.add (d.mul (.ofNat power))) ds

/-- A floating-point number without its sign. -/
def unsignedFloat (t : Text) : Except Fault Binary64 :=
  if t = ".inf".toList then .ok (.infinite false)
  else if t = ".nan".toList then .ok .notNumber
  else if t.elem ':' then
    ((Text.split ':' t).mapM plainFloat).map fun ds => floatSixtieths 1 .zero ds.reverse
  else plainFloat t

/-- The floating-point number that a scalar stands for. -/
def float (t : Text) : Except Fault Binary64 :=
  (signed (Text.lower (ungrouped t))).bind fun (negative, rest) =>
    (unsignedFloat rest).map fun x => if negative then x.negate else x

end Pageloom.Yaml.Number
