import Pageloom.Binary64
import Pageloom.Calendar
import Pageloom.Text.Integer

/-!
# Data values

What a configuration file holds: scalars of several kinds, lists, and maps whose keys are again
values. The entries of a map have an order, that of the first insertion of their keys, and a key
occurs once: numbers that are equal are the same key whatever their kind, and the truth values count
as one and zero.

A value of any other kind, such as a set or a list that is among its own items, is known by what can
be seen of it: the name of its kind, its printed form, and whether it counts as set. It is no key. A
value that has no printed form, because it is nested too deeply, is one of them too.

## Main definitions

* `Value`: the values.
* `Value.sameKey`, `Value.put`: keys, and entries set one after the other.
* `Value.toText`, `Value.quoted`: the text of a value, and its form inside lists, maps and messages.
* `Value.write`: the text of a value that can be written, and a fault for any other one.
* `Value.isTrue`: whether a value counts as set.
-/

namespace Pageloom

/-- A data value. -/
inductive Value where
  | null
  | bool (b : Bool)
  | int (n : Int)
  | float (x : Binary64)
  | text (t : Text)
  | bytes (bs : List UInt8)
  | date (d : Date)
  | dateTime (t : DateTime)
  | list (items : List Value)
  | map (entries : List (Value × Value))
  /-- A value of another kind. Without a printed form it cannot be written. -/
  | other (kind : Text) (printed : Option Text) (isTrue : Bool)
deriving Repr, Inhabited

namespace Value

instance : Coe String Value := ⟨fun s => .text s.toList⟩

/-! ### Keys -/

/-- Whether a value may be a key: a list, a map or a value of another kind may not. -/
def isKey : Value → Bool
  | .list _ => false
  | .map _ => false
  | .other _ _ _ => false
  | _ => true

/-- The number that a value counts as among keys, if it is whole. -/
def keyNumber? : Value → Option Int
  | .bool b => some (if b then 1 else 0)
  | .int n => some n
  | .float x => x.toInt?
  | _ => none

/-- Whether two values are the same key. -/
def sameKey (a b : Value) : Bool :=
  match a.keyNumber?, b.keyNumber? with
  | some m, some n => m = n
  | none, none =>
    match a, b with
    | .null, .null => true
    | .float x, .float y => x.same y
    | .text s, .text t => s = t
    | .bytes s, .bytes t => s = t
    | .date d, .date e => d = e
    | .dateTime s, .dateTime t => s.same t
    | _, _ => false
  | _, _ => false

/-- The entries with `key` set to `value`: in its old place if it has one, else at the end. -/
def put (key value : Value) : List (Value × Value) → List (Value × Value)
  | [] => [(key, value)]
  | (k, v) :: entries =>
    if sameKey k key then (k, value) :: entries else (k, v) :: put key value entries

/-- The entries with all of `more` set, in their order. -/
def putAll (entries more : List (Value × Value)) : List (Value × Value) :=
  more.foldl (fun es (k, v) => put k v es) entries

/-- The value of a key. -/
def get? (key : Value) (entries : List (Value × Value)) : Option Value :=
  (entries.find? fun (k, _) => sameKey k key).map Prod.snd

/-! ### Texts -/

mutual

/-- The form of a value inside lists, maps and messages. -/
def quoted : Value → Text
  | .null => "None"
  | .bool b => if b then "True" else "False"
  | .int n => Text.ofInt n
  | .float x => x.text
  | .text t => Text.quoted t
  | .bytes bs => quoteBytes bs
  | .date d => d.quoted
  | .dateTime t => t.quoted
  | .list items => "[" ++ Text.join ", " (quotedItems items) ++ "]"
  | .map entries => "\x7b" ++ Text.join ", " (quotedEntries entries) ++ "\x7d"
  | .other _ printed _ => printed.getD []

/-- The forms of some values. -/
def quotedItems : List Value → List Text
  | [] => []
  | v :: vs => quoted v :: quotedItems vs

/-- The forms of some entries. -/
def quotedEntries : List (Value × Value) → List Text
  | [] => []
  | (k, v) :: es => (quoted k ++ ": " ++ quoted v) :: quotedEntries es

end

/-- The text of a value: a text is itself, dates and times have their usual form, and all else looks
as in messages. -/
def toText : Value → Text
  | .text t => t
  | .date d => d.iso
  | .dateTime t => t.iso
  | v => v.quoted

mutual

/-- Whether a value can be written: no integer in it has too many digits, and values of other kinds
have a printed form. -/
def isWritable : Value → Bool
  | .int n => Integer.isWritable n
  | .list items => areWritable items
  | .map entries => areEntriesWritable entries
  | .other _ printed _ => printed.isSome
  | _ => true

/-- Whether all of some values can be written. -/
def areWritable : List Value → Bool
  | [] => true
  | v :: vs => isWritable v && areWritable vs

/-- Whether the keys and values of some entries can be written. -/
def areEntriesWritable : List (Value × Value) → Bool
  | [] => true
  | (k, v) :: es => isWritable k && isWritable v && areEntriesWritable es

end

/-- The text of a value, if it can be written. -/
def write (v : Value) : Except Integer.Fault Text :=
  if v.isWritable then .ok v.toText else .error .unwritable

/-- Whether a value counts as set: it is not null, false, zero or empty. -/
def isTrue : Value → Bool
  | .null => false
  | .bool b => b
  | .int n => n ≠ 0
  | .float x => !x.isZero
  | .text t => t ≠ []
  | .bytes bs => bs ≠ []
  | .date _ => true
  | .dateTime _ => true
  | .list items => !items.isEmpty
  | .map entries => !entries.isEmpty
  | .other _ _ isTrue => isTrue

end Value

end Pageloom
