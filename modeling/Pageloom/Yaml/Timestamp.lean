import Pageloom.Calendar

/-!
# Timestamps in YAML

A day, or a day with a time behind it. The time may have a fraction of a second, and an offset from
universal time.

## Main definitions

* `Yaml.Timestamp`: the parts of a timestamp; `Timestamp.read?` finds them in a text.
* `Timestamp.isPlain`: whether a text without quotes is taken for a timestamp.
* `Timestamp.toDate`, `Timestamp.toDateTime`: the day or point of time, if it exists.
-/

namespace Pageloom.Yaml

/-- A time as it is spelled. -/
structure Clock where
  hour : Nat
  minute : Nat
  second : Nat
  fraction : Text
  /-- The offset in minutes. -/
  offset : Option Int
deriving Repr, DecidableEq

/-- A timestamp as it is spelled. -/
structure Timestamp where
  year : Nat
  month : Nat
  day : Nat
  clock : Option Clock
deriving Repr, DecidableEq

namespace Timestamp

/-! ### Reading -/

/-- A number of at least `least` and at most `most` digits, and what follows. -/
def number? (least most : Nat) (t : Text) : Option (Nat × Text) :=
  let digits := (t.take most).takeWhile Char.isDigit
  if least ≤ digits.length then some (Text.natValue digits, t.drop digits.length) else none

/-- A number behind the given mark. -/
def part? (mark : Char) (least most : Nat) (t : Text) : Option (Nat × Text) :=
  match t with
  | c :: cs => if c = mark then number? least most cs else none
  | [] => none

/-- Spaces and tabs. -/
def isBlank (c : Char) : Bool := c == ' ' || c == '\t'

/-- An offset with its sign, or the letter for universal time, up to the end of the text. -/
def offset? (t : Text) : Option Int :=
  match t with
  | ['Z'] => some 0
  | c :: cs =>
    if c = '+' || c = '-' then
      (number? 1 2 cs).bind fun (hours, rest) =>
        let minutes := if rest = [] then some (0, []) else part? ':' 2 2 rest
        match minutes with
        | some (minutes, []) =>
          let total : Int := hours * 60 + minutes
          some (if c = '-' then -total else total)
        | _ => none
    else none
  | [] => none

/-- A fraction behind a point, and what follows. -/
def fraction (t : Text) : Text × Text :=
  match t with
  | '.' :: cs => (cs.takeWhile Char.isDigit, cs.dropWhile Char.isDigit)
  | _ => ([], t)

/-- A time up to the end of the text. -/
def clock? (t : Text) : Option Clock := do
  let (hour, rest) ← number? 1 2 t
  let (minute, rest) ← part? ':' 2 2 rest
  let (second, rest) ← part? ':' 2 2 rest
  let (fraction, rest) := fraction rest
  if rest = [] then return ⟨hour, minute, second, fraction, none⟩
  else return ⟨hour, minute, second, fraction, some (← offset? (rest.dropWhile isBlank))⟩

/-- The time behind the day, which begins with a letter or with blanks. -/
def behindDay? (t : Text) : Option Clock :=
  match t with
  | c :: cs =>
    if c = 'T' || c = 't' then clock? cs
    else if isBlank c then clock? (cs.dropWhile isBlank)
    else none
  | [] => none

/-- The timestamp that a text spells. -/
def read? (t : Text) : Option Timestamp := do
  let (year, rest) ← number? 4 4 t
  let (month, rest) ← part? '-' 1 2 rest
  let (day, rest) ← part? '-' 1 2 rest
  if rest = [] then return ⟨year, month, day, none⟩
  else return ⟨year, month, day, some (← behindDay? rest)⟩

/-- Whether a text without quotes is taken for a timestamp. A day alone needs all its digits. -/
def isPlain (t : Text) : Bool :=
  (read? t).any fun stamp => stamp.clock.isSome || t.length = 10

/-! ### Meaning -/

/-- A fraction of a second in microseconds; further digits do not count. -/
def microseconds (fraction : Text) : Nat :=
  let digits := fraction.take 6
  Text.natValue digits * Nat.pow 10 (6 - digits.length)

/-- The day of a timestamp without a time. -/
def toDate (s : Timestamp) : Except CalendarFault Date := Date.make s.year s.month s.day

/-- The point of time of a timestamp with a time. -/
def toDateTime (s : Timestamp) (c : Clock) : Except CalendarFault DateTime :=
  DateTime.make s.year s.month s.day c.hour c.minute c.second (microseconds c.fraction) c.offset

end Timestamp

end Pageloom.Yaml
