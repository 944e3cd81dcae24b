import Pageloom.Text.Basic

/-!
# Dates and times

Days of the Gregorian calendar, carried back before its introduction, and points of time on them,
with or without an offset from universal time. A date or time that does not exist is refused with
the first part that is out of range.

## Main definitions

* `Date`, `DateTime`: days and points of time; `Date.make`, `DateTime.make` refuse what does not
  exist.
* `Date.iso`, `DateTime.iso`: the written form; `Date.quoted`, `DateTime.quoted`: the form in
  messages.
* `DateTime.same`: whether two values mean the same time.
-/

namespace Pageloom

/-- Why a date or a time does not exist. -/
inductive CalendarFault where
  | year (y : Nat)
  | month
  | day
  | hour
  | minute
  | second
  /-- An offset of a day or more, in minutes. -/
  | offset (minutes : Int)
deriving Repr, DecidableEq

/-- A day. -/
structure Date where
  year : Nat
  month : Nat
  day : Nat
deriving Repr, DecidableEq

/-- A point of time, to the microsecond. The offset from universal time is in minutes. -/
structure DateTime where
  date : Date
  hour : Nat
  minute : Nat
  second : Nat
  microsecond : Nat
  offset : Option Int
deriving Repr, DecidableEq

/-! ### Spans of time -/

/-- The form in messages of a span of whole minutes: days, which may be negative, and seconds. -/
def spanQuoted (minutes : Int) : Text :=
  let days := minutes / 1440
  let seconds := minutes % 1440 * 60
  let parts :=
    (if days = 0 then [] else ["days=" ++ Text.ofInt days]) ++
      (if seconds = 0 then [] else ["seconds=" ++ Text.ofInt seconds])
  "datetime.timedelta(" ++ (if parts = [] then ['0'] else Text.join ", " parts) ++ ")"

/-- The wording of a fault. -/
def CalendarFault.message : CalendarFault → Text
  | .year y => "year " ++ Text.ofNat y ++ " is out of range"
  | .month => "month must be in 1..12"
  | .day => "day is out of range for month"
  | .hour => "hour must be in 0..23"
  | .minute => "minute must be in 0..59"
  | .second => "second must be in 0..59"
  | .offset minutes =>
    "offset must be a timedelta strictly between -timedelta(hours=24) and timedelta(hours=24), " ++
      "not " ++ spanQuoted minutes ++ "."

namespace Date

/-- Whether a year has 366 days. -/
def isLeap (year : Nat) : Bool := year % 4 = 0 && (year % 100 ≠ 0 || year % 400 = 0)

/-- The number of days of a month. -/
def daysIn (year month : Nat) : Nat :=
  if month = 2 then if isLeap year then 29 else 28
  else if month = 4 || month = 6 || month = 9 || month = 11 then 30
  else 31

/-- The day with the given year, month and day, if it exists. -/
def make (year month day : Nat) : Except CalendarFault Date :=
  if year < 1 || 9999 < year then .error (.year year)
  else if month < 1 || 12 < month then .error .month
  else if day < 1 || daysIn year month < day then .error .day
  else .ok ⟨year, month, day⟩

/-- Year, month and day with dashes between them. -/
def iso (d : Date) : Text :=
  Text.padZeros 4 (Text.ofNat d.year) ++ "-" ++ Text.padZeros 2 (Text.ofNat d.month) ++ "-" ++
    Text.padZeros 2 (Text.ofNat d.day)

/-- The day's form in messages. -/
def quoted (d : Date) : Text :=
  let parts := [d.year, d.month, d.day].map Text.ofNat
  "datetime.date(" ++ Text.join ", " parts ++ ")"

/-- The number of days from the start of year one up to the start of a year. -/
def daysBeforeYear (year : Nat) : Nat :=
  let y := year - 1
  y * 365 + y / 4 - y / 100 + y / 400

/-- The number of the day, where the first day of year one has number one. -/
def number (d : Date) : Nat :=
  let add (days m : Nat) := days + daysIn d.year (m + 1)
  (List.range (d.month - 1)).foldl add (daysBeforeYear d.year) + d.day

end Date

namespace DateTime

/-- The point of time with the given parts, if it exists. -/
def make (year month day hour minute second microsecond : Nat) (offset : Option Int) :
    Except CalendarFault DateTime :=
  match offset.filter fun minutes => 1440 ≤ minutes.natAbs with
  | some minutes => .error (.offset minutes)
  | none =>
    (Date.make year month day).bind fun date =>
      if 23 < hour then .error .hour
      else if 59 < minute then .error .minute
      else if 59 < second then .error .second
      else .ok ⟨date, hour, minute, second, microsecond, offset⟩

/-- An offset as sign, hours and minutes. -/
def offsetIso (minutes : Int) : Text :=
  (if minutes < 0 then '-' else '+') :: Text.padZeros 2 (Text.ofNat (minutes.natAbs / 60)) ++ ":" ++
    Text.padZeros 2 (Text.ofNat (minutes.natAbs % 60))

/-- Date and time with a space between them, microseconds and offset if there are any. -/
def iso (t : DateTime) : Text :=
  t.date.iso ++ " " ++ Text.padZeros 2 (Text.ofNat t.hour) ++ ":" ++
    Text.padZeros 2 (Text.ofNat t.minute) ++ ":" ++ Text.padZeros 2 (Text.ofNat t.second) ++
    (if t.microsecond = 0 then [] else '.' :: Text.padZeros 6 (Text.ofNat t.microsecond)) ++
    (match t.offset with
      | none => []
      | some minutes => offsetIso minutes)

/-- The form of an offset in messages. -/
def offsetQuoted (minutes : Int) : Text :=
  if minutes = 0 then "datetime.timezone.utc" else "datetime.timezone(" ++ spanQuoted minutes ++ ")"

/-- The form of a point of time in messages. Seconds and microseconds are left out at the end when
they are zero. -/
def quoted (t : DateTime) : Text :=
  let base := [t.date.year, t.date.month, t.date.day, t.hour, t.minute]
  let parts :=
    if t.microsecond ≠ 0 then base ++ [t.second, t.microsecond]
    else if t.second ≠ 0 then base ++ [t.second]
    else base
  let zone :=
    match t.offset with
    | none => []
    | some minutes => ["tzinfo=" ++ offsetQuoted minutes]
  "datetime.datetime(" ++ Text.join ", " (parts.map Text.ofNat ++ zone) ++ ")"

/-- The minute on a clock that counts from the start of year one, without regard to the offset. -/
def clock (t : DateTime) : Int := t.date.number * 1440 + t.hour * 60 + t.minute

/-- Whether two values mean the same time: both have an offset and are the same in universal time,
or neither has one and they are equal. -/
def same (a b : DateTime) : Bool :=
  match a.offset, b.offset with
  | none, none => a = b
  | some x, some y =>
    a.clock - x = b.clock - y && a.second = b.second && a.microsecond = b.microsecond
  | _, _ => false

end DateTime

end Pageloom
