import Pageloom.Yaml.Timestamp

/-!
# Tags

A tag says what kind of data a node is. A plain scalar without a tag gets one from its spelling:
words for null and truth, numbers in several bases and with sixty as their base, times, and two
marks with a meaning of their own. Anything else is a text.

## Main definitions

* `Yaml.Tag`: the tags; `Tag.ofUri` reads one that is written out.
* `Tag.ofPlain`: the tag of a plain scalar.
-/

namespace Pageloom.Yaml

/-- What kind of data a node is. -/
inductive Tag where
  | null
  | bool
  | int
  | float
  | binary
  | timestamp
  | text
  | sequence
  | mapping
  /-- A key whose entries belong to the mapping around it. -/
  | merge
  /-- A key that stands for the mapping as a whole. -/
  | value
  | other
deriving Repr, DecidableEq

namespace Tag

/-- What the tags of the format begin with. -/
def base : Text := "tag:yaml.org,2002:"

/-- The tags of the format by name. -/
def names : List (Text × Tag) :=
  [("null", .null), ("bool", .bool), ("int", .int), ("float", .float), ("binary", .binary),
    ("timestamp", .timestamp), ("str", .text), ("seq", .sequence), ("map", .mapping),
    ("merge", .merge), ("value", .value)]

/-- The tag that is written out. -/
def ofUri (uri : Text) : Tag :=
  ((Text.dropPrefix? base uri).bind fun name => names.lookup name).getD .other

/-! ### Words -/

/-- The words for truth values. -/
def truthWords : List Text :=
  ["yes", "Yes", "YES", "no", "No", "NO", "true", "True", "TRUE", "false", "False", "FALSE",
    "on", "On", "ON", "off", "Off", "OFF"]

/-- The words for null. -/
def nullWords : List Text := ["~", "null", "Null", "NULL", ""]

/-- The spellings of infinity without a sign. -/
def infinityWords : List Text := [".inf", ".Inf", ".INF"]

/-- The spellings of what is no number. -/
def notNumberWords : List Text := [".nan", ".NaN", ".NAN"]

/-! ### Numbers -/

/-- The text without a sign at its start. -/
def unsigned (t : Text) : Text :=
  match t with
  | '+' :: cs => cs
  | '-' :: cs => cs
  | _ => t

/-- Digits and the underscores that group them. -/
def isGrouped (isDigit : Char → Bool) (c : Char) : Bool := isDigit c || c == '_'

/-- Digits of base eight. -/
def isOctal (c : Char) : Bool := '0' ≤ c && c ≤ '7'

/-- Digits of base two. -/
def isBinary (c : Char) : Bool := c == '0' || c == '1'

/-- Digits of base sixteen. -/
def isHex (c : Char) : Bool := (Text.hexValue? c).isSome

/-- A group of a number in base sixty: up to 59, with one or two digits. -/
def isSixtieth (t : Text) : Bool :=
  match t with
  | [d] => d.isDigit
  | [c, d] => '0' ≤ c && c ≤ '5' && d.isDigit
  | _ => false

/-- Whether a text is an integer in base sixty without a sign: a decimal number and groups behind
colons. -/
def isSexagesimal (isFirst : Char → Bool) (t : Text) : Bool :=
  match Text.split ':' t with
  | (d :: ds) :: g :: gs => isFirst d && ds.all (isGrouped Char.isDigit) && (g :: gs).all isSixtieth
  | _ => false

/-- Digits other than zero. -/
def isPositiveDigit (c : Char) : Bool := '1' ≤ c && c ≤ '9'

/-- Whether a plain scalar is an integer. -/
def isInt (t : Text) : Bool :=
  let t := unsigned t
  isSexagesimal isPositiveDigit t ||
    match t with
    | ['0'] => true
    | '0' :: 'b' :: d :: ds => (d :: ds).all (isGrouped isBinary)
    | '0' :: 'x' :: d :: ds => (d :: ds).all (isGrouped isHex)
    | '0' :: d :: ds => (d :: ds).all (isGrouped isOctal)
    | d :: ds => isPositiveDigit d && ds.all (isGrouped Char.isDigit)
    | [] => false

/-- Whether a text is nothing or an exponent, whose sign must not be missing. -/
def isExponent (t : Text) : Bool :=
  match t with
  | [] => true
  | e :: s :: d :: ds => (e = 'e' || e = 'E') && (s = '+' || s = '-') && (d :: ds).all Char.isDigit
  | _ => false

/-- Whether a text is digits and, perhaps, an exponent behind them. -/
def isFraction (t : Text) : Bool := isExponent (t.dropWhile (isGrouped Char.isDigit))

/-- Whether a text is a number with a point behind digits, in base ten or sixty, without a sign. -/
def isPointed (t : Text) : Bool :=
  let whole := t.takeWhile (· ≠ '.')
  match t.drop whole.length with
  | '.' :: rest =>
    match whole with
    | d :: ds =>
      (d.isDigit && ds.all (isGrouped Char.isDigit) && isFraction rest) ||
        (isSexagesimal Char.isDigit whole && rest.all (isGrouped Char.isDigit))
    | [] => false
  | _ => false

/-- Whether a plain scalar is a floating-point number. A number that begins with its point has no
sign. -/
def isFloat (t : Text) : Bool :=
  isPointed (unsigned t) || infinityWords.elem (unsigned t) || notNumberWords.elem t ||
    match t with
    | '.' :: d :: ds => d.isDigit && isFraction ds
    | _ => false

/-! ### Plain scalars -/

/-- The tag that the spelling of one line gives. -/
def ofLine (t : Text) : Tag :=
  if truthWords.elem t then .bool
  else if isFloat t then .float
  else if isInt t then .int
  else if t = "<<".toList then .merge
  else if nullWords.elem t then .null
  else if Timestamp.isPlain t then .timestamp
  else if t = "=".toList then .value
  else if t = "!".toList || t = "&".toList || t = "*".toList then .other
  else .text

/-- The tag of a scalar without one. A line feed at its end does not count. -/
def ofPlain (t : Text) : Tag :=
  if t.getLast? = some '\n' && t ≠ ['\n'] then ofLine t.dropLast else ofLine t

end Tag

end Pageloom.Yaml
