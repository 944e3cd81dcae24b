import Pageloom.Calendar
import Pageloom.Text.Case
import Pageloom.Text.Integer

/-!
# What can be wrong with YAML

A text that is not well formed, or whose tags and labels do not fit, is malformed; where and why is
not kept. Apart from that a scalar may have a tag that its text does not fit, and then the rule that
reads the text says what is wrong. A loader with rules of its own may fail in ways of its own, which
have a kind and words.

## Main definitions

* `Yaml.Fault`: the faults; `Fault.message` words them, `Fault.kind` names their kind.
-/

namespace Pageloom.Yaml

/-- Why a text does not stand for data. -/
inductive Fault where
  | malformed
  /-- A truth value is spelled otherwise. -/
  | notTruth (t : Text)
  /-- A number has no characters. -/
  | emptyNumber
  | notInteger (fault : Integer.Fault)
  | notFloat (t : Text)
  | notTimestamp
  | calendar (fault : CalendarFault)
  /-- An escape names a code above the last character. -/
  | noCharacter
  /-- An escape names a code above `2 ^ 31`. -/
  | hugeCharacter
  /-- A time is spelled by a mapping. -/
  | mappedTimestamp
  /-- A fault of another kind. -/
  | other (kind words : Text)
deriving Repr, DecidableEq

/-- The wording of a fault. -/
def Fault.message : Fault → Text
  | .malformed => "..."
  | .notTruth t => Text.quoted t
  | .emptyNumber => "string index out of range"
  | .notInteger fault => fault.message
  | .notFloat t => "could not convert string to float: " ++ Text.quoted t
  | .notTimestamp => "'NoneType' object has no attribute 'groupdict'"
  | .calendar fault => fault.message
  | .noCharacter => "chr() arg not in range(0x110000)"
  | .hugeCharacter => "Python int too large to convert to C int"
  | .mappedTimestamp => "expected string or bytes-like object, got 'list'"
  | .other _ words => words

/-- The name of the kind of a fault. -/
def Fault.kind : Fault → Text
  | .malformed => "YAMLError"
  | .notTruth _ => "KeyError"
  | .emptyNumber => "IndexError"
  | .notTimestamp => "AttributeError"
  | .hugeCharacter => "OverflowError"
  | .notInteger _ => "ValueError"
  | .notFloat _ => "ValueError"
  | .calendar _ => "ValueError"
  | .noCharacter => "ValueError"
  | .mappedTimestamp => "TypeError"
  | .other kind _ => kind

end Pageloom.Yaml
