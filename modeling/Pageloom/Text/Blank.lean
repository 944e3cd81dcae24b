import Pageloom.Text.Basic

/-!
# Blank characters

Which characters count as white space when a line, a value or a word is cut out of a text: tab to
carriage return, the four information separators, and the spaces and line separators of Unicode.
HTML's own white space is a smaller class; the rules of the front matter, of names and of minifying
use this one.

## Main definitions

* `Pageloom.isBlank`: the class.
* `Text.strip`, `Text.stripEnd`: a text without blanks at its ends; `Text.words`: what stands
  between blanks.
-/

namespace Pageloom

/-- Tab to carriage return, U+001C to U+001F, the space, next line, and the spaces and separators of
Unicode. -/
def isBlank (c : Char) : Bool :=
  let n := c.toNat
  (9 ≤ n && n ≤ 13) || (28 ≤ n && n ≤ 32) || n == 0x85 || n == 0xA0 || n == 0x1680 ||
    (0x2000 ≤ n && n ≤ 0x200A) || n == 0x2028 || n == 0x2029 || n == 0x202F || n == 0x205F ||
    n == 0x3000

namespace Text

/-- The text without blanks at its ends. -/
def strip (t : Text) : Text := trim isBlank t

/-- The text without blanks at its end. -/
def stripEnd (t : Text) : Text := trimEnd isBlank t

/-- What stands between blanks. -/
def words (t : Text) : List Text := runs (fun c => !isBlank c) t

/-- Whether the text holds nothing but blanks. -/
def isBlankText (t : Text) : Bool := t.all isBlank

end Text

end Pageloom
