import Pageloom.Text.Basic

/-!
# Places in a YAML text

A cursor stands before a character and knows its line and column, since indentation decides the
structure of a document. Five characters end a line; a carriage return with the line feed behind it
counts as one.

## Main definitions

* `Yaml.Cursor`: what follows a place, and the place.
* `Cursor.next`, `Cursor.advance`, `Cursor.skipWhile`: steps; `Cursor.lineBreak?`: over the end of a
  line.
-/

namespace Pageloom.Yaml

/-- Characters that end a line. -/
def isBreak (c : Char) : Bool :=
  c == '\n' || c == '\r' || c.toNat == 0x85 || c.toNat == 0x2028 || c.toNat == 0x2029

/-- Whether what follows an indicator sets it apart: a blank, the end of the line or of the text. -/
def isApart (next : Option Char) : Bool := next.all fun c => c == ' ' || c == '\t' || isBreak c

/-- Whether the line ends here. -/
def isLineEnd (next : Option Char) : Bool := next.all isBreak

/-- Whether a space comes here or the line ends. -/
def isSpaceOrEnd (next : Option Char) : Bool := next.all fun c => c == ' ' || isBreak c

/-- The mark that may stand at the start of a text. -/
def byteOrderMark : Char := Char.ofNat 0xFEFF

/-- A place in a text: what follows it, how many characters come before it, and its line and column,
counted from zero. -/
structure Cursor where
  rest : Text
  index : Nat := 0
  line : Nat := 0
  column : Nat := 0
deriving Repr

namespace Cursor

/-- The character behind the place. -/
def head? (c : Cursor) : Option Char := c.rest.head?

/-- The `n`-th character behind the place, counted from zero. -/
def peek? (n : Nat) (c : Cursor) : Option Char := (c.rest.drop n).head?

/-- Whether the text ends here. -/
def atEnd (c : Cursor) : Bool := c.rest.isEmpty

/-- The place behind the next character. -/
def next (c : Cursor) : Cursor :=
  match c.rest with
  | [] => c
  | ch :: rest =>
    if isBreak ch && !(ch = '\r' && rest.head? = some '\n') then
      ⟨rest, c.index + 1, c.line + 1, 0⟩
    else ⟨rest, c.index + 1, c.line, if ch = byteOrderMark then c.column else c.column + 1⟩

/-- The place `n` characters on. -/
def advance : (n : Nat) → Cursor → Cursor
  | 0, c => c
  | n + 1, c => advance n c.next

/-- The characters of a class that follow. -/
def run (p : Char → Bool) (c : Cursor) : Text := c.rest.takeWhile p

/-- The place behind the characters of a class that follow. -/
def skipWhile (p : Char → Bool) (c : Cursor) : Cursor := advance (c.run p).length c

/-- The place behind the spaces that follow. -/
def skipSpaces (c : Cursor) : Cursor := c.skipWhile (· == ' ')

/-- The place at the end of the line. -/
def skipLine (c : Cursor) : Cursor := c.skipWhile fun ch => !isBreak ch

/-- The end of a line as the character it counts as, and the place behind it. -/
def lineBreak? (c : Cursor) : Option (Char × Cursor) :=
  match c.rest with
  | '\r' :: '\n' :: _ => some ('\n', advance 2 c)
  | ch :: _ =>
    if isBreak ch then
      some (if ch.toNat = 0x2028 || ch.toNat = 0x2029 then ch else '\n', c.next)
    else none
  | [] => none

/-- Whether three marks and a blank follow, as they do between documents. -/
def atMarks (mark : Char) (c : Cursor) : Bool :=
  c.rest.take 3 = [mark, mark, mark] && isApart (c.peek? 3)

/-- Whether documents are set apart here. -/
def atSeparator (c : Cursor) : Bool := c.atMarks '-' || c.atMarks '.'

end Cursor

end Pageloom.Yaml
