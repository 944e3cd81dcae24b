import Pageloom.Markdown.Tag
import Pageloom.Markdown.Target
import Pageloom.Text.Category

/-!
# Lines

A document is a list of lines, and what a line begins is decided by looking at that line alone: the
fence of a code block, a heading, a divider, a quote, a list item. This module holds the forms a
line can have. Which of them counts at a place is decided by `Document`.

Every form may be indented by at most three spaces; four spaces or a tab make code.

## Main definitions

* `Markdown.Line`: a line, and whether it continues a paragraph from outside its container.
* `Line.fence?`, `Line.heading?`, `Line.underline?`, `Line.isDivider`, `Line.quoted?`,
  `Line.bullet?`, `Line.htmlBlock?`: the forms.
-/

namespace Pageloom.Markdown

/-- A line of a document. A `lazy` one stands in a quote or list only because it continues a
paragraph there; all lines but perhaps the last one end with a line feed. -/
structure Line where
  text : Text
  lazy : Bool := false
  feed : Bool := true
deriving Repr, DecidableEq

namespace Line

/-- The line with its line feed. -/
def full (l : Line) : Text := if l.feed then l.text ++ ['\n'] else l.text

/-- The lines one after the other. -/
def joined (ls : List Line) : Text := ls.flatMap full

/-- Lines without their line feeds as lines; the last one has no line feed, and is dropped when it
is empty. -/
def ofParts : List Text → List Line
  | [] => []
  | [last] => if last = [] then [] else [{ text := last, feed := false }]
  | part :: parts => { text := part } :: ofParts parts

/-- The lines of a text. -/
def ofText (t : Text) : List Line := ofParts (Text.lines t)

/-! ### Blanks and tabs -/

/-- Spaces and tabs. -/
def isSpace (c : Char) : Bool := c == ' ' || c == '\t'

/-- Characters a blank line may hold. -/
def isLineBlank (c : Char) : Bool := isSpace c || c == '\x0b' || c == '\x0c'

/-- Whether a line is blank. -/
def isBlank (t : Text) : Bool := t.all isLineBlank

/-- The number of spaces a text begins with. -/
def indent (t : Text) : Nat := (t.takeWhile (· == ' ')).length

/-- A text without its indentation, if that is at most `limit` spaces. -/
def outdented? (limit : Nat) (t : Text) : Option Text :=
  if indent t ≤ limit then some (t.drop (indent t)) else none

/-- Drops up to `count` spaces at the start. -/
def dropSpaces : (count : Nat) → Text → Text
  | n + 1, ' ' :: cs => dropSpaces n cs
  | _, t => t

/-- A tab behind at most three spaces, turned into spaces by `width`, which gets the number of
spaces before the tab. -/
def expandTabBy (width : Nat → Nat) (t : Text) : Text :=
  let n := indent t
  match t.drop n with
  | '\t' :: cs => if n ≤ 3 then t.take n ++ List.replicate (width n) ' ' ++ cs else t
  | _ => t

/-- A tab behind at most three spaces fills up to the given column. -/
def tabTo (column : Nat) (t : Text) : Text := expandTabBy (column - ·) t

/-- A tab behind at most three spaces becomes four spaces. -/
def widenTab (t : Text) : Text := expandTabBy (fun _ => 4) t

/-- Whether a line is indented code: it is not blank, and four spaces or a tab come first. -/
def isIndented (t : Text) : Bool :=
  !isBlank t && (4 ≤ indent t || (t.drop (indent t)).head? = some '\t')

/-! ### Fences -/

/-- A fence of a code block: its indentation, its mark, how often the mark stands there, and what
stands behind it. -/
structure Fence where
  indent : Nat
  mark : Char
  count : Nat
  info : Text
deriving Repr, DecidableEq

/-- The fence that a line is, if it begins with at least three backquotes or tildes. -/
def fence? (t : Text) : Option Fence :=
  (outdented? 3 t).bind fun rest =>
    match rest with
    | c :: _ =>
      let count := (rest.takeWhile (· == c)).length
      if (c = '\x60' || c = '~') && 3 ≤ count then
        some ⟨indent t, c, count, (rest.drop count).dropWhile isSpace⟩
      else none
    | [] => none

/-- Whether a fence may open a code block. What stands behind backquotes holds no more of them. -/
def Fence.opens (f : Fence) : Bool := f.mark ≠ '\x60' || !f.info.elem '\x60'

/-- Whether a line closes the code block that `f` opened. -/
def Fence.isClosedBy (f : Fence) (t : Text) : Bool :=
  (fence? t).any fun g => g.mark = f.mark && f.count ≤ g.count && g.info = []

/-! ### Headings and dividers -/

/-- The white space of ASCII. -/
def isAsciiBlank (c : Char) : Bool := isLineBlank c || c == '\n' || c == '\r'

/-- The content of a heading without the closing number signs, which stand alone or behind a
blank. -/
def dropClosing (t : Text) : Text :=
  let shown := Text.stripEnd t
  let kept := Text.trimEnd (· == '#') shown
  if kept.length = shown.length then t
  else
    match kept.getLast? with
    | none => []
    | some c => if Pageloom.isBlank c then Text.stripEnd kept else t

/-- The level and the content of a heading that begins with number signs. -/
def heading? (t : Text) : Option (Nat × Text) :=
  (outdented? 3 t).bind fun rest =>
    let level := (rest.takeWhile (· == '#')).length
    let content := rest.drop level
    if 1 ≤ level && level ≤ 6 && content.head?.all isSpace then
      some (level, dropClosing (Text.trim isAsciiBlank content))
    else none

/-- The level of the heading that a line of equals signs or dashes makes of the paragraph before
it. -/
def underline? (t : Text) : Option Nat :=
  (outdented? 3 t).bind fun rest =>
    match Text.trimEnd isSpace rest with
    | c :: cs =>
      if (c = '=' || c = '-') && cs.all (· == c) then some (if c = '=' then 1 else 2) else none
    | [] => none

/-- Whether a line is a divider, indented by at most `limit` spaces: three or more of the same
mark. -/
def isDivider (limit : Nat) (t : Text) : Bool :=
  (outdented? limit t).any fun rest =>
    match rest with
    | c :: _ =>
      (c = '-' || c = '_' || c = '*') && rest.all (fun d => d = c || isSpace d) && 3 ≤ rest.count c
    | [] => false

/-! ### Containers -/

/-- What stands behind the mark of a quote. -/
def quoted? (limit : Nat) (t : Text) : Option Text :=
  (outdented? limit t).bind fun rest =>
    match rest with
    | '>' :: cs => some cs
    | _ => none

/-- The start of a list item: how many spaces come first, its digits, its bullet or the delimiter
behind the digits, and what follows. -/
structure Bullet where
  indent : Nat
  digits : Text
  mark : Char
  rest : Text
deriving Repr, DecidableEq

namespace Bullet

/-- How far the bullet reaches into its line. -/
def width (b : Bullet) : Nat := b.indent + b.digits.length + 1

/-- Whether the item is numbered. -/
def isOrdered (b : Bullet) : Bool := b.digits ≠ []

/-- The number of a numbered item. -/
def number (b : Bullet) : Nat := Text.valueOf 10 (b.digits.map decimalValue)

/-- Whether nothing stands behind the bullet. -/
def isEmpty (b : Bullet) : Bool := Text.isBlankText b.rest

/-- Whether an item may begin a list in the middle of a paragraph: it has content, and the number of
a numbered one is one. -/
def interrupts (b : Bullet) : Bool := !b.isEmpty && (!b.isOrdered || b.number = 1)

end Bullet

/-- The characters that mark an item without a number. -/
def isMark (c : Char) : Bool := c = '-' || c = '+' || c = '*'

/-- The characters that follow the number of an item. -/
def isDelimiter (c : Char) : Bool := c = '.' || c = ')'

/-- The list item that a line begins, indented by at most `limit` spaces. -/
def item? (limit : Nat) (t : Text) : Option Bullet :=
  (outdented? limit t).bind fun rest =>
    let digits := rest.takeWhile isDecimal
    match rest.drop digits.length with
    | c :: cs =>
      let marks := isDelimiter c || (digits = [] && isMark c)
      if cs.head?.all isSpace && digits.length ≤ 9 && marks then
        some ⟨indent t, digits, c, cs⟩
      else none
    | [] => none

/-- The item that a line may begin a list with: a number needs a digit there. -/
def bullet? (limit : Nat) (t : Text) : Option Bullet :=
  (item? limit t).filter fun b => isMark b.mark || b.isOrdered

/-- The HTML block that a line begins. -/
def htmlBlock? (limit : Nat) (t : Text) : Option Tag.HtmlBlock :=
  (outdented? limit t).bind Tag.blockStart?

/-- Whether a line begins an HTML block that may interrupt a paragraph. -/
def startsHtml (limit : Nat) (t : Text) : Bool := (htmlBlock? limit t).any (·.interrupts)

/-- Whether a line opens a fenced code block. -/
def opensFence (limit : Nat) (t : Text) : Bool :=
  (fence? t).any fun f => f.indent ≤ limit && f.opens

end Line

end Pageloom.Markdown
