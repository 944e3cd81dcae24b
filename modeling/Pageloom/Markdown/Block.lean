import Pageloom.Text.Basic

/-!
# Block structure

What a document consists of above the level of lines: paragraphs, headings, code, quotes, lists,
tables and HTML. Blocks hold the text of their lines; its inline content is read when the document
is written.

## Main definitions

* `Pageloom.Markdown.Block`: the blocks, with the blank lines between them, which decide whether a
  list is loose.
* `Block.Align`, `Block.Cell`: table cells.
* `Block.tighten`: the paragraphs of a tight list turned into bare text.
-/

namespace Pageloom.Markdown

namespace Block

/-- How the content of a table column is aligned. -/
inductive Align where
  | left
  | right
  | center
  | unset
deriving Repr, DecidableEq

/-- A table cell and its text. -/
structure Cell where
  align : Align
  text : Text
deriving Repr, DecidableEq

end Block

/-- A block of a document. -/
inductive Block where
  | blank
  | paragraph (t : Text)
  /-- A paragraph of a tight list, written without tags. -/
  | bareText (t : Text)
  | heading (level : Nat) (t : Text)
  | divider
  /-- Code; `info` is what stands behind the opening fence, empty for indented code. -/
  | code (t info : Text)
  | html (t : Text)
  | quote (children : List Block)
  /-- A list with its items; `start` is the first number of an ordered one. -/
  | list (start : Option Nat) (tight : Bool) (items : List (List Block))
  | table (head : List Block.Cell) (rows : List (List Block.Cell))
deriving Repr, Inhabited

namespace Block

/-- Whether a block is a paragraph. -/
def isParagraph : Block → Bool
  | .paragraph _ => true
  | _ => false

/-- Whether a block is a blank line. -/
def isBlank : Block → Bool
  | .blank => true
  | _ => false

/-- Whether the children of a list item make its list loose: a blank line stands between them, or
there is more than one paragraph. -/
def areLoose (children : List Block) : Bool :=
  children.any isBlank || 2 ≤ children.countP isParagraph

mutual

/-- A block of a tight list: its paragraph becomes bare text, and so do those of a tight list in
it. -/
def tighten : Block → Block
  | .paragraph t => .bareText t
  | .list start tight items => .list start tight (if tight then tightenItems items else items)
  | b => b

/-- The blocks of an item of a tight list. -/
def tightenAll : List Block → List Block
  | [] => []
  | b :: bs => b.tighten :: tightenAll bs

/-- The items of a tight list. -/
def tightenItems : List (List Block) → List (List Block)
  | [] => []
  | item :: items => tightenAll item :: tightenItems items

end

end Block

end Pageloom.Markdown
