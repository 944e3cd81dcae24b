import Pageloom.Text.Basic

/-!
# Inline content

What a paragraph, a heading or a table cell consists of. Texts hold what stands in the source, with
character references still unread, so that a reference that spans two neighbouring texts is found
when they are written.

## Main definitions

* `Pageloom.Markdown.Inline`: pieces of inline content.
* `Inline.height`: how deeply emphasis, links, images and deletions are nested; `maxHeight` bounds
  it.
* `Inline.withoutAutolinks`: automatic links turned back into their source.
-/

namespace Pageloom.Markdown

/-- A piece of inline content. -/
inductive Inline where
  | text (t : Text)
  | code (t : Text)
  | html (raw : Text)
  | hardBreak
  | softBreak
  | emphasis (children : List Inline)
  | strong (children : List Inline)
  | deleted (children : List Inline)
  | link (url title : Text) (children : List Inline)
  /-- A link that is written as its own address; `source` is its spelling. -/
  | autolink (url label source : Text)
  | image (url title : Text) (children : List Inline)
  /-- A reference to the note with the given number. -/
  | noteRef (index : Nat)
deriving Repr, Inhabited

namespace Inline

/-- The most levels of emphasis, links, images and deletions inside each other. -/
def maxHeight : Nat := 20

mutual

/-- How many levels of emphasis, links, images and deletions are nested inside each other. -/
def height : Inline → Nat
  | .emphasis cs => heights cs + 1
  | .strong cs => heights cs + 1
  | .deleted cs => heights cs + 1
  | .link _ _ cs => heights cs + 1
  | .image _ _ cs => heights cs + 1
  | _ => 0

/-- The greatest height of some pieces. -/
def heights : List Inline → Nat
  | [] => 0
  | i :: is => max i.height (heights is)

end

mutual

/-- The piece with its automatic links turned back into their source: a link holds no links. -/
def withoutAutolinks : Inline → Inline
  | .emphasis cs => .emphasis (allWithoutAutolinks cs)
  | .strong cs => .strong (allWithoutAutolinks cs)
  | .deleted cs => .deleted (allWithoutAutolinks cs)
  | .image url title cs => .image url title (allWithoutAutolinks cs)
  | .autolink _ _ source => .text source
  | i => i

/-- The pieces with their automatic links turned back into their source. -/
def allWithoutAutolinks : List Inline → List Inline
  | [] => []
  | i :: is => i.withoutAutolinks :: allWithoutAutolinks is

end

end Inline

end Pageloom.Markdown
