import Pageloom.Markdown.Document
import Pageloom.Markdown.Highlighter
import Pageloom.Naming

/-!
# Markdown as HTML

The HTML of a document. The inline content of a block is read when the block is written, in the
order of the document; what depends on that order is kept in a `Written`: the numbers of the notes
cited so far, and how often an identifier was given to a heading.

## Main definitions

* `Markdown.Style`: what the writer may be asked to do.
* `Markdown.Written`: what was written so far, as far as it shows later.
* `Html.inline`, `Html.block`: the HTML of a piece and of a block.
* `Markdown.toHtml`: the HTML of a text, with its notes at the end.
-/

namespace Pageloom.Markdown

/-- How a document is written: the extensions that are on, whether code of a known language is
highlighted, and whether headings get identifiers. -/
structure Style where
  extensions : Extensions
  highlightCode : Bool
  headingIds : Bool
deriving Repr, DecidableEq

/-- What is known of the part of a document that is written already: the keys of the notes cited, in
the order of their numbers, and the identifiers of headings, newest first. -/
structure Written where
  cited : List Text := []
  identifiers : List Text := []
deriving Repr

namespace Html

/-! ### Inline content -/

/-- The text without comments and tags. A comment ends on its own line, else its start is a tag,
too; the first `skip` characters belong to one that is dropped already. -/
def stripTagsFrom : (skip : Nat) → Text → Text
  | _, [] => []
  | n + 1, _ :: cs => stripTagsFrom n cs
  | 0, c :: cs =>
    let comment :=
      match Text.dropPrefix? "<!--" (c :: cs) with
      | some rest =>
        (Text.cut? "-->" (rest.takeWhile (· ≠ '\n'))).map fun (inside, _) => inside.length + 6
      | none => none
    let tag :=
      if c = '<' then (Text.cutWhere? (· == '>') cs).map fun (inside, _, _) => inside.length + 1
      else none
    match comment, tag with
    | some length, _ => stripTagsFrom length cs
    | none, some length => stripTagsFrom length cs
    | none, none => c :: stripTagsFrom 0 cs

/-- An element with the given content. -/
def element (name content : Text) : Text := "<" ++ name ++ ">" ++ content ++ "</" ++ name ++ ">"

/-- An attribute with a blank before it. -/
def attr (name value : Text) : Text := " " ++ name ++ "=\"" ++ value ++ "\""

/-- The title attribute of a link or image, if there is a title. -/
def titleAttribute (title : Text) : Text :=
  if title = [] then [] else attr "title" (Reference.normalize title)

/-- A link. -/
def link (url title content : Text) : Text :=
  "<a" ++ attr "href" (Target.href url) ++ titleAttribute title ++ ">" ++ content ++ "</a>"

/-- The mark of a note in the text. -/
def noteMark (index : Nat) : Text :=
  let n := Text.ofNat index
  "<sup class=\"footnote-ref\" id=\"fnref-" ++ n ++ "\"><a href=\"#fn-" ++ n ++ "\">" ++ n ++
    "</a></sup>"


mutual

/-- A piece of inline content. With `plain` an image is its alternative text, as it is inside the
alternative text of another one. -/
def inline (plain : Bool) : Inline → Text
  | .text t => Reference.normalize t
  | .code t => element "code" (Reference.escapeQuoted t)
  | .html raw => raw
  | .hardBreak => "<br />\n"
  | .softBreak => "\n"
  | .emphasis children => element "em" (inlines plain [] children)
  | .strong children => element "strong" (inlines plain [] children)
  | .deleted children => element "del" (inlines plain [] children)
  | .link url title children => link url title (inlines plain [] children)
  | .autolink url label _ => link url [] (Reference.normalize label)
  | .image url title children =>
    let alt := Reference.normalize (stripTagsFrom 0 (inlines true [] children))
    if plain then alt
    else
      "<img" ++ attr "src" (Target.href url) ++ attr "alt" alt ++ titleAttribute title ++ " />"
  | .noteRef index => noteMark index

/-- Pieces of inline content one after the other. Neighbouring texts count as one, so that a
character reference across them is read; `pending` is the text right before the pieces. -/
def inlines (plain : Bool) (pending : Text) : List Inline → Text
  | [] => Reference.normalize pending
  | .text t :: is => inlines plain (pending ++ t) is
  | i :: is => Reference.normalize pending ++ inline plain i ++ inlines plain [] is

end

/-- White space at the ends of a block's text. -/
def isEdgeBlank (c : Char) : Bool := c == ' ' || c == '\r' || c == '\n' || c == '\t' || c == '\x0c'

/-- The inline content of a block's text. -/
def content (ext : Extensions) (refs : References) (t : Text) (p : Written) : Text × Written :=
  let (pieces, cited) := InlineReader.read ext refs p.cited (Text.trim isEdgeBlank t)
  (inlines false [] pieces, { p with cited := cited })

/-! ### Code and headings -/

/-- Highlighted code, given by its markup. -/
def highlighted (markup : Text) : Text :=
  "<div class=\"highlight\"><pre><span></span>" ++ markup ++ "</pre></div>\n"

/-- A code block. Its language is the first word of what stands behind the fence. -/
def code [Highlighter] (highlight : Bool) (t info : Text) : Text :=
  let plain (mark : Text) := "<pre><code" ++ mark ++ ">" ++ Reference.escape t ++ "</code></pre>\n"
  match (Text.words info).head? with
  | some language =>
    match if highlight then Highlighter.markup? language else none with
    | some markup => highlighted (markup t)
    | none => plain (attr "class" ("language-" ++ language))
  | none => plain []

/-- The name of the heading element of a level. -/
def headingName (level : Nat) : Text := 'h' :: Text.ofNat level

/-- A heading without an identifier. -/
def heading (level : Nat) (content : Text) : Text := element (headingName level) content ++ "\n"

/-- A heading with an identifier. When its base was used before, the number of earlier uses is
added. -/
def identified (level : Nat) (content : Text) (p : Written) : Text × Written :=
  let base := Heading.identifier content
  let uses := p.identifiers.count base
  let id := if uses = 0 then base else base ++ "-" ++ Text.ofNat uses
  let name := headingName level
  ("<" ++ name ++ attr "id" id ++ ">" ++ content ++ "</" ++ name ++ ">\n",
    { p with identifiers := base :: p.identifiers })

/-! ### Tables -/

/-- The style of a cell with the given alignment. -/
def alignment : Block.Align → Text
  | .left => attr "style" "text-align:left"
  | .right => attr "style" "text-align:right"
  | .center => attr "style" "text-align:center"
  | .unset => []

/-- The cells of a row, which are elements of the given name. -/
def cells (ext : Extensions) (refs : References) (name : Text) :
    List Block.Cell → Written → Text × Written
  | [], p => ([], p)
  | cell :: rest, p =>
    let (t, p) := content ext refs cell.text p
    let (more, p) := cells ext refs name rest p
    ("  <" ++ name ++ alignment cell.align ++ ">" ++ t ++ "</" ++ name ++ ">\n" ++ more, p)

/-- The rows of a table's body. -/
def rows (ext : Extensions) (refs : References) : List (List Block.Cell) → Written → Text × Written
  | [], p => ([], p)
  | row :: rest, p =>
    let (t, p) := cells ext refs "td" row p
    let (more, p) := rows ext refs rest p
    ("<tr>\n" ++ t ++ "</tr>\n" ++ more, p)

/-- A table. -/
def table (ext : Extensions) (refs : References) (head : List Block.Cell)
    (body : List (List Block.Cell)) (p : Written) : Text × Written :=
  let (h, p) := cells ext refs "th" head p
  let (b, p) := rows ext refs body p
  let head := "<thead>\n<tr>\n" ++ h ++ "</tr>\n</thead>\n"
  ("<table>\n" ++ head ++ "<tbody>\n" ++ b ++ "</tbody>\n</table>\n", p)

/-! ### Blocks -/

variable [Highlighter]

/-- The opening tag of a list. A number other than one is given. -/
def listTag : Option Nat → Text
  | none => "<ul>\n"
  | some n => if n = 1 then "<ol>\n" else "<ol" ++ attr "start" (Text.ofNat n) ++ ">\n"

/-- The closing tag of a list. -/
def listEnd (start : Option Nat) : Text := if start.isSome then "</ol>\n" else "</ul>\n"

mutual

/-- A block. -/
def block (style : Style) (refs : References) : Block → Written → Text × Written
  | .blank, p => ([], p)
  | .paragraph t, p =>
    let (t, p) := content style.extensions refs t p
    (element "p" t ++ "\n", p)
  | .bareText t, p => content style.extensions refs t p
  | .heading level t, p =>
    let (t, p) := content style.extensions refs t p
    if style.headingIds then identified level t p else (heading level t, p)
  | .divider, p => ("<hr />\n", p)
  | .code t info, p => (code style.highlightCode t info, p)
  | .html t, p => (t ++ "\n", p)
  | .quote children, p =>
    let (t, p) := blocks style refs children p
    ("<blockquote>\n" ++ t ++ "</blockquote>\n", p)
  | .list start _ items, p =>
    let (t, p) := listItems style refs items p
    (listTag start ++ t ++ listEnd start, p)
  | .table head body, p => table style.extensions refs head body p

/-- Blocks one after the other. -/
def blocks (style : Style) (refs : References) : List Block → Written → Text × Written
  | [], p => ([], p)
  | b :: bs, p =>
    let (t, p) := block style refs b p
    let (more, p) := blocks style refs bs p
    (t ++ more, p)

/-- The items of a list. -/
def listItems (style : Style) (refs : References) : List (List Block) → Written → Text × Written
  | [], p => ([], p)
  | item :: items, p =>
    let (t, p) := blocks style refs item p
    let (more, p) := listItems style refs items p
    (element "li" t ++ "\n" ++ more, p)

end

end Html

/-! ### Notes -/

namespace Note

/-- Characters at which a note's text is broken into lines to see whether it has more than one. -/
def isBreak (c : Char) : Bool :=
  let n := c.toNat
  (10 ≤ n && n ≤ 13) || (28 ≤ n && n ≤ 30) || n == 0x85 || n == 0x2028 || n == 0x2029

/-- Drops the indentation of a line that is indented by at least `depth` spaces. -/
def outdent (depth : Nat) (t : Text) : Text :=
  if depth ≤ Line.indent t then t.drop (Line.indent t) else t

/-- The blocks of a note. When a further line holds something, its indentation is removed from all
lines and they are read as a document; else the note is one paragraph. -/
def blocks (ext : Extensions) (refs : References) (t : Text) : List Block × References :=
  match (Text.runs (fun c => !isBreak c) (t.dropWhile fun c => !isBreak c)).head? with
  | some second =>
    let depth := (second.takeWhile isBlank).length
    let lines := (Text.lines t).map (outdent depth)
    Document.readOutermost ext refs (Line.ofText (Text.strip (Text.join "\n" lines)))
  | none => ([.paragraph (Text.strip t)], refs)

/-- The blocks of several notes, given by their keys. -/
def allBlocks (ext : Extensions) : References → List Text → List (List Block) × References
  | refs, [] => ([], refs)
  | refs, key :: keys =>
    let (bs, refs) := blocks ext refs ((refs.notes.lookup key).getD [])
    let (more, refs) := allBlocks ext refs keys
    (bs :: more, refs)

/-- The link from a note back to its mark. -/
def backLink (index : Nat) : Text :=
  "<a href=\"#fnref-" ++ Text.ofNat index ++ "\" class=\"footnote\">&#8617;</a>"

/-- A note with its number. The link back stands at the end of its last paragraph, or on a line of
its own. -/
def entry (index : Nat) (content : Text) : Text :=
  let content := Text.stripEnd content
  let shown :=
    if Text.endsWith "</p>" content then
      content.take (content.length - 4) ++ backLink index ++ "</p>"
    else content ++ "\n" ++ backLink index
  "<li id=\"fn-" ++ Text.ofNat index ++ "\">" ++ shown ++ "</li>\n"

/-- The entries of notes from number `index` on. -/
def entries [Highlighter] (style : Style) (refs : References) :
    (index : Nat) → List (List Block) → Written → Text × Written
  | _, [], p => ([], p)
  | index, note :: notes, p =>
    let (t, p) := Html.blocks style refs note p
    let (more, p) := entries style refs (index + 1) notes p
    (entry index t ++ more, p)

end Note

/-- The HTML of a text. The notes cited in it follow; a note that is first cited in another one has
a number, but does not follow. -/
def toHtml [Highlighter] (style : Style) (t : Text) : Text :=
  let (bs, refs) := Document.read style.extensions t
  let (body, p) := Html.blocks style refs bs {}
  if p.cited = [] then body
  else
    let (notes, refs) := Note.allBlocks style.extensions refs p.cited
    let (noteText, _) := Note.entries style refs 1 notes p
    body ++ "<section class=\"footnotes\">\n<ol>\n" ++ noteText ++ "</ol>\n</section>\n"

end Pageloom.Markdown
