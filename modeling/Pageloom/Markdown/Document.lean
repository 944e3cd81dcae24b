import Pageloom.Markdown.Block
import Pageloom.Markdown.Container
import Pageloom.Markdown.Definitions
import Pageloom.Markdown.Table

/-!
# Documents

A document is read line by line. At each line the first form that applies decides what it begins:
fenced code, indented code, a heading, an underline or divider, a quote, a list, a note, a link
definition, HTML, a blank line or a table. A line that begins nothing is text of a paragraph, and so
is one whose form turns out not to be complete.

The content of quotes and lists is a document of its own, one level deeper. On the deepest level
there are no quotes and lists, and tables and notes exist on the outermost one only.

## Main definitions

* `Document.maxDepth`: how deeply quotes and lists may be nested.
* `Document.read`: the blocks of a text, and its references.
-/

namespace Pageloom.Markdown.Document

/-- The blocks read so far, newest first, and the references. -/
structure Reading where
  blocks : List Block
  refs : References

namespace Reading

/-- Adds a block. -/
def push (b : Block) (s : Reading) : Reading := { s with blocks := b :: s.blocks }

/-- Whether the last block is a paragraph. -/
def inParagraph (s : Reading) : Bool := s.blocks.head?.any Block.isParagraph

/-- Adds text to the last paragraph, or as a new one. -/
def addText (t : Text) (s : Reading) : Reading :=
  match s.blocks with
  | .paragraph p :: bs => { s with blocks := .paragraph (p ++ t) :: bs }
  | _ => s.push (.paragraph t)

/-- Turns the last paragraph into a heading. -/
def underline (level : Nat) (s : Reading) : Reading :=
  match s.blocks with
  | .paragraph p :: bs => { s with blocks := .heading level p :: bs }
  | _ => s

end Reading

/-- Reads the lines of a quote or of a list item. -/
abbrev ReadInside := References → List Line → List Block × References

/-- What a level of the document may hold besides plain blocks. -/
structure Level where
  inside? : Option ReadInside
  tables : Bool
  notes : Bool

/-! ### Code and HTML -/

/-- The lines up to the first one that satisfies `p`, and those from it on. -/
def splitAtLine (p : Text → Bool) (ls : List Line) : List Line × List Line :=
  let before := ls.takeWhile fun l => !p l.text
  (before, ls.drop before.length)

/-- Reads the code behind a fence, up to a closing one or to the end. It loses as much indentation
as the fence has. -/
def readFenced (f : Line.Fence) (ls : List Line) (s : Reading) : Reading × List Line :=
  let (code, rest) := splitAtLine f.isClosedBy ls
  let code := code.map fun l => { l with text := Line.dropSpaces f.indent l.text }
  (s.push (.code (Line.joined code) (Text.strip (Target.unescape f.info))), rest.tail)

/-- Reads indented code. Blank lines inside belong to it, those behind it do not count. -/
def readIndented (l : Line) (ls : List Line) (s : Reading) : Reading × List Line :=
  let (more, rest) := splitAtLine (fun t => !Line.isBlank t && !Line.isIndented t) ls
  let code := (l :: more).map fun l => Line.dropSpaces 4 (Line.tabTo 4 l.text)
  let code := (code.reverse.dropWhile Line.isBlank).reverse
  (s.push (.code (Text.join ['\n'] code) []), rest)

/-- Reads an HTML block from its first line on. -/
def readHtml (extent : Tag.Extent) (l : Line) (ls : List Line) (s : Reading) :
    Reading × List Line :=
  match extent with
  | .blankLine =>
    let (more, rest) := splitAtLine Line.isBlank ls
    (s.push (.html (Line.joined (l :: more))), rest)
  | .marker marker first =>
    if Text.hasPart marker first then (s.push (.html l.full), ls)
    else
      let (more, rest) := splitAtLine (Text.hasPart marker) ls
      (s.push (.html (Line.joined (l :: more ++ rest.take 1))), rest.tail)

/-! ### Quotes and lists -/

/-- Reads a quote, whose first line holds `first` behind the mark. -/
def readQuote (inside : ReadInside) (first : Text) (l : Line) (ls : List Line) (s : Reading) :
    Reading × List Line :=
  let (lines, rest) := Quote.take l first ls
  let (children, refs) := inside s.refs lines
  (({ s with refs := refs } : Reading).push (.quote children), rest)

/-- Reads the items of a list one after the other. -/
def readItems (inside : ReadInside) : References → List (List Line) → List (List Block) × References
  | refs, [] => ([], refs)
  | refs, item :: items =>
    let (children, refs) := inside refs item
    let (more, refs) := readItems inside refs items
    (children :: more, refs)

/-- Reads the list that begins with bullet `b`. It is tight when neither its items nor the blocks of
one of them are set apart. -/
def readList (inside : ReadInside) (b : Line.Bullet) (l : Line) (ls : List Line) (s : Reading) :
    Reading × List Line :=
  let taken := Listing.take b l ls
  let (items, refs) := readItems inside s.refs taken.items
  let tight := !taken.spaced && !items.any Block.areLoose
  let items := if tight then Block.tightenItems items else items
  let start := if b.isOrdered then some b.number else none
  (({ s with refs := refs } : Reading).push (.list start tight items), taken.rest)

/-! ### Definitions and tables -/

/-- The lines up to the next blank one as one text. -/
def unbroken (l : Line) (ls : List Line) : Text :=
  Line.joined (l :: (splitAtLine Line.isBlank ls).1)

/-- Reads a link definition, or its first line as text. -/
def readDefinition (label : Text) (whole behind : Text) (l : Line) (ls : List Line) (s : Reading) :
    Reading × List Line :=
  let key := Target.key label
  match if key = [] then none else Definitions.target? behind with
  | some (d, rest) =>
    let feeds := (whole.take (whole.length - rest.length)).count '\n'
    ({ s with refs := s.refs.withLink key d }, (l :: ls).drop feeds)
  | none => (s.addText l.full, ls)

/-- Reads the lines of a table, which are text when they do not make one. -/
def readTable (run : Table.Run) (s : Reading) : Reading × List Line :=
  match run.table with
  | some b => (s.push b, run.rest)
  | none => (s.addText (Line.joined run.lines), run.rest)

/-! ### Lines -/

/-- Reads what stands behind the forms that a line may have in the middle of a paragraph. -/
def readPlain (level : Level) (l : Line) (ls : List Line) (s : Reading) : Reading × List Line :=
  let note := if level.notes then Definitions.note? l ls else none
  match note with
  | some note => ({ s with refs := s.refs.withNote (Target.key note.label) note.text }, note.rest)
  | none =>
    let whole := unbroken l ls
    match if l.text.elem '[' then Definitions.label? whole else none with
    | some (label, behind) =>
      if s.inParagraph then (s.addText l.full, ls)
      else readDefinition label whole behind l ls s
    | none =>
      match Line.htmlBlock? 3 l.text with
      | some block =>
        if s.inParagraph && !block.interrupts then (s.addText l.full, ls)
        else readHtml block.extent l ls s
      | none =>
        if Line.isBlank l.text then (s.push .blank, ls)
        else
          match if level.tables then Table.take? l ls else none with
          | some run => readTable run s
          | none => (s.addText l.full, ls)

/-- Reads a list item that a line begins, as a list or as text of the paragraph before it. -/
def readBullet (inside : ReadInside) (b : Line.Bullet) (l : Line) (ls : List Line) (s : Reading) :
    Reading × List Line :=
  if s.inParagraph && !b.interrupts then (s.addText l.full, ls) else readList inside b l ls s

/-- Reads a divider, a quote, a list, or what comes behind them in order. -/
def readContainer (level : Level) (l : Line) (ls : List Line) (s : Reading) : Reading × List Line :=
  if Line.isDivider 3 l.text then (s.push .divider, ls)
  else
    match level.inside? with
    | none => readPlain level l ls s
    | some inside =>
      match Line.quoted? 3 l.text with
      | some first => readQuote inside first l ls s
      | none =>
        match Line.bullet? 3 l.text with
        | some b => readBullet inside b l ls s
        | none => readPlain level l ls s

/-- Reads what line `l` begins, and says which lines are left. -/
def readLine (level : Level) (l : Line) (ls : List Line) (s : Reading) : Reading × List Line :=
  match Line.fence? l.text with
  | some f => if f.opens then readFenced f ls s else (s.addText l.full, ls)
  | none =>
    if Line.isIndented l.text then
      if s.inParagraph then (s.addText l.full, ls) else readIndented l ls s
    else
      match Line.heading? l.text with
      | some (n, t) => (s.push (.heading n t), ls)
      | none =>
        match if s.inParagraph && !l.lazy then Line.underline? l.text else none with
        | some n => (s.underline n, ls)
        | none => readContainer level l ls s

/-- Reads lines. Each step takes at least one, so their number bounds the steps. -/
def readLines (level : Level) : (bound : Nat) → List Line → Reading → Reading
  | 0, _, s => s
  | _, [], s => s
  | n + 1, l :: ls, s =>
    let (s, rest) := readLine level l ls s
    readLines level n rest s

/-- The blocks of some lines on a level, and the references once they are read. -/
def readLevel (level : Level) (refs : References) (ls : List Line) : List Block × References :=
  let s := readLines level ls.length ls ⟨[], refs⟩
  (s.blocks.reverse, s.refs)

/-! ### Levels -/

/-- The most levels of quotes and lists inside each other. -/
def maxDepth : Nat := 20

/-- Reads lines that may hold `depth` more levels of quotes and lists. -/
def readInside : (depth : Nat) → ReadInside
  | 0 => readLevel ⟨none, false, false⟩
  | n + 1 => readLevel ⟨some (readInside n), false, false⟩

/-- Reads the lines of the outermost level. -/
def readOutermost (ext : Extensions) (refs : References) (ls : List Line) :
    List Block × References :=
  readLevel ⟨some (readInside (maxDepth - 1)), ext.tables, ext.footnotes⟩ refs ls

/-- The text as it is read: carriage returns are line feeds, and the last line has one. -/
def prepare (t : Text) : Text :=
  let t := Text.unifyBreaks t
  if t.getLast? = some '\n' then t else t ++ ['\n']

/-- The blocks of a text, and the references it defines. -/
def read (ext : Extensions) (t : Text) : List Block × References :=
  readOutermost ext {} (Line.ofText (prepare t))

end Pageloom.Markdown.Document
