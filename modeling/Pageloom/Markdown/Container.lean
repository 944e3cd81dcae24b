import Pageloom.Markdown.Line

/-!
# Quotes and lists

A quote or a list takes the lines that belong to it and drops the marks and the indentation by which
they do, so that what is left is a document of its own. A line without such a mark belongs to it as
long as it may continue a paragraph in it.

## Main definitions

* `Quote.take`: the lines of a quote, and those behind it.
* `Listing.take`: the items of a list with their lines, whether blank lines separate them, and the
  lines behind the list.
-/

namespace Pageloom.Markdown

namespace Quote

/-- The content of a quoted line: a tab behind the mark reaches to the third column, and one space
goes with the mark. -/
def content (t : Text) : Text := Line.dropSpaces 1 (Line.tabTo 3 t)

/-- Whether a line without a quote's mark ends the quote. -/
def isEndedBy (t : Text) : Bool :=
  Line.isBlank t || Line.isDivider 3 t || Line.opensFence 3 t || (Line.bullet? 3 t).isSome ||
    Line.startsHtml 3 t

/-- The lines that belong to a quote behind its first one, and the lines behind the quote. In a
`strict` quote every line has the mark, and behind a blank line of it, given by `afterBlank`, the
next one has. -/
def following (strict : Bool) : (afterBlank : Bool) → List Line → List Line × List Line
  | _, [] => ([], [])
  | afterBlank, l :: ls =>
    match Line.quoted? 3 l.text with
    | some t =>
      let t := content t
      let (inside, rest) := following strict (Line.isBlank t) ls
      ({ l with text := t } :: inside, rest)
    | none =>
      if strict || afterBlank || isEndedBy l.text then ([], l :: ls)
      else
        let (inside, rest) := following strict false ls
        ({ l with text := Line.tabTo 3 l.text, lazy := true } :: inside, rest)

/-- The lines of a quote and those behind it. `first` is what its first line, `l`, holds behind the
mark; a blank line, indented code or a fence there cannot be continued without the mark. -/
def take (l : Line) (first : Text) (ls : List Line) : List Line × List Line :=
  let t := content first
  let strict := Line.isBlank t || Line.isIndented t || (Line.fence? t).isSome
  let (inside, rest) := following strict false ls
  (({ l with text := t } :: inside).map fun l => { l with text := Line.widenTab l.text }, rest)

end Quote

namespace Listing

/-- A list item being read: how far its content is indented, how far other blocks may be indented to
end it, whether nothing stands behind its bullet, its lines, newest first, and whether the last one
is blank. -/
structure OpenItem where
  width : Nat
  limit : Nat
  isEmpty : Bool
  lines : List Line
  afterBlank : Bool
deriving Repr

/-- The item that a bullet opens. Its content begins behind the spaces that follow the bullet; when
there are five or more, all but the first belong to the content. -/
def OpenItem.ofBullet (b : Line.Bullet) (l : Line) : OpenItem :=
  let limit := min b.width 3
  if b.isEmpty then ⟨b.width + 1, limit, true, [], false⟩
  else
    let t := Line.widenTab (Line.tabTo 3 b.rest)
    let gap := if 5 ≤ Line.indent t then 1 else (t.takeWhile isBlank).length
    ⟨b.width + gap, limit, false, [{ l with text := t.drop gap }], false⟩

/-- Adds a line to an item. -/
def OpenItem.add (l : Line) (o : OpenItem) : OpenItem :=
  { o with lines := l :: o.lines, afterBlank := Line.isBlank l.text }

/-- Blank lines at the end of an item do not belong to it; the first line stays. -/
def trimmed : List Line → List Line
  | [] => []
  | l :: ls => l :: (ls.reverse.dropWhile fun l => Text.isBlankText l.text).reverse

/-- The lines of a finished item. -/
def OpenItem.close (o : OpenItem) : List Line := trimmed o.lines.reverse

/-- Whether a line ends an item without being the next item of its list: another block begins
there. -/
def isEndedBy (limit : Nat) (t : Text) : Bool :=
  Line.opensFence limit t || ((Line.heading? t).isSome && Line.indent t ≤ limit) ||
    (Line.quoted? limit t).isSome || Line.startsHtml limit t || (Line.bullet? limit t).isSome

/-- The next item of the same list: its bullet or delimiter is the same. -/
def next? (mark : Char) (limit : Nat) (t : Text) : Option Line.Bullet :=
  (Line.item? limit t).filter fun b => b.mark = mark

/-- A list: the lines of its items, whether a blank line separates two of them, and the lines
behind. -/
structure Taken where
  items : List (List Line)
  spaced : Bool
  rest : List Line
deriving Repr

/-- Adds an item in front. -/
def Taken.cons (item : List Line) (spaced : Bool) (t : Taken) : Taken :=
  { t with items := item :: t.items, spaced := spaced || t.spaced }

/-- The items of a list from the open item `o` on. -/
def following (mark : Char) (o : OpenItem) : List Line → Taken
  | [] => ⟨[o.close], false, []⟩
  | l :: ls =>
    if Line.isBlank l.text then following mark (o.add { l with text := [] }) ls
    else
      let t := Line.tabTo 4 l.text
      if o.width ≤ Line.indent t then
        if o.afterBlank && o.isEmpty && o.lines.all (fun l => Text.isBlankText l.text) then
          ⟨[o.close], false, l :: ls⟩
        else following mark (o.add { l with text := Line.widenTab (t.drop o.width) }) ls
      else if Line.isDivider o.limit l.text then ⟨[o.close], false, l :: ls⟩
      else
        match next? mark o.limit l.text with
        | some b => (following mark (.ofBullet b l) ls).cons o.close o.afterBlank
        | none =>
          if isEndedBy o.limit l.text || o.afterBlank then ⟨[o.close], false, l :: ls⟩
          else following mark (o.add { l with text := t, lazy := true }) ls

/-- The list that begins with bullet `b` on line `l`. -/
def take (b : Line.Bullet) (l : Line) (ls : List Line) : Taken :=
  following b.mark (.ofBullet b l) ls

end Listing

end Pageloom.Markdown
