import Pageloom.Text.Blank

/-!
# HTML inside Markdown

The forms of raw HTML that a Markdown text may hold: open and closing tags, comments, processing
instructions, declarations and CDATA sections. Inside a line each form is taken to the letter. At
the start of a line a form may begin an HTML block, which ends at a marker or at the next blank
line.

Scanners return what is left of the text behind the form.

## Main definitions

* `Tag.rawHtml?`: raw HTML at the start of a text.
* `Tag.HtmlBlock`, `Tag.blockStart?`: the HTML block that a line begins, where it ends, and whether
  it may interrupt a paragraph.
-/

namespace Pageloom.Markdown.Tag

/-! ### Tags -/

/-- ASCII letters. -/
def isLetter (c : Char) : Bool := c.isAlpha

/-- Characters of a tag name behind its first letter. -/
def isNameChar (c : Char) : Bool := c.isAlphanum || c == '-'

/-- What follows a tag name, with the name. -/
def tagName? (t : Text) : Option (Text × Text) :=
  match t with
  | c :: cs =>
    if isLetter c then some (c :: cs.takeWhile isNameChar, cs.dropWhile isNameChar) else none
  | [] => none

/-- What follows an attribute name. -/
def attributeName? (t : Text) : Option Text :=
  match t with
  | c :: cs =>
    if isLetter c || c == '_' || c == ':' then
      some (cs.dropWhile fun d => d.isAlphanum || d == '_' || d == ':' || d == '.' || d == '-')
    else none
  | [] => none

/-- Characters that end an attribute value without quotes. -/
def endsBareValue (c : Char) : Bool := " \t\n\"'=<>\x60".toList.elem c

/-- What follows an attribute value. -/
def attributeValue? (t : Text) : Option Text :=
  match t with
  | '"' :: cs => (Text.cutWhere? (· == '"') cs).map fun (_, _, rest) => rest
  | '\'' :: cs => (Text.cutWhere? (· == '\'') cs).map fun (_, _, rest) => rest
  | c :: cs => if endsBareValue c then none else some (cs.dropWhile fun d => !endsBareValue d)
  | [] => none

/-- What follows an attribute with the blanks before it. A name without a value is one, too. -/
def attribute? (t : Text) : Option Text :=
  let rest := t.dropWhile isBlank
  if rest.length = t.length then none
  else
    (attributeName? rest).map fun rest =>
      match rest.dropWhile isBlank with
      | '=' :: value => (attributeValue? (value.dropWhile isBlank)).getD rest
      | _ => rest

/-- What follows as many attributes as there are; each one is shorter than the text, so its length
bounds their number. -/
def attributes : (bound : Nat) → Text → Text
  | 0, t => t
  | n + 1, t =>
    match attribute? t with
    | some rest => attributes n rest
    | none => t

/-- What follows the part of an open tag behind its name. -/
def openTagEnd? (t : Text) : Option Text :=
  match (attributes t.length t).dropWhile isBlank with
  | '/' :: '>' :: rest => some rest
  | '>' :: rest => some rest
  | _ => none

/-- What follows the part of a closing tag behind its name. -/
def closingTagEnd? (t : Text) : Option Text :=
  match t.dropWhile isBlank with
  | '>' :: rest => some rest
  | _ => none

/-! ### Raw HTML inside a line -/

/-- What follows the first occurrence of `marker`. -/
def through? (marker t : Text) : Option Text := (Text.cut? marker t).map Prod.snd

/-- What follows raw HTML at the start of a text: a tag, a comment, a processing instruction, a
CDATA section or a declaration. -/
def rawHtml? (t : Text) : Option Text :=
  match t with
  | '<' :: '/' :: cs => (tagName? cs).bind fun (_, rest) => closingTagEnd? rest
  | '<' :: '?' :: cs => through? "?>" cs
  | '<' :: '!' :: cs =>
    match cs with
    | '-' :: '-' :: '>' :: rest => some rest
    | '-' :: '-' :: '-' :: '>' :: rest => some rest
    | '-' :: '-' :: rest => through? "-->" rest
    | _ =>
      match Text.dropPrefix? "[CDATA[" cs with
      | some rest => through? "]]>" rest
      | none => if cs.head?.any isLetter then through? ">" cs else none
  | '<' :: cs => (tagName? cs).bind fun (_, rest) => openTagEnd? rest
  | _ => none

/-! ### HTML blocks -/

/-- Elements whose content is taken to the letter up to their closing tag. -/
def verbatimNames : List Text := ["pre", "script", "style", "textarea"]

/-- Elements that structure a page. -/
def structuralNames : List Text :=
  List.map String.toList [
    "address", "article", "aside", "base", "basefont", "blockquote", "body", "caption",
    "center", "col", "colgroup", "dd", "details", "dialog", "dir", "div", "dl", "dt",
    "fieldset", "figcaption", "figure", "footer", "form", "frame", "frameset", "h1", "h2", "h3",
    "h4", "h5", "h6", "head", "header", "hr", "html", "iframe", "legend", "li", "link", "main",
    "menu", "menuitem", "meta", "nav", "noframes", "ol", "optgroup", "option", "p", "param",
    "section", "source", "summary", "table", "tbody", "td", "tfoot", "th", "thead", "title",
    "tr", "track", "ul"]

/-- Where an HTML block ends. -/
inductive Extent where
  /-- With the line in which `marker` occurs; `rest` is what the first line holds behind the
  start. -/
  | marker (marker rest : Text)
  /-- Before the next blank line. -/
  | blankLine
deriving Repr, DecidableEq

/-- An HTML block, and whether it may interrupt a paragraph. -/
structure HtmlBlock where
  extent : Extent
  interrupts : Bool
deriving Repr, DecidableEq

/-- Whether a tag name ends here: at a blank, at the end of the line, or at the end of the tag. -/
def endsName (slash : Bool) (rest : Text) : Bool :=
  match rest with
  | [] => true
  | '/' :: '>' :: _ => slash
  | c :: _ => c == ' ' || c == '\t' || c == '>'

/-- Whether a line holds nothing more. -/
def isLineEnd (rest : Text) : Bool := rest.all fun c => c == ' ' || c == '\t'

/-- The HTML block that a line begins, from its `<` on. -/
def blockStart? (t : Text) : Option HtmlBlock :=
  match t with
  | '<' :: '?' :: rest => some ⟨.marker "?>" rest, true⟩
  | '<' :: '!' :: cs =>
    match cs with
    | '-' :: '-' :: rest => some ⟨.marker "-->" rest, true⟩
    | _ =>
      match Text.dropPrefix? "[CDATA[" cs with
      | some rest => some ⟨.marker "]]>" rest, true⟩
      | none => if cs.head?.any isLetter then some ⟨.marker ">" cs, true⟩ else none
  | '<' :: '/' :: cs =>
    (tagName? cs).bind fun (name, rest) =>
      if structuralNames.elem (name.map Char.toLower) && endsName true rest then
        some ⟨.blankLine, true⟩
      else if (closingTagEnd? rest).any isLineEnd then some ⟨.blankLine, false⟩
      else none
  | '<' :: cs =>
    (tagName? cs).bind fun (name, rest) =>
      let word := name.map Char.toLower
      if verbatimNames.elem word then
        if endsName false rest then some ⟨.marker ("</" ++ word ++ ">") rest, true⟩ else none
      else if structuralNames.elem word && endsName true rest then some ⟨.blankLine, true⟩
      else if (openTagEnd? rest).any isLineEnd then some ⟨.blankLine, false⟩
      else none
  | _ => none

end Pageloom.Markdown.Tag
