import Pageloom.Text.Blank
import Pageloom.Text.Category
import Pageloom.Text.Case
import Pageloom.Path

/-!
# Slugs and titles

What a page is called, read off the name of its file. A date at the start of the name orders files
in a folder and is no part of the page's name: a slug is made of the ASCII letters and digits of the
rest, a title of its words. Headings get identifiers by a similar rule that keeps every letter.

## Main definitions

* `Name.dropDatePrefix`: the name without three leading groups of digits.
* `Name.slug`: the form of a name in a URL.
* `Name.title`: the form of a file name for readers.
* `Heading.identifier`: the anchor of a heading.
-/

namespace Pageloom

namespace Name

/-- Whether a text is a group of digits. -/
def isDigitGroup (part : Text) : Bool := part ≠ [] && part.all isDigit

/-- The name behind three groups of digits that end in dashes, or the whole name. -/
def dropDatePrefix (name : Text) : Text :=
  match Text.split '-' name with
  | year :: month :: day :: first :: rest =>
    if isDigitGroup year && isDigitGroup month && isDigitGroup day then
      Text.join "-" (first :: rest)
    else name
  | _ => name

/-- The name in a URL: every run of characters other than ASCII letters and digits becomes one dash,
and none is left at the ends. A name without letters and digits is that of the index page. -/
def slug (name : Text) : Text :=
  let dashed := Text.squeeze (fun c => !c.isAlphanum) '-' (dropDatePrefix name)
  let cleaned := Text.lowerAscii (Text.trim (· == '-') dashed)
  if cleaned = [] then "index" else cleaned

/-- Characters between the words of a file name. -/
def isWordBreak (c : Char) : Bool := isBlank c || c == '-' || c == '_'

/-- The title of a file: the capitalized words of its name without suffix and date. -/
def title (filename : Text) : Text :=
  let words := Text.runs (fun c => !isWordBreak c) (dropDatePrefix (Path.parse filename).stem)
  if words = [] then "Untitled" else Text.join " " (words.map Text.capitalize)

end Name

/-! ### Tags and headings -/

/-- Whether a tag closes in the text behind its `<`: at least one other character comes before the
next `>`. -/
def closesTag (rest : Text) : Bool :=
  match rest with
  | [] => false
  | c :: cs => c ≠ '>' && cs.elem '>'

/-- The text without tags. Inside a tag everything is dropped up to its `>`. -/
def dropTagsFrom : (inside : Bool) → Text → Text
  | _, [] => []
  | true, c :: cs => dropTagsFrom (c ≠ '>') cs
  | false, c :: cs =>
    if c = '<' && closesTag cs then dropTagsFrom true cs else c :: dropTagsFrom false cs

/-- The text without its tags; a tag is a `<`, at least one character other than `>`, and a `>`. -/
def dropTags (t : Text) : Text := dropTagsFrom false t

namespace Heading

/-- Characters of an identifier before runs of blanks and dashes are joined. -/
def isKept (c : Char) : Bool := isWordChar c || isBlank c || c == '-'

/-- The identifier of a heading, from the text between its tags: words of lower-case letters,
digits and underscores joined by dashes. -/
def identifier (heading : Text) : Text :=
  let words := (Text.strip (Text.lower (dropTags heading))).filter isKept
  Text.trim (· == '-') (Text.squeeze (fun c => c == '-' || isBlank c) '-' words)

end Heading

end Pageloom
