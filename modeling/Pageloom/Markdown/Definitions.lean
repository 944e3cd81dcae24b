import Pageloom.Markdown.InlineReader
import Pageloom.Markdown.Line

/-!
# Definitions

Lines that define what a label stands for: a link target, or the text of a note. They leave nothing
in the place where they stand. The first definition of a label counts.

## Main definitions

* `References.withLink`, `References.withNote`: references with one more definition.
* `Definitions.label?`, `Definitions.target?`: the two halves of a link definition.
* `Definitions.Note`, `Definitions.note?`: a note and the lines it takes.
-/

namespace Pageloom.Markdown

namespace References

/-- Adds a link unless its key is defined already. -/
def withLink (key : Text) (d : Definition) (refs : References) : References :=
  if (refs.links.lookup key).isSome then refs else { refs with links := refs.links ++ [(key, d)] }

/-- Adds a note unless its key is defined already. -/
def withNote (key text : Text) (refs : References) : References :=
  if (refs.notes.lookup key).isSome then refs
  else { refs with notes := refs.notes ++ [(key, text)] }

end References

namespace Definitions

/-! ### Links -/

/-- The label of a link definition, and what follows its colon. -/
def label? (t : Text) : Option (Text × Text) :=
  match Line.outdented? 3 t with
  | some ('[' :: cs) =>
    match Target.label? cs with
    | some (label, ':' :: rest) => some (label, rest)
    | _ => none
  | _ => none

/-- What follows the spaces at the start of a text, which may hold one line feed. -/
def afterGap (t : Text) : Text :=
  match t.dropWhile Line.isSpace with
  | '\n' :: cs => cs.dropWhile Line.isSpace
  | rest => rest

/-- What follows the line feed of a line that holds nothing more. -/
def afterLine? (t : Text) : Option Text :=
  match t.dropWhile Line.isSpace with
  | '\n' :: cs => some cs
  | _ => none

/-- A destination as it is spelled, which reaches up to the next blank or stands in angle
brackets. -/
def destination? (t : Text) : Option (Text × Text) :=
  match afterGap t with
  | '<' :: cs => Target.angled? cs
  | rest =>
    let url := rest.takeWhile fun c => !isBlank c
    if url = [] then none else some (url, rest.drop url.length)

/-- A title behind a blank, with nothing more on its last line. -/
def title? (t : Text) : Option (Text × Text) :=
  let rest := t.dropWhile Target.isGap
  if rest.length = t.length then none
  else
    (Target.title? rest).bind fun (title, rest) =>
      (afterLine? rest).map fun rest => (Target.unescape title, rest)

/-- The target of a link definition behind its colon, and what follows its last line. A title that
is not well formed does not belong to it when it begins on a line of its own. -/
def target? (t : Text) : Option (Definition × Text) :=
  (destination? t).bind fun (url, rest) =>
    match title? rest with
    | some (title, rest) => some (⟨Target.unescape url, title⟩, rest)
    | none => (afterLine? rest).map fun rest => (⟨Target.unescape url, []⟩, rest)

/-! ### Notes -/

/-- A note: its label, its text, and the lines behind it. -/
structure Note where
  label : Text
  text : Text
  rest : List Line
deriving Repr

/-- Whether a line continues a note whose first line is indented by `lead` spaces: it is empty, or
indented by one to four spaces more. -/
def continuesNote (lead : Nat) (l : Line) : Bool :=
  l.text = [] || (lead < Line.indent l.text && Line.indent l.text ≤ lead + 4 && l.feed)

/-- The note with text `first` that the lines behind it continue. -/
def noteFrom (label : Text) (lead : Nat) (first : Line) (ls : List Line) : Note :=
  let more := ls.takeWhile (continuesNote lead)
  ⟨label, Line.joined (first :: more), ls.drop more.length⟩

/-- The note that line `l` begins. When nothing stands behind the colon, its text begins on the next
line. -/
def note? (l : Line) (ls : List Line) : Option Note :=
  let lead := Line.indent l.text
  match Line.outdented? 4 l.text with
  | some ('[' :: '^' :: cs) =>
    match InlineReader.noteKey? cs with
    | some (label, ':' :: rest) =>
      match rest, ls with
      | c :: text, _ =>
        if Line.isSpace c then some (noteFrom label lead { l with text := text } ls) else none
      | [], first :: ls => some (noteFrom label lead first ls)
      | [], [] => if l.feed then some ⟨label, [], []⟩ else none
    | _ => none
  | _ => none

end Definitions

end Pageloom.Markdown
