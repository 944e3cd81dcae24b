import Pageloom.Markdown.Emphasis
import Pageloom.Markdown.Tag
import Pageloom.Markdown.Target

/-!
# Reading inline content

One pass over a text from left to right. Code, raw HTML, automatic links, escapes, breaks, deletions
and notes are recognized where they begin. Marks of emphasis and opening brackets are laid down as
parts; a closing bracket looks back for its opening one and, if a target follows, makes everything
between them a link or an image. What is left in the end is paired up as emphasis.

## Main definitions

* `Markdown.Extensions`: the constructs that can be switched on.
* `Markdown.References`: the link definitions and notes of a document.
* `InlineReader.read`: the content of a text, and the notes cited up to its end.
-/

namespace Pageloom.Markdown

/-- The constructs beyond plain Markdown. -/
structure Extensions where
  strikethrough : Bool
  footnotes : Bool
  tables : Bool
  bareUrls : Bool
deriving Repr, DecidableEq

/-- What a label stands for. -/
structure Definition where
  url : Text
  title : Text
deriving Repr, DecidableEq

/-- The definitions of a document by the keys of their labels: links, and the texts of notes. The
first definition of a key counts. -/
structure References where
  links : List (Text × Definition) := []
  notes : List (Text × Text) := []
deriving Repr

namespace InlineReader

open Emphasis (Item)

/-- An opening bracket. An unusable one can only become text; `start` is what follows it. -/
structure Bracket where
  image : Bool
  usable : Bool
  start : Text
deriving Repr

/-- A part of the content read so far. -/
inductive Part where
  | item (i : Item)
  | bracket (b : Bracket)
deriving Repr

/-- What is read so far, newest part first, whether it ends inside a raw `<a>` element, and the keys
of the notes cited, in the order of their first citation. -/
structure Reading where
  parts : List Part
  inAnchor : Bool
  cited : List Text
deriving Repr

/-- Adds a finished piece. -/
def Reading.push (i : Inline) (s : Reading) : Reading :=
  { s with parts := .item (.piece i) :: s.parts }

/-- Adds text as it stands. -/
def Reading.pushText (t : Text) (s : Reading) : Reading := s.push (.text t)

/-! ### Brackets -/

/-- A bracket as text. -/
def Bracket.text (b : Bracket) : Text := if b.image then "![" else "["

/-- A part as an item; brackets become text. -/
def Part.flatten : Part → Item
  | .item i => i
  | .bracket b => .piece (.text b.text)

/-- The parts above the newest bracket, oldest first, the bracket, and the parts below it. -/
def newestBracket? : (above : List Item) → List Part → Option (List Item × Bracket × List Part)
  | _, [] => none
  | above, .item i :: below => newestBracket? (i :: above) below
  | above, .bracket b :: below => some (above, b, below)

/-- Makes the opening brackets of links unusable: a link holds no links. -/
def disableLinks (parts : List Part) : List Part :=
  parts.map fun
    | .bracket b => .bracket { b with usable := b.usable && b.image }
    | p => p

/-- The target that follows a closing bracket, and what follows the target. `shown` is the text
between the brackets, which is a label itself when none follows. -/
def target? (refs : References) (shown rest : Text) : Option (Definition × Text) :=
  let inline :=
    match rest with
    | '(' :: cs => (Target.inlineTarget? cs).map fun (url, title, rest) => (⟨url, title⟩, rest)
    | _ => none
  match inline with
  | some found => some found
  | none =>
    let label :=
      match rest with
      | '[' :: cs => Target.label? cs
      | _ => none
    let (name, rest) :=
      match label with
      | some ([], rest) => (shown, rest)
      | some (label, rest) => (label, rest)
      | none => (shown, rest)
    (refs.links.lookup (Target.key name)).map fun d => (d, rest)

/-- Reads a closing bracket; `rest` is what follows it. -/
def closeBracket (refs : References) (s : Reading) (rest : Text) : Reading × Text :=
  match newestBracket? [] s.parts with
  | none => (s.pushText [']'], rest)
  | some (inner, b, below) =>
    let children := Emphasis.resolve '[' ']' inner
    let shown := b.start.take (b.start.length - rest.length - 1)
    let found :=
      if b.usable && Inline.heights children < Inline.maxHeight then target? refs shown rest
      else none
    match found with
    | some (d, rest) =>
      let url := Target.encode d.url
      if b.image then
        ({ s with parts := .item (.piece (.image url d.title children)) :: below }, rest)
      else
        let link := Inline.link url d.title (Inline.allWithoutAutolinks children)
        ({ s with parts := .item (.piece link) :: disableLinks below }, rest)
    | none =>
      let opened := Part.item (.piece (.text b.text))
      let inside := inner.reverse.map .item
      ({ s with parts := .item (.piece (.text [']'])) :: (inside ++ opened :: below) }, rest)

/-! ### Code -/

/-- The code up to a run of exactly `count` backquotes, and what follows the run. `run` backquotes
come right before the text. -/
def codeUpTo? (count : Nat) : (run : Nat) → Text → Option (Text × Text)
  | run, [] => if run = count then some ([], []) else none
  | run, c :: cs =>
    if c = '\x60' then (codeUpTo? count (run + 1) cs).map fun (t, rest) => (c :: t, rest)
    else if run = count then some ([], c :: cs)
    else (codeUpTo? count 0 cs).map fun (t, rest) => (c :: t, rest)

/-- The content of a code span: line feeds become spaces, and one space goes at each end if both
ends have one and there is anything else. -/
def codeText (t : Text) : Text :=
  let line := Text.replaceChar '\n' ' ' t
  if line.head? = some ' ' && line.getLast? = some ' ' && !line.all (· == ' ') then
    line.tail.dropLast
  else line

/-! ### Automatic links -/

/-- Characters of a scheme behind its first letter. -/
def isSchemeChar (c : Char) : Bool := c.isAlphanum || c == '.' || c == '+' || c == '-'

/-- A URL between angle brackets, behind the opening one. -/
def angledUrl? (t : Text) : Option (Text × Text) :=
  match t with
  | c :: cs =>
    let scheme := cs.takeWhile isSchemeChar
    let tail := cs.dropWhile isSchemeChar
    if Tag.isLetter c && 1 ≤ scheme.length && scheme.length ≤ 31 && tail.head? = some ':' then
      let path := tail.takeWhile fun d => d ≠ '<' && d ≠ '>' && 32 < d.toNat
      match tail.drop path.length with
      | '>' :: rest => some (c :: scheme ++ path, rest)
      | _ => none
    else none
  | [] => none

/-- Characters of the local part of a mail address. -/
def isMailChar (c : Char) : Bool := c.isAlphanum || ".!#$%&'*+/=?^_\x60\x7b|\x7d~-".toList.elem c

/-- A part of a host name: up to 63 letters, digits and inner dashes. -/
def isHostPart (t : Text) : Bool :=
  t ≠ [] && t.length ≤ 63 && t.all (fun c => c.isAlphanum || c == '-') && t.head? ≠ some '-' &&
    t.getLast? ≠ some '-'

/-- A mail address between angle brackets, behind the opening one. -/
def angledMail? (t : Text) : Option (Text × Text) :=
  let name := t.takeWhile isMailChar
  match t.drop name.length with
  | '@' :: cs =>
    let host := cs.takeWhile fun c => c.isAlphanum || c == '-' || c == '.'
    match cs.drop host.length with
    | '>' :: rest =>
      if name ≠ [] && (Text.split '.' host).all isHostPart then some (name ++ '@' :: host, rest)
      else none
    | _ => none
  | _ => none

/-- A URL without angle brackets: it ends before a blank or `<`, and closing punctuation does not
belong to it. While a bracket is open, it ends before the next closing one. -/
def bareUrl? (inBracket : Bool) (t : Text) : Option (Text × Text) :=
  let scheme? := ["http://".toList, "https://".toList].find? (Text.startsWith · t)
  scheme?.bind fun scheme =>
    let path := (t.drop scheme.length).takeWhile fun c =>
      !isBlank c && c ≠ '<' && !(inBracket && c == ']')
    let path := Text.trimEnd (".,:;\"')]".toList.elem ·) path
    if path.length < 2 then none
    else
      let length := scheme.length + path.length
      some (t.take length, t.drop length)

/-- An automatic link; inside a raw `<a>` element it is text. -/
def Reading.pushAutolink (url label source : Text) (s : Reading) : Reading :=
  if s.inAnchor then s.pushText source else s.push (.autolink (Target.encode url) label source)

/-- Whether a bracket is open. -/
def Reading.inBracket (s : Reading) : Bool :=
  s.parts.any fun
    | .bracket _ => true
    | .item _ => false

/-! ### Notes and deletions -/

/-- The most characters the key of a note may have. -/
def maxNoteKey : Nat := 500

/-- The key of a note behind `[^`, and what follows its closing bracket. -/
def noteKey? (t : Text) : Option (Text × Text) :=
  let key := t.takeWhile fun c => !isBlank c && c ≠ '[' && c ≠ ']'
  match t.drop key.length with
  | ']' :: rest => if key ≠ [] && key.length ≤ maxNoteKey then some (key, rest) else none
  | _ => none

/-- The number of a note, and the notes cited once it is. -/
def cite (key : Text) (cited : List Text) : Nat × List Text :=
  match cited.idxOf? key with
  | some i => (i + 1, cited)
  | none => (cited.length + 1, cited ++ [key])

/-- Whether a deletion may end right before `t`: two tildes, and not one more alone. -/
def endsDeletion (t : Text) : Bool :=
  match t with
  | '~' :: '~' :: '~' :: '~' :: _ => true
  | '~' :: '~' :: '~' :: _ => false
  | '~' :: '~' :: _ => true
  | _ => false

/-- The length of an escaped tilde at the start of a text: an odd number of backslashes and it. -/
def escapedTilde? (t : Text) : Option Nat :=
  let slashes := (t.takeWhile (· == '\\')).length
  if slashes % 2 = 1 && (t.drop slashes).head? = some '~' then some (slashes + 1) else none

/-- The text up to the end of a deletion, and what follows its closing tildes. `previous` is the
character before the text. -/
def deletedText? : (previous : Char) → Text → Option (Text × Text)
  | _, [] => none
  | previous, c :: cs =>
    let escaped :=
      if previous = '\\' then none
      else (escapedTilde? (c :: cs)).filter fun n => endsDeletion ((c :: cs).drop n)
    match escaped with
    | some n => some ((c :: cs).take n, ((c :: cs).drop n).drop 2)
    | none =>
      if !isBlank c && c ≠ '~' && endsDeletion cs then some ([c], cs.drop 2)
      else (deletedText? c cs).map fun (t, rest) => (c :: t, rest)

/-- The text of a deletion behind its opening tildes. -/
def deletion? (t : Text) : Option (Text × Text) :=
  match t with
  | c :: _ => if isBlank c || c = '~' then none else deletedText? '~' t
  | [] => none

/-! ### One pass -/

/-- Characters at which something other than text may begin. -/
def isSpecial (c : Char) : Bool := "\\\x60*_![]<~h \n".toList.elem c

/-- Whether raw HTML opens an `<a>` element. -/
def opensAnchor (raw : Text) : Bool :=
  match raw with
  | '<' :: a :: d :: _ => (a = 'a' || a = 'A') && (d = ' ' || d = '>')
  | _ => false

/-- Whether raw HTML closes an `<a>` element. -/
def closesAnchor (raw : Text) : Bool :=
  match raw with
  | '<' :: '/' :: a :: d :: _ => (a = 'a' || a = 'A') && (d = ' ' || d = '>')
  | _ => false

/-- Adds raw HTML. -/
def Reading.pushHtml (raw : Text) (s : Reading) : Reading :=
  let s := s.push (.html raw)
  if opensAnchor raw then { s with inAnchor := true }
  else if closesAnchor raw then { s with inAnchor := false }
  else s

/-- Reads what begins with a `<`: an automatic link, raw HTML, or text. -/
def angle (rest : Text) (s : Reading) : Reading × Text :=
  match angledUrl? rest with
  | some (url, after) => (s.pushAutolink url url ('<' :: url ++ ['>']), after)
  | none =>
    match angledMail? rest with
    | some (mail, after) => (s.pushAutolink ("mailto:" ++ mail) mail ('<' :: mail ++ ['>']), after)
    | none =>
      match Tag.rawHtml? ('<' :: rest) with
      | some after => (s.pushHtml ('<' :: rest.take (rest.length - after.length)), after)
      | none => (s.pushText ['<'], rest)

/-- Reads the spaces before and after a line feed, which make a hard break when there are two before
it, or spaces as text. -/
def spaces (t : Text) (s : Reading) : Reading × Text :=
  let count := (t.takeWhile (· == ' ')).length
  match t.drop count with
  | '\n' :: rest =>
    (s.push (if 2 ≤ count then .hardBreak else .softBreak), rest.dropWhile isBlank)
  | rest => (s.pushText (List.replicate count ' '), rest)

/-- Reads what begins with a backslash: a hard break, an escape, or text. The escape of an ampersand
is a reference of its own, so that it does not join what follows into one. -/
def backslash (rest : Text) (s : Reading) : Reading × Text :=
  match rest with
  | '\n' :: after => (s.push .hardBreak, after.dropWhile isBlank)
  | c :: after =>
    if c = '&' then (s.pushText "&amp;", after)
    else if Target.isPunctuation c then (s.pushText [c], after)
    else (s.pushText ['\\'], rest)
  | [] => (s.pushText ['\\'], [])

/-- Reads a run of backquotes: code up to the next run of its length, or text. -/
def backquotes (t : Text) (s : Reading) : Reading × Text :=
  let count := (t.takeWhile (· == '\x60')).length
  let rest := t.drop count
  match codeUpTo? count 0 rest with
  | some (code, after) =>
    (s.push (.code (codeText (code.take (code.length - count)))), after)
  | none => (s.pushText (List.replicate count '\x60'), rest)

/-- Reads an opening bracket, or a note where they are switched on. -/
def openBracket (ext : Extensions) (refs : References) (rest : Text) (s : Reading) :
    Reading × Text :=
  let note :=
    match rest with
    | '^' :: cs => if ext.footnotes then noteKey? cs else none
    | _ => none
  match note with
  | some (name, after) =>
    let key := Target.key name
    if (refs.notes.lookup key).isSome then
      let (index, cited) := cite key s.cited
      ({ s with cited := cited }.push (.noteRef index), after)
    else (s.pushText ("[^" ++ name ++ "]"), after)
  | none => ({ s with parts := .bracket ⟨false, !s.inAnchor, rest⟩ :: s.parts }, rest)

/-- The pieces of everything read. -/
def Reading.finish (s : Reading) : List Inline :=
  Emphasis.resolve '\n' '\n' (s.parts.reverse.map Part.flatten)

/-- Reads a text to its end. Each step takes at least one character, so the length of the text
bounds their number. -/
def run (ext : Extensions) (refs : References) : (bound : Nat) → Text → Reading → Reading
  | 0, _, s => s
  | _, [], s => s
  | n + 1, c :: cs, s =>
    match c with
    | '\\' => let (s, rest) := backslash cs s; run ext refs n rest s
    | '\x60' => let (s, rest) := backquotes (c :: cs) s; run ext refs n rest s
    | '<' => let (s, rest) := angle cs s; run ext refs n rest s
    | '[' => let (s, rest) := openBracket ext refs cs s; run ext refs n rest s
    | ']' => let (s, rest) := closeBracket refs s cs; run ext refs n rest s
    | '!' =>
      match cs with
      | '[' :: rest =>
        run ext refs n rest { s with parts := .bracket ⟨true, true, rest⟩ :: s.parts }
      | _ => run ext refs n cs (s.pushText [c])
    | '~' =>
      let deleted :=
        match cs with
        | '~' :: rest => if ext.strikethrough then deletion? rest else none
        | _ => none
      match deleted with
      | some (inside, rest) =>
        let inner := run ext refs n inside { s with parts := [] }
        let children := inner.finish
        if Inline.heights children < Inline.maxHeight then
          run ext refs n rest ({ s with cited := inner.cited }.push (.deleted children))
        else run ext refs n cs (s.pushText [c])
      | none => run ext refs n cs (s.pushText [c])
    | 'h' =>
      match if ext.bareUrls then bareUrl? s.inBracket (c :: cs) else none with
      | some (url, rest) => run ext refs n rest (s.pushAutolink url url url)
      | none => run ext refs n cs (s.pushText [c])
    | _ =>
      if c = '*' || c = '_' then
        let count := (cs.takeWhile (· == c)).length
        run ext refs n (cs.drop count) { s with parts := .item (.marks c (count + 1)) :: s.parts }
      else if c = ' ' || c = '\n' then
        let (s, rest) := spaces (c :: cs) s
        run ext refs n rest s
      else
        let plain := cs.takeWhile fun d => !isSpecial d
        run ext refs n (cs.drop plain.length) (s.pushText (c :: plain))

/-- The content of a text, and the keys of the notes cited so far when `cited` were cited before. -/
def read (ext : Extensions) (refs : References) (cited : List Text) (t : Text) :
    List Inline × List Text :=
  let s := run ext refs t.length t ⟨[], false, cited⟩
  (s.finish, s.cited)

end InlineReader

end Pageloom.Markdown
