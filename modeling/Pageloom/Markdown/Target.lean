import Pageloom.Text.Blank
import Pageloom.Text.Case
import Pageloom.Text.Reference
import Pageloom.Text.Utf8

/-!
# Link targets

Where a link leads: the label that names a definition, the destination, the title, and how a
destination is written into an attribute. A destination with a scheme that is not known to be
harmless is replaced by an anchor.

Scanners return what they read and what is left of the text.

## Main definitions

* `Target.label?`, `Target.key`: labels and the form in which they are compared.
* `Target.destination?`, `Target.title?`, `Target.inlineTarget?`: the parts of a link.
* `Target.encode`: a destination as a URL; `Target.isHarmless`, `Target.href`: its attribute value.
-/

namespace Pageloom.Markdown.Target

/-- The ASCII punctuation characters, which a backslash takes to the letter. -/
def isPunctuation (c : Char) : Bool :=
  let n := c.toNat
  (33 ≤ n && n ≤ 47) || (58 ≤ n && n ≤ 64) || (91 ≤ n && n ≤ 96) || (123 ≤ n && n ≤ 126)

/-- Backslashes before punctuation are dropped. -/
def unescape : Text → Text
  | [] => []
  | '\\' :: c :: cs => if isPunctuation c then c :: unescape cs else '\\' :: unescape (c :: cs)
  | c :: cs => c :: unescape cs

/-! ### Labels -/

/-- The most characters a label may have. -/
def maxLabel : Nat := 999

/-- The characters up to the closing bracket of a label. A bracket inside needs a backslash. -/
def labelText? : Text → Option (Text × Text)
  | [] => none
  | ']' :: rest => some ([], rest)
  | '[' :: _ => none
  | '\\' :: c :: cs => (labelText? cs).map fun (t, rest) => ('\\' :: c :: t, rest)
  | c :: cs => (labelText? cs).map fun (t, rest) => (c :: t, rest)

/-- A label behind its opening bracket. -/
def label? (t : Text) : Option (Text × Text) :=
  (labelText? t).filter fun (label, _) => label.length ≤ maxLabel

/-- Labels are the same when they agree up to blanks and case. -/
def key (label : Text) : Text := Text.upper (Text.lower (Text.join " " (Text.words label)))

/-! ### Destinations and titles -/

/-- Whether a character ends a destination without angle brackets: spaces and control characters. -/
def endsDestination (c : Char) : Bool := c.toNat ≤ 32 || c.toNat == 127

/-- A destination between angle brackets, behind the opening one. -/
def angled? : Text → Option (Text × Text)
  | [] => none
  | '>' :: rest => some ([], rest)
  | '<' :: _ => none
  | '\n' :: _ => none
  | '\\' :: c :: cs =>
    if isPunctuation c then (angled? cs).map fun (t, rest) => ('\\' :: c :: t, rest)
    else (angled? (c :: cs)).map fun (t, rest) => ('\\' :: t, rest)
  | c :: cs => (angled? cs).map fun (t, rest) => (c :: t, rest)

/-- The most parentheses that may be open at once inside a destination. -/
def maxParens : Nat := 20

/-- A destination without angle brackets, with `depth` parentheses open. -/
def bare? : (depth : Nat) → Text → Option (Text × Text)
  | depth, [] => if depth = 0 then some ([], []) else none
  | depth, '\\' :: c :: cs =>
    if isPunctuation c then (bare? depth cs).map fun (t, rest) => ('\\' :: c :: t, rest)
    else (bare? depth (c :: cs)).map fun (t, rest) => ('\\' :: t, rest)
  | depth, c :: cs =>
    if endsDestination c then if depth = 0 then some ([], c :: cs) else none
    else if c = '(' then
      if depth = maxParens then none
      else (bare? (depth + 1) cs).map fun (t, rest) => (c :: t, rest)
    else if c = ')' then
      match depth with
      | 0 => some ([], c :: cs)
      | n + 1 => (bare? n cs).map fun (t, rest) => (c :: t, rest)
    else (bare? depth cs).map fun (t, rest) => (c :: t, rest)

/-- A destination as it is spelled. -/
def destination? (t : Text) : Option (Text × Text) :=
  match t with
  | '<' :: cs => angled? cs
  | _ => bare? 0 t

/-- The characters of a title up to `close`. -/
def titleText? (close : Char) : Text → Option (Text × Text)
  | [] => none
  | '\\' :: c :: cs =>
    if isPunctuation c then (titleText? close cs).map fun (t, rest) => ('\\' :: c :: t, rest)
    else (titleText? close (c :: cs)).map fun (t, rest) => ('\\' :: t, rest)
  | c :: cs =>
    if c = close then some ([], cs)
    else if close = ')' && c = '(' then none
    else (titleText? close cs).map fun (t, rest) => (c :: t, rest)

/-- A title in double quotes, single quotes or parentheses, as it is spelled. -/
def title? (t : Text) : Option (Text × Text) :=
  match t with
  | '"' :: cs => titleText? '"' cs
  | '\'' :: cs => titleText? '\'' cs
  | '(' :: cs => titleText? ')' cs
  | _ => none

/-- Spaces, tabs and line feeds. -/
def isGap (c : Char) : Bool := c == ' ' || c == '\t' || c == '\n'

/-- The destination and title of an inline link behind its opening parenthesis, with escapes
resolved, and what follows the closing one. -/
def inlineTarget? (t : Text) : Option (Text × Text × Text) :=
  (destination? (t.dropWhile isGap)).bind fun (url, rest) =>
    let behind := rest.dropWhile isGap
    let titled := if behind.length < rest.length then title? behind else none
    let title := (titled.map Prod.fst).getD []
    match ((titled.map Prod.snd).getD behind).dropWhile isGap with
    | ')' :: rest => some (unescape url, unescape title, rest)
    | _ => none

/-! ### Writing a destination -/

/-- Bytes that stand in a URL as themselves. -/
def isUrlByte (b : UInt8) : Bool :=
  let c := Char.ofNat b.toNat
  b.toNat < 128 && (c.isAlphanum || "_.-~:/?#@!$&()*+,;=%".toList.elem c)

/-- A byte in a URL. -/
def encodeByte (b : UInt8) : Text :=
  if isUrlByte b then [Char.ofNat b.toNat]
  else '%' :: (Text.ofHex 2 b.toNat).map Char.toUpper

/-- A destination as a URL: character references are read, and what may not stand in a URL is
percent-encoded. -/
def encode (url : Text) : Text := (Utf8.encode (Reference.decode url)).flatMap encodeByte

/-! ### Harmful schemes -/

/-- The bytes that a percent-encoded text stands for. -/
def percentBytes : Text → List UInt8
  | [] => []
  | '%' :: a :: b :: cs =>
    match Text.hexValue? a, Text.hexValue? b with
    | some x, some y => UInt8.ofNat (x * 16 + y) :: percentBytes cs
    | _, _ => 0x25 :: percentBytes (a :: b :: cs)
  | c :: cs => Utf8.encode [c] ++ percentBytes cs

/-- One round of percent-decoding. -/
def percentDecode (t : Text) : Text := Utf8.decodeLossy (percentBytes t)

/-- The beginnings of a URL that does no harm. -/
def harmlessStarts : List Text :=
  ["http:", "https:", "mailto:", "tel:", "ftp:", "ftps:", "irc:", "ircs:", "data:image/gif;",
  "data:image/png;", "data:image/jpeg;", "data:image/webp;", "/", "#", "?"]

/-- Whether a URL has a harmless scheme or none: then no colon comes before its first slash. Several
layers of percent-encoding are looked through. -/
def isHarmless (url : Text) : Bool :=
  let plain := percentDecode (percentDecode (percentDecode url))
  let shown := (Text.lower plain).dropWhile isBlank
  harmlessStarts.any (Text.startsWith · shown) || !(shown.takeWhile (· ≠ '/')).elem ':'

/-- The value of an attribute that holds an encoded URL. -/
def href (url : Text) : Text :=
  if isHarmless url then Reference.normalize url else "#harmful-link"

end Pageloom.Markdown.Target
