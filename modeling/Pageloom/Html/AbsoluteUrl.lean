import Pageloom.Text.Blank
import Pageloom.Text.Category
import Pageloom.Text.Case

/-!
# Absolute URLs

Links to the root of the site get the site's URL in front. A text is read as plain characters and as
URL attributes (`href`, `src` and `action` with a quoted value); only attribute values that begin
with one slash change, and printing what was read gives the text back.

## Main definitions

* `Html.UrlAttribute`, `Html.Markup`: what a text is read as; `Html.markup` reads and
  `Html.printMarkup` prints it.
* `Html.absolutize`: the text with its root-relative URLs made absolute.
-/

namespace Pageloom.Html

/-- An attribute whose value is a URL, as it is spelled. -/
structure UrlAttribute where
  name : Text
  quote : Char
  url : Text
deriving Repr, DecidableEq

/-- The spelling of an attribute. -/
def UrlAttribute.print (a : UrlAttribute) : Text := a.name ++ ['=', a.quote] ++ a.url ++ [a.quote]

/-- A character, or an attribute whose value is a URL. -/
inductive Markup where
  | char (c : Char)
  | attribute (a : UrlAttribute)
deriving Repr, DecidableEq

/-- The names of the attributes that hold URLs. -/
def urlNames : List Text := ["href", "src", "action"]

/-- A URL attribute at the start of a text whose last character before it is `previous`: its name
begins a word. -/
def attribute? (previous : Option Char) (t : Text) : Option UrlAttribute :=
  if previous.any isWordChar then none
  else
    urlNames.findSome? fun word =>
      match Text.dropWord? word t with
      | some (name, '=' :: quote :: rest) =>
        if quote = '"' || quote = '\'' then
          (Text.cutWhere? (· == quote) rest).map fun (url, _, _) => ⟨name, quote, url⟩
        else none
      | _ => none

/-- Reads a text that follows the character `previous`; its first `skip` characters belong to an
attribute. -/
def markupFrom : (previous : Option Char) → (skip : Nat) → Text → List Markup
  | _, _, [] => []
  | _, n + 1, c :: cs => markupFrom (some c) n cs
  | previous, 0, c :: cs =>
    match attribute? previous (c :: cs) with
    | some a => .attribute a :: markupFrom (some c) (a.print.length - 1) cs
    | none => .char c :: markupFrom (some c) 0 cs

/-- The characters and URL attributes of a text, in order. -/
def markup (t : Text) : List Markup := markupFrom none 0 t

/-- The text that was read. -/
def printMarkup (ms : List Markup) : Text :=
  ms.flatMap fun
    | .char c => [c]
    | .attribute a => a.print

/-- Whether a URL starts at the root of the site: with one slash, two lead to another host. -/
def isRootRelative (url : Text) : Bool :=
  Text.startsWith "/" url && !Text.startsWith "//" url

/-- Puts `base` in front of a root-relative URL. -/
def UrlAttribute.rebase (base : Text) (a : UrlAttribute) : UrlAttribute :=
  if isRootRelative a.url then { a with url := base ++ a.url } else a

/-- Puts `base` in front of the root-relative URLs. -/
def Markup.rebase (base : Text) : Markup → Markup
  | .char c => .char c
  | .attribute a => .attribute (a.rebase base)

/-- A base URL without slashes at its end. -/
def trimBase (base : Text) : Text := Text.trimEnd (· == '/') base

/-- The text with the site's URL in front of its root-relative URLs. Without a URL nothing
changes. -/
def absolutize (html base : Text) : Text :=
  let base := trimBase base
  if base = [] then html else printMarkup ((markup html).map (Markup.rebase base))

end Pageloom.Html
