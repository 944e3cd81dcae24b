import Pageloom.Html.AbsoluteUrl
import Pageloom.Markdown.Html
import Pageloom.Page

/-!
# Filters

A filter changes the whole body of a page. Filters run one after the other, each on what the one
before it made; none of them changes the page itself. A filter from outside may give no text at all,
and the first step after it that needs a text fails.

What a filter from outside makes of a body may depend on what it was used for before. What it
remembers is the list of its earlier uses, so every such filter is a function of that list.

## Main definitions

* `Filter`: Markdown, minifying, absolute addresses, and functions from outside.
* `Filter.apply`, `Filter.applyAll`: one filter, and one after the other.
-/

namespace Pageloom

/-- The names of the Markdown plugins that are on unless others are named. -/
def Markdown.defaultPlugins : List Text := ["strikethrough", "footnotes", "table", "url"]

/-- The constructs that plugins switch on. -/
def Markdown.Extensions.ofPlugins (names : List Text) : Except Failure Markdown.Extensions :=
  if names.all fun name => List.elem name Markdown.defaultPlugins then
    .ok { strikethrough := List.elem "strikethrough".toList names
          footnotes := List.elem "footnotes".toList names
          tables := List.elem "table".toList names
          bareUrls := List.elem "url".toList names }
  else .error .unknownPlugin

/-- One use of a filter: the body that it is to change, if there is one, and the page. -/
structure Use where
  body : Option Text
  page : Page
deriving Repr, DecidableEq

/-- A change of the body of a page. -/
inductive Filter where
  /-- Writes the HTML of a Markdown text. -/
  | markdown (plugins : List Text) (highlightCode headingIds : Bool)
  /-- Drops comments and insignificant blanks from HTML. -/
  | minify
  /-- Puts a base address before root-relative addresses in HTML. -/
  | absolute (baseUrl : Text)
  /-- Applies a function, which sees the page and may give no text. With it come its earlier uses,
  the newest first. -/
  | function (name : Text) (f : List Use → Option Text → Page → Except Failure (Option Text))
      (earlier : List Use)

namespace Filter

/-- The Markdown filter with everything as usual. -/
def plainMarkdown : Filter := .markdown Markdown.defaultPlugins true false

variable [Markdown.Highlighter]

/-- What a filter makes of a body, and the filter afterwards. Without a text, Markdown has nothing
to write and an empty base address nothing to do. -/
def apply (filter : Filter) (body : Option Text) (page : Page) :
    Except Failure (Option Text) × Filter :=
  match filter, body with
  | .markdown plugins highlightCode headingIds, body =>
    match Markdown.Extensions.ofPlugins plugins with
    | .ok extensions =>
      let html := Markdown.toHtml ⟨extensions, highlightCode, headingIds⟩ (body.getD [])
      (.ok (some html), filter)
    | .error e => (.error e, filter)
  | .minify, some body => ((Html.minify body).mapError .minify |>.map some, filter)
  | .minify, none => (.error .noText, filter)
  | .absolute baseUrl, some body => (.ok (some (Html.absolutize body baseUrl)), filter)
  | .absolute baseUrl, none =>
    (if Html.trimBase baseUrl = [] then .ok none else .error .noText, filter)
  | .function name f earlier, body =>
    (f earlier body page, .function name f (⟨body, page⟩ :: earlier))

/-- What filters make of a body, one after the other up to the first that fails, and the filters
afterwards. -/
def applyAll : List Filter → Option Text → Page → Except Failure (Option Text) × List Filter
  | [], body, _ => (.ok body, [])
  | f :: fs, body, page =>
    match f.apply body page with
    | (.ok body, f) =>
      let (result, fs) := applyAll fs body page
      (result, f :: fs)
    | (.error e, f) => (.error e, f :: fs)

end Filter

end Pageloom
