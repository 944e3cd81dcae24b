import Pageloom.Filter
import Pageloom.Template

/-!
# Layouts and rendering

A layout lists the filters and the helpers of a page. Both lists only grow, and from the first
rendering on they do not change at all. A page is rendered in this order: its file is read, its
front matter taken out, the filters are applied to the body, and the placeholders are filled.

Rendering may change the page, whose front matter is out of its body afterwards, and what the
filters and helpers of the layout remember. These changes stay if the rendering fails later on.

## Main definitions

* `Layout`, with `Layout.addFilter`, `Layout.addHelper`, `Layout.freeze`.
* `Rendered`: the HTML of a page with its name and front matter.
* `Layout.render`: a page rendered with a layout.
-/

namespace Pageloom

/-- The filters and helpers of a page, in order. A frozen layout takes no more of them. -/
structure Layout where
  filters : List Filter
  helpers : List Helper
  frozen : Bool

namespace Layout

/-- The layout without filters and helpers. -/
def empty : Layout := ⟨[], [], false⟩

/-- A frozen layout was to be changed. -/
structure Frozen where
deriving Repr, DecidableEq

/-- The wording of the refusal. -/
def Frozen.message (_ : Frozen) : Text :=
  "Layout is frozen: register filters and helpers before the first render"

/-- The layout with one more filter at the end. -/
def addFilter (f : Filter) (l : Layout) : Except Frozen Layout :=
  if l.frozen then .error {} else .ok { l with filters := l.filters ++ [f] }

/-- The layout with one more helper at the end. -/
def addHelper (h : Helper) (l : Layout) : Except Frozen Layout :=
  if l.frozen then .error {} else .ok { l with helpers := l.helpers ++ [h] }

/-- The layout as it is from now on. -/
def freeze (l : Layout) : Layout := { l with frozen := true }

/-- How a layout shows in messages. -/
def quoted (l : Layout) : Text :=
  "Layout(filters=" ++ Text.ofNat l.filters.length ++ ", helpers=" ++ Text.ofNat l.helpers.length ++
    ", " ++ (if l.frozen then "frozen" else "open") ++ ")"

end Layout

/-- What rendering makes of a page. -/
structure Rendered where
  html : Text
  name : Option Text
  frontMatter : Entries
deriving Repr, DecidableEq

/-- The result of a rendering, with the page and the layout afterwards. -/
structure Rendering where
  result : Except Failure Rendered
  page : Page
  layout : Layout

namespace Layout

/-- Renders a page whose front matter is out of its body. The page does not change any more. -/
def renderBody (l : Layout) (page : Page) : Except Failure Rendered × Layout :=
  match Filter.applyAll l.filters (some page.body) page with
  | (.error e, filters) => (.error e, { l with filters })
  | (.ok none, filters) => (.error .noText, { l with filters })
  | (.ok (some body), filters) =>
    let (html, helpers) := Template.fill body page l.helpers
    (html.map fun html => ⟨html, page.name, page.frontMatter⟩, { l with filters, helpers })

/-- Renders a page. The layout is frozen even if the rendering fails. -/
def render (l : Layout) (d : Disk) (page : Page) : Rendering :=
  let l := l.freeze
  match page.load d with
  | .error e => ⟨.error e, page, l⟩
  | .ok page =>
    match page.extract with
    | .error e => ⟨.error e, page, l⟩
    | .ok page =>
      let (result, l) := l.renderBody page
      ⟨result, page, l⟩

end Layout

end Pageloom
