import Pageloom.Layout

/-!
# A workbench of layouts

Several layouts in use side by side, each under a label, and several parsers, each with or without
a layout of its own. Putting a new layout under an old label does not take the old one away from the
parsers that hold it, so the layouts are numbered, and labels and parsers refer to numbers.

## Main definitions

* `Workbench`: the layouts, their labels, and the layouts of the parsers.
* `Workbench.Step`, `Workbench.step`: what can be done, and what comes of it; `Workbench.run` for
  several steps.
-/

namespace Pageloom

/-- Layouts by number, the number under each label, and for each parser the number of its layout if
it has one. -/
structure Workbench where
  layouts : List Layout
  labels : List (Text × Nat)
  parsers : List (Option Nat)

namespace Workbench

/-- No layouts, and a parser without one. -/
def empty : Workbench := ⟨[], [], [none]⟩

/-- What can be done. -/
inductive Step where
  /-- Puts a layout under a label. -/
  | place (label : Text) (l : Layout)
  | addFilter (label : Text) (f : Filter)
  | addHelper (label : Text) (h : Helper)
  | freeze (label : Text)
  /-- Takes a new parser, with the layout under a label or without one. -/
  | takeParser (label : Option Text)
  /-- Renders a text with a parser, and with the layout under a label or else the parser's. -/
  | render (parser : Nat) (text : Text) (name : Option Text) (label : Option Text)

/-- What comes of a step. -/
inductive Answer where
  | nothing
  | done
  | refused (e : Layout.Frozen)
  | rendered (r : Except Failure Rendered)
  /-- There is no layout under the label. -/
  | unknown (label : Text)
  /-- There is no parser of the number. -/
  | noParser (number : Nat)

/-- The number under a label. -/
def number? (w : Workbench) (label : Text) : Option Nat := w.labels.lookup label

/-- The labels with `label` for number `n`: in its old place if it has one, else at the end. -/
def putLabel (label : Text) (n : Nat) : List (Text × Nat) → List (Text × Nat)
  | [] => [(label, n)]
  | (l, m) :: rest => if l = label then (l, n) :: rest else (l, m) :: putLabel label n rest

/-- The workbench with a new layout under a label. -/
def put (w : Workbench) (label : Text) (l : Layout) : Workbench :=
  { w with layouts := w.layouts ++ [l], labels := putLabel label w.layouts.length w.labels }

/-- Changes the layout under a label by an operation that a frozen layout refuses. -/
def change (w : Workbench) (label : Text) (f : Layout → Except Layout.Frozen Layout) :
    Answer × Workbench :=
  match w.number? label with
  | none => (.unknown label, w)
  | some n =>
    match w.layouts[n]? with
    | none => (.unknown label, w)
    | some l =>
      match f l with
      | .ok l => (.done, { w with layouts := w.layouts.set n l })
      | .error e => (.refused e, w)

/-- The number of the layout for a rendering: that under the label, or else that of the parser,
which may have none. -/
def layoutFor (w : Workbench) (parser : Nat) (label : Option Text) : Except Answer (Option Nat) :=
  match w.parsers[parser]?, label with
  | none, _ => .error (.noParser parser)
  | some n, none => .ok n
  | some _, some label =>
    match w.number? label with
    | some n => .ok (some n)
    | none => .error (.unknown label)

/-- Renders with the layout of the given number, or with the frozen empty one. -/
def renderWith (w : Workbench) (page : Page) (n : Option Nat) : Answer × Workbench :=
  let d : Disk := ⟨[], []⟩
  match n with
  | none => (.rendered (Layout.empty.freeze.render d page).result, w)
  | some n =>
    let r := (w.layouts[n]?.getD .empty).render d page
    (.rendered r.result, { w with layouts := w.layouts.set n r.layout })

/-- Does one step. -/
def step (w : Workbench) : Step → Answer × Workbench
  | .place label l => (.nothing, w.put label l)
  | .addFilter label f => w.change label (Layout.addFilter f)
  | .addHelper label h => w.change label (Layout.addHelper h)
  | .freeze label => w.change label fun l => .ok l.freeze
  | .takeParser none => (.nothing, { w with parsers := w.parsers ++ [none] })
  | .takeParser (some label) =>
    match w.number? label with
    | some n => (.nothing, { w with parsers := w.parsers ++ [some n] })
    | none => (.unknown label, w)
  | .render parser text name label =>
    match w.layoutFor parser label with
    | .ok n => w.renderWith (Page.ofText text name) n
    | .error answer => (answer, w)

/-- The workbench after some steps, one after the other. -/
def run (w : Workbench) (steps : List Step) : Workbench := steps.foldl (fun w s => (w.step s).2) w

/-- The layouts under labels, in the order of the labels. -/
def labelled (w : Workbench) : List (Text × Layout) :=
  w.labels.map fun (label, n) => (label, w.layouts[n]?.getD .empty)

end Workbench

end Pageloom
