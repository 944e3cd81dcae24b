import Pageloom.Disk
import Pageloom.Failure
import Pageloom.Text.Case

/-!
# The plan of a site

Which files are pages, and which file each page is written to. A page is a Markdown file with no
underscore at the start of its name or of a directory on the way to it. A page `index` is written to
`index.html` in its own directory, and any other page to `index.html` in a directory of its name.
Two pages for one file are an error.

## Main definitions

* `Site.isMarkdown`, `Site.isInternal`, `Site.pages`: the pages of a directory, in order.
* `Site.listing`: the pages, unless a path is too long for the disk.
* `Site.target`: the file that a page is written to.
* `Site.plan`: the files of all pages, or the first page whose file is taken.
* `PageError`: a page that keeps its site from being built.
-/

namespace Pageloom

/-- What is wrong with a page of a site. -/
inductive PageError.Cause where
  | failed (f : Failure)
  /-- The file of the page is also the file of another page. Both are given as they are seen from
  the directories they are in. -/
  | taken (target other : Path)
deriving Repr, DecidableEq

/-- A page that keeps its site from being built. -/
structure PageError where
  source : Path
  cause : PageError.Cause
deriving Repr, DecidableEq

namespace PageError

/-- What is wrong. -/
def detail (e : PageError) : Text :=
  match e.cause with
  | .failed f => f.detail
  | .taken target other => "Output " ++ target.print ++ " is also written by " ++ other.print

/-- The wording of the error. -/
def message (e : PageError) : Text := e.source.print ++ ": " ++ e.detail

end PageError

namespace Site

/-! ### Pages -/

/-- Whether a path names a Markdown file. -/
def isMarkdown (p : Path) : Bool := Text.lower p.suffix = ".md".toList

/-- Whether a component of a path begins with an underscore. -/
def isInternal (p : Path) : Bool := p.parts.any fun part => part.head? = some '_'

/-- The list with `p` before the first path that `p` comes before. -/
def insert (p : Path) : List Path → List Path
  | [] => [p]
  | q :: qs => if p.before q then p :: q :: qs else q :: insert p qs

/-- The paths in order. -/
def sort (ps : List Path) : List Path := ps.foldr insert []

/-- Whether the path of something below a directory is that of a page. -/
def isPage (content p : Path) : Bool :=
  isMarkdown p &&
    match p.relativeTo content with
    | .ok rest => !isInternal rest
    | .error _ => false

/-- The paths of everything below a directory that is no directory itself. -/
def filesBelow (d : Disk) (content : Path) : List Path :=
  ((d.under content).filter fun (_, e) => e ≠ .directory).map Prod.fst

/-- The pages below a directory, in order. -/
def pages (d : Disk) (content : Path) : List Path :=
  (sort (filesBelow d content)).filter (isPage content)

/-- The first path below a directory that is too long to be followed. -/
def longPath? (d : Disk) (content : Path) : Option Path :=
  (sort ((d.under content).map Prod.fst)).find? Disk.isLongPath

/-- The pages below a directory. They cannot be listed if a path below it is too long, be it that of
a page or not. -/
def listing (d : Disk) (content : Path) : Except Disk.Fault (List Path) :=
  match longPath? d content with
  | some p => .error ⟨.nameTooLong, p⟩
  | none => .ok (pages d content)

/-! ### Files -/

/-- The file that a page is written to. -/
def target (content output page : Path) : Except Path.NotBelow Path :=
  match page.relativeTo content with
  | .error e => .error e
  | .ok rest =>
    let directory := output.append rest.parent
    let directory :=
      if rest.stem = "index".toList then directory else directory.append (.parse rest.stem)
    .ok (directory.append "index.html")

/-- Why there is no plan. -/
inductive PlanFault where
  | page (e : PageError)
  | notBelow (e : Path.NotBelow)
deriving Repr, DecidableEq

/-- The error of a page whose file is taken by another one. -/
def takenBy (content output page target other : Path) : PlanFault :=
  match target.relativeTo output, other.relativeTo content with
  | .ok target, .ok other => .page ⟨page, .taken target other⟩
  | .error e, _ => .notBelow e
  | _, .error e => .notBelow e

/-- The files of pages, given the files that are taken with the pages that take them. -/
def planFrom (content output : Path) :
    (taken : List (Path × Path)) → List Path → Except PlanFault (List Path)
  | _, [] => .ok []
  | taken, page :: rest =>
    match target content output page with
    | .error e => .error (.notBelow e)
    | .ok t =>
      match taken.lookup t with
      | some other => .error (takenBy content output page t other)
      | none => (planFrom content output ((t, page) :: taken) rest).map (t :: ·)

/-- The files of pages, one for each. -/
def plan (content output : Path) (pages : List Path) : Except PlanFault (List Path) :=
  planFrom content output [] pages

end Site

end Pageloom
