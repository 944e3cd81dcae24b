import Pageloom.Layout

/-!
# A page in use

A page that is changed step by step, beside a disk that anybody changes at any time. Its front
matter is handed out as a view, which shows entries and does not let them be set.

A page gets new entries when its front matter is taken out or its body is replaced. They are put
behind the entries that it had before, which stay as they are, and a view is the number of the
entries that it shows. So a view that was handed out early goes on showing what it showed then.

## Main definitions

* `Desk`: a page, its disk, and all entries that it has had.
* `Desk.Step`, `Desk.step`: what can be done, and what comes of it; `Desk.run` for several steps.
-/

namespace Pageloom

/-- A page in use. The last of the front matters is that of the page now. -/
structure Desk where
  disk : Disk
  page : Page
  frontMatters : List Entries
deriving Repr

namespace Desk

/-- A page that nothing was done with yet. -/
def ofPage (disk : Disk) (page : Page) : Desk := ⟨disk, page, [page.frontMatter]⟩

/-- What can be done. -/
inductive Step where
  | setName (name : Option Text)
  | setBody (body : Text)
  | load
  | extract
  /-- Renders the page with a layout. -/
  | render (l : Layout)
  /-- Hands out a view of the front matter. -/
  | view
  /-- Reads the view of the given number. -/
  | read (view : Nat)
  /-- Sets an entry through a view. -/
  | assign (view : Nat) (name value : Text)
  /-- Puts another disk in place of the one there is. -/
  | changeDisk (disk : Disk)

/-- What comes of a step. -/
inductive Answer where
  | done
  | failed (f : Failure)
  | rendered (r : Except Failure Rendered)
  | handedOut (view : Nat)
  | shown (entries : Option Entries)
  /-- A view sets no entries. -/
  | readOnly

/-- The number of the entries that the page has now. -/
def newest (s : Desk) : Nat := s.frontMatters.length - 1

/-- The desk with the page as an operation on it has left it. If its front matter was taken out by
the operation, its entries are new. -/
def update (s : Desk) (page : Page) : Desk :=
  if page.extracted && !s.page.extracted then
    { s with page, frontMatters := s.frontMatters ++ [page.frontMatter] }
  else { s with page }

/-- Does one step. -/
def step (s : Desk) : Step → Answer × Desk
  | .setName name => (.done, { s with page := s.page.setName name })
  | .setBody body =>
    (.done, { s with page := s.page.setBody body, frontMatters := s.frontMatters ++ [[]] })
  | .load =>
    match s.page.load s.disk with
    | .ok page => (.done, s.update page)
    | .error f => (.failed f, s)
  | .extract =>
    match s.page.extract with
    | .ok page => (.handedOut (s.update page).newest, s.update page)
    | .error f => (.failed f, s)
  | .render l =>
    let r := l.render s.disk s.page
    (.rendered r.result, s.update r.page)
  | .view => (.handedOut s.newest, s)
  | .read view => (.shown s.frontMatters[view]?, s)
  | .assign _ _ _ => (.readOnly, s)
  | .changeDisk disk => (.done, { s with disk })

/-- The desk after some steps, one after the other. -/
def run (s : Desk) (steps : List Step) : Desk := steps.foldl (fun s a => (s.step a).2) s

end Desk

end Pageloom
