import Pageloom.Failure

/-!
# Pages

A page has a body, a name, and the entries of its front matter. Its body is given as text or read
from a file once, when the page is made. The front matter stays in the body until it is asked for;
taking it out happens once for each body, and a body whose front matter cannot be read stays as it
is.

A page is a value: what was handed out of an earlier page does not change with a later one.

## Main definitions

* `Page.make`: a page from a text or a path; `Page.ofText`, `Page.ofFile`.
* `Page.name`: the given name, or else that of the front matter.
* `Page.setName`, `Page.setBody`, `Page.load`, `Page.extract`: the changes of a page.
-/

namespace Pageloom

/-- Whether the source of a page is its text or a path. -/
inductive SourceKind where
  | string
  | file
deriving Repr, DecidableEq

/-- What a page is made from. -/
inductive Source where
  | text (t : Text)
  | path (p : Path)
deriving Repr, DecidableEq

/-- The source as a text. -/
def Source.asText : Source → Text
  | .text t => t
  | .path p => p.print

/-- The source as a path. -/
def Source.asPath : Source → Path
  | .text t => .parse t
  | .path p => p

/-- A path is to be read, and anything else is text even if it looks like a path. -/
def Source.kind : Option Source → SourceKind
  | some (.path _) => .file
  | _ => .string

/-- A page. `path` is that of its file, if it has one, and `loaded` tells whether the file is read;
`extracted` tells whether the front matter is out of the body. -/
structure Page where
  kind : SourceKind
  path : Option Path
  explicitName : Option Text
  body : Text
  frontMatter : Entries
  loaded : Bool
  extracted : Bool
deriving Repr, DecidableEq

namespace Page

/-- The name that the page was given, or else the entry `name` of its front matter. -/
def name (p : Page) : Option Text :=
  match p.explicitName with
  | some n => some n
  | none => p.frontMatter.get? "name"

/-- The page with a name of its own, or without one. -/
def setName (name : Option Text) (p : Page) : Page := { p with explicitName := name }

/-- The page with another body. Its front matter is not read yet. -/
def setBody (body : Text) (p : Page) : Page :=
  { p with body, frontMatter := [], extracted := false, loaded := true }

/-- The page with its file read, if it has one that is not read yet. -/
def load (d : Disk) (p : Page) : Except Failure Page :=
  match p.loaded, p.path with
  | false, some path =>
    match Source.read .utf8Marked d path with
    | .ok body => .ok { p with body, loaded := true }
    | .error fault => .error (.ofSource fault)
  | _, _ => .ok p

/-- The page with its front matter taken out of its body, unless that is done. -/
def extract (p : Page) : Except Failure Page :=
  if p.extracted then .ok p
  else
    match FrontMatter.split p.body with
    | .ok (frontMatter, body) => .ok { p with frontMatter, body, extracted := true }
    | .error fault => .error (.ofFrontMatter fault)

/-- A page with a text for its body. -/
def ofText (body : Text) (name : Option Text) : Page :=
  { kind := .string, path := none, explicitName := name, body, frontMatter := [], loaded := true,
    extracted := false }

/-- A page whose body is read from a file. -/
def ofFile (d : Disk) (path : Path) (name : Option Text) : Except Failure Page :=
  load d { kind := .file, path, explicitName := name, body := [], frontMatter := [],
           loaded := false, extracted := false }

/-- A page from a source of the given kind. Without a kind, paths are read and all else is text;
without a source, the body is empty. -/
def make (d : Disk) (source : Option Source) (kind : Option SourceKind) (name : Option Text) :
    Except Failure Page :=
  match kind.getD (Source.kind source), source with
  | .file, none => .error .noPath
  | .file, some s => ofFile d s.asPath name
  | .string, none => .ok (ofText [] name)
  | .string, some s => .ok (ofText s.asText name)

/-- How a page shows in messages: by its path, or else by its name. -/
def quoted (p : Page) : Text :=
  match p.path with
  | some path => "Page(path=" ++ path.print.quoted ++ ")"
  | none => "Page(name=" ++ (p.name.map Text.quoted).getD "None" ++ ")"

end Page

end Pageloom
