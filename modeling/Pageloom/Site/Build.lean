import Pageloom.Site.Config
import Pageloom.Site.Plan
import Pageloom.Naming

/-!
# Building a site

A build has four steps, and each begins when the one before it has succeeded. The first reads the
configuration, finds the pages, and plans their files; it changes nothing. The second makes the
output directory, empty if it is to be cleaned. The third renders all pages; it changes nothing
either, and if pages fail the first of them in the order of the pages is reported. The fourth writes
the pages.

## Main definitions

* `Site.prepare`, `Site.openOutput`, `Site.renderAll`, `Site.writeAll`: the steps.
* `Site.build`: all of them.
* `Site.Report`, `Site.Fault`: what comes of a build.
-/

namespace Pageloom.Site

/-- Why a site is not built. -/
inductive Fault where
  | config (f : Config.Fault)
  /-- A setting that should be a path is no text. -/
  | notPath (setting : Value)
  | noContent (content : Path)
  | page (e : PageError)
  | notBelow (e : Path.NotBelow)
  /-- A setting that stands in the layout cannot be written. -/
  | setting (f : Integer.Fault)
  | disk (f : Disk.Fault)
deriving Repr

/-- The name of the kind of a value. -/
def kindOf : Value → Text
  | .null => "NoneType"
  | .bool _ => "bool"
  | .int _ => "int"
  | .float _ => "float"
  | .text _ => "str"
  | .bytes _ => "bytes"
  | .date _ => "datetime.date"
  | .dateTime _ => "datetime.datetime"
  | .list _ => "list"
  | .map _ => "dict"
  | .other kind _ _ => kind

/-- The wording of a fault. -/
def Fault.message : Fault → Text
  | .config f => f.message
  | .notPath v => "unsupported operand type(s) for /: 'PosixPath' and '" ++ kindOf v ++ "'"
  | .noContent content => "Expected content directory at " ++ content.print
  | .page e => e.message
  | .notBelow e => e.message
  | .setting f => f.message
  | .disk f => f.message

/-- The name of the kind of a fault. -/
def Fault.kind : Fault → Text
  | .config f => f.kind
  | .notPath _ => "TypeError"
  | .noContent _ => "FileNotFoundError"
  | .page _ => "BuildError"
  | .notBelow _ => "ValueError"
  | .setting _ => "ValueError"
  | .disk f => f.kind

/-! ### Preparing -/

/-- What a build is going to do: render each page with the layout, if there is one, and write it to
its file. -/
structure Job where
  output : Path
  pages : List Path
  targets : List Path
  layout : Except Integer.Fault Layout

/-- The path that a setting names, seen from the project. -/
def settingPath (root : Path) (c : Config) (name default : Text) : Except Fault Path :=
  match (Config.setting name c).getD (.text default) with
  | .text t => .ok (root.append (.parse t))
  | v => .error (.notPath v)

/-- The output directory: the one that is asked for, or else the configured one. -/
def outputPath (root : Path) (c : Config) (asked : Option Path) : Except Fault Path :=
  match asked with
  | some output => .ok output
  | none => settingPath root c "output_dir" "output"

/-- Reads the configuration of a project and plans its build. -/
def prepare (d : Disk) (root : Path) (asked : Option Path) : Except Fault Job := do
  let c ← (Config.load d root).mapError .config
  let content ← settingPath root c "content_dir" "content"
  let present ← (d.exists? content).mapError .disk
  if !present then
    throw (.noContent content)
  let output ← outputPath root c asked
  let pages ← (listing d content).mapError .disk
  match plan content output pages with
  | .ok targets => .ok ⟨output, pages, targets, Config.layout? c⟩
  | .error (.page e) => .error (.page e)
  | .error (.notBelow e) => .error (.notBelow e)

/-! ### The output directory -/

/-- Makes the output directory. To clean it, it is removed first. -/
def openOutput (clean : Bool) (output : Path) (d : Disk) : Except Disk.Fault Unit × Disk :=
  if clean then
    match d.exists? output with
    | .error f => (.error f, d)
    | .ok false => d.makeDirectories output
    | .ok true =>
      match d.removeTree output with
      | (.error f, d) => (.error f, d)
      | (.ok (), d) => d.makeDirectories output
  else d.makeDirectories output

/-! ### Rendering -/

/-- A page of the site, under the name of its file unless it has another one. -/
def readPage (d : Disk) (source : Path) : Except Failure Page := do
  let page ← Page.ofFile d source none
  let page ← page.extract
  match page.name with
  | some _ => .ok page
  | none => .ok (page.setName (some (Name.title source.name)))

/-- Renders one page. -/
def renderPage (d : Disk) (l : Layout) (source : Path) : Except PageError (Page × Rendered) :=
  match readPage d source with
  | .error f => .error ⟨source, .failed f⟩
  | .ok page =>
    let r := l.render d page
    match r.result with
    | .ok rendered => .ok (r.page, rendered)
    | .error f => .error ⟨source, .failed f⟩

/-- Renders all pages, up to the first that fails. -/
def renderAll (d : Disk) (l : Layout) : List Path → Except PageError (List (Page × Rendered))
  | [] => .ok []
  | source :: rest =>
    match renderPage d l source with
    | .error e => .error e
    | .ok page => (renderAll d l rest).map (page :: ·)

/-! ### Writing -/

/-- Writes one page, and makes the directory that it is in. -/
def writePage (target : Path) (html : Text) (d : Disk) : Except Disk.Fault Unit × Disk :=
  match d.makeDirectories target.parent with
  | (.error f, d) => (.error f, d)
  | (.ok (), d) =>
    match d.write target (Utf8.encode html) with
    | .error f => (.error f, d)
    | .ok d => (.ok (), d)

/-- Writes pages one after the other. -/
def writeAll : List (Path × Text) → Disk → Except Disk.Fault Unit × Disk
  | [], d => (.ok (), d)
  | (target, html) :: rest, d =>
    match writePage target html d with
    | (.error f, d) => (.error f, d)
    | (.ok (), d) => writeAll rest d

/-! ### Building -/

/-- What was built: the pages in order, and the files that they were written to. -/
structure Report where
  output : Path
  pages : List Page
  written : List Path
deriving Repr

/-- Does a job. -/
def run (clean : Bool) (job : Job) (d : Disk) : Except Fault Report × Disk :=
  match openOutput clean job.output d with
  | (.error f, d) => (.error (.disk f), d)
  | (.ok (), d) =>
    match job.layout with
    | .error f => (.error (.setting f), d)
    | .ok layout =>
      match renderAll d layout job.pages with
      | .error e => (.error (.page e), d)
      | .ok rendered =>
        match writeAll (job.targets.zip (rendered.map fun r => r.2.html)) d with
        | (.error f, d) => (.error (.disk f), d)
        | (.ok (), d) => (.ok ⟨job.output, rendered.map Prod.fst, job.targets⟩, d)

/-- Builds the site of the project in a directory. -/
def build (root : Path) (asked : Option Path) (clean : Bool) (d : Disk) :
    Except Fault Report × Disk :=
  match prepare d root asked with
  | .error f => (.error f, d)
  | .ok job => run clean job d

end Pageloom.Site
