import Pageloom.Layout
import Pageloom.Yaml.Loader

/-!
# Site configuration

The settings of a site stand in the file `folio.yaml` of its project. They are a map that overrides
the default settings name by name. Two settings are checked when the file is read: the number of
workers, and that the site's data has names.

## Main definitions

* `Config`, `Config.defaults`, `Config.setting`.
* `Config.ofValue`, `Config.load`: the settings that a document or the file of a project stands for.
* `Config.layout`: the layout for every page of the site; `Config.layout?` if there is one.
* `Config.Fault`: what keeps a configuration from being read.
-/

namespace Pageloom

/-- Settings with their names. Names that no setting has are kept. -/
abbrev Config := List (Value × Value)

/-- Why a file holds no configuration. -/
inductive Config.Reason where
  | notYaml
  | notMap
  | badWorkers (v : Value)
  | dataNotMap
deriving Repr

/-- The wording of a reason. -/
def Config.Reason.message : Config.Reason → Text
  | .notYaml => "not valid YAML (...)"
  | .notMap => "expected a mapping of settings"
  | .badWorkers v => "'workers' must be a positive integer, got " ++ v.quoted
  | .dataNotMap => "'data' must be a mapping"

/-- A file that holds no configuration. -/
structure ConfigError where
  path : Path
  reason : Config.Reason
deriving Repr

/-- The wording of the error. -/
def ConfigError.message (e : ConfigError) : Text :=
  "Invalid configuration in " ++ e.path.print ++ ": " ++ e.reason.message

namespace Config

/-- What keeps a configuration from being read. -/
inductive Fault where
  | invalid (e : ConfigError)
  /-- The document is well formed, and something that it spells does not exist or cannot be
  written. -/
  | value (fault : Yaml.Fault)
  | undecodable (report : Text)
  | disk (f : Disk.Fault)
deriving Repr

/-- The wording of a fault. -/
def Fault.message : Fault → Text
  | .invalid e => e.message
  | .value fault => fault.message
  | .undecodable report => report
  | .disk f => f.message

/-- The name of the kind of a fault. -/
def Fault.kind : Fault → Text
  | .invalid _ => "ConfigError"
  | .value fault => fault.kind
  | .undecodable _ => "UnicodeDecodeError"
  | .disk f => f.kind

/-! ### Settings -/

/-- The name of the configuration file of a project. -/
def fileName : Text := "folio.yaml"

/-- How many pages are rendered at a time unless a number is set. -/
def defaultWorkers : Value := .int 4

/-- The default settings. -/
def defaults : Config :=
  [("content_dir", "content"),
   ("output_dir", "output"),
   ("base_url", ""),
   ("markdown", .bool true),
   ("minify", .bool false),
   ("workers", defaultWorkers),
   ("data", .map [])]

/-- The value of a setting. -/
def setting (name : Text) (c : Config) : Option Value := Value.get? (.text name) c

/-- The number of workers that a setting stands for: a positive integer, or the default for null. -/
def workers? : Value → Option Value
  | .null => some defaultWorkers
  | .int n => if 1 ≤ n then some (.int n) else none
  | _ => none

/-- Whether a setting may be the site's data: it is a map, or it counts as not set. -/
def isData : Value → Bool
  | .map _ => true
  | v => !v.isTrue

/-- The settings of a document: the defaults for an empty one, and else the defaults overridden by
its entries. -/
def ofValue : Value → Except Reason Config
  | .null => .ok defaults
  | .map entries =>
    let c := Value.putAll defaults entries
    let workers := (setting "workers" c).getD .null
    match workers? workers with
    | none => .error (.badWorkers workers)
    | some n =>
      if isData ((setting "data" c).getD .null) then .ok (Value.put "workers" n c)
      else .error .dataNotMap
  | _ => .error .notMap

/-- The fault for a reason. The wording of a bad setting shows it, so it has to be written. -/
def Fault.ofReason (path : Path) : Reason → Fault
  | .badWorkers v =>
    if v.isWritable then .invalid ⟨path, .badWorkers v⟩ else .value (.notInteger .unwritable)
  | reason => .invalid ⟨path, reason⟩

/-- The settings of a text, which is read by whatever loader there is. -/
def ofText [Yaml.Loader] (path : Path) (t : Text) : Except Fault Config :=
  match Yaml.Loader.load t with
  | .error .malformed => .error (.invalid ⟨path, .notYaml⟩)
  | .error fault => .error (.value fault)
  | .ok v => (ofValue v).mapError (Fault.ofReason path)

/-- The settings of the project in a directory: the defaults if it has no configuration file. -/
def load [Yaml.Loader] (d : Disk) (root : Path) : Except Fault Config :=
  let path := root.append (Path.parse fileName)
  match d.exists? path with
  | .error f => .error (.disk f)
  | .ok false => .ok defaults
  | .ok true =>
    match d.read path with
    | .error f => .error (.disk f)
    | .ok bytes =>
      match Encoding.utf8.decode bytes with
      | .error report => .error (.undecodable report)
      | .ok t => ofText path (Text.unifyBreaks t)

/-! ### The layout of a site -/

/-- The base address of a site, empty unless it is set. -/
def baseUrl (c : Config) : Text :=
  match setting "base_url" c with
  | some v => if v.isTrue then v.toText else []
  | none => []

/-- The filters of a site: Markdown unless it is switched off, absolute addresses if there is a base
address, and minifying if it is switched on. -/
def filters (c : Config) : List Filter :=
  (if ((setting "markdown" c).getD (.bool true)).isTrue then [Filter.plainMarkdown] else []) ++
  (if baseUrl c = [] then [] else [Filter.absolute (baseUrl c)]) ++
  (if ((setting "minify" c).getD .null).isTrue then [Filter.minify] else [])

/-- The helpers of a site: front matter, the site's data if there is any, and the base address. -/
def helpers (c : Config) : List Helper :=
  let data :=
    match setting "data" c with
    | some (.map (e :: es)) => [Helper.ofValues (e :: es)]
    | _ => []
  [.frontMatter] ++ data ++ [Helper.ofBaseUrl (baseUrl c)]

/-- The layout of a site. Nothing can be added to it. -/
def layout (c : Config) : Layout := ⟨filters c, helpers c, true⟩

/-- Whether the texts in the layout of a site can be written: the base address if it is set, and the
names and values of the site's data. -/
def isWritable (c : Config) : Bool :=
  let base := (setting "base_url" c).getD .null
  let data :=
    match setting "data" c with
    | some (.map entries) => Value.areEntriesWritable entries
    | _ => true
  (!base.isTrue || base.isWritable) && data

/-- The layout of a site whose settings can be written. -/
def layout? (c : Config) : Except Integer.Fault Layout :=
  if isWritable c then .ok (layout c) else .error .unwritable

end Config

end Pageloom
