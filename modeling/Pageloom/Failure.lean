import Pageloom.FrontMatter
import Pageloom.Html.Minify
import Pageloom.Source

/-!
# Failures of a page

What can keep a page from being rendered: its source, its header, a filter, or a helper. Each
failure has a wording, and the name of its kind stands before the wording in the report of a build.

## Main definitions

* `Failure`, with `Failure.message` and `Failure.kind`.
* `Failure.detail`: the line of a build's report.
-/

namespace Pageloom

/-- Why a page is not rendered. -/
inductive Failure where
  | frontMatter (e : FrontMatter.SyntaxError)
  /-- A quoted value of the header stands for nothing. -/
  | value (fault : Yaml.Fault)
  | source (e : SourceError)
  | disk (fault : Disk.Fault)
  /-- A page with a file for its source was made without a path. -/
  | noPath
  /-- A filter gave no text, and the next step needs one. -/
  | noText
  | minify (e : Html.MinifyError)
  /-- A Markdown filter names a plugin that does not exist. -/
  | unknownPlugin
  /-- A helper was asked for a token that it does not have. -/
  | missing (token : Text)
  /-- A failure of somebody else's making, with the name of its kind. -/
  | stated (kind words : Text)
deriving Repr, DecidableEq

namespace Failure

/-- The failure of a source. -/
def ofSource : Source.Fault → Failure
  | .unreadable e => .source e
  | .impossible f => .disk f

/-- The failure of a header. -/
def ofFrontMatter : FrontMatter.Fault → Failure
  | .bad e => .frontMatter e
  | .value fault => .value fault

/-- The wording of a failure. -/
def message : Failure → Text
  | .frontMatter e => e.message
  | .value fault => fault.message
  | .source e => e.message
  | .disk fault => fault.message
  | .noPath => "A file-backed page needs a source path"
  | .noText => "expected string or bytes-like object, got 'NoneType'"
  | .minify e => e.message
  | .unknownPlugin => "not enough values to unpack (expected 2, got 1)"
  | .missing token => token.quoted
  | .stated _ words => words

/-- The name of the kind of a failure. -/
def kind : Failure → Text
  | .frontMatter _ => "FrontMatterSyntaxError"
  | .value fault => fault.kind
  | .source _ => "SourceNotFoundError"
  | .disk fault => fault.kind
  | .noPath => "ValueError"
  | .noText => "TypeError"
  | .minify (.noSuchElement _) => "IndexError"
  | .minify (.numberTooLong _) => "ValueError"
  | .unknownPlugin => "ValueError"
  | .missing _ => "KeyError"
  | .stated kind _ => kind

/-- What a build reports about a failure: for a header the line to blame, for a source the reason or
else the path, and for all else the kind and the wording. -/
def detail : Failure → Text
  | .frontMatter e =>
    "Front matter syntax error on line " ++ Text.ofNat e.line ++ ": " ++ e.reason.message
  | .source e => "Source not found: " ++ e.knownReason.getD e.path.print
  | f => f.kind ++ ": " ++ f.message

end Failure

end Pageloom
