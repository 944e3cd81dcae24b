import Pageloom.Entries
import Pageloom.Yaml.Loader

/-!
# Front matter

A page may open with a header between two lines `---`. Each line of the header is empty, a comment,
or an entry: a name, a colon, and a value. What follows the closing line is the body. A page whose
first line is no delimiter has no header, and all of it is body.

A value between two equal quotes is read as a YAML document, and the text of what it stands for is
the value. Any other value is taken to the letter. The document is read by whatever loader there is.

## Main definitions

* `FrontMatter.isPresent`: whether a text opens with a header.
* `FrontMatter.split`: the entries and the body of a text.
* `FrontMatter.SyntaxError`: a line of a header that cannot be read, and why.
* `FrontMatter.Fault`: all that can go wrong, including values that are well formed and stand for
  nothing.
-/

namespace Pageloom.FrontMatter

/-- Why a line cannot be read. -/
inductive Reason where
  /-- The header has no closing line. -/
  | unclosed
  /-- The line is neither empty nor a comment nor an entry. -/
  | notEntry (line : Text)
  /-- The value is quoted and not well formed. -/
  | badQuotes (value : Text)
  /-- A reason in words of its own. -/
  | stated (words : Text)
deriving Repr, DecidableEq

/-- The wording of a reason. -/
def Reason.message : Reason → Text
  | .unclosed => "missing closing '---' delimiter"
  | .notEntry line => "expected 'key: value', got " ++ Text.quoted line
  | .badQuotes value => "invalid quoted value " ++ value
  | .stated words => words

/-- A header that cannot be read, with the number of the line to blame. -/
structure SyntaxError where
  line : Nat
  reason : Reason
deriving Repr, DecidableEq

/-- The wording of the error. -/
def SyntaxError.message (e : SyntaxError) : Text :=
  "Front matter error on line " ++ Text.ofNat e.line ++ ": " ++ e.reason.message

/-- What can go wrong in a header. -/
inductive Fault where
  | bad (e : SyntaxError)
  /-- A quoted value is well formed, and what it spells does not exist or cannot be written. -/
  | value (fault : Yaml.Fault)
deriving Repr, DecidableEq

/-! ### Lines -/

/-- Whether a line opens or closes a header: three dashes and nothing but blanks behind them. -/
def isDelimiter (line : Text) : Bool := Text.stripEnd line = "---".toList

/-- Whether a text opens with a header. -/
def isPresent (t : Text) : Bool := isDelimiter ((Text.lines t).headD [])

/-- Whether a value stands between two equal quotes. -/
def isQuoted (value : Text) : Bool :=
  match value with
  | q :: _ :: _ => (q = '"' || q = '\'') && value.getLast? = some q
  | _ => false

variable [Yaml.Loader]

/-- The text of a value: quotes are read, all else is taken to the letter. -/
def valueText (value : Text) (number : Nat) : Except Fault Text :=
  if isQuoted value then
    match Yaml.Loader.load value with
    | .ok .null => .ok []
    | .ok v => v.write.mapError fun fault => .value (.notInteger fault)
    | .error .malformed => .error (.bad ⟨number, .badQuotes value⟩)
    | .error fault => .error (.value fault)
  else .ok value

/-- What a line of a header holds. -/
inductive Line where
  | nothing
  | entry (name value : Text)
  | unknown (line : Text)
deriving Repr, DecidableEq

/-- The kind of a line. Blanks at its ends do not count; the name of an entry ends at the first
colon and is not empty. -/
def Line.ofText (line : Text) : Line :=
  let line := Text.strip line
  if line = [] || line.head? = some '#' then .nothing
  else
    match Text.cutWhere? (· = ':') line with
    | some (name, _, value) =>
      if name = [] then .unknown line else .entry (Text.stripEnd name) (Text.strip value)
    | none => .unknown line

/-! ### Headers -/

/-- Reads the lines of a header from the given number on, up to its closing line. The result is the
entries, set one after the other, and the lines behind the closing line. -/
def readFrom (entries : Entries) : (number : Nat) → List Text → Except Fault (Entries × List Text)
  | _, [] => .error (.bad ⟨1, .unclosed⟩)
  | number, line :: rest =>
    if isDelimiter line then .ok (entries, rest)
    else
      match Line.ofText line with
      | .nothing => readFrom entries (number + 1) rest
      | .unknown line => .error (.bad ⟨number, .notEntry line⟩)
      | .entry name value =>
        match valueText value number with
        | .ok value => readFrom (entries.put name value) (number + 1) rest
        | .error fault => .error fault

/-- The entries of a text's header, and its body. -/
def split (t : Text) : Except Fault (Entries × Text) :=
  if isPresent t then
    match readFrom [] 2 (Text.lines t).tail with
    | .ok (entries, body) => .ok (entries, Text.join "\n" body)
    | .error fault => .error fault
  else .ok ([], t)

end Pageloom.FrontMatter
